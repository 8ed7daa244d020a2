import Mathlib.Algebra.Group.Int.Defs
import Strongbox.Proofs.Token.Form
import Strongbox.Proofs.Token.Keys

/-!
# Tokens that are accepted

A token is accepted only if its last part is the authentication code of the text before it, and that text alone says
for whom it is.
-/

namespace Strongbox

namespace Token

def IsKey (secret : Text) (key : Bytes) : Prop :=
  ∃ values v, candidates secret = .ok values ∧ v ∈ values ∧ keyOfJson v = .ok key

def IsObject (bytes : Bytes) (members : ClaimSet) : Prop :=
  ∃ t, Utf8.decode? bytes = some t ∧ Json.parse .lenient t = .ok (.object members)

def ReadsAs (part : Text) (members : ClaimSet) : Prop :=
  ∃ bytes t, Base64.decodeUrl? part = some bytes ∧ Utf8.decode? bytes = some t ∧
    Json.parse .lenient t = .ok (.object members)

/-- The claims that a token is accepted with at some time, and its user. -/
structure Entitles (issuer : Text) (now : Int) (claims : ClaimSet) (userId : Int) : Prop where
  issuer : claim? "iss" claims = some (.text issuer)
  noAudience : claim? "aud" claims = none
  unbound : claim? "at_hash" claims = none
  unexpired : ∃ v stop, claim? "exp" claims = some v ∧ claimInt v = .ok stop ∧ now / 1000000 ≤ stop
  begun : ∀ v, claim? "nbf" claims = some v → ∃ start, claimInt v = .ok start ∧ start ≤ now / 1000000
  subject : ∃ t : Text, claim? "sub" claims = some (.text t) ∧ t.readInteger? = some userId
  range : 1 ≤ userId ∧ userId < 2 ^ 63

variable {s : Settings} {a : Algorithm} {claims : ClaimSet} {r : Rules} {userId : Int}

theorem decodeUrl?_of_ok {part : Text} {bytes : Bytes} (h : bytesOf part = .ok bytes) :
    Base64.decodeUrl? part = some bytes := by
  unfold bytesOf at h
  split at h
  · rename_i data hdata
    cases h
    exact hdata
  · cases h

theorem membersOf_ok {bytes : Bytes} {members : ClaimSet} : membersOf bytes = .ok members ↔ IsObject bytes members := by
  constructor
  · intro h
    unfold membersOf at h
    split at h
    · cases h
    rename_i t ht
    split at h
    · rename_i found hp
      cases h
      exact ⟨t, ht, hp⟩
    · cases h
    · cases h
  · rintro ⟨t, ht, hp⟩
    simp only [membersOf, ht, hp]

theorem readsAs_of_ok {part : Text} {bytes : Bytes} {members : ClaimSet} (hb : bytesOf part = .ok bytes)
    (hm : membersOf bytes = .ok members) : ReadsAs part members := by
  obtain ⟨t, ht, hp⟩ := membersOf_ok.mp hm
  exact ⟨bytes, t, decodeUrl?_of_ok hb, ht, hp⟩

theorem checkAlgorithm_ok {header : ClaimSet} (h : checkAlgorithm s header = .ok ()) :
    claim? "alg" header = some (.text s.algorithm) := by
  unfold checkAlgorithm at h
  split at h
  · rename_i name hname
    split at h
    · rename_i hn
      rw [hname, hn.2]
    · cases h
  · cases h

theorem checkAlgorithm_of_name {header : ClaimSet} (known : Algorithm.ofName? s.algorithm = some a)
    (h : claim? "alg" header = some (.text s.algorithm)) : checkAlgorithm s header = .ok () := by
  have filled : s.algorithm ≠ [] := by
    rw [← Algorithm.name_of_ofName? known]
    exact a.name_filled
  simp only [checkAlgorithm, h]
  exact if_pos ⟨filled, trivial⟩

theorem checkSignature_ok {signed signature : Bytes} (h : checkSignature s signed signature = .ok ()) :
    ∃ a key, Algorithm.ofName? s.algorithm = some a ∧ IsKey s.secretKey key ∧ signature = a.code key signed := by
  obtain ⟨a, known, values, hvalues, before, v, after, key, split, _, hkey, same⟩ := checkSignature_ok_iff.mp h
  have hv : v ∈ values := by
    rw [split]
    simp
  exact ⟨a, key, known, ⟨values, v, hvalues, hv, hkey⟩, (beq_iff_eq.mp same).symm⟩

theorem second_eq (now : Int) :
    Clock.second now = if Timestamp.isDated now = false then Outcome.fail .overflow else .ok (now / 1000000) := by
  unfold Clock.second Clock.read
  cases Timestamp.isDated now with
  | true => rfl
  | false => rfl

theorem second_ok {now second : Int} (h : Clock.second now = .ok second) : second = now / 1000000 := by
  rw [second_eq] at h
  split at h
  · cases h
  · cases h
    rfl

/-- A time in a claim is compared with the current second. -/
theorem compared_ok {v : Json} {now : Int} {e : Failure} {p : Int → Int → Prop} [∀ m n, Decidable (p m n)]
    (h : (do let time ← claimInt v
             let second ← Clock.second now
             if p time second then .error e else .ok () : Outcome Unit) = .ok ()) :
    ∃ time, claimInt v = .ok time ∧ ¬ p time (now / 1000000) := by
  obtain ⟨time, htime, h⟩ := bind_eq_ok.mp h
  obtain ⟨second, hsecond, h⟩ := bind_eq_ok.mp h
  by_cases refused : p time second
  · rw [if_pos refused] at h
    cases h
  · rw [second_ok hsecond] at refused
    exact ⟨time, htime, refused⟩

theorem checkNotBefore_ok (h : checkNotBefore r claims = .ok ()) {v : Json} (hv : claim? "nbf" claims = some v) :
    ∃ start, claimInt v = .ok start ∧ start ≤ r.now / 1000000 := by
  unfold checkNotBefore at h
  rw [hv] at h
  obtain ⟨start, hstart, late⟩ := compared_ok (p := fun start second => start > second) h
  exact ⟨start, hstart, Int.not_lt.mp late⟩

theorem checkExpiry_ok (h : checkExpiry r claims = .ok ()) {v : Json} (hv : claim? "exp" claims = some v) :
    ∃ stop, claimInt v = .ok stop ∧ r.now / 1000000 ≤ stop := by
  unfold checkExpiry at h
  rw [hv] at h
  obtain ⟨stop, hstop, early⟩ := compared_ok (p := fun stop second => stop < second) h
  exact ⟨stop, hstop, Int.not_lt.mp early⟩

theorem none_of_ok {o : Option Json}
    (h : (match o with | none => .ok () | some _ => refuse : Outcome Unit) = .ok ()) : o = none := by
  cases o with
  | none => rfl
  | some v => cases h

theorem checkIssuer_ok (h : checkIssuer r claims = .ok ()) : claim? "iss" claims = some (.text r.issuer) := by
  unfold checkIssuer at h
  split at h
  · rename_i t ht
    split at h
    · rename_i same
      rw [ht, same]
    · cases h
  · cases h

theorem present_of_ok (h : checkPresent claims = .ok ()) {name : String} (hn : name ∈ ["exp", "iss", "sub"]) :
    ∃ v, claim? name claims = some v := by
  unfold checkPresent at h
  split at h
  · rename_i all
    exact Option.isSome_iff_exists.mp (List.all_eq_true.mp all name hn)
  · cases h

/-- The subject that the check of the claims finds is the text of the claim. -/
theorem subject_of_check {checked : Claims} {t : Text} (h : Claims.check (.object claims) = .ok checked)
    (ht : checked.subject = some t) : claim? "sub" claims = some (.text t) := by
  obtain ⟨_, _, issued, _, rfl⟩ := Schema.Checked.ap_eq_ok.mp h
  obtain ⟨_, _, issuer, _, rfl⟩ := Schema.Checked.ap_eq_ok.mp issued
  obtain ⟨_, _, made, _, rfl⟩ := Schema.Checked.ap_eq_ok.mp issuer
  obtain ⟨subject, field, rfl⟩ := map_eq_ok.mp made
  cases ht
  unfold Schema.field at field
  split at field
  · rename_i v hv
    have found := mapError_eq_ok.mp field
    cases v with
    | text u =>
      cases found
      exact hv
    | _ => cases found
  · cases field

theorem userOf_ok (h : userOf claims = .ok userId) :
    (∃ t : Text, claim? "sub" claims = some (.text t) ∧ t.readInteger? = some userId) ∧
      1 ≤ userId ∧ userId < 2 ^ 63 := by
  unfold userOf at h
  split at h
  · cases h
  rename_i checked hchecked
  split at h
  · cases h
  rename_i n hn
  by_cases range : isUserId n = true
  · rw [if_pos range] at h
    cases h
    obtain ⟨t, ht, read⟩ := Option.bind_eq_some_iff.mp hn
    simp only [isUserId, Bool.and_eq_true, decide_eq_true_eq] at range
    refine ⟨⟨t, subject_of_check hchecked ht, read⟩, ?_, ?_⟩
    · omega
    · omega
  · rw [if_neg range] at h
    cases h

theorem entitles_of_ok (hc : checkClaims r claims = .ok ()) (hu : userOf claims = .ok userId) :
    Entitles r.issuer r.now claims userId := by
  obtain ⟨_, present, hc⟩ := bind_eq_ok.mp hc
  obtain ⟨_, issuedAt, hc⟩ := bind_eq_ok.mp hc
  obtain ⟨_, notBefore, hc⟩ := bind_eq_ok.mp hc
  obtain ⟨_, expiry, hc⟩ := bind_eq_ok.mp hc
  obtain ⟨_, audience, hc⟩ := bind_eq_ok.mp hc
  obtain ⟨_, issuer, hc⟩ := bind_eq_ok.mp hc
  obtain ⟨_, subject, hc⟩ := bind_eq_ok.mp hc
  obtain ⟨_, jti, unbound⟩ := bind_eq_ok.mp hc
  obtain ⟨subject, range⟩ := userOf_ok hu
  obtain ⟨v, hv⟩ := present_of_ok present (by simp : "exp" ∈ ["exp", "iss", "sub"])
  obtain ⟨stop, hstop, later⟩ := checkExpiry_ok expiry hv
  constructor
  · exact checkIssuer_ok issuer
  · exact none_of_ok audience
  · exact none_of_ok unbound
  · exact ⟨v, stop, hv, hstop, later⟩
  · intro v hv
    exact checkNotBefore_ok notBefore hv
  · exact subject
  · exact range

/-- The text after the last point is the authentication code, under one of the keys, of the text before it. -/
def Signs (a : Algorithm) (secret before after : Text) : Prop :=
  ∃ key signed tail, IsKey secret key ∧ Utf8.encode? before = some signed ∧ Utf8.encode? after = some tail ∧
    Base64.decodeUrl? (Compact.widen tail) = some (a.code key signed)

def Carries (before : Text) (header claims : ClaimSet) : Prop :=
  ∃ signed first second, Utf8.encode? before = some signed ∧
    Text.cutFirst? 46 (Compact.widen signed) = some (first, second) ∧ ReadsAs first header ∧ ReadsAs second claims

theorem ReadsAs.unique {part : Text} {members members' : ClaimSet} (h : ReadsAs part members)
    (h' : ReadsAs part members') : members = members' := by
  obtain ⟨bytes, t, hb, ht, hp⟩ := h
  obtain ⟨bytes', t', hb', ht', hp'⟩ := h'
  rw [hb] at hb'
  cases hb'
  rw [ht] at ht'
  cases ht'
  rw [hp] at hp'
  cases hp'
  rfl

theorem Carries.unique {before : Text} {header header' claims claims' : ClaimSet} (h : Carries before header claims)
    (h' : Carries before header' claims') : claims = claims' := by
  obtain ⟨signed, first, second, hs, hcut, _, hclaims⟩ := h
  obtain ⟨signed', first', second', hs', hcut', _, hclaims'⟩ := h'
  rw [hs] at hs'
  cases hs'
  rw [hcut] at hcut'
  cases hcut'
  exact hclaims.unique hclaims'

/-- What an accepted token is: signed over its own text, under the configured algorithm, with claims that entitle
its user. -/
structure Genuine (s : Settings) (now : Int) (before after : Text) (userId : Int) : Prop where
  signed : ∃ a, Algorithm.ofName? s.algorithm = some a ∧ Signs a s.secretKey before after
  carries : ∃ header claims, Carries before header claims ∧ claim? "alg" header = some (.text s.algorithm) ∧
    Entitles s.tokenIssuer now claims userId

theorem genuine_of_verify {now : Int} {text : Text} (h : verify s now text = .ok userId) :
    ∃ before after, text = before ++ 46 :: after ∧ 46 ∉ after ∧ Genuine s now before after userId := by
  unfold verify at h
  split at h
  · cases h
  rename_i bytes hbytes
  split at h
  · cases h
  rename_i token htoken
  obtain ⟨before, after, cut⟩ := Compact.cut_of_ofBytes? hbytes htoken
  -- the stages in their order: the header is read before the other parts are decoded
  obtain ⟨tail, htail, hsignature⟩ := cut.signature
  obtain ⟨headerBytes, hheaderBytes, h⟩ := bind_eq_ok.mp h
  obtain ⟨header, hheader, h⟩ := bind_eq_ok.mp h
  obtain ⟨payload, hpayload, h⟩ := bind_eq_ok.mp h
  obtain ⟨signature, hdecoded, h⟩ := bind_eq_ok.mp h
  obtain ⟨_, halgorithm, h⟩ := bind_eq_ok.mp h
  obtain ⟨_, hchecked, h⟩ := bind_eq_ok.mp h
  obtain ⟨claims, hclaims, h⟩ := bind_eq_ok.mp h
  obtain ⟨_, hentitled, huser⟩ := bind_eq_ok.mp h
  obtain ⟨a, key, known, hkey, rfl⟩ := checkSignature_ok hchecked
  refine ⟨before, after, cut.whole, cut.last, ?_, ?_⟩
  · rw [hsignature] at hdecoded
    exact ⟨a, known, key, token.signed, tail, hkey, cut.signed, htail, decodeUrl?_of_ok hdecoded⟩
  · exact ⟨header, claims, ⟨token.signed, token.header, token.payload, cut.signed, cut.parts,
      readsAs_of_ok hheaderBytes hheader, readsAs_of_ok hpayload hclaims⟩, checkAlgorithm_ok halgorithm,
      entitles_of_ok hentitled huser⟩

/-- The text before the last point decides for whom a token is. -/
theorem Genuine.user_unique {s s' : Settings} {now now' : Int} {before after after' : Text} {userId userId' : Int}
    (h : Genuine s now before after userId) (h' : Genuine s' now' before after' userId') : userId = userId' := by
  obtain ⟨_, claims, carries, _, entitled⟩ := h.carries
  obtain ⟨_, claims', carries', _, entitled'⟩ := h'.carries
  have same := carries.unique carries'
  subst same
  obtain ⟨t, ht, read⟩ := entitled.subject
  obtain ⟨t', ht', read'⟩ := entitled'.subject
  rw [ht] at ht'
  cases ht'
  rw [read] at read'
  exact Option.some.inj read'

/-- A token is accepted only if it is signed over its own text. Two accepted tokens with the same text before the
last point are for the same user, whatever was accepted when. -/
theorem accepted_tokens_are_signed {s : Settings} {now : Int} {text : Text} {userId : Int}
    (algorithm : s.algorithm = Text.ofString "HS256") (h : verify s now text = .ok userId) :
    ∃ before after, text = before ++ 46 :: after ∧ 46 ∉ after ∧ Signs .hs256 s.secretKey before after ∧
      (∃ header claims, Carries before header claims ∧
        claim? "alg" header = some (.text (Text.ofString "HS256")) ∧ Entitles s.tokenIssuer now claims userId) ∧
      ∀ {s' : Settings} {now' : Int} {after' : Text} {userId' : Int}, 46 ∉ after' →
        verify s' now' (before ++ 46 :: after') = .ok userId' → userId' = userId := by
  obtain ⟨before, after, whole, last, genuine⟩ := genuine_of_verify h
  refine ⟨before, after, whole, last, ?_, ?_, ?_⟩
  · obtain ⟨a, known, signed⟩ := genuine.signed
    rw [algorithm] at known
    cases (Algorithm.ofName?_name .hs256).symm.trans known
    exact signed
  · rw [← algorithm]
    exact genuine.carries
  · intro s' now' after' userId' last' h'
    obtain ⟨before', after'', whole', last'', genuine'⟩ := genuine_of_verify h'
    -- a text has one last point, so both tokens carry the same claims
    have cut := Text.cutLast?_append before last'
    rw [whole', Text.cutLast?_append before' last''] at cut
    cases cut
    exact genuine'.user_unique genuine

def sampleSettings : Settings := { secretKey := Text.ofString "k" }

def sampleToken : Text :=
  Text.ofString <| "eyJhbGciOiJIUzI1NiIsInR5cCI6IkpXVCJ9" ++
    ".eyJpc3MiOiJwYXNzdmF1bHQiLCJzdWIiOiIxIiwiaWF0IjowLCJleHAiOjM2MDB9" ++
    ".DhbHXfIPkyOIhAX22vKPhoEvhy9CtrAFxnnhvsHxC68"

theorem sample_token_is_signed : verify sampleSettings 5 sampleToken = .ok 1 ∧
    ∃ before after, sampleToken = before ++ 46 :: after ∧ Signs .hs256 sampleSettings.secretKey before after := by
  have accepted : verify sampleSettings 5 sampleToken = .ok 1 := by decide +kernel
  obtain ⟨before, after, whole, _, signed, _⟩ := accepted_tokens_are_signed rfl accepted
  exact ⟨accepted, before, after, whole, signed⟩

end Token

end Strongbox
