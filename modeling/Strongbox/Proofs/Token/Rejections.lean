import Strongbox.Proofs.Token.Lifetime
import Strongbox.Proofs.Token.Opening

/-!
# Why a token is refused

The claims of a token that was opened are judged one after the other. Everything that is checked before the expiry
decides whether the token counts as expired, and nothing after it does. Times that are no numbers are faults.
-/

namespace Strongbox.Token

variable {s : Settings} {a : Algorithm} {now userId : Int} {text : Text} {claims : ClaimSet} {f : Fault} {e : Failure}

inductive NoTime : Json → Fault → Prop where
  | null : NoTime .null .badType
  | array (items : List Json) : NoTime (.array items) .badType
  | object (members : List (Text × Json)) : NoTime (.object members) .badType
  | infinite (negative : Bool) : NoTime (.real (.infinite negative)) .overflow

theorem NoTime.claimInt_eq {v : Json} (h : NoTime v f) : claimInt v = Outcome.fail f := by
  cases h <;> rfl

theorem claimInt_error {v : Json} (h : claimInt v = .error e) :
    e = .vault (.rejected .invalidToken) ∨ ∃ f, e = .fault f ∧ NoTime v f := by
  cases v with
  | int n => cases h
  | bool b => cases h
  | null =>
    cases h
    exact .inr ⟨_, rfl, .null⟩
  | array items =>
    cases h
    exact .inr ⟨_, rfl, .array items⟩
  | object members =>
    cases h
    exact .inr ⟨_, rfl, .object members⟩
  | text t =>
    simp only [claimInt] at h
    split at h
    · cases h
    · cases h
      exact .inl rfl
  | real x =>
    cases x with
    | nan =>
      cases h
      exact .inl rfl
    | infinite negative =>
      cases h
      exact .inr ⟨_, rfl, .infinite negative⟩
    | finite negative m e =>
      simp only [claimInt] at h
      split at h
      · cases h
      · cases h
        exact .inl rfl

def judged (r : Rules) (claims : ClaimSet) : Outcome Int := do
  checkClaims r claims
  userOf claims

theorem verify_eq (s : Settings) (now : Int) (text : Text) :
    verify s now text = opened s text >>= judged ⟨s.tokenIssuer, now⟩ := by
  unfold verify opened
  cases Utf8.encode? text with
  | none => rfl
  | some bytes =>
    dsimp only
    cases Compact.ofBytes? bytes with
    | none => rfl
    | some token =>
      simp only [bind_assoc]
      rfl

def IsComplete (claims : ClaimSet) : Prop := ∀ name ∈ ["exp", "iss", "sub"], ∃ v, claim? name claims = some v

def IsIssued (claims : ClaimSet) : Prop := ∀ v, claim? "iat" claims = some v → ∃ n, claimInt v = .ok n

def HasStarted (now : Int) (claims : ClaimSet) : Prop :=
  ∀ v, claim? "nbf" claims = some v → ∃ start, claimInt v = .ok start ∧ start ≤ now / 1000000

structure Begun (now : Int) (claims : ClaimSet) : Prop where
  complete : IsComplete claims
  issued : IsIssued claims
  started : HasStarted now claims

def ExpiresAt (claims : ClaimSet) (stop : Int) : Prop := ∃ v, claim? "exp" claims = some v ∧ claimInt v = .ok stop

structure Admits (issuer : Text) (claims : ClaimSet) (userId : Int) : Prop where
  issuer : claim? "iss" claims = some (.text issuer)
  noAudience : claim? "aud" claims = none
  unbound : claim? "at_hash" claims = none
  identifier : ∀ v, claim? "jti" claims = some v → ∃ t, v = .text t
  user : ∃ checked, Claims.check (.object claims) = .ok checked ∧ checked.subject.bind Text.readInteger? = some userId
  range : 1 ≤ userId ∧ userId < 2 ^ 63

inductive Untimed (now : Int) (claims : ClaimSet) : Fault → Prop where
  | issue {v : Json} {f : Fault} (complete : IsComplete claims) (h : claim? "iat" claims = some v) (no : NoTime v f) :
      Untimed now claims f
  | start {v : Json} {f : Fault} (complete : IsComplete claims) (issued : IsIssued claims)
      (h : claim? "nbf" claims = some v) (no : NoTime v f) : Untimed now claims f
  | stop {v : Json} {f : Fault} (begun : Begun now claims) (h : claim? "exp" claims = some v) (no : NoTime v f) :
      Untimed now claims f

variable {r : Rules}

def early (r : Rules) (claims : ClaimSet) : Outcome Unit := do
  checkPresent claims
  checkIssuedAt claims
  checkNotBefore r claims

def late (r : Rules) (claims : ClaimSet) : Outcome Int := do
  checkAudience claims
  checkIssuer r claims
  checkText "sub" claims
  checkText "jti" claims
  checkUnbound claims
  userOf claims

theorem judged_eq (r : Rules) (claims : ClaimSet) :
    judged r claims = (do early r claims; checkExpiry r claims; late r claims) := by
  simp only [judged, checkClaims, early, late, bind_assoc]

theorem checkPresent_ok_iff : checkPresent claims = .ok () ↔ IsComplete claims := by
  constructor
  · intro h name hn
    exact present_of_ok h hn
  · intro h
    refine if_pos (List.all_eq_true.mpr ?_)
    intro name hn
    exact Option.isSome_iff_exists.mpr (h name hn)

theorem checkPresent_refusesOnly (claims : ClaimSet) : RefusesOnly (checkPresent claims) := by
  unfold checkPresent
  split
  · exact refusesOnly_ok _
  · exact refusesOnly_refuse

theorem checkIssuedAt_ok_iff : checkIssuedAt claims = .ok () ↔ IsIssued claims := by
  unfold checkIssuedAt IsIssued
  cases claim? "iat" claims with
  | none => simp
  | some v => simp [map_eq_ok]

theorem checkIssuedAt_error (h : checkIssuedAt claims = .error e) :
    e = .vault (.rejected .invalidToken) ∨ ∃ f v, e = .fault f ∧ claim? "iat" claims = some v ∧ NoTime v f := by
  unfold checkIssuedAt at h
  split at h
  · cases h
  · rename_i v hv
    rcases claimInt_error (map_eq_error.mp h) with refused | ⟨f, he, no⟩
    · exact .inl refused
    · exact .inr ⟨f, v, he, hv, no⟩

theorem second_of_dated (dated : Timestamp.isDated now = true) : Clock.second now = .ok (now / 1000000) := by
  rw [second_eq, dated]
  rfl

theorem compared_error {v : Json} {refusal : Failure} {p : Int → Prop} [DecidablePred p]
    (h : (do let time ← claimInt v
             if p time then .error refusal else .ok () : Outcome Unit) = .error e) :
    e = .vault (.rejected .invalidToken) ∨ (∃ f, e = .fault f ∧ NoTime v f) ∨
      e = refusal ∧ ∃ time, claimInt v = .ok time ∧ p time := by
  rcases bind_eq_error.mp h with h | ⟨time, htime, h⟩
  · rcases claimInt_error h with refused | fault
    · exact .inl refused
    · exact .inr (.inl fault)
  · split at h
    · rename_i holds
      cases h
      exact .inr (.inr ⟨rfl, time, htime, holds⟩)
    · cases h

theorem checkNotBefore_eq (dated : Timestamp.isDated r.now = true) {v : Json} (hv : claim? "nbf" claims = some v) :
    checkNotBefore r claims = (do let start ← claimInt v
                                  if start > r.now / 1000000 then refuse else .ok ()) := by
  unfold checkNotBefore
  rw [hv, second_of_dated dated]
  rfl

theorem checkNotBefore_ok_iff (dated : Timestamp.isDated r.now = true) :
    checkNotBefore r claims = .ok () ↔ HasStarted r.now claims := by
  constructor
  · intro h v hv
    exact checkNotBefore_ok h hv
  · intro h
    cases hv : claim? "nbf" claims with
    | none => simp only [checkNotBefore, hv]
    | some v =>
      obtain ⟨start, hstart, past⟩ := h v hv
      rw [checkNotBefore_eq dated hv, bind_of_ok hstart]
      exact if_neg (Int.not_lt.mpr past)

theorem checkNotBefore_error (dated : Timestamp.isDated r.now = true) (h : checkNotBefore r claims = .error e) :
    e = .vault (.rejected .invalidToken) ∨ ∃ f v, e = .fault f ∧ claim? "nbf" claims = some v ∧ NoTime v f := by
  cases hv : claim? "nbf" claims with
  | none =>
    simp only [checkNotBefore, hv] at h
    cases h
  | some v =>
    rw [checkNotBefore_eq dated hv] at h
    rcases compared_error h with refused | ⟨f, he, no⟩ | ⟨refused, _⟩
    · exact .inl refused
    · exact .inr ⟨f, v, he, rfl, no⟩
    · exact .inl refused

theorem checkExpiry_eq (dated : Timestamp.isDated r.now = true) {v : Json} (hv : claim? "exp" claims = some v) :
    checkExpiry r claims =
      (do let stop ← claimInt v
          if stop < r.now / 1000000 then Outcome.reject (.rejected .expiredToken) else .ok ()) := by
  unfold checkExpiry
  rw [hv, second_of_dated dated]
  rfl

theorem checkExpiry_of_expiresAt (dated : Timestamp.isDated r.now = true) {stop : Int} (h : ExpiresAt claims stop) :
    checkExpiry r claims =
      if stop < r.now / 1000000 then Outcome.reject (.rejected .expiredToken) else .ok () := by
  obtain ⟨v, hv, hstop⟩ := h
  rw [checkExpiry_eq dated hv, bind_of_ok hstop]

theorem early_ok_iff (dated : Timestamp.isDated r.now = true) : early r claims = .ok () ↔ Begun r.now claims := by
  constructor
  · intro h
    obtain ⟨_, complete, h⟩ := bind_eq_ok.mp h
    obtain ⟨_, issued, started⟩ := bind_eq_ok.mp h
    exact ⟨checkPresent_ok_iff.mp complete, checkIssuedAt_ok_iff.mp issued, (checkNotBefore_ok_iff dated).mp started⟩
  · intro h
    unfold early
    rw [bind_of_ok (checkPresent_ok_iff.mpr h.complete), bind_of_ok (checkIssuedAt_ok_iff.mpr h.issued)]
    exact (checkNotBefore_ok_iff dated).mpr h.started

theorem early_error (dated : Timestamp.isDated r.now = true) (h : early r claims = .error e) :
    e = .vault (.rejected .invalidToken) ∨ ∃ f, e = .fault f ∧ Untimed r.now claims f := by
  rcases bind_eq_error.mp h with h | ⟨_, complete, h⟩
  · exact .inl (checkPresent_refusesOnly claims e h)
  have complete := checkPresent_ok_iff.mp complete
  rcases bind_eq_error.mp h with h | ⟨_, issued, h⟩
  · rcases checkIssuedAt_error h with refused | ⟨f, v, he, hv, no⟩
    · exact .inl refused
    · exact .inr ⟨f, he, .issue complete hv no⟩
  rcases checkNotBefore_error dated h with refused | ⟨f, v, he, hv, no⟩
  · exact .inl refused
  · exact .inr ⟨f, he, .start complete (checkIssuedAt_ok_iff.mp issued) hv no⟩

theorem checkText_refusesOnly (name : String) (claims : ClaimSet) : RefusesOnly (checkText name claims) := by
  unfold checkText
  split
  · exact refusesOnly_ok _
  · exact refusesOnly_ok _
  · exact refusesOnly_refuse

theorem userOf_refusesOnly (claims : ClaimSet) : RefusesOnly (userOf claims) := by
  unfold userOf
  split
  · exact refusesOnly_refuse
  · split
    · exact refusesOnly_refuse
    · split
      · exact refusesOnly_ok _
      · exact refusesOnly_refuse

theorem refusesOnly_none (o : Option Json) :
    RefusesOnly (match o with | none => .ok () | some _ => refuse : Outcome Unit) := by
  cases o with
  | none => exact refusesOnly_ok _
  | some v => exact refusesOnly_refuse

theorem checkIssuer_refusesOnly (r : Rules) (claims : ClaimSet) : RefusesOnly (checkIssuer r claims) := by
  unfold checkIssuer
  split
  · split
    · exact refusesOnly_ok _
    · exact refusesOnly_refuse
  · exact refusesOnly_refuse

theorem late_refusesOnly (r : Rules) (claims : ClaimSet) : RefusesOnly (late r claims) := by
  apply refusesOnly_bind (refusesOnly_none _)
  intro _
  apply refusesOnly_bind (checkIssuer_refusesOnly r claims)
  intro _
  apply refusesOnly_bind (checkText_refusesOnly "sub" claims)
  intro _
  apply refusesOnly_bind (checkText_refusesOnly "jti" claims)
  intro _
  apply refusesOnly_bind (refusesOnly_none _)
  intro _
  exact userOf_refusesOnly claims

theorem checkText_ok_iff {name : String} :
    checkText name claims = .ok () ↔ ∀ v, claim? name claims = some v → ∃ t, v = .text t := by
  unfold checkText
  constructor
  · intro h v hv
    split at h
    · rename_i missing
      rw [missing] at hv
      cases hv
    · rename_i t found
      rw [found] at hv
      cases hv
      exact ⟨t, rfl⟩
    · cases h
  · intro h
    split
    · rfl
    · rfl
    · rename_i v other found
      obtain ⟨t, rfl⟩ := h v found
      exact absurd rfl (other t)

theorem userOf_ok_iff : userOf claims = .ok userId ↔
    (∃ checked, Claims.check (.object claims) = .ok checked ∧
      checked.subject.bind Text.readInteger? = some userId) ∧ 1 ≤ userId ∧ userId < 2 ^ 63 := by
  constructor
  · intro h
    refine ⟨?_, (userOf_ok h).2⟩
    unfold userOf at h
    split at h
    · cases h
    rename_i checked hchecked
    split at h
    · cases h
    rename_i n hn
    split at h
    · cases h
      exact ⟨checked, hchecked, hn⟩
    · cases h
  · rintro ⟨⟨checked, hchecked, hn⟩, range⟩
    simp only [userOf, hchecked, hn]
    exact if_pos (isUserId_iff.mpr range)

theorem late_ok_iff : late r claims = .ok userId ↔ Admits r.issuer claims userId := by
  constructor
  · intro h
    obtain ⟨_, audience, h⟩ := bind_eq_ok.mp h
    obtain ⟨_, issuer, h⟩ := bind_eq_ok.mp h
    obtain ⟨_, _, h⟩ := bind_eq_ok.mp h
    obtain ⟨_, identifier, h⟩ := bind_eq_ok.mp h
    obtain ⟨_, unbound, h⟩ := bind_eq_ok.mp h
    obtain ⟨user, range⟩ := userOf_ok_iff.mp h
    exact ⟨checkIssuer_ok issuer, none_of_ok audience, none_of_ok unbound, checkText_ok_iff.mp identifier, user, range⟩
  · intro h
    have user := userOf_ok_iff.mpr ⟨h.user, h.range⟩
    obtain ⟨⟨t, subject, _⟩, _⟩ := userOf_ok user
    have audience : checkAudience claims = .ok () := by simp only [checkAudience, h.noAudience]
    have issuer : checkIssuer r claims = .ok () := by simp only [checkIssuer, h.issuer, if_true]
    have text : checkText "sub" claims = .ok () := by simp only [checkText, subject]
    have unbound : checkUnbound claims = .ok () := by simp only [checkUnbound, h.unbound]
    unfold late
    rw [bind_of_ok audience, bind_of_ok issuer, bind_of_ok text, bind_of_ok (checkText_ok_iff.mpr h.identifier),
      bind_of_ok unbound, user]

/-- The claims of a token that has begun are judged by the expiry first. -/
theorem judged_of_begun (dated : Timestamp.isDated r.now = true) (begun : Begun r.now claims) :
    judged r claims = (do checkExpiry r claims; late r claims) := by
  rw [judged_eq, bind_of_ok ((early_ok_iff dated).mpr begun)]

theorem judged_expired (dated : Timestamp.isDated r.now = true) (begun : Begun r.now claims) {stop : Int}
    (h : ExpiresAt claims stop) (past : stop < r.now / 1000000) :
    judged r claims = Outcome.reject (.rejected .expiredToken) := by
  rw [judged_of_begun dated begun, checkExpiry_of_expiresAt dated h, if_pos past]
  rfl

theorem judged_unexpired (dated : Timestamp.isDated r.now = true) (begun : Begun r.now claims) {stop : Int}
    (h : ExpiresAt claims stop) (valid : r.now / 1000000 ≤ stop) : judged r claims = late r claims := by
  rw [judged_of_begun dated begun, checkExpiry_of_expiresAt dated h, if_neg (Int.not_lt.mpr valid)]
  rfl

theorem Untimed.judged_eq (dated : Timestamp.isDated r.now = true) (h : Untimed r.now claims f) :
    judged r claims = Outcome.fail f := by
  cases h with
  | issue complete hv no =>
    rw [Token.judged_eq]
    unfold early
    rw [bind_of_ok (checkPresent_ok_iff.mpr complete)]
    simp only [checkIssuedAt, hv, no.claimInt_eq]
    rfl
  | start complete issued hv no =>
    rw [Token.judged_eq]
    unfold early
    rw [bind_of_ok (checkPresent_ok_iff.mpr complete), bind_of_ok (checkIssuedAt_ok_iff.mpr issued),
      checkNotBefore_eq dated hv, no.claimInt_eq]
    rfl
  | stop begun hv no =>
    rw [judged_of_begun dated begun, checkExpiry_eq dated hv, no.claimInt_eq]
    rfl

inductive Verdict (r : Rules) (claims : ClaimSet) : Outcome Int → Prop where
  | untimed {f : Fault} (h : Untimed r.now claims f) : Verdict r claims (Outcome.fail f)
  | expired {stop : Int} (begun : Begun r.now claims) (h : ExpiresAt claims stop) (past : stop < r.now / 1000000) :
      Verdict r claims (Outcome.reject (.rejected .expiredToken))
  | admitted {stop userId : Int} (begun : Begun r.now claims) (h : ExpiresAt claims stop)
      (valid : r.now / 1000000 ≤ stop) (admits : Admits r.issuer claims userId) : Verdict r claims (.ok userId)
  | refused : Verdict r claims refuse

theorem judged_verdict (dated : Timestamp.isDated r.now = true) : Verdict r claims (judged r claims) := by
  cases before : early r claims with
  | error e =>
    have eq : judged r claims = .error e := by
      rw [judged_eq, before]
      rfl
    rw [eq]
    rcases early_error dated before with rfl | ⟨f, rfl, untimed⟩
    · exact .refused
    · exact .untimed untimed
  | ok _ =>
    have begun := (early_ok_iff dated).mp before
    obtain ⟨v, hv⟩ := begun.complete "exp" (by simp)
    cases hstop : claimInt v with
    | error e =>
      rcases claimInt_error hstop with rfl | ⟨f, rfl, no⟩
      · rw [judged_of_begun dated begun, checkExpiry_eq dated hv, hstop]
        exact .refused
      · have untimed : Untimed r.now claims f := .stop begun hv no
        rw [untimed.judged_eq dated]
        exact .untimed untimed
    | ok stop =>
      have expires : ExpiresAt claims stop := ⟨v, hv, hstop⟩
      by_cases past : stop < r.now / 1000000
      · rw [judged_expired dated begun expires past]
        exact .expired begun expires past
      have valid := Int.not_lt.mp past
      rw [judged_unexpired dated begun expires valid]
      cases after : late r claims with
      | ok userId => exact .admitted begun expires valid (late_ok_iff.mp after)
      | error e =>
        rw [late_refusesOnly r claims e after]
        exact .refused

theorem verify_of_presents (known : Algorithm.ofName? s.algorithm = some a)
    (secret : StandsForItself s.secretKey) (h : Presents a s text claims) (now : Int) :
    verify s now text = judged ⟨s.tokenIssuer, now⟩ claims := by
  rw [verify_eq, bind_of_ok ((opened_ok_iff known secret).mpr h)]

theorem Obstructed.verify_eq (known : Algorithm.ofName? s.algorithm = some a)
    (secret : StandsForItself s.secretKey) (h : Obstructed a s text f) (now : Int) :
    verify s now text = Outcome.fail f := by
  rw [Token.verify_eq, h.opened_eq known secret]
  rfl

inductive Answer (a : Algorithm) (s : Settings) (now : Int) (text : Text) : Outcome Int → Prop where
  | refused : Answer a s now text refuse
  | obstructed {f : Fault} (h : Obstructed a s text f) : Answer a s now text (Outcome.fail f)
  | untimed {claims : ClaimSet} {f : Fault} (presents : Presents a s text claims) (h : Untimed now claims f) :
      Answer a s now text (Outcome.fail f)
  | expired {claims : ClaimSet} {stop : Int} (presents : Presents a s text claims) (begun : Begun now claims)
      (h : ExpiresAt claims stop) (past : stop < now / 1000000) :
      Answer a s now text (Outcome.reject (.rejected .expiredToken))
  | admitted {claims : ClaimSet} {stop userId : Int} (presents : Presents a s text claims) (begun : Begun now claims)
      (h : ExpiresAt claims stop) (valid : now / 1000000 ≤ stop) (admits : Admits s.tokenIssuer claims userId) :
      Answer a s now text (.ok userId)

theorem answer_verify (known : Algorithm.ofName? s.algorithm = some a) (secret : StandsForItself s.secretKey)
    (dated : Timestamp.isDated now = true) (text : Text) : Answer a s now text (verify s now text) := by
  cases before : opened s text with
  | error e =>
    rw [verify_eq, before]
    rcases opened_error known secret before with rfl | ⟨f, rfl, obstructed⟩
    · exact .refused
    · exact .obstructed obstructed
  | ok claims =>
    have presents := (opened_ok_iff known secret).mp before
    rw [verify_of_presents known secret presents]
    have verdict : Verdict ⟨s.tokenIssuer, now⟩ claims (judged ⟨s.tokenIssuer, now⟩ claims) := judged_verdict dated
    generalize judged ⟨s.tokenIssuer, now⟩ claims = result at verdict ⊢
    cases verdict with
    | refused => exact .refused
    | untimed h => exact .untimed presents h
    | expired begun h past => exact .expired presents begun h past
    | admitted begun h valid admits => exact .admitted presents begun h valid admits

theorem verify_ok_iff (known : Algorithm.ofName? s.algorithm = some a) (secret : StandsForItself s.secretKey)
    (dated : Timestamp.isDated now = true) :
    verify s now text = .ok userId ↔ ∃ claims stop, Presents a s text claims ∧ Begun now claims ∧
      ExpiresAt claims stop ∧ now / 1000000 ≤ stop ∧ Admits s.tokenIssuer claims userId := by
  constructor
  · intro h
    have answer := answer_verify known secret dated text
    rw [h] at answer
    cases answer with
    | admitted presents begun expires valid admits => exact ⟨_, _, presents, begun, expires, valid, admits⟩
  · rintro ⟨claims, stop, presents, begun, expires, valid, admits⟩
    rw [verify_of_presents known secret presents]
    exact (judged_unexpired dated begun expires valid).trans (late_ok_iff.mpr admits)

theorem verify_expired_iff (known : Algorithm.ofName? s.algorithm = some a) (secret : StandsForItself s.secretKey)
    (dated : Timestamp.isDated now = true) :
    verify s now text = Outcome.reject (.rejected .expiredToken) ↔ ∃ claims stop, Presents a s text claims ∧
      Begun now claims ∧ ExpiresAt claims stop ∧ stop < now / 1000000 := by
  constructor
  · intro h
    have answer := answer_verify known secret dated text
    rw [h] at answer
    cases answer with
    | expired presents begun expires past => exact ⟨_, _, presents, begun, expires, past⟩
  · rintro ⟨claims, stop, presents, begun, expires, past⟩
    rw [verify_of_presents known secret presents]
    exact judged_expired dated begun expires past

theorem verify_fail_iff (known : Algorithm.ofName? s.algorithm = some a) (secret : StandsForItself s.secretKey)
    (dated : Timestamp.isDated now = true) :
    verify s now text = Outcome.fail f ↔
      Obstructed a s text f ∨ ∃ claims, Presents a s text claims ∧ Untimed now claims f := by
  constructor
  · intro h
    have answer := answer_verify known secret dated text
    rw [h] at answer
    cases answer with
    | obstructed obstructed => exact .inl obstructed
    | untimed presents untimed => exact .inr ⟨_, presents, untimed⟩
  · rintro (obstructed | ⟨claims, presents, untimed⟩)
    · exact obstructed.verify_eq known secret now
    · rw [verify_of_presents known secret presents]
      exact untimed.judged_eq dated

theorem verify_rejections (known : Algorithm.ofName? s.algorithm = some a) (secret : StandsForItself s.secretKey)
    (dated : Timestamp.isDated now = true) {rejection : VaultError} (h : verify s now text = Outcome.reject rejection) :
    rejection = .rejected .expiredToken ∨ rejection = .rejected .invalidToken := by
  have answer := answer_verify known secret dated text
  rw [h] at answer
  cases answer with
  | expired _ _ _ _ => exact .inl rfl
  | refused => exact .inr rfl

/-- A token is accepted exactly if everything about it is in order, and rejected as expired exactly if everything that
is checked before the expiry is in order and the expiry is over, whatever comes after it. Whatever else is wrong makes
the token invalid, but for what obstructs it and for times that are no numbers, which are not rejections. -/
theorem rejection_reasons {s : Settings} {now : Int} (algorithm : s.algorithm = Text.ofString "HS256")
    (secret : ∀ v, Json.parse keyDialect s.secretKey ≠ .ok v) (dated : Timestamp.isDated now = true) (text : Text) :
    (∀ userId, verify s now text = .ok userId ↔ ∃ claims stop, Presents .hs256 s text claims ∧ Begun now claims ∧
      ExpiresAt claims stop ∧ now / 1000000 ≤ stop ∧ Admits s.tokenIssuer claims userId) ∧
    (∀ userId, verify s now text = .ok userId → 1 ≤ userId ∧ userId ≤ 2 ^ 63 - 1) ∧
    (verify s now text = Outcome.reject (.rejected .expiredToken) ↔ ∃ claims stop, Presents .hs256 s text claims ∧
      Begun now claims ∧ ExpiresAt claims stop ∧ stop < now / 1000000) ∧
    (∀ f, verify s now text = Outcome.fail f ↔
      Obstructed .hs256 s text f ∨ ∃ claims, Presents .hs256 s text claims ∧ Untimed now claims f) ∧
    ∀ e, verify s now text = Outcome.reject e → e = .rejected .expiredToken ∨ e = .rejected .invalidToken := by
  have secret := standsForItself_of_not_json secret
  have known : Algorithm.ofName? s.algorithm = some .hs256 := by
    rw [algorithm]
    exact Algorithm.ofName?_name .hs256
  refine ⟨?_, ?_, ?_, ?_, ?_⟩
  · intro userId
    exact verify_ok_iff known secret dated
  · intro userId h
    obtain ⟨claims, stop, _, _, _, _, admits⟩ := (verify_ok_iff known secret dated).mp h
    exact ⟨admits.range.1, Int.le_sub_one_of_lt admits.range.2⟩
  · exact verify_expired_iff known secret dated
  · intro f
    exact verify_fail_iff known secret dated
  · intro e h
    exact verify_rejections known secret dated h

/-- A token whose time of issue is null. -/
def untimedToken : Text :=
  Text.ofString <| "eyJhbGciOiJIUzI1NiIsInR5cCI6IkpXVCJ9" ++
    ".eyJpc3MiOiJwYXNzdmF1bHQiLCJzdWIiOiIxIiwiaWF0IjpudWxsLCJleHAiOjM2MDB9" ++
    ".xBGpMLPEoRF5-btCSUKsGh40NowAOea8WmaQ4q5XFh0"

def numberedToken : Text :=
  Text.ofString <| "eyJhbGciOiJIUzI1NiIsInR5cCI6IkpXVCJ9" ++ ".eyJpc3MiOiJwYXNzdmF1bHQiLCJzdWIiOjEsImV4cCI6MH0" ++
    ".yFpZNxte88MOhwuUa-I9ag4iNFUtfnb6Ifmfw9DlCEc"

/-- A signed token with a time of issue that is no number is not rejected but ends in a fault, and a token whose subject
is no text, which is never accepted, is rejected as expired once it is. -/
theorem untimed_token_is_not_rejected :
    verify sampleSettings 0 untimedToken = Outcome.fail .badType ∧
      verify sampleSettings 0 numberedToken = Outcome.reject (.rejected .invalidToken) ∧
      verify sampleSettings 1000000 numberedToken = Outcome.reject (.rejected .expiredToken) := by
  decide +kernel

theorem sample_token_admits : ∃ claims stop, Presents .hs256 sampleSettings sampleToken claims ∧ Begun 5 claims ∧
    ExpiresAt claims stop ∧ 5 / 1000000 ≤ stop ∧ Admits sampleSettings.tokenIssuer claims 1 := by
  have accepted : verify sampleSettings 5 sampleToken = .ok 1 := by decide +kernel
  have dated : Timestamp.isDated 5 = true := by decide
  exact ((rejection_reasons rfl secret_of_sample dated sampleToken).1 1).mp accepted

end Strongbox.Token
