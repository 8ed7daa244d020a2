import Strongbox.Proofs.Token.Genuine

/-!
# Opening a token

A token is opened before its claims are judged: its parts are decoded, the algorithm is that of the settings, and the
signature is in order under a secret that stands for itself. A text that is not opened is refused, unless something
obstructs it: it has no encoded form, a part of it is nested too deep, or the secret is no key.
-/

namespace Strongbox.Token

variable {s : Settings} {a : Algorithm} {text : Text} {claims : ClaimSet} {f : Fault} {e : Failure}

/-- A stage that fails only by refusing the token. -/
def RefusesOnly (x : Outcome α) : Prop := ∀ e, x = .error e → e = .vault (.rejected .invalidToken)

theorem refusesOnly_ok (a : α) : RefusesOnly (.ok a) := by
  intro e h
  cases h

theorem refusesOnly_refuse : RefusesOnly (refuse : Outcome α) := by
  intro e h
  cases h
  rfl

theorem refusesOnly_bind {x : Outcome α} {k : α → Outcome β} (hx : RefusesOnly x) (hk : ∀ a, RefusesOnly (k a)) :
    RefusesOnly (x >>= k) := by
  intro e h
  rcases bind_eq_error.mp h with h | ⟨a, _, h⟩
  · exact hx e h
  · exact hk a e h

def HasParts (text : Text) (token : Compact) : Prop :=
  ∃ bytes, Utf8.encode? text = some bytes ∧ Compact.ofBytes? bytes = some token

def IsTooDeep (bytes : Bytes) : Prop :=
  ∃ t, Utf8.decode? bytes = some t ∧ Json.parse .lenient t = .error .tooDeep

theorem bytesOf_ok {part : Text} {bytes : Bytes} : bytesOf part = .ok bytes ↔ Base64.decodeUrl? part = some bytes := by
  constructor
  · exact decodeUrl?_of_ok
  · intro h
    simp only [bytesOf, h]

theorem bytesOf_refusesOnly (part : Text) : RefusesOnly (bytesOf part) := by
  unfold bytesOf
  split
  · exact refusesOnly_ok _
  · exact refusesOnly_refuse

theorem membersOf_error {bytes : Bytes} (h : membersOf bytes = .error e) :
    e = .vault (.rejected .invalidToken) ∨ e = .fault .tooDeep ∧ IsTooDeep bytes := by
  unfold membersOf at h
  split at h
  · cases h
    exact .inl rfl
  rename_i t ht
  split at h
  · cases h
  · rename_i hp
    cases h
    exact .inr ⟨rfl, t, ht, hp⟩
  · cases h
    exact .inl rfl

theorem membersOf_tooDeep {bytes : Bytes} (h : IsTooDeep bytes) : membersOf bytes = Outcome.fail .tooDeep := by
  obtain ⟨t, ht, hp⟩ := h
  simp only [membersOf, ht, hp]

theorem checkAlgorithm_refusesOnly (s : Settings) (header : ClaimSet) : RefusesOnly (checkAlgorithm s header) := by
  unfold checkAlgorithm
  split
  · split
    · exact refusesOnly_ok _
    · exact refusesOnly_refuse
  · exact refusesOnly_refuse

def opened (s : Settings) (text : Text) : Outcome ClaimSet :=
  match Utf8.encode? text with
  | none => Outcome.fail .unencodable
  | some bytes =>
    match Compact.ofBytes? bytes with
    | none => refuse
    | some token => do
      let header ← membersOf (← bytesOf token.header)
      let payload ← bytesOf token.payload
      let signature ← bytesOf token.signature
      checkAlgorithm s header
      checkSignature s token.signed signature
      membersOf payload

structure Addressed (s : Settings) (text : Text) (token : Compact) (payload signature : Bytes) : Prop where
  parts : HasParts text token
  header : ∃ bytes members, Base64.decodeUrl? token.header = some bytes ∧ IsObject bytes members ∧
    claim? "alg" members = some (.text s.algorithm)
  payload : Base64.decodeUrl? token.payload = some payload
  signature : Base64.decodeUrl? token.signature = some signature

/-- A token that is signed under the secret, with its payload decoded. -/
def Sealed (a : Algorithm) (s : Settings) (text : Text) (payload : Bytes) : Prop :=
  ∃ token signature key, Addressed s text token payload signature ∧ keyOfText s.secretKey = .ok key ∧
    a.code key token.signed = signature

def Presents (a : Algorithm) (s : Settings) (text : Text) (claims : ClaimSet) : Prop :=
  ∃ payload, Sealed a s text payload ∧ IsObject payload claims

/-- What keeps a text from being opened without its being refused. -/
inductive Obstructed (a : Algorithm) (s : Settings) (text : Text) : Fault → Prop where
  | surrogate (h : Utf8.encode? text = none) : Obstructed a s text .unencodable
  | header {token : Compact} {bytes : Bytes} (parts : HasParts text token)
      (decoded : Base64.decodeUrl? token.header = some bytes) (deep : IsTooDeep bytes) : Obstructed a s text .tooDeep
  | secret {token : Compact} {payload signature : Bytes} {f : Fault}
      (addressed : Addressed s text token payload signature) (key : keyOfText s.secretKey = .error f) :
      Obstructed a s text f
  | payload {payload : Bytes} (signed : Sealed a s text payload) (deep : IsTooDeep payload) :
      Obstructed a s text .tooDeep

theorem checkAlgorithm_ok_iff (known : Algorithm.ofName? s.algorithm = some a) {header : ClaimSet} :
    checkAlgorithm s header = .ok () ↔ claim? "alg" header = some (.text s.algorithm) :=
  ⟨checkAlgorithm_ok, checkAlgorithm_of_name known⟩

/-- A token with its parts decoded is opened if its signature is in order. -/
theorem Addressed.opened_eq (known : Algorithm.ofName? s.algorithm = some a) {token : Compact} {payload signature : Bytes}
    (h : Addressed s text token payload signature) :
    opened s text = (do checkSignature s token.signed signature; membersOf payload) := by
  obtain ⟨bytes, encoded, cut⟩ := h.parts
  obtain ⟨headerBytes, members, decoded, object, name⟩ := h.header
  simp only [opened, encoded, cut]
  rw [bind_of_ok (bytesOf_ok.mpr decoded), bind_of_ok (membersOf_ok.mpr object), bind_of_ok (bytesOf_ok.mpr h.payload),
    bind_of_ok (bytesOf_ok.mpr h.signature), bind_of_ok ((checkAlgorithm_ok_iff known).mpr name)]

theorem addressed_of_stages (known : Algorithm.ofName? s.algorithm = some a) {token : Compact} {header : ClaimSet}
    {bytes payload signature : Bytes} (parts : HasParts text token) (decoded : bytesOf token.header = .ok bytes)
    (object : membersOf bytes = .ok header) (hpayload : bytesOf token.payload = .ok payload)
    (hsignature : bytesOf token.signature = .ok signature) (name : checkAlgorithm s header = .ok ()) :
    Addressed s text token payload signature where
  parts := parts
  header := ⟨bytes, header, bytesOf_ok.mp decoded, membersOf_ok.mp object, (checkAlgorithm_ok_iff known).mp name⟩
  payload := bytesOf_ok.mp hpayload
  signature := bytesOf_ok.mp hsignature

theorem Sealed.opened_eq (known : Algorithm.ofName? s.algorithm = some a)
    (secret : StandsForItself s.secretKey) {payload : Bytes} (h : Sealed a s text payload) :
    opened s text = membersOf payload := by
  obtain ⟨token, signature, key, addressed, hkey, code⟩ := h
  rw [addressed.opened_eq known, bind_of_ok ((checkSignature_ok_iff_codes known).mpr (secret.codes_iff.mpr ⟨key, hkey, code⟩))]

theorem Obstructed.opened_eq (known : Algorithm.ofName? s.algorithm = some a)
    (secret : StandsForItself s.secretKey) (h : Obstructed a s text f) :
    opened s text = Outcome.fail f := by
  cases h with
  | surrogate encoded => simp only [opened, encoded]
  | header parts decoded deep =>
    obtain ⟨bytes, encoded, cut⟩ := parts
    simp only [opened, encoded, cut]
    rw [bind_of_ok (bytesOf_ok.mpr decoded), membersOf_tooDeep deep]
    rfl
  | secret addressed key =>
    rw [addressed.opened_eq known, secret.checkSignature_fail known key]
    rfl
  | payload signed deep => rw [signed.opened_eq known secret, membersOf_tooDeep deep]

theorem presents_of_opened (known : Algorithm.ofName? s.algorithm = some a)
    (secret : StandsForItself s.secretKey) (h : opened s text = .ok claims) :
    Presents a s text claims := by
  unfold opened at h
  split at h
  · cases h
  rename_i bytes encoded
  split at h
  · cases h
  rename_i token cut
  obtain ⟨headerBytes, decoded, h⟩ := bind_eq_ok.mp h
  obtain ⟨header, object, h⟩ := bind_eq_ok.mp h
  obtain ⟨payload, hpayload, h⟩ := bind_eq_ok.mp h
  obtain ⟨signature, hsignature, h⟩ := bind_eq_ok.mp h
  obtain ⟨_, name, h⟩ := bind_eq_ok.mp h
  obtain ⟨_, signed, h⟩ := bind_eq_ok.mp h
  have addressed := addressed_of_stages known ⟨bytes, encoded, cut⟩ decoded object hpayload hsignature name
  obtain ⟨key, hkey, code⟩ := secret.codes_iff.mp ((checkSignature_ok_iff_codes known).mp signed)
  exact ⟨payload, ⟨token, signature, key, addressed, hkey, code⟩, membersOf_ok.mp h⟩

theorem opened_ok_iff (known : Algorithm.ofName? s.algorithm = some a)
    (secret : StandsForItself s.secretKey) : opened s text = .ok claims ↔ Presents a s text claims := by
  constructor
  · exact presents_of_opened known secret
  · rintro ⟨payload, signed, object⟩
    rw [signed.opened_eq known secret, membersOf_ok.mpr object]

/-- A token that is not opened is refused, or something obstructs it. -/
theorem opened_error (known : Algorithm.ofName? s.algorithm = some a)
    (secret : StandsForItself s.secretKey) (h : opened s text = .error e) :
    e = .vault (.rejected .invalidToken) ∨ ∃ f, e = .fault f ∧ Obstructed a s text f := by
  unfold opened at h
  split at h
  · rename_i encoded
    cases h
    exact .inr ⟨_, rfl, .surrogate encoded⟩
  rename_i bytes encoded
  split at h
  · cases h
    exact .inl rfl
  rename_i token cut
  have parts : HasParts text token := ⟨bytes, encoded, cut⟩
  -- the first stage that fails decides
  rcases bind_eq_error.mp h with h | ⟨headerBytes, decoded, h⟩
  · exact .inl (bytesOf_refusesOnly _ e h)
  rcases bind_eq_error.mp h with h | ⟨header, object, h⟩
  · rcases membersOf_error h with refused | ⟨rfl, deep⟩
    · exact .inl refused
    · exact .inr ⟨_, rfl, .header parts (bytesOf_ok.mp decoded) deep⟩
  rcases bind_eq_error.mp h with h | ⟨payload, hpayload, h⟩
  · exact .inl (bytesOf_refusesOnly _ e h)
  rcases bind_eq_error.mp h with h | ⟨signature, hsignature, h⟩
  · exact .inl (bytesOf_refusesOnly _ e h)
  rcases bind_eq_error.mp h with h | ⟨_, name, h⟩
  · exact .inl (checkAlgorithm_refusesOnly s header e h)
  have addressed := addressed_of_stages known parts decoded object hpayload hsignature name
  rcases bind_eq_error.mp h with h | ⟨_, signed, h⟩
  · rcases secret.checkSignature_error known h with refused | ⟨f, rfl, key⟩
    · exact .inl refused
    · exact .inr ⟨f, rfl, .secret addressed key⟩
  obtain ⟨key, hkey, code⟩ := secret.codes_iff.mp ((checkSignature_ok_iff_codes known).mp signed)
  rcases membersOf_error h with refused | ⟨rfl, deep⟩
  · exact .inl refused
  · exact .inr ⟨_, rfl, .payload ⟨token, signature, key, addressed, hkey, code⟩ deep⟩

end Strongbox.Token
