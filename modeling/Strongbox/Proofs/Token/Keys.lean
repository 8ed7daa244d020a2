import Strongbox.Proofs.Except
import Strongbox.Token.Access

/-!
# Keys that are tried

The keys that a secret stands for are tried in their order, and the first that cannot be used ends the search. A secret
that is not read as JSON stands for itself, and so does one that is read as its own text, as a number is.
-/

namespace Strongbox.Token

variable {s : Settings} {a : Algorithm} {secret : Text} {test : Bytes → Bool} {values : List Json} {signed signature : Bytes} {f : Fault}

def IsUsable (v : Json) : Prop := ∃ key, keyOfJson v = .ok key

/-- One of the values is a key that passes the test, and those before it can be used. -/
def Finds (test : Bytes → Bool) (values : List Json) : Prop :=
  ∃ before v after key, values = before ++ v :: after ∧ (∀ w ∈ before, IsUsable w) ∧ keyOfJson v = .ok key ∧
    test key = true

theorem Finds.later {v : Json} (usable : IsUsable v) (h : Finds test values) : Finds test (v :: values) := by
  obtain ⟨before, w, after, key, rfl, before_usable, hkey, passes⟩ := h
  refine ⟨v :: before, w, after, key, rfl, ?_, hkey, passes⟩
  intro x hx
  rcases List.mem_cons.mp hx with rfl | hx
  · exact usable
  · exact before_usable x hx

theorem finds_cons_iff {v : Json} : Finds test (v :: values) ↔
    ∃ key, keyOfJson v = .ok key ∧ (test key = true ∨ Finds test values) := by
  constructor
  · rintro ⟨before, w, after, key, split, usable, hkey, passes⟩
    cases before with
    | nil =>
      cases split
      exact ⟨key, hkey, .inl passes⟩
    | cons x before =>
      cases split
      obtain ⟨first, hfirst⟩ := usable _ List.mem_cons_self
      refine ⟨first, hfirst, .inr ⟨before, w, after, key, rfl, ?_, hkey, passes⟩⟩
      intro y hy
      exact usable y (List.mem_cons_of_mem _ hy)
  · rintro ⟨key, hkey, passes | found⟩
    · refine ⟨[], v, values, key, rfl, ?_, hkey, passes⟩
      intro w hw
      cases hw
    · exact found.later ⟨key, hkey⟩

theorem anyKey_true_iff : anyKey test values = .ok true ↔ Finds test values := by
  induction values with
  | nil =>
    constructor
    · intro h
      cases h
    · rintro ⟨before, v, after, key, split, _⟩
      cases before with
      | nil => cases split
      | cons w before => cases split
  | cons v rest ih =>
    rw [finds_cons_iff, ← ih]
    cases hkey : keyOfJson v with
    | error f => simp [anyKey, hkey]
    | ok key =>
      by_cases passes : test key = true
      · simp [anyKey, hkey, passes]
      · simp [anyKey, hkey, passes]

/-- Only a value that cannot be used stops the search. -/
theorem anyKey_error (h : anyKey test values = .error f) : ∃ v ∈ values, keyOfJson v = .error f := by
  induction values with
  | nil => cases h
  | cons v rest ih =>
    unfold anyKey at h
    split at h
    · rename_i unusable
      cases h
      exact ⟨v, List.mem_cons_self, unusable⟩
    · split at h
      · cases h
      · obtain ⟨w, hw, unusable⟩ := ih h
        exact ⟨w, List.mem_cons_of_mem v hw, unusable⟩

/-- The code of the signed bytes under one of the keys that the secret stands for, which are tried in their order. -/
def Codes (a : Algorithm) (secret : Text) (signed code : Bytes) : Prop :=
  ∃ values, candidates secret = .ok values ∧ Finds (fun key => a.code key signed == code) values

/-- Without an algorithm there is nothing that signs. -/
theorem anySigns_true_iff {a : Option Algorithm} : anySigns a signed signature values = .ok true ↔
    ∃ b, a = some b ∧ Finds (fun key => b.code key signed == signature) values := by
  cases a with
  | none =>
    cases values with
    | nil => simp [anySigns]
    | cons v rest => simp [anySigns]
  | some a => simp [anySigns, anyKey_true_iff]

theorem checkSignature_ok_iff : checkSignature s signed signature = .ok () ↔
    ∃ a, Algorithm.ofName? s.algorithm = some a ∧ Codes a s.secretKey signed signature := by
  have found : checkSignature s signed signature = .ok () ↔
      ((candidates s.secretKey).bind (anySigns (Algorithm.ofName? s.algorithm) signed signature)) = .ok true := by
    unfold checkSignature
    constructor
    · intro h
      split at h
      · cases h
      · assumption
      · cases h
    · intro h
      rw [h]
  rw [found]
  constructor
  · intro h
    obtain ⟨values, hvalues, h⟩ := bind_eq_ok.mp h
    obtain ⟨a, ha, found⟩ := anySigns_true_iff.mp h
    exact ⟨a, ha, values, hvalues, found⟩
  · rintro ⟨a, ha, values, hvalues, found⟩
    exact bind_eq_ok.mpr ⟨values, hvalues, anySigns_true_iff.mpr ⟨a, ha, found⟩⟩

theorem checkSignature_ok_iff_codes (known : Algorithm.ofName? s.algorithm = some a) :
    checkSignature s signed signature = .ok () ↔ Codes a s.secretKey signed signature := by
  rw [checkSignature_ok_iff, known]
  simp

/-- A signature that is not accepted is refused, unless the secret does not stand for keys only. -/
theorem checkSignature_error (known : Algorithm.ofName? s.algorithm = some a) {e : Failure}
    (h : checkSignature s signed signature = .error e) :
    e = .vault (.rejected .invalidToken) ∨ ∃ f, e = .fault f ∧ (candidates s.secretKey = .error f ∨
      ∃ values v, candidates s.secretKey = .ok values ∧ v ∈ values ∧ keyOfJson v = .error f) := by
  unfold checkSignature at h
  split at h
  · rename_i f stopped
    cases h
    refine .inr ⟨f, rfl, ?_⟩
    rcases bind_eq_error.mp stopped with failed | ⟨values, hvalues, stopped⟩
    · exact .inl failed
    · rw [known] at stopped
      obtain ⟨v, hv, unusable⟩ := anyKey_error stopped
      exact .inr ⟨values, v, hvalues, hv, unusable⟩
  · cases h
  · cases h
    exact .inl rfl

/-- A secret that is read as no JSON other than its own text. -/
def StandsForItself (secret : Text) : Prop := ∀ v, Json.parse keyDialect secret = .ok v → v = .text secret

theorem standsForItself_of_not_json (h : ∀ v, Json.parse keyDialect secret ≠ .ok v) : StandsForItself secret := by
  intro v hv
  exact absurd hv (h v)

theorem StandsForItself.candidates_eq (h : StandsForItself secret) : candidates secret = .ok [.text secret] := by
  cases hp : Json.parse keyDialect secret with
  | error e => simp only [candidates, hp]
  | ok v =>
    rw [h v hp] at hp
    simp only [candidates, hp]

theorem codes_iff_of_candidates {t : Text} (h : candidates secret = .ok [.text t]) {code : Bytes} :
    Codes a secret signed code ↔ ∃ key, keyOfText t = .ok key ∧ a.code key signed = code := by
  constructor
  · rintro ⟨values, hvalues, found⟩
    rw [h] at hvalues
    cases hvalues
    obtain ⟨key, hkey, same | ⟨before, v, after, _, split, _⟩⟩ := finds_cons_iff.mp found
    · exact ⟨key, hkey, beq_iff_eq.mp same⟩
    · simp at split
  · rintro ⟨key, hkey, same⟩
    exact ⟨_, h, finds_cons_iff.mpr ⟨key, hkey, .inl (beq_iff_eq.mpr same)⟩⟩

theorem StandsForItself.codes_iff (h : StandsForItself secret) {code : Bytes} :
    Codes a secret signed code ↔ ∃ key, keyOfText secret = .ok key ∧ a.code key signed = code :=
  codes_iff_of_candidates h.candidates_eq

/-- A secret that stands for itself is no key only by a fault of its own. -/
theorem StandsForItself.checkSignature_fail (h : StandsForItself s.secretKey)
    (known : Algorithm.ofName? s.algorithm = some a) (key : keyOfText s.secretKey = .error f) :
    checkSignature s signed signature = Outcome.fail f := by
  simp [checkSignature, h.candidates_eq, known, Except.bind, anySigns, anyKey, keyOfJson, key]

theorem StandsForItself.checkSignature_error (h : StandsForItself s.secretKey)
    (known : Algorithm.ofName? s.algorithm = some a) {e : Failure}
    (he : checkSignature s signed signature = .error e) :
    e = .vault (.rejected .invalidToken) ∨ ∃ f, e = .fault f ∧ keyOfText s.secretKey = .error f := by
  rcases Token.checkSignature_error known he with refused | ⟨f, rfl, failed | ⟨values, v, hvalues, hv, unusable⟩⟩
  · exact .inl refused
  · rw [h.candidates_eq] at failed
    cases failed
  · rw [h.candidates_eq] at hvalues
    cases hvalues
    cases List.mem_singleton.mp hv
    exact .inr ⟨f, rfl, unusable⟩

end Strongbox.Token
