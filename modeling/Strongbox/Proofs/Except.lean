import Strongbox.Schema.Checked

/-!
# Computations that may fail
-/

namespace Strongbox

/-- A computation in two parts ends well if both parts do. -/
theorem bind_eq_ok {x : Except ε α} {f : α → Except ε β} {y : β} :
    (x >>= f) = .ok y ↔ ∃ a, x = .ok a ∧ f a = .ok y := by
  cases x with
  | error e => simp [bind, Except.bind]
  | ok a => simp [bind, Except.bind]

/-- It fails in one of them. -/
theorem bind_eq_error {x : Except ε α} {f : α → Except ε β} {e : ε} :
    (x >>= f) = .error e ↔ x = .error e ∨ ∃ a, x = .ok a ∧ f a = .error e := by
  cases x with
  | error e => simp [bind, Except.bind]
  | ok a => simp [bind, Except.bind]

theorem bind_of_ok {x : Except ε α} {f : α → Except ε β} {a : α} (h : x = .ok a) : (x >>= f) = f a := by
  rw [h]
  rfl

theorem mapError_eq_ok {x : Except ε α} {f : ε → δ} {y : α} : x.mapError f = .ok y ↔ x = .ok y := by
  constructor
  · intro h
    cases x with
    | error e => cases h
    | ok a =>
      cases h
      rfl
  · rintro rfl
    rfl

theorem map_eq_error {x : Except ε α} {f : α → β} {e : ε} : x.map f = .error e ↔ x = .error e := by
  cases x with
  | error e => simp [Except.map]
  | ok a => simp [Except.map]

theorem map_eq_ok {x : Except ε α} {f : α → β} {y : β} : x.map f = .ok y ↔ ∃ a, x = .ok a ∧ f a = y := by
  cases x with
  | error e => simp [Except.map]
  | ok a => simp [Except.map]

theorem Schema.Checked.ap_eq_ok {f : Checked (α → β)} {x : Checked α} {y : β} :
    ap f x = .ok y ↔ ∃ g a, f = .ok g ∧ x = .ok a ∧ g a = y := by
  cases f with
  | error e =>
    cases x with
    | error e' => simp [ap]
    | ok a => simp [ap]
  | ok g =>
    cases x with
    | error e => simp [ap]
    | ok a => simp [ap]

end Strongbox
