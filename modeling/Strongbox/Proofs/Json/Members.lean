import Strongbox.Json.Basic
import Strongbox.Proofs.Keyed

/-!
# Members by name

What is found under a name after members were set, changed or taken away.
-/

namespace Strongbox.Json

variable {α : Type} {name key : Text} {known : List (Text × α)}

theorem lookup?_cons (name key : Text) (v : α) (rest : List (Text × α)) :
    lookup? name ((key, v) :: rest) = if key = name then some v else lookup? name rest := by
  by_cases h : key = name
  · simp [lookup?, Keyed.find?, Keyed.key, h]
  · simp [lookup?, Keyed.find?, Keyed.key, h]

theorem lookup?_eq_none : lookup? name known = none ↔ name ∉ known.map (·.1) := by
  rw [lookup?, Option.map_eq_none_iff, Keyed.find?_eq_none, List.mem_map, not_exists]
  exact forall_congr' fun m => not_and.symm

theorem lookup?_put (name key : Text) (value : α) (known : List (Text × α)) :
    lookup? name (Keyed.put (key, value) known) = if key = name then some value else lookup? name known := by
  rw [lookup?, Keyed.find?_put]
  split
  · next same => exact (if_pos same).symm
  · next other => exact (if_neg other).symm

/-- A change of one member is seen under its name alone. -/
theorem lookup?_change (name key : Text) (f : α → α) (known : List (Text × α)) :
    lookup? name (known.map fun (n, v) => (n, if n = key then f v else v)) =
      if name = key then (lookup? name known).map f else lookup? name known := by
  induction known with
  | nil => simp [lookup?, Keyed.find?]
  | cons m rest ih =>
    obtain ⟨first, v⟩ := m
    rw [List.map_cons, lookup?_cons, lookup?_cons, ih]
    by_cases h : first = name
    · subst h
      by_cases hk : first = key
      · simp [hk]
      · simp [hk]
    · rw [if_neg h, if_neg h]

theorem lookup?_without (name key : Text) (known : List (Text × α)) :
    lookup? name (known.filter fun m => m.1 ≠ key) = if name = key then none else lookup? name known := by
  induction known with
  | nil => simp [lookup?, Keyed.find?]
  | cons m rest ih =>
    obtain ⟨first, v⟩ := m
    rw [lookup?_cons]
    by_cases hk : first = key
    · rw [List.filter_cons_of_neg (by simp [hk]), ih]
      by_cases h : name = key
      · rw [if_pos h, if_pos h]
      · have other : first ≠ name := fun hf => h (hf.symm.trans hk)
        rw [if_neg h, if_neg h, if_neg other]
    · rw [List.filter_cons_of_pos (by simp [hk]), lookup?_cons, ih]
      by_cases h : first = name
      · have other : name ≠ key := fun hn => hk (h.trans hn)
        rw [if_pos h, if_neg other, if_pos h]
      · rw [if_neg h, if_neg h]

end Strongbox.Json
