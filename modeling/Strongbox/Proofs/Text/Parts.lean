import Mathlib.Data.List.DropRight
import Strongbox.Text.Basic

/-!
# Parts of a text

A text begins with another, or holds it, if it is that other with something after it, or around it. A part that lacks
some character does not reach across it.
-/

namespace Strongbox.Text

variable {lead part t u rest : Text} {c : CodePoint}

theorem dropLead?_append (lead t : Text) : dropLead? lead (lead ++ t) = some t := by
  induction lead with
  | nil => rfl
  | cons c lead ih => rw [List.cons_append, dropLead?, if_pos rfl, ih]

theorem dropLead?_eq_some (h : dropLead? lead t = some rest) : t = lead ++ rest := by
  induction lead generalizing t with
  | nil =>
    cases h
    rfl
  | cons a lead ih =>
    cases t with
    | nil => cases h
    | cons b t =>
      simp only [dropLead?] at h
      split at h
      · rename_i hab
        rw [hab, ih h, List.cons_append]
      · cases h

theorem dropLead?_eq_none (h : ∀ rest, t ≠ lead ++ rest) : dropLead? lead t = none := by
  cases found : dropLead? lead t with
  | none => rfl
  | some rest => exact absurd (dropLead?_eq_some found) (h rest)

theorem startsWith_iff : startsWith t lead = true ↔ lead <+: t := by
  constructor
  · intro h
    obtain ⟨rest, found⟩ := Option.isSome_iff_exists.mp h
    exact ⟨rest, (dropLead?_eq_some found).symm⟩
  · rintro ⟨rest, rfl⟩
    rw [startsWith, dropLead?_append]
    rfl

theorem includes_iff : includes t part = true ↔ part <:+: t := by
  induction t with
  | nil => rw [includes, List.isEmpty_iff, List.infix_nil]
  | cons c rest ih => rw [includes, Bool.or_eq_true, startsWith_iff, ih, List.infix_cons_iff]

/-- A part without the character stands on one side of it. -/
theorem infix_append_cons_iff (h : c ∉ part) : part <:+: t ++ c :: u ↔ part <:+: t ∨ part <:+: u := by
  constructor
  · rintro ⟨front, back, whole⟩
    rw [List.append_assoc] at whole
    rcases List.append_eq_append_iff.mp whole with ⟨right, rfl, after⟩ | ⟨left, rfl, after⟩
    · rcases List.append_eq_append_iff.mp after with ⟨middle, rfl, _⟩ | ⟨cut, rfl, tail⟩
      · exact .inl ⟨front, middle, List.append_assoc ..⟩
      · cases cut with
        | nil => exact .inl ⟨front, [], by rw [List.append_nil, List.append_nil]⟩
        | cons d cut =>
          -- the part would hold the character
          obtain ⟨rfl, _⟩ := List.cons.inj tail
          exact absurd (List.mem_append_right right List.mem_cons_self) h
    · cases left with
      | nil =>
        cases part with
        | nil => exact .inl List.nil_infix
        | cons d part =>
          obtain ⟨rfl, _⟩ := List.cons.inj after
          exact absurd List.mem_cons_self h
      | cons d left =>
        obtain ⟨_, rfl⟩ := List.cons.inj after
        exact .inr ⟨left, back, List.append_assoc ..⟩
  · rintro (within | within)
    · exact within.trans (List.prefix_append t _).isInfix
    · exact (within.trans (List.suffix_cons c u).isInfix).trans (List.suffix_append t _).isInfix

end Strongbox.Text
