import Strongbox.Proofs.Text.Decimal
import Strongbox.Proofs.Text.Parts

/-!
# Fields of a text

The fields of a text are its longest runs of characters that are no blanks. Splitting at one kind of blank cuts no
field, so the fields of the pieces are those of the text.
-/

namespace Strongbox.Text

section Pieces

variable {p q : CodePoint → Bool} {c : CodePoint}

theorem splitBy_cons (p : CodePoint → Bool) (c : CodePoint) (t : Text) :
    splitBy p (c :: t) = if p c then [] :: splitBy p t else
      match splitBy p t with
      | [] => [[c]]
      | piece :: more => (c :: piece) :: more := rfl

theorem splitBy_ne_nil (p : CodePoint → Bool) (t : Text) : splitBy p t ≠ [] := by
  cases t with
  | nil => exact List.cons_ne_nil _ _
  | cons c t =>
    rw [splitBy_cons]
    split
    · exact List.cons_ne_nil _ _
    · split
      · exact List.cons_ne_nil _ _
      · exact List.cons_ne_nil _ _

theorem splitBy_cons_of_pos (hc : p c = true) (t : Text) : splitBy p (c :: t) = [] :: splitBy p t := by
  rw [splitBy_cons, if_pos hc]

theorem splitBy_cons_of_neg (hc : p c = false) {t piece : Text} {more : List Text} (h : splitBy p t = piece :: more) :
    splitBy p (c :: t) = (c :: piece) :: more := by
  rw [splitBy_cons, h, hc]
  rfl

/-- A separator ends a piece, whatever stands before and after it. -/
theorem splitBy_append (hc : p c = true) (t u : Text) : splitBy p (t ++ c :: u) = splitBy p t ++ splitBy p u := by
  induction t with
  | nil => exact splitBy_cons_of_pos hc u
  | cons d t ih =>
    cases hd : p d with
    | true => rw [List.cons_append, splitBy_cons_of_pos hd, splitBy_cons_of_pos hd, ih, List.cons_append]
    | false =>
      obtain ⟨piece, more, pieces⟩ := List.exists_cons_of_ne_nil (splitBy_ne_nil p t)
      have joined : splitBy p (t ++ c :: u) = piece :: (more ++ splitBy p u) := by
        rw [ih, pieces, List.cons_append]
      rw [List.cons_append, splitBy_cons_of_neg hd joined, splitBy_cons_of_neg hd pieces, List.cons_append]

/-- The first piece ends where the first separator stands. -/
theorem splitBy_piece {piece : Text} (rest : Text) (h : ∀ d ∈ piece, p d = false) (hc : p c = true) :
    splitBy p (piece ++ c :: rest) = piece :: splitBy p rest := by
  rw [splitBy_append hc, splitBy_of_none h, List.singleton_append]

theorem splitBy_eq_splitOnP (p : CodePoint → Bool) (t : Text) : splitBy p t = t.splitOnP p := by
  induction t with
  | nil => rfl
  | cons c t ih =>
    obtain ⟨piece, more, pieces⟩ := List.exists_cons_of_ne_nil (splitBy_ne_nil p t)
    rw [List.splitOnP_cons_eq_if_modifyHead, ← ih, splitBy_cons, pieces, List.modifyHead_cons]

/-- The pieces with the separators between them are the text again. -/
theorem join_splitBy (c : CodePoint) (t : Text) : join [c] (splitBy (· == c) t) = t := by
  rw [join, splitBy_eq_splitOnP, ← List.splitOn_eq_splitOnP, List.intercalate_splitOn]

/-- Pieces between some of the separators are split further at the others. -/
theorem splitBy_flatMap (within : ∀ c, p c = true → q c = true) (t : Text) :
    (splitBy p t).flatMap (splitBy q) = splitBy q t := by
  induction t with
  | nil => rfl
  | cons c t ih =>
    obtain ⟨piece, more, pieces⟩ := List.exists_cons_of_ne_nil (splitBy_ne_nil p t)
    cases hp : p c with
    | true =>
      rw [splitBy_cons_of_pos hp, splitBy_cons_of_pos (within c hp), List.flatMap_cons, ih]
      rfl
    | false =>
      rw [pieces, List.flatMap_cons] at ih
      rw [splitBy_cons_of_neg hp pieces, List.flatMap_cons]
      cases hq : q c with
      | true => rw [splitBy_cons_of_pos hq, splitBy_cons_of_pos hq, ← ih, List.cons_append]
      | false =>
        obtain ⟨first, others, cut⟩ := List.exists_cons_of_ne_nil (splitBy_ne_nil q piece)
        rw [cut, List.cons_append] at ih
        rw [splitBy_cons_of_neg hq cut, splitBy_cons_of_neg hq ih.symm, List.cons_append]

/-- No separator is left within a piece. -/
theorem not_mem_of_mem_splitBy {t piece : Text} (h : piece ∈ splitBy p t) (hc : c ∈ piece) : p c = false := by
  induction t generalizing piece with
  | nil =>
    rw [List.mem_singleton.mp h] at hc
    cases hc
  | cons d t ih =>
    obtain ⟨first, more, pieces⟩ := List.exists_cons_of_ne_nil (splitBy_ne_nil p t)
    cases hd : p d with
    | true =>
      rw [splitBy_cons_of_pos hd] at h
      rcases List.mem_cons.mp h with rfl | h
      · cases hc
      · exact ih h hc
    | false =>
      rw [splitBy_cons_of_neg hd pieces] at h
      rcases List.mem_cons.mp h with rfl | h
      · rcases List.mem_cons.mp hc with rfl | hc
        · exact hd
        · exact ih (pieces ▸ List.mem_cons_self) hc
      · exact ih (pieces ▸ List.mem_cons_of_mem first h) hc

end Pieces

def fields (t : Text) : List Text := (splitBy isBlank t).filter fun piece => !piece.isEmpty

/-- Text that can be a field: some characters, and no blank among them. -/
structure IsField (t : Text) : Prop where
  filled : t ≠ []
  solid : ∀ c ∈ t, isBlank c = false

variable {t u lead gap trail field : Text} {c : CodePoint}

theorem isField_of_mem (h : field ∈ fields t) : IsField field := by
  obtain ⟨piece, filled⟩ := List.mem_filter.mp h
  refine ⟨?_, fun c hc => not_mem_of_mem_splitBy piece hc⟩
  rintro rfl
  cases filled

theorem fields_append (hc : isBlank c = true) (t u : Text) : fields (t ++ c :: u) = fields t ++ fields u := by
  rw [fields, splitBy_append hc, List.filter_append]
  rfl

theorem fields_cons (hc : isBlank c = true) (t : Text) : fields (c :: t) = fields t := fields_append hc [] t

theorem fields_flatMap {p : CodePoint → Bool} (blanks : ∀ c, p c = true → isBlank c = true) (t : Text) :
    (splitBy p t).flatMap fields = fields t := by
  have pieces := congrArg (List.filter fun piece => !piece.isEmpty) (splitBy_flatMap blanks t)
  rw [List.filter_flatMap] at pieces
  exact pieces

theorem fields_blank (h : ∀ c ∈ t, isBlank c = true) : fields t = [] := by
  induction t with
  | nil => rfl
  | cons c t ih =>
    rw [fields_cons (h c List.mem_cons_self), ih fun d hd => h d (List.mem_cons_of_mem c hd)]

theorem IsField.fields_eq (h : IsField t) : fields t = [t] := by
  have filled : (!t.isEmpty) = true := by
    rw [List.isEmpty_eq_false_iff.mpr h.filled]
    rfl
  rw [fields, splitBy_of_none h.solid]
  exact List.filter_cons_of_pos filled

/-- Blanks before a text hold no field, and blanks after it neither. -/
theorem fields_lead (h : ∀ c ∈ lead, isBlank c = true) (t : Text) : fields (lead ++ t) = fields t := by
  induction lead with
  | nil => rfl
  | cons c lead ih =>
    rw [List.cons_append, fields_cons (h c List.mem_cons_self), ih fun d hd => h d (List.mem_cons_of_mem c hd)]

theorem fields_trail (h : ∀ c ∈ trail, isBlank c = true) (t : Text) : fields (t ++ trail) = fields t := by
  cases trail with
  | nil => rw [List.append_nil]
  | cons c trail =>
    rw [fields_append (h c List.mem_cons_self), fields_blank fun d hd => h d (List.mem_cons_of_mem c hd),
      List.append_nil]

/-- Blanks between two texts keep their fields apart. -/
theorem fields_gap (some : gap ≠ []) (h : ∀ c ∈ gap, isBlank c = true) (t u : Text) :
    fields (t ++ gap ++ u) = fields t ++ fields u := by
  obtain ⟨c, rest, rfl⟩ := List.exists_cons_of_ne_nil some
  rw [List.append_assoc, List.cons_append, fields_append (h c List.mem_cons_self),
    fields_lead fun d hd => h d (List.mem_cons_of_mem c hd)]

/-- A field ends at the first blank. -/
theorem IsField.fields_append (h : IsField field) {rest : Text} (ends : ∀ c, rest.head? = some c → isBlank c = true) :
    fields (field ++ rest) = field :: fields rest := by
  cases rest with
  | nil => rw [List.append_nil, h.fields_eq, fields_blank (List.forall_mem_nil _)]
  | cons c rest =>
    have blank : isBlank c = true := ends c List.head?_cons
    rw [Text.fields_append blank, h.fields_eq, fields_cons blank, List.singleton_append]

/-- A text holds blanks alone, or it begins with its first field, perhaps after blanks. -/
theorem fields_cases (t : Text) : (∀ c ∈ t, isBlank c = true) ∨
    ∃ lead field rest, t = lead ++ field ++ rest ∧ (∀ c ∈ lead, isBlank c = true) ∧ IsField field ∧
      fields t = field :: fields rest := by
  cases hd : t.dropWhile isBlank with
  | nil => exact .inl (List.dropWhile_eq_nil_iff.mp hd)
  | cons c core =>
    right
    have before : ∀ d ∈ t.takeWhile isBlank, isBlank d = true := fun d hd => List.mem_takeWhile_imp hd
    have seen : isBlank c = false := by
      have stop := List.head?_dropWhile_not isBlank t
      rw [hd] at stop
      exact stop
    have run : IsField (c :: core.takeWhile fun d => !isBlank d) := by
      refine ⟨List.cons_ne_nil _ _, fun d hd => ?_⟩
      rcases List.mem_cons.mp hd with rfl | hd
      · exact seen
      · simpa using List.mem_takeWhile_imp hd
    have ends : ∀ d, (core.dropWhile fun d => !isBlank d).head? = some d → isBlank d = true := by
      intro d hd
      have stop := List.head?_dropWhile_not (fun d => !isBlank d) core
      rw [hd] at stop
      simpa using stop
    have whole : t = t.takeWhile isBlank ++ ((c :: core.takeWhile fun d => !isBlank d) ++
        core.dropWhile fun d => !isBlank d) := by
      rw [List.cons_append, List.takeWhile_append_dropWhile, ← hd, List.takeWhile_append_dropWhile]
    refine ⟨_, _, _, by rwa [List.append_assoc], before, run, ?_⟩
    rw [whole, fields_lead before, run.fields_append ends]

theorem blank_of_fields (h : fields t = []) : ∀ c ∈ t, isBlank c = true := by
  rcases fields_cases t with blank | ⟨_, _, _, _, _, _, cut⟩
  · exact blank
  · rw [h] at cut
    cases cut

/-- A text is what trimming leaves of it, with blanks around. -/
theorem strip_parts (t : Text) : ∃ lead trail, t = lead ++ strip t ++ trail ∧ (∀ c ∈ lead, isBlank c = true) ∧
    ∀ c ∈ trail, isBlank c = true := by
  have front := List.takeWhile_append_dropWhile (p := isBlank) (l := t)
  have back := congrArg List.reverse
    (List.takeWhile_append_dropWhile (p := isBlank) (l := (t.dropWhile isBlank).reverse))
  rw [List.reverse_append, List.reverse_reverse] at back
  refine ⟨t.takeWhile isBlank, ((t.dropWhile isBlank).reverse.takeWhile isBlank).reverse, ?_, ?_, ?_⟩
  · rw [List.append_assoc]
    exact (back ▸ front).symm
  · exact fun c hc => List.mem_takeWhile_imp hc
  · exact fun c hc => List.mem_takeWhile_imp (List.mem_reverse.mp hc)

theorem fields_strip (t : Text) : fields (strip t) = fields t := by
  obtain ⟨lead, trail, whole, before, after⟩ := strip_parts t
  have same := fields_trail after (lead ++ strip t)
  rw [← whole, fields_lead before] at same
  exact same.symm

theorem IsField.reverse (h : IsField field) : IsField field.reverse :=
  ⟨List.reverse_ne_nil_iff.mpr h.filled, fun c hc => h.solid c (List.mem_reverse.mp hc)⟩

theorem IsField.dropWhile_append (h : IsField field) (u : Text) : (field ++ u).dropWhile isBlank = field ++ u := by
  obtain ⟨c, rest, rfl⟩ := List.exists_cons_of_ne_nil h.filled
  exact List.dropWhile_cons_of_neg (by simp [h.solid c List.mem_cons_self])

/-- Of a field with blanks around trimming leaves the field. -/
theorem IsField.strip_eq (h : IsField field) (before : ∀ c ∈ lead, isBlank c = true)
    (after : ∀ c ∈ trail, isBlank c = true) : strip (lead ++ field ++ trail) = field := by
  have front : (lead ++ field ++ trail).dropWhile isBlank = field ++ trail := by
    rw [List.append_assoc, List.dropWhile_append_of_pos before, h.dropWhile_append]
  have back : (field ++ trail).reverse.dropWhile isBlank = field.reverse := by
    have kept := h.reverse.dropWhile_append []
    rw [List.append_nil] at kept
    rw [List.reverse_append, List.dropWhile_append_of_pos fun c hc => after c (List.mem_reverse.mp hc), kept]
  rw [strip, trimBy, front, back, List.reverse_reverse]

theorem strip_blank (h : ∀ c ∈ t, isBlank c = true) : strip t = [] := by
  rw [strip, trimBy, List.dropWhile_eq_nil_iff.mpr h]
  rfl

theorem strip_eq_nil_iff : strip t = [] ↔ fields t = [] := by
  constructor
  · intro h
    rw [← fields_strip, h]
    rfl
  · exact fun h => strip_blank (blank_of_fields h)

/-- A text with one field is trimmed to it. -/
theorem strip_of_fields (h : fields t = [field]) : strip t = field := by
  rcases fields_cases t with blank | ⟨lead, first, rest, rfl, before, isField, cut⟩
  · rw [fields_blank blank] at h
    cases h
  · rw [h] at cut
    obtain ⟨rfl, none⟩ := List.cons.inj cut
    exact isField.strip_eq before (blank_of_fields none.symm)

/-- Of a field and what follows it trimming leaves all but the blanks at the end. -/
theorem IsField.strip_append (h : IsField field) (before : ∀ c ∈ lead, isBlank c = true)
    (after : ∀ c ∈ trail, isBlank c = true) : strip (lead ++ field ++ t ++ trail) = field ++ t.rdropWhile isBlank := by
  have front : (lead ++ field ++ t ++ trail).dropWhile isBlank = field ++ (t ++ trail) := by
    rw [List.append_assoc, List.append_assoc, List.dropWhile_append_of_pos before, h.dropWhile_append]
  have back : (field ++ (t ++ trail)).reverse.dropWhile isBlank = t.reverse.dropWhile isBlank ++ field.reverse := by
    rw [List.reverse_append, List.reverse_append, List.append_assoc,
      List.dropWhile_append_of_pos fun c hc => after c (List.mem_reverse.mp hc), List.dropWhile_append]
    cases t.reverse.dropWhile isBlank with
    | nil =>
      have kept := h.reverse.dropWhile_append []
      rw [List.append_nil] at kept
      exact kept
    | cons c more => rfl
  rw [strip, trimBy, front, back, List.reverse_append, List.reverse_reverse, List.rdropWhile]

theorem IsField.strip_eq_self_iff (h : IsField field) : strip (field ++ t) = field ++ t ↔ t.rdropWhile isBlank = t := by
  have trimmed := h.strip_append (t := t) (List.forall_mem_nil _) (List.forall_mem_nil _)
  rw [List.nil_append, List.append_nil] at trimmed
  rw [trimmed, List.append_cancel_left_eq]

theorem strip_strip (t : Text) : strip (strip t) = strip t := by
  rcases fields_cases t with blank | ⟨lead, field, rest, rfl, before, isField, _⟩
  · rw [strip_blank blank]
    rfl
  · have trimmed := isField.strip_append (t := rest) before (List.forall_mem_nil _)
    rw [List.append_nil] at trimmed
    rw [trimmed, isField.strip_eq_self_iff, List.rdropWhile_idempotent]

/-- A field does not reach into blanks that follow. -/
theorem IsField.infix_append_blank (h : IsField field) (blank : ∀ c ∈ trail, isBlank c = true) :
    field <:+: t ++ trail ↔ field <:+: t := by
  obtain ⟨c, more, rfl⟩ := List.exists_cons_of_ne_nil h.filled
  have seen : isBlank c = false := h.solid c List.mem_cons_self
  cases trail with
  | nil => rw [List.append_nil]
  | cons d trail =>
    have missing : d ∉ c :: more := by
      intro hd
      have solid := h.solid d hd
      rw [blank d List.mem_cons_self] at solid
      cases solid
    rw [infix_append_cons_iff missing]
    apply or_iff_left
    intro within
    rw [blank c (List.mem_cons_of_mem d (within.subset List.mem_cons_self))] at seen
    cases seen

theorem IsField.infix_rdropWhile (h : IsField field) : field <:+: t.rdropWhile isBlank ↔ field <:+: t := by
  have blank : ∀ c ∈ t.rtakeWhile isBlank, isBlank c = true := by
    intro c hc
    exact List.mem_rtakeWhile_imp hc
  have whole := h.infix_append_blank (t := t.rdropWhile isBlank) blank
  rw [List.rdropWhile_append_rtakeWhile] at whole
  exact whole.symm

end Strongbox.Text
