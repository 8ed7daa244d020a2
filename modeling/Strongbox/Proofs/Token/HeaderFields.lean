import Strongbox.Proofs.Text.Fields
import Strongbox.Proofs.Token.Lifetime

/-!
# The token in an authorization header

The header is cut at its spaces, and only what stands between the first space and the second is looked at. That is the
second field of the header if a single space, and no other blank, stands before it; other blanks mislead.
-/

namespace Strongbox.Token

open Text

variable {value first second token scheme gap : Text} {more : List Text}

theorem ofHeader_of_two_pieces (pieces : splitBy (· == 32) value = first :: second :: more) :
    ofHeader (some value) =
      if strip second = [] then Outcome.reject (.rejected .emptyToken) else .ok (strip second) := by
  cases value with
  | nil => cases pieces
  | cons c rest => simp only [ofHeader, pieces, List.isEmpty_iff]

theorem ofHeader_of_one_piece (filled : value ≠ []) (pieces : splitBy (· == 32) value = [first]) :
    ofHeader (some value) = Outcome.reject (.rejected .malformedHeader) := by
  cases value with
  | nil => exact absurd rfl filled
  | cons c rest => simp only [ofHeader, pieces]

/-- A header has one piece, or more. -/
theorem pieces_cases (value : Text) : (∃ first, splitBy (· == 32) value = [first]) ∨
    ∃ first second more, splitBy (· == 32) value = first :: second :: more := by
  obtain ⟨first, rest, pieces⟩ := List.exists_cons_of_ne_nil (splitBy_ne_nil (· == 32) value)
  cases rest with
  | nil => exact .inl ⟨first, pieces⟩
  | cons second more => exact .inr ⟨first, second, more, pieces⟩

theorem isBlank_space {c : CodePoint} (h : (c == 32) = true) : isBlank c = true := by
  rw [eq_of_beq h]
  rfl

theorem fields_of_pieces (pieces : splitBy (· == 32) value = first :: second :: more) :
    fields value = fields first ++ fields second ++ more.flatMap fields := by
  rw [← fields_flatMap fun _ => isBlank_space, pieces, List.flatMap_cons, List.flatMap_cons, List.append_assoc]

/-- The token comes from the second piece. -/
theorem ofHeader_ok (h : ofHeader (some value) = .ok token) : ∃ first second more,
    splitBy (· == 32) value = first :: second :: more ∧ strip second = token ∧ fields second ≠ [] := by
  have filled : value ≠ [] := by
    rintro rfl
    cases h
  rcases pieces_cases value with ⟨first, pieces⟩ | ⟨first, second, more, pieces⟩
  · rw [ofHeader_of_one_piece filled pieces] at h
    cases h
  · rw [ofHeader_of_two_pieces pieces] at h
    by_cases none : strip second = []
    · rw [if_pos none] at h
      cases h
    · rw [if_neg none] at h
      cases h
      exact ⟨first, second, more, pieces, rfl, fun h => none (strip_eq_nil_iff.mpr h)⟩

theorem ofHeader_of_field (pieces : splitBy (· == 32) value = first :: second :: more) (h : fields second = [token]) :
    ofHeader (some value) = .ok token := by
  have filled : strip second ≠ [] := by
    rw [Ne, strip_eq_nil_iff, h]
    exact List.cons_ne_nil _ _
  rw [ofHeader_of_two_pieces pieces, if_neg filled, strip_of_fields h]

/-- Before its first space a header has one field, and before the second space one more. -/
def OneSpaced (value scheme token : Text) : Prop :=
  ∃ first second more, splitBy (· == 32) value = first :: second :: more ∧ fields first = [scheme] ∧
    fields second = [token]

theorem OneSpaced.fields_eq (h : OneSpaced value scheme token) : ∃ others, fields value = scheme :: token :: others := by
  obtain ⟨first, second, more, pieces, before, field⟩ := h
  exact ⟨more.flatMap fields, by rw [fields_of_pieces pieces, before, field]; rfl⟩

theorem OneSpaced.ofHeader_eq (h : OneSpaced value scheme token) : ofHeader (some value) = .ok token := by
  obtain ⟨first, second, more, pieces, _, field⟩ := h
  exact ofHeader_of_field pieces field

/-- An entry that a list holds once is at the place where it was found. -/
theorem length_of_count {before after : List Text} (once : (before ++ token :: after).count token = 1) {i : Nat}
    (h : (before ++ token :: after)[i]? = some token) : before.length = i := by
  rw [List.count_append, List.count_cons_self] at once
  have fresh : token ∉ before := List.count_eq_zero.mp (by omega)
  have last : token ∉ after := List.count_eq_zero.mp (by omega)
  rcases Nat.lt_trichotomy i before.length with early | same | late
  · rw [List.getElem?_append_left early] at h
    exact absurd (List.mem_of_getElem? h) fresh
  · exact same.symm
  · obtain ⟨k, rfl⟩ := Nat.exists_eq_add_of_lt late
    rw [List.getElem?_append_right (by omega), Nat.add_assoc, Nat.add_sub_cancel_left, List.getElem?_cons_succ] at h
    exact absurd (List.mem_of_getElem? h) last

/-- If the token is the second field, and no other one, then the header has single spaces. -/
theorem oneSpaced_of_ok (h : ofHeader (some value) = .ok token) (field : (fields value)[1]? = some token)
    (once : (fields value).count token = 1) : ∃ scheme, OneSpaced value scheme token := by
  obtain ⟨first, second, more, pieces, trimmed, _⟩ := ofHeader_ok h
  have isField : IsField token := isField_of_mem (List.mem_of_getElem? field)
  have alone : fields second = [token] := by
    rw [← fields_strip, trimmed, isField.fields_eq]
  rw [fields_of_pieces pieces, alone, List.append_assoc, List.singleton_append] at field once
  obtain ⟨scheme, before⟩ := List.length_eq_one_iff.mp (length_of_count once field)
  exact ⟨scheme, first, second, more, pieces, before, alone⟩

/-- A header with less than two fields has a token if its field stands between the first space and the second. -/
theorem ofHeader_of_few (few : (fields value).length < 2) : ofHeader (some value) = .ok token ↔
    ∃ first second more, splitBy (· == 32) value = first :: second :: more ∧ fields first = [] ∧
      fields second = [token] := by
  constructor
  · intro h
    obtain ⟨first, second, more, pieces, trimmed, filled⟩ := ofHeader_ok h
    obtain ⟨field, others, cut⟩ := List.exists_cons_of_ne_nil filled
    rw [fields_of_pieces pieces, cut] at few
    simp only [List.length_append, List.length_cons] at few
    have before : fields first = [] := List.length_eq_zero_iff.mp (by omega)
    have alone : others = [] := List.length_eq_zero_iff.mp (by omega)
    subst alone
    rw [strip_of_fields cut] at trimmed
    exact ⟨first, second, more, pieces, before, trimmed ▸ cut⟩
  · rintro ⟨first, second, more, pieces, _, field⟩
    exact ofHeader_of_field pieces field

theorem pieces_whole (h : 32 ∉ value) : splitBy (· == 32) value = [value] :=
  splitBy_of_none fun _ hc => beq_eq_false_iff_ne.mpr fun same => h (same ▸ hc)

theorem pieces_first (h : 32 ∉ first) (rest : Text) :
    splitBy (· == 32) (first ++ 32 :: rest) = first :: splitBy (· == 32) rest :=
  splitBy_piece rest (fun _ hc => beq_eq_false_iff_ne.mpr fun same => h (same ▸ hc)) (beq_self_eq_true 32)

theorem space_not_mem (h : IsField token) : 32 ∉ token := by
  intro hc
  have solid := h.solid 32 hc
  cases solid

/-- What becomes of a header with a scheme and a token depends on the spaces among the blanks between them. -/
theorem ofHeader_of_gap (before : IsField scheme) (field : IsField token) (blank : ∀ c ∈ gap, isBlank c = true) :
    ofHeader (some (scheme ++ gap ++ token)) =
      if gap.count 32 = 0 then Outcome.reject (.rejected .malformedHeader)
      else if gap.count 32 = 1 then .ok token
      else Outcome.reject (.rejected .emptyToken) := by
  by_cases none : gap.count 32 = 0
  · have spaceless : 32 ∉ scheme ++ gap ++ token := by
      simp [space_not_mem before, space_not_mem field, List.count_eq_zero.mp none]
    have filled : scheme ++ gap ++ token ≠ [] := List.append_ne_nil_of_right_ne_nil _ field.filled
    rw [if_pos none, ofHeader_of_one_piece filled (pieces_whole spaceless)]
  rw [if_neg none]
  -- the first piece ends with the first space of the gap
  obtain ⟨front, back, rfl, fresh⟩ := List.eq_append_cons_of_mem (List.count_pos_iff.mp (Nat.pos_of_ne_zero none))
  have opening : splitBy (· == 32) (scheme ++ (front ++ 32 :: back) ++ token) =
      (scheme ++ front) :: splitBy (· == 32) (back ++ token) := by
    have spaceless : 32 ∉ scheme ++ front := by simp [space_not_mem before, fresh]
    rw [← pieces_first spaceless]
    simp only [List.append_assoc, List.cons_append]
  have blankBack : ∀ c ∈ back, isBlank c = true := fun c hc =>
    blank c (List.mem_append_right front (List.mem_cons_of_mem 32 hc))
  have counted : (front ++ 32 :: back).count 32 = back.count 32 + 1 := by
    rw [List.count_append, List.count_eq_zero.mpr fresh, List.count_cons_self, Nat.zero_add]
  rw [counted]
  by_cases one : back.count 32 = 0
  · have spaceless : 32 ∉ back ++ token := by simp [space_not_mem field, List.count_eq_zero.mp one]
    have alone : fields (back ++ token) = [token] := by rw [fields_lead blankBack, field.fields_eq]
    rw [pieces_whole spaceless] at opening
    rw [if_pos (by omega), ofHeader_of_field opening alone]
  · obtain ⟨between, tail, rfl, fresh'⟩ :=
      List.eq_append_cons_of_mem (List.count_pos_iff.mp (Nat.pos_of_ne_zero one))
    have next : splitBy (· == 32) (between ++ 32 :: tail ++ token) = between :: splitBy (· == 32) (tail ++ token) := by
      rw [List.append_assoc, List.cons_append, pieces_first fresh']
    have empty : strip between = [] := strip_blank fun c hc => blankBack c (List.mem_append_left _ hc)
    rw [next] at opening
    rw [if_neg (by omega), ofHeader_of_two_pieces opening, if_pos empty]

theorem ofHeader_error {f : Failure} (filled : value ≠ []) (h : ofHeader (some value) = .error f) :
    f = .vault (.rejected .malformedHeader) ∨ f = .vault (.rejected .emptyToken) := by
  rcases pieces_cases value with ⟨first, pieces⟩ | ⟨first, second, more, pieces⟩
  · rw [ofHeader_of_one_piece filled pieces] at h
    cases h
    exact .inl rfl
  · rw [ofHeader_of_two_pieces pieces] at h
    by_cases none : strip second = []
    · rw [if_pos none] at h
      cases h
      exact .inr rfl
    · rw [if_neg none] at h
      cases h

theorem solid_encodeUrl {data : Bytes} {c : CodePoint} (h : c ∈ Base64.encodeUrl data) : isBlank c = false := by
  have table : ∀ v < 64, isBlank (Base64.symbol 45 95 v) = false := by decide
  rw [Base64.encodeUrl, Base64.encodeWith_eq] at h
  obtain ⟨v, hv, rfl⟩ := List.mem_map.mp h
  exact table v (Base64.sextets_lt hv)

theorem isField_issued {s : Settings} {now lifetime userId : Int} (issued : issueFor s now lifetime userId = .ok token) :
    IsField token := by
  obtain ⟨_, _, _, _, _, _, rfl⟩ := issueFor_ok issued
  have joined : ∀ {t u : Text}, (∀ c ∈ t, isBlank c = false) → (∀ c ∈ u, isBlank c = false) →
      ∀ c ∈ t ++ 46 :: u, isBlank c = false := by
    intro t u ht hu c hc
    rcases List.mem_append.mp hc with hc | hc
    · exact ht c hc
    · rcases List.mem_cons.mp hc with rfl | hc
      · rfl
      · exact hu c hc
  refine ⟨List.append_ne_nil_of_right_ne_nil _ (List.cons_ne_nil _ _), ?_⟩
  exact joined (joined (fun _ => solid_encodeUrl) fun _ => solid_encodeUrl) fun _ => solid_encodeUrl

/-- A header with a field before its first space and another one before the second has the second field as its token.
Of a header whose second field occurs once nothing else gives that field, and a header with less than two fields has a
token only if it begins with one space, perhaps among other blanks. So a scheme and an issued token are authenticated
as the token is, if there is exactly one space among the blanks between them, and refused otherwise. -/
theorem second_field_after_one_space {value : Text} (filled : value ≠ []) :
    (∀ f, ofHeader (some value) = .error f →
      f = .vault (.rejected .malformedHeader) ∨ f = .vault (.rejected .emptyToken)) ∧
    (∀ scheme token, OneSpaced value scheme token →
      ofHeader (some value) = .ok token ∧ ∃ others, fields value = scheme :: token :: others) ∧
    (∀ token, (fields value)[1]? = some token → (fields value).count token = 1 →
      ofHeader (some value) = .ok token → ∃ scheme, OneSpaced value scheme token) ∧
    ((fields value).length < 2 → ∀ token, ofHeader (some value) = .ok token ↔
      ∃ first second more, splitBy (· == 32) value = first :: second :: more ∧ fields first = [] ∧
        fields second = [token]) ∧
    ∀ {s : Settings} {now lifetime userId : Int} {scheme gap token : Text},
      issueFor s now lifetime userId = .ok token → IsField scheme → gap ≠ [] → (∀ c ∈ gap, isBlank c = true) →
      value = scheme ++ gap ++ token → fields value = [scheme, token] ∧ ∀ later, authenticate s later (some value) =
        if gap.count 32 = 0 then Outcome.reject (.rejected .malformedHeader)
        else if gap.count 32 = 1 then verify s later token
        else Outcome.reject (.rejected .emptyToken) := by
  refine ⟨fun f => ofHeader_error filled, fun scheme token h => ⟨h.ofHeader_eq, h.fields_eq⟩,
    fun token field once h => oneSpaced_of_ok h field once, fun few token => ofHeader_of_few few, ?_⟩
  rintro s now lifetime userId scheme gap token issued before some blank rfl
  have field := isField_issued issued
  refine ⟨?_, fun later => ?_⟩
  · rw [fields_gap some blank, before.fields_eq, field.fields_eq, List.singleton_append]
  · rw [authenticate, ofHeader_of_gap before field blank]
    by_cases none : gap.count 32 = 0
    · rw [if_pos none, if_pos none]
      rfl
    · rw [if_neg none, if_neg none]
      by_cases one : gap.count 32 = 1
      · rw [if_pos one, if_pos one, bind_of_ok rfl]
      · rw [if_neg one, if_neg one]
        rfl

/-- A tab and a space stand between scheme and token, or two spaces. -/
theorem sample_token_after_one_space :
    authenticate sampleSettings 5 (some (Text.ofString "Bearer" ++ [9, 32] ++ sampleToken)) =
      verify sampleSettings 5 sampleToken ∧
    authenticate sampleSettings 5 (some (Text.ofString "Bearer" ++ [32, 32] ++ sampleToken)) =
      Outcome.reject (.rejected .emptyToken) := by
  have issued : issueFor sampleSettings 0 3600000000 1 = .ok sampleToken := by decide +kernel
  have scheme : IsField (Text.ofString "Bearer") := ⟨by decide, by decide⟩
  have filled (gap : Text) : Text.ofString "Bearer" ++ gap ++ sampleToken ≠ [] := List.cons_ne_nil _ _
  obtain ⟨_, _, _, _, tabbed⟩ := second_field_after_one_space (filled [9, 32])
  obtain ⟨_, _, _, _, doubled⟩ := second_field_after_one_space (filled [32, 32])
  constructor
  · rw [(tabbed issued scheme (by decide) (by decide) rfl).2 5, if_neg (by decide), if_pos (by decide)]
  · rw [(doubled issued scheme (by decide) (by decide) rfl).2 5, if_neg (by decide), if_neg (by decide)]

/-- With two spaces or with a tab between scheme and token the second field is not found; after one space a lone field
passes for a token. -/
theorem second_field_missed :
    (fields (Text.ofString "Bearer  t") = [Text.ofString "Bearer", Text.ofString "t"] ∧
      ofHeader (some (Text.ofString "Bearer  t")) = Outcome.reject (.rejected .emptyToken)) ∧
    (fields (Text.ofString "Bearer\tt") = [Text.ofString "Bearer", Text.ofString "t"] ∧
      ofHeader (some (Text.ofString "Bearer\tt")) = Outcome.reject (.rejected .malformedHeader)) ∧
    fields (Text.ofString " t") = [Text.ofString "t"] ∧
      ofHeader (some (Text.ofString " t")) = .ok (Text.ofString "t") := by
  decide

end Strongbox.Token
