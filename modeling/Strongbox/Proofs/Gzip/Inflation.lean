import Strongbox.Proofs.Gzip.Format

/-!
# Bounded inflation

Inflation decodes with room for one byte more than the limit. That decides whether the contents fit, and changes
nothing else: the body is what unlimited decoding makes of the first member. What comes after the first member is
not looked at.
-/

namespace Strongbox.Gzip

open Deflate

variable {data member member' tail tail' contents contents' body : Bytes} {d : Decoder} {e : Stop}

theorem decodeMember_ok {limit : Option Nat} :
    decodeMember limit data = .ok d ↔ takeMember (8 * data.length + 1) ⟨.ofBytes data, #[], limit⟩ = .ok ((), d) := by
  constructor
  · intro h
    obtain ⟨⟨_, d⟩, taken, rfl⟩ := map_eq_ok.mp h
    exact taken
  · intro h
    exact map_eq_ok.mpr ⟨((), d), h, rfl⟩

theorem Member.decoded (h : Member member contents) (tail : Bytes) : ∃ d,
    decodeMember none (member ++ tail) = .ok d ∧ d.out.toList = contents ∧ d.bits.rest = Bits.ofOctets tail := by
  obtain ⟨d, taken, out, rest⟩ := takeMember_complete h tail (Nat.lt_succ_self _)
  exact ⟨d, decodeMember_ok.mpr taken, out, rest⟩

theorem member_of_decoded (h : decodeMember none data = .ok d) : ∃ member tail,
    data = member ++ tail ∧ Member member d.out.toList ∧ d.bits.rest = Bits.ofOctets tail :=
  takeMember_sound (decodeMember_ok.mp h)

/-- Data begins with one member at most, and its contents are fixed. -/
theorem Member.unique (h : Member member contents) (h' : Member member' contents')
    (same : member ++ tail = member' ++ tail') : contents = contents' ∧ tail = tail' := by
  obtain ⟨d, decoded, out, rest⟩ := h.decoded tail
  obtain ⟨d', decoded', out', rest'⟩ := h'.decoded tail'
  rw [same, decoded'] at decoded
  cases decoded
  exact ⟨out.symm.trans out', Bits.ofOctets_injective (rest.symm.trans rest')⟩

/-- Under a limit the first member is decoded as without one, unless it fills the limit. -/
theorem decodeMember_limited (data : Bytes) (n : Nat) :
    decodeMember (some n) data = (decodeMember none data).map (·.within (some n)) ∨
      decodeMember (some n) data = .error .full ∧ ∀ {d}, decodeMember none data = .ok d → n ≤ d.out.size := by
  unfold decodeMember
  rcases (regular_takeMember (8 * data.length + 1)).limited ⟨.ofBytes data, #[], none⟩ n with same | ⟨full, most⟩
  · refine .inl ((congrArg (fun r => r.map fun p => p.2) same).trans ?_)
    change Except.map _ (Except.map _ (takeMember (8 * data.length + 1) ⟨.ofBytes data, #[], none⟩)) = _
    cases takeMember (8 * data.length + 1) ⟨.ofBytes data, #[], none⟩ <;> rfl
  · exact .inr ⟨congrArg (fun r => r.map fun p => p.2) full, fun h => most (decodeMember_ok.mp h)⟩

theorem limit_accepted {n : Nat} (fits : (n : Int) + 1 < 0x8000000000000000) :
    ((n : Int) + 1 < -0x8000000000000000 || (n : Int) + 1 ≥ 0x8000000000000000) = false ∧ ¬ (n : Int) < -1 ∧
      ((n : Int) + 1).toNat = n + 1 := by
  rw [Bool.or_eq_false_iff, decide_eq_false_iff_not, decide_eq_false_iff_not]
  omega

theorem inflate_of_ok {n : Nat} (fits : (n : Int) + 1 < 0x8000000000000000) (h : decodeMember none data = .ok d) :
    inflate n data = .ok (if d.out.size ≤ n then some d.out.toList else none) := by
  obtain ⟨inRange, nonneg, room⟩ := limit_accepted fits
  unfold inflate
  simp only [inRange, nonneg, room, Bool.false_eq_true, if_false, Nat.succ_ne_zero]
  rcases decodeMember_limited data (n + 1) with same | ⟨full, most⟩
  · rw [same, h]
    have decided : (if (d.out.size : Int) > n then none else some d.out.toList) =
        if d.out.size ≤ n then some d.out.toList else none := by
      by_cases small : d.out.size ≤ n
      · rw [if_pos small, if_neg (by omega)]
      · rw [if_neg small, if_pos (by omega)]
    exact congrArg Except.ok decided
  · have large : ¬ d.out.size ≤ n := Nat.not_le_of_lt (most h)
    rw [full, if_neg large]

theorem inflate_of_error {n : Nat} (fits : (n : Int) + 1 < 0x8000000000000000)
    (h : decodeMember none data = .error e) :
    inflate n data = .error .corrupt ∨ inflate n data = .ok none := by
  obtain ⟨inRange, nonneg, room⟩ := limit_accepted fits
  unfold inflate
  simp only [inRange, nonneg, room, Bool.false_eq_true, if_false, Nat.succ_ne_zero]
  rcases decodeMember_limited data (n + 1) with same | ⟨full, _⟩
  · rw [same, h]
    cases e with
    | corrupt => exact .inl rfl
    | full => exact .inr rfl
    | truncated written =>
      by_cases more : (written : Int) > n
      · exact .inr (if_pos more)
      · exact .inl (if_neg more)
  · rw [full]
    exact .inr rfl

theorem inflate_some {maxSize : Int} (h : inflate maxSize data = .ok (some body)) :
    maxSize + 1 < 0x8000000000000000 ∧ (body.length : Int) ≤ maxSize := by
  unfold inflate at h
  split at h
  · cases h
  next inRange =>
  split at h
  · cases h
  have fits : maxSize + 1 < 0x8000000000000000 := by
    rw [Bool.or_eq_true, decide_eq_true_iff, decide_eq_true_iff] at inRange
    omega
  refine ⟨fits, ?_⟩
  dsimp only at h
  split at h
  · next d _ =>
    split at h
    · cases h
    · cases h
      rw [Array.length_toList]
      omega
  · cases h
  · cases h
  · split at h <;> cases h

theorem inflate_huge {maxSize : Int} (huge : 0x8000000000000000 ≤ maxSize + 1) (data : Bytes) :
    inflate maxSize data = .error .hugeLimit := by
  have outside : (maxSize + 1 < -0x8000000000000000 || maxSize + 1 ≥ 0x8000000000000000) = true := by
    rw [Bool.or_eq_true, decide_eq_true_iff, decide_eq_true_iff]
    exact .inr huge
  unfold inflate
  rw [if_pos outside]

theorem Member.inflate_eq (h : Member member contents) (tail : Bytes) {n : Nat}
    (fits : (n : Int) + 1 < 0x8000000000000000) :
    inflate n (member ++ tail) = .ok (if contents.length ≤ n then some contents else none) := by
  obtain ⟨d, decoded, rfl, _⟩ := h.decoded tail
  rw [inflate_of_ok fits decoded, Array.length_toList]

/-- Only the whole of a member is a member. -/
theorem Member.cut_short (h : Member member contents) {front missing : Bytes} (parts : front ++ missing = member)
    (short : missing ≠ []) : ∃ e, decodeMember none front = .error e := by
  cases decoded : decodeMember none front with
  | error e => exact ⟨e, rfl⟩
  | ok d =>
    obtain ⟨member', tail, rfl, isMember, _⟩ := member_of_decoded decoded
    have same : member ++ [] = member' ++ (tail ++ missing) := by
      rw [List.append_nil, ← parts, List.append_assoc]
    obtain ⟨_, none⟩ := h.unique isMember same
    exact absurd (List.append_eq_nil_iff.mp none.symm).2 short

/-- Under every limit that fits, a complete member inflates to its contents if they are no longer than the limit, and
to nothing if they are longer; and a member that is cut short never inflates to a body. No limit lets a longer body
through. -/
theorem bounded_inflation {maxSize : Int} (nonneg : 0 ≤ maxSize) :
    (maxSize + 1 < 0x8000000000000000 →
      (∀ member contents tail, Member member contents →
        inflate maxSize (member ++ tail) = .ok (if (contents.length : Int) ≤ maxSize then some contents else none)) ∧
      ∀ front missing contents, Member (front ++ missing) contents → missing ≠ [] →
        inflate maxSize front = .error .corrupt ∨ inflate maxSize front = .ok none) ∧
    (0x8000000000000000 ≤ maxSize + 1 → ∀ data, inflate maxSize data = .error .hugeLimit) ∧
    ∀ data body, inflate maxSize data = .ok (some body) → (body.length : Int) ≤ maxSize := by
  obtain ⟨n, rfl⟩ := Int.eq_ofNat_of_zero_le nonneg
  refine ⟨fun fits => ⟨?_, ?_⟩, inflate_huge, ?_⟩
  · intro member contents tail isMember
    rw [isMember.inflate_eq tail fits]
    simp only [Int.ofNat_le]
  · intro front missing contents isMember short
    obtain ⟨e, failed⟩ := isMember.cut_short rfl short
    exact inflate_of_error fits failed
  · intro data body h
    exact (inflate_some h).2

def letter : Bytes :=
  [0x1F, 0x8B, 8, 0, 0, 0, 0, 0, 2, 0xFF, 0x4B, 4, 0, 0x43, 0xBE, 0xB7, 0xE8, 1, 0, 0, 0]

theorem member_letter : Member letter [97] := by
  have result : (decodeMember none letter).toOption = some ⟨⟨[], 168⟩, #[97], none⟩ := by decide +kernel
  cases decoded : decodeMember none letter with
  | error e =>
    rw [decoded] at result
    cases result
  | ok d =>
    rw [decoded] at result
    cases result
    obtain ⟨member, tail, parts, isMember, rest⟩ := member_of_decoded decoded
    have none : tail = [] := Bits.ofOctets_injective rest.symm
    rw [none, List.append_nil] at parts
    rw [parts]
    exact isMember

/-- The limit itself is long enough, and one byte less is not; without its last byte the member is refused. -/
theorem letter_inflates_within_one : inflate 1 (letter ++ []) = .ok (some [97]) ∧ inflate 0 (letter ++ []) = .ok none ∧
    (inflate 1 letter.dropLast = .error .corrupt ∨ inflate 1 letter.dropLast = .ok none) := by
  have one : (0 : Int) ≤ 1 := by decide
  have zero : (0 : Int) ≤ 0 := by decide
  obtain ⟨whole, short⟩ := (bounded_inflation one).1 (by decide)
  obtain ⟨whole', _⟩ := (bounded_inflation zero).1 (by decide)
  refine ⟨whole letter [97] [] member_letter, whole' letter [97] [] member_letter, ?_⟩
  exact short letter.dropLast [0] [97] member_letter (List.cons_ne_nil 0 [])

/-- The limit and one byte more must be a signed number of 64 bits, whatever the contents are. -/
theorem letter_under_huge_limit :
    Member letter [97] ∧ inflate 0x7FFFFFFFFFFFFFFF letter = .error .hugeLimit :=
  ⟨member_letter, inflate_huge (by decide) letter⟩

theorem Member.marked (h : Member member contents) : ∃ more, member = 0x1F :: 0x8B :: more := by
  obtain ⟨header, stream, _, rfl⟩ := h
  rw [Header.bytes_eq]
  exact ⟨_, rfl⟩

theorem File.marked {file : Bytes} (h : File file contents) : ∃ more, file = 0x1F :: 0x8B :: more := by
  cases h with
  | last isMember => exact isMember.marked
  | cons isMember _ =>
    obtain ⟨more, rfl⟩ := isMember.marked
    exact ⟨_, rfl⟩

/-- A file that begins with a member goes on with another file, or not at all. -/
theorem Member.file_append (h : Member member contents) : File (member ++ tail) contents' ↔
    tail = [] ∧ contents' = contents ∨ ∃ more, File tail more ∧ contents' = contents ++ more := by
  constructor
  · intro file
    generalize parts : member ++ tail = data at file
    cases file with
    | last isMember =>
      have same : member ++ tail = data ++ [] := by rw [parts, List.append_nil]
      obtain ⟨rfl, none⟩ := h.unique isMember same
      exact .inl ⟨none, rfl⟩
    | @cons _ _ _ more isMember file =>
      obtain ⟨rfl, rfl⟩ := h.unique isMember parts
      exact .inr ⟨more, file, rfl⟩
  · intro ends
    rcases ends with ⟨rfl, rfl⟩ | ⟨more, file, rfl⟩
    · rw [List.append_nil]
      exact .last h
    · exact .cons h file

/-- The contents of the first member are those of the file if nothing follows, or a file without contents. -/
theorem Member.file_iff (h : Member member contents) : File (member ++ tail) contents ↔ tail = [] ∨ File tail [] := by
  rw [h.file_append]
  constructor
  · intro ends
    rcases ends with ⟨none, _⟩ | ⟨more, file, same⟩
    · exact .inl none
    · have empty : more = [] := List.append_right_eq_self.mp same.symm
      exact .inr (empty ▸ file)
  · intro ends
    rcases ends with none | file
    · exact .inl ⟨none, rfl⟩
    · exact .inr ⟨[], file, (List.append_nil contents).symm⟩

/-- The body is what the first member holds, whatever comes after it. So it is that of the whole file just when
nothing comes after the member, or only members without contents. -/
theorem inflates_first_member (maxSize : Int) (data body : Bytes) :
    (inflate maxSize data = .ok (some body) ↔ maxSize + 1 < 0x8000000000000000 ∧ (body.length : Int) ≤ maxSize ∧
      ∃ member tail, data = member ++ tail ∧ Member member body) ∧
    ∀ member tail, data = member ++ tail → Member member body → (File data body ↔ tail = [] ∨ File tail []) := by
  refine ⟨⟨?_, ?_⟩, ?_⟩
  · intro h
    obtain ⟨fits, small⟩ := inflate_some h
    obtain ⟨n, rfl⟩ := Int.eq_ofNat_of_zero_le (Int.le_trans (Int.natCast_nonneg body.length) small)
    refine ⟨fits, small, ?_⟩
    cases decoded : decodeMember none data with
    | error e =>
      rcases inflate_of_error fits decoded with refused | large
      · rw [refused] at h
        cases h
      · rw [large] at h
        cases h
    | ok d =>
      obtain ⟨member, tail, rfl, isMember, _⟩ := member_of_decoded decoded
      rw [isMember.inflate_eq tail fits] at h
      split at h
      · cases h
        exact ⟨member, tail, rfl, isMember⟩
      · cases h
  · rintro ⟨fits, small, member, tail, rfl, isMember⟩
    obtain ⟨n, rfl⟩ := Int.eq_ofNat_of_zero_le (Int.le_trans (Int.natCast_nonneg body.length) small)
    rw [isMember.inflate_eq tail fits, if_pos (Int.ofNat_le.mp small)]
  · rintro member tail rfl isMember
    exact isMember.file_iff

theorem second_letter_left_out : inflate 100 (letter ++ letter) = .ok (some [97]) ∧
    (File (letter ++ letter) [97] ↔ letter = [] ∨ File letter []) := by
  obtain ⟨inflates, complete⟩ := inflates_first_member 100 (letter ++ letter) [97]
  refine ⟨inflates.mpr ⟨by decide, by decide, letter, letter, rfl, member_letter⟩, ?_⟩
  exact complete letter letter rfl member_letter

/-- A byte that begins no member is passed over, and so is a second member. -/
theorem rest_of_file_dropped :
    (inflate 100 (letter ++ [0]) = .ok (some [97]) ∧ ∀ contents, ¬ File (letter ++ [0]) contents) ∧
    inflate 100 (letter ++ letter) = .ok (some [97]) ∧ File (letter ++ letter) [97, 97] ∧
      ¬ File (letter ++ letter) [97] := by
  have first (tail : Bytes) : inflate 100 (letter ++ tail) = .ok (some [97]) :=
    member_letter.inflate_eq (n := 100) tail (by decide)
  refine ⟨⟨first [0], ?_⟩, first letter, .cons member_letter (.last member_letter), ?_⟩
  · intro contents file
    rcases member_letter.file_append.mp file with ⟨none, _⟩ | ⟨more, rest, _⟩
    · cases none
    · obtain ⟨_, marked⟩ := rest.marked
      cases marked
  · intro file
    rcases member_letter.file_iff.mp file with none | rest
    · cases none
    · have alone : File (letter ++ []) [] := rest
      rcases member_letter.file_append.mp alone with ⟨_, same⟩ | ⟨_, _, same⟩
      · cases same
      · cases same

end Strongbox.Gzip
