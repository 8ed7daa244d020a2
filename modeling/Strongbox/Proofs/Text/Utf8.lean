import Strongbox.Text.Utf8

/-!
# Laws of UTF-8

What was encoded is read back. What can be read without surrogates is read alike with them. A zero byte is read
as a zero, and nothing that was read is lost.
-/

namespace Strongbox

def Text.Ascii (t : Text) : Prop := ∀ c ∈ t, c < 128

namespace Text.Ascii

theorem nil : Ascii [] := by simp [Ascii]

theorem cons {c : CodePoint} {t : Text} (hc : c < 128) (ht : Ascii t) : Ascii (c :: t) := by
  intro d hd
  rcases List.mem_cons.mp hd with rfl | hd
  · exact hc
  · exact ht d hd

theorem append {t u : Text} (ht : Ascii t) (hu : Ascii u) : Ascii (t ++ u) := by
  intro c hc
  rcases List.mem_append.mp hc with hc | hc
  · exact ht c hc
  · exact hu c hc

end Text.Ascii

namespace Utf8

open Progress

theorem toNat_toUInt8 {n : Nat} (h : n < 256) : n.toUInt8.toNat = n := by
  simp only [Nat.toUInt8_eq, UInt8.toNat_ofNat']
  omega

theorem step_first (surrogates : Bool) (read : Text) {b : Nat} (h : b < 256) :
    step surrogates (.between read) b.toUInt8 = first read b := by
  rw [step, toNat_toUInt8 h]

theorem step_tail {surrogates : Bool} {read : Text} {value owed least b : Nat} (h : b < 64)
    (ho : 1 < owed) : step surrogates (.within read value owed least) (0x80 + b).toUInt8 =
      .within read (value * 64 + b) (owed - 1) least := by
  have low : ¬ 0x80 + b < 0x80 := by omega
  have high : ¬ 0xC0 ≤ 0x80 + b := by omega
  simp only [step, toNat_toUInt8 (show 0x80 + b < 256 by omega), low, high, ho, decide_false, Bool.or_self,
    Bool.false_eq_true, if_false, if_true, Nat.add_sub_cancel_left]

theorem step_last {surrogates : Bool} {read : Text} {value least b : Nat} (h : b < 64)
    (hleast : least ≤ value * 64 + b) (hmost : value * 64 + b < 0x110000)
    (hs : Text.isSurrogate (value * 64 + b) = false) :
    step surrogates (.within read value 1 least) (0x80 + b).toUInt8 =
      .between ((value * 64 + b) :: read) := by
  have low : ¬ 0x80 + b < 0x80 := by omega
  have high : ¬ 0xC0 ≤ 0x80 + b := by omega
  have least' : ¬ value * 64 + b < least := by omega
  have most : ¬ 0x110000 ≤ value * 64 + b := by omega
  simp only [step, toNat_toUInt8 (show 0x80 + b < 256 by omega), low, high, least', most, hs, decide_false,
    Bool.or_self, Bool.false_and, Bool.false_eq_true, if_false, Nat.add_sub_cancel_left, Nat.lt_irrefl]

theorem isScalar_iff {c : Nat} :
    Text.isScalar c = true ↔ c < 0x110000 ∧ Text.isSurrogate c = false := by
  simp only [Text.isScalar, Bool.and_eq_true, Bool.not_eq_true', decide_eq_true_eq]

theorem encodeCodePoint_one {c : Nat} (h : c < 0x80) : encodeCodePoint c = [c.toUInt8] := if_pos h

theorem encodeCodePoint_two {c : Nat} (h : ¬ c < 0x80) (h' : c < 0x800) :
    encodeCodePoint c = [(0xC0 + c / 64).toUInt8, (0x80 + c % 64).toUInt8] :=
  (if_neg h).trans (if_pos h')

theorem encodeCodePoint_three {c : Nat} (h : ¬ c < 0x80) (h' : ¬ c < 0x800) (h'' : c < 0x10000) :
    encodeCodePoint c =
      [(0xE0 + c / 4096).toUInt8, (0x80 + c / 64 % 64).toUInt8, (0x80 + c % 64).toUInt8] :=
  (if_neg h).trans ((if_neg h').trans (if_pos h''))

theorem encodeCodePoint_four {c : Nat} (h : ¬ c < 0x80) (h' : ¬ c < 0x800) (h'' : ¬ c < 0x10000) :
    encodeCodePoint c = [(0xF0 + c / 262144).toUInt8, (0x80 + c / 4096 % 64).toUInt8,
      (0x80 + c / 64 % 64).toUInt8, (0x80 + c % 64).toUInt8] :=
  (if_neg h).trans ((if_neg h').trans (if_neg h''))

theorem first_one (read : Text) {b : Nat} (h : b < 0x80) : first read b = .between (b :: read) := if_pos h

theorem first_two (read : Text) {b : Nat} (h : 2 ≤ b) (h' : b < 0x20) :
    first read (0xC0 + b) = .within read b 1 0x80 := by
  have h1 : ¬ 0xC0 + b < 0x80 := by omega
  have h2 : ¬ 0xC0 + b < 0xC2 := by omega
  have h3 : 0xC0 + b < 0xE0 := by omega
  simp only [first, h1, h2, h3, if_false, if_true, Nat.add_sub_cancel_left]

theorem first_three (read : Text) {b : Nat} (h : b < 0x10) :
    first read (0xE0 + b) = .within read b 2 0x800 := by
  have h1 : ¬ 0xE0 + b < 0x80 := by omega
  have h2 : ¬ 0xE0 + b < 0xC2 := by omega
  have h3 : ¬ 0xE0 + b < 0xE0 := by omega
  have h4 : 0xE0 + b < 0xF0 := by omega
  simp only [first, h1, h2, h3, h4, if_false, if_true, Nat.add_sub_cancel_left]

theorem first_four (read : Text) {b : Nat} (h : b < 5) :
    first read (0xF0 + b) = .within read b 3 0x10000 := by
  have h1 : ¬ 0xF0 + b < 0x80 := by omega
  have h2 : ¬ 0xF0 + b < 0xC2 := by omega
  have h3 : ¬ 0xF0 + b < 0xE0 := by omega
  have h4 : ¬ 0xF0 + b < 0xF0 := by omega
  have h5 : 0xF0 + b < 0xF5 := by omega
  simp only [first, h1, h2, h3, h4, h5, if_false, if_true, Nat.add_sub_cancel_left]

/-- The bytes of a code point are read as this code point. -/
theorem foldl_encodeCodePoint (surrogates : Bool) (read : Text) {c : Nat}
    (h : Text.isScalar c = true) :
    (encodeCodePoint c).foldl (step surrogates) (.between read) = .between (c :: read) := by
  obtain ⟨hc, hs⟩ := isScalar_iff.mp h
  by_cases h1 : c < 0x80
  · rw [encodeCodePoint_one h1, List.foldl_cons, List.foldl_nil, step_first surrogates read (by omega)]
    exact first_one read h1
  by_cases h2 : c < 0x800
  · have value : c / 64 * 64 + c % 64 = c := by omega
    rw [encodeCodePoint_two h1 h2]
    simp only [List.foldl_cons, List.foldl_nil]
    rw [step_first surrogates read (by omega), first_two read (by omega) (by omega),
      step_last (by omega) (by omega) (by omega) (by rw [value]; exact hs), value]
  by_cases h3 : c < 0x10000
  · have upper : c / 4096 * 64 + c / 64 % 64 = c / 64 := by omega
    have value : c / 64 * 64 + c % 64 = c := by omega
    rw [encodeCodePoint_three h1 h2 h3]
    simp only [List.foldl_cons, List.foldl_nil]
    rw [step_first surrogates read (by omega), first_three read (by omega),
      step_tail (by omega) (by omega), upper,
      step_last (by omega) (by omega) (by omega) (by rw [value]; exact hs), value]
  · have top : c / 262144 * 64 + c / 4096 % 64 = c / 4096 := by omega
    have upper : c / 4096 * 64 + c / 64 % 64 = c / 64 := by omega
    have value : c / 64 * 64 + c % 64 = c := by omega
    rw [encodeCodePoint_four h1 h2 h3]
    simp only [List.foldl_cons, List.foldl_nil]
    rw [step_first surrogates read (by omega), first_four read (by omega),
      step_tail (by omega) (by omega), top, step_tail (by omega) (by omega), upper,
      step_last (by omega) (by omega) (by omega) (by rw [value]; exact hs), value]

theorem foldl_encode (surrogates : Bool) (read : Text) {t : Text} (h : t.Encodable) :
    (t.flatMap encodeCodePoint).foldl (step surrogates) (.between read) = .between (t.reverse ++ read) := by
  induction t generalizing read with
  | nil => rfl
  | cons c rest ih =>
    simp only [Text.Encodable, List.all_cons, Bool.and_eq_true] at h ih
    rw [List.flatMap_cons, List.foldl_append, foldl_encodeCodePoint surrogates read h.1, ih _ h.2]
    simp

theorem decode?_of_encode? {t : Text} {bytes : Bytes} (h : encode? t = some bytes) :
    decode? bytes = some t := by
  unfold encode? at h
  split at h
  · rename_i henc
    cases h
    unfold decode?
    rw [foldl_encode false [] henc]
    simp [finish?]
  · cases h

theorem encode?_injective {t u : Text} {bytes : Bytes} (ht : encode? t = some bytes)
    (hu : encode? u = some bytes) : t = u :=
  Option.some.inj ((decode?_of_encode? ht).symm.trans (decode?_of_encode? hu))

theorem encode?_eq_some {t : Text} {bytes : Bytes} :
    encode? t = some bytes ↔ t.Encodable ∧ t.flatMap encodeCodePoint = bytes := by
  unfold encode?
  by_cases h : t.Encodable
  · simp [h]
  · simp [h]

theorem encode?_append {t u : Text} {bytes : Bytes} (h : encode? (t ++ u) = some bytes) :
    ∃ x y, encode? t = some x ∧ encode? u = some y ∧ bytes = x ++ y := by
  obtain ⟨encodable, rfl⟩ := encode?_eq_some.mp h
  rw [Text.Encodable, List.all_append, Bool.and_eq_true] at encodable
  refine ⟨_, _, encode?_eq_some.mpr ⟨encodable.1, rfl⟩, encode?_eq_some.mpr ⟨encodable.2, rfl⟩, ?_⟩
  exact List.flatMap_append

theorem encodable_of_ascii {t : Text} (h : t.Ascii) : t.Encodable := by
  refine List.all_eq_true.mpr fun c hc => isScalar_iff.mpr ?_
  have low := h c hc
  have surrogate : ¬ 0xD800 ≤ c := Nat.not_le.mpr (Nat.lt_trans low (by decide))
  refine ⟨Nat.lt_trans low (by decide), ?_⟩
  rw [Text.isSurrogate, decide_eq_false surrogate, Bool.false_and]

/-- In ASCII every character is one byte. -/
theorem encode?_of_ascii {t : Text} (h : t.Ascii) : encode? t = some t.asciiBytes := by
  have bytes : t.flatMap encodeCodePoint = t.asciiBytes := by
    induction t with
    | nil => rfl
    | cons c rest ih =>
      rw [List.flatMap_cons, encodeCodePoint_one (h c List.mem_cons_self),
        ih fun d hd => h d (List.mem_cons_of_mem c hd)]
      rfl
  rw [encode?, if_pos (encodable_of_ascii h), bytes]

/-- Only an ASCII character has a byte below 128, and that is all it has. -/
theorem eq_of_mem_encodeCodePoint {c : Nat} {b : UInt8} (h : b ∈ encodeCodePoint c) (scalar : Text.isScalar c = true)
    (low : b.toNat < 128) : c = b.toNat := by
  obtain ⟨hc, _⟩ := isScalar_iff.mp scalar
  have lead : ∀ n, 128 ≤ n → n < 256 → b ≠ n.toUInt8 := by
    rintro n least most rfl
    rw [toNat_toUInt8 most] at low
    omega
  by_cases h1 : c < 0x80
  · rw [encodeCodePoint_one h1, List.mem_singleton] at h
    rw [h, toNat_toUInt8 (by omega)]
  by_cases h2 : c < 0x800
  · rw [encodeCodePoint_two h1 h2] at h
    simp only [List.mem_cons, List.not_mem_nil, or_false] at h
    rcases h with h | h
    all_goals exact absurd h (lead _ (by omega) (by omega))
  by_cases h3 : c < 0x10000
  · rw [encodeCodePoint_three h1 h2 h3] at h
    simp only [List.mem_cons, List.not_mem_nil, or_false] at h
    rcases h with h | h | h
    all_goals exact absurd h (lead _ (by omega) (by omega))
  · rw [encodeCodePoint_four h1 h2 h3] at h
    simp only [List.mem_cons, List.not_mem_nil, or_false] at h
    rcases h with h | h | h | h
    all_goals exact absurd h (lead _ (by omega) (by omega))

theorem mem_of_mem_encode? {t : Text} {bytes : Bytes} {b : UInt8} (h : encode? t = some bytes) (hb : b ∈ bytes)
    (low : b.toNat < 128) : b.toNat ∈ t := by
  obtain ⟨encodable, rfl⟩ := encode?_eq_some.mp h
  obtain ⟨c, hc, hbc⟩ := List.mem_flatMap.mp hb
  have scalar := List.all_eq_true.mp encodable c hc
  rw [← eq_of_mem_encodeCodePoint hbc scalar low]
  exact hc

@[simp] theorem foldl_broken (surrogates : Bool) (bytes : Bytes) :
    bytes.foldl (step surrogates) .broken = .broken := by
  induction bytes with
  | nil => rfl
  | cons b rest ih => exact ih

theorem step_true {p : Progress} {b : UInt8} (h : step false p b ≠ .broken) :
    step true p b = step false p b := by
  cases p with
  | broken => rfl
  | between read => rfl
  | within read value owed least =>
    unfold step at h ⊢
    simp only at h ⊢
    split
    · rfl
    · split
      · rfl
      · split
        · rfl
        · rename_i h1 h2 h3
          cases hs : Text.isSurrogate (value * 64 + (b.toNat - 0x80)) with
          | true => simp [h1, h2, h3, hs] at h
          | false => rfl

theorem foldl_step_true {p : Progress} {bytes : Bytes} {t : Text}
    (h : (bytes.foldl (step false) p).finish? = some t) :
    (bytes.foldl (step true) p).finish? = some t := by
  induction bytes generalizing p with
  | nil =>
    rw [List.foldl_nil] at h ⊢
    exact h
  | cons b rest ih =>
    rw [List.foldl_cons] at h ⊢
    by_cases hb : step false p b = .broken
    · rw [hb, foldl_broken] at h
      cases h
    · rw [step_true hb]
      exact ih h

/-- What can be read without surrogates is read alike with them. -/
theorem decodeWithSurrogates?_of_decode? {bytes : Bytes} {t : Text} (h : decode? bytes = some t) :
    decodeWithSurrogates? bytes = some t := foldl_step_true h

def Progress.soFar : Progress → Text
  | .between read => read
  | .within read _ _ _ => read
  | .broken => []

theorem soFar_first {read : Text} {b : Nat} (h : first read b ≠ .broken) :
    ∃ more, (first read b).soFar = more ++ read := by
  unfold first at h ⊢
  by_cases h1 : b < 0x80
  · simp only [h1, if_true]
    exact ⟨[b], rfl⟩
  by_cases h2 : b < 0xC2
  · simp [h1, h2] at h
  by_cases h3 : b < 0xE0
  · simp only [h1, h2, h3, if_true, if_false]
    exact ⟨[], rfl⟩
  by_cases h4 : b < 0xF0
  · simp only [h1, h2, h3, h4, if_true, if_false]
    exact ⟨[], rfl⟩
  by_cases h5 : b < 0xF5
  · simp only [h1, h2, h3, h4, h5, if_true, if_false]
    exact ⟨[], rfl⟩
  · simp [h1, h2, h3, h4, h5] at h

theorem step_within {surrogates : Bool} {read : Text} {value owed least : Nat} {b : UInt8}
    (h : step surrogates (.within read value owed least) b ≠ .broken) :
    (∃ value' owed', step surrogates (.within read value owed least) b = .within read value' owed' least) ∨
      ∃ c, step surrogates (.within read value owed least) b = .between (c :: read) := by
  unfold step at h ⊢
  simp only at h ⊢
  split at h
  · exact absurd rfl h
  · rename_i h1
    rw [if_neg h1]
    split at h
    · rename_i h2
      rw [if_pos h2]
      exact .inl ⟨_, _, rfl⟩
    · rename_i h2
      rw [if_neg h2]
      split at h
      · exact absurd rfl h
      · rename_i h3
        rw [if_neg h3]
        split at h
        · exact absurd rfl h
        · rename_i h4
          rw [if_neg h4]
          exact .inr ⟨_, rfl⟩

theorem soFar_step {surrogates : Bool} {p : Progress} {b : UInt8} (h : step surrogates p b ≠ .broken) :
    ∃ more, (step surrogates p b).soFar = more ++ p.soFar := by
  cases p with
  | broken => exact absurd rfl h
  | between read => exact soFar_first h
  | within read value owed least =>
    rcases step_within h with ⟨value', owed', hs⟩ | ⟨c, hs⟩
    · exact ⟨[], by rw [hs]; rfl⟩
    · exact ⟨[c], by rw [hs]; rfl⟩

/-- Once read, a text stays the beginning of what is read. -/
theorem soFar_append {surrogates : Bool} {p : Progress} {bytes : Bytes} {t : Text}
    (h : (bytes.foldl (step surrogates) p).finish? = some t) : ∃ rest, t = p.soFar.reverse ++ rest := by
  induction bytes generalizing p with
  | nil =>
    cases p with
    | between read =>
      cases h
      exact ⟨[], by simp [soFar]⟩
    | within read value owed least => cases h
    | broken => cases h
  | cons b rest ih =>
    rw [List.foldl_cons] at h
    by_cases hb : step surrogates p b = .broken
    · rw [hb, foldl_broken] at h
      cases h
    · obtain ⟨more, hm⟩ := soFar_step hb
      obtain ⟨tail, rfl⟩ := ih h
      exact ⟨more.reverse ++ tail, by rw [hm, List.reverse_append, List.append_assoc]⟩

theorem zero_mem {bytes : Bytes} {t : Text} (h : decode? bytes = some t) (hb : 0 ∈ bytes) : 0 ∈ t := by
  obtain ⟨before, after, rfl⟩ := List.append_of_mem hb
  unfold decode? at h
  rw [List.foldl_append, List.foldl_cons] at h
  cases hp : before.foldl (step false) (.between []) with
  | broken =>
    rw [hp] at h
    simp [step, finish?] at h
  | within read value owed least =>
    rw [hp] at h
    simp [step, finish?] at h
  | between read =>
    rw [hp] at h
    obtain ⟨rest, rfl⟩ := soFar_append h
    simp [step, first, soFar]

/-- Bytes that begin with one that begins no character are no text. -/
theorem decode?_cons_broken {b : UInt8} {rest : Bytes} (h : step false (.between []) b = .broken) :
    decode? (b :: rest) = none := by
  unfold decode?
  rw [List.foldl_cons, h, foldl_broken]
  rfl

theorem decode?_mark {bytes : Bytes} {t : Text} (h : decode? (0xEF :: 0xBB :: 0xBF :: bytes) = some t) :
    ∃ rest, t = 0xFEFF :: rest := by
  have mark : step false (step false (step false (.between []) 0xEF) 0xBB) 0xBF = .between [0xFEFF] := by
    simp [step, first, Text.isSurrogate]
  unfold decode? at h
  rw [List.foldl_cons, List.foldl_cons, List.foldl_cons, mark] at h
  exact soFar_append h

end Utf8

end Strongbox
