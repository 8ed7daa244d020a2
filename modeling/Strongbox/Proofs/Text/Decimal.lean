import Mathlib.Algebra.Group.Nat.Defs
import Strongbox.Text.Digit

/-!
# Numbers in decimal

What was written in decimal is read back as the same number, up to the most digits that are read. There are no
leading zeros.
-/

namespace Strongbox.Text

theorem ofNat_eq (n : Nat) : ofNat n = (Nat.toDigits 10 n).map Char.toNat := by
  have repr : toString n = String.ofList (Nat.toDigits 10 n) := rfl
  rw [ofNat, ofString, repr, String.toList_ofList]

theorem ofNat_of_lt {n : Nat} (h : n < 10) : ofNat n = [48 + n] := by
  rw [ofNat_eq, Nat.toDigits_of_lt_base h, List.map_singleton, Nat.toNat_digitChar_of_lt_ten h]

/-- All digits but the last one are those of a tenth of the number. -/
theorem ofNat_of_le {n : Nat} (h : 10 ≤ n) : ofNat n = ofNat (n / 10) ++ [48 + n % 10] := by
  have last : n % 10 < 10 := Nat.mod_lt n (by decide)
  rw [ofNat_eq, Nat.toDigits_of_base_le (by decide) h, List.map_append, List.map_singleton,
    Nat.toNat_digitChar_of_lt_ten last, ofNat_eq]

/-- Induction on the digits of a number, the first one first. -/
theorem digits_induction {motive : Nat → Prop} (one : ∀ n, n < 10 → motive n)
    (more : ∀ n, 10 ≤ n → motive (n / 10) → motive n) (n : Nat) : motive n := by
  induction n using Nat.strongRecOn with
  | ind n ih =>
    by_cases h : n < 10
    · exact one n h
    · exact more n (by omega) (ih (n / 10) (by omega))

theorem isDigit_iff {c : Nat} : isDigit c = true ↔ 48 ≤ c ∧ c ≤ 57 := by
  simp only [isDigit, Bool.and_eq_true, decide_eq_true_eq]

theorem isDigit_ofNat {n : Nat} {c : CodePoint} (h : c ∈ ofNat n) : isDigit c = true := by
  induction n using digits_induction with
  | one n hn =>
    rw [ofNat_of_lt hn, List.mem_singleton] at h
    subst h
    exact isDigit_iff.mpr (by omega)
  | more n hn ih =>
    rw [ofNat_of_le hn, List.mem_append, List.mem_singleton] at h
    rcases h with h | rfl
    · exact ih h
    · have : n % 10 < 10 := Nat.mod_lt n (by decide)
      exact isDigit_iff.mpr (by omega)

theorem ofNat_ne_nil (n : Nat) : ofNat n ≠ [] := by
  by_cases h : n < 10
  · simp [ofNat_of_lt h]
  · simp [ofNat_of_le (Nat.le_of_not_lt h)]

/-- Only zero begins with a zero. -/
theorem head?_ofNat {n : Nat} (h : 0 < n) : (ofNat n).head? ≠ some 48 := by
  induction n using digits_induction with
  | one n hn =>
    have : 48 + n ≠ 48 := by omega
    rw [ofNat_of_lt hn, List.head?_cons]
    exact fun he => this (Option.some.inj he)
  | more n hn ih =>
    have tenth := ih (by omega)
    rw [ofNat_of_le hn]
    cases hd : ofNat (n / 10) with
    | nil => exact absurd hd (ofNat_ne_nil _)
    | cons c rest =>
      rw [hd] at tenth
      exact tenth

theorem length_ofNat_le {k n : Nat} (h : n < 10 ^ (k + 1)) : (ofNat n).length ≤ k + 1 := by
  induction k generalizing n with
  | zero =>
    have small : n < 10 := by omega
    exact Nat.le_of_eq (congrArg List.length (ofNat_of_lt small))
  | succ k ih =>
    by_cases hn : n < 10
    · rw [ofNat_of_lt hn, List.length_singleton]
      omega
    · have tenth : n / 10 < 10 ^ (k + 1) := by
        rw [Nat.pow_succ] at h
        omega
      have := ih tenth
      rw [ofNat_of_le (by omega), List.length_append, List.length_singleton]
      omega

/-- An integer that the store can hold has few enough digits to be read. -/
theorem short_of_held {n : Int} (low : -0x8000000000000000 ≤ n) (high : n ≤ 0x8000000000000000) :
    (ofNat n.natAbs).length ≤ digitLimit := by
  have digits : n.natAbs < 10 ^ (18 + 1) := by omega
  have length := length_ofNat_le digits
  exact Nat.le_trans length (by decide)

theorem ofDigits_snoc (digits : List Nat) (d : Nat) : ofDigits (digits ++ [d]) = ofDigits digits * 10 + d := by
  rw [ofDigits, List.foldl_append]
  rfl

theorem ofDigits_ofNat (n : Nat) : ofDigits ((ofNat n).map (· - 48)) = n := by
  induction n using digits_induction with
  | one n hn => simp [ofNat_of_lt hn, ofDigits]
  | more n hn ih =>
    rw [ofNat_of_le hn, List.map_append, List.map_singleton, ofDigits_snoc, ih]
    omega

theorem filterMap_asciiDigit? {t : Text} (h : ∀ c ∈ t, isDigit c = true) :
    t.filterMap asciiDigit? = t.map (· - 48) := by
  induction t with
  | nil => rfl
  | cons c rest ih =>
    have hc := h c List.mem_cons_self
    rw [List.filterMap_cons, asciiDigit?, if_pos hc, List.map_cons,
      ih fun d hd => h d (List.mem_cons_of_mem c hd)]

theorem digit?_of_isDigit {c : Nat} (h : isDigit c = true) : digit? c = some (c - 48) := by
  obtain ⟨low, high⟩ := isDigit_iff.mp h
  have first : (decide (48 ≤ c) && decide (c ≤ 48 + 9)) = true := by
    simp only [Bool.and_eq_true, decide_eq_true_eq]
    omega
  simp only [digit?, scriptZeros, List.find?_cons, first, Option.map_some]

theorem mapM_digit? {t : Text} (h : ∀ c ∈ t, isDigit c = true) : t.mapM digit? = some (t.map (· - 48)) := by
  induction t with
  | nil => rfl
  | cons c rest ih =>
    rw [List.mapM_cons, digit?_of_isDigit (h c List.mem_cons_self),
      ih fun d hd => h d (List.mem_cons_of_mem c hd)]
    rfl

theorem splitBy_of_none {p : CodePoint → Bool} {t : Text} (h : ∀ c ∈ t, p c = false) : splitBy p t = [t] := by
  induction t with
  | nil => rfl
  | cons c rest ih =>
    have hrest := ih fun d hd => h d (List.mem_cons_of_mem c hd)
    unfold splitBy at hrest ⊢
    rw [List.foldr_cons, hrest, h c List.mem_cons_self]
    rfl

theorem trimBy_of_none {p : CodePoint → Bool} {t : Text} (h : ∀ c ∈ t, p c = false) : trimBy p t = t := by
  have keeps : ∀ {u : Text}, (∀ c ∈ u, p c = false) → u.dropWhile p = u := by
    intro u hu
    cases u with
    | nil => rfl
    | cons c rest => rw [List.dropWhile_cons, hu c List.mem_cons_self]; rfl
  rw [trimBy, keeps h, keeps fun c hc => h c (List.mem_reverse.mp hc), List.reverse_reverse]

/-- Digits, and perhaps a minus sign, are no white space. -/
theorem trim_ofInt (n : Int) : trimBy isWhiteSpace (ofInt n) = ofInt n := by
  have table : ∀ c < 58, 48 ≤ c → isWhiteSpace c = false := by decide
  have digit : ∀ {m : Nat} {c : CodePoint}, c ∈ ofNat m → isWhiteSpace c = false := by
    intro m c hc
    obtain ⟨low, high⟩ := isDigit_iff.mp (isDigit_ofNat hc)
    exact table c (Nat.lt_succ_of_le high) low
  refine trimBy_of_none fun c hc => ?_
  cases n with
  | ofNat n => exact digit hc
  | negSucc n =>
    rcases List.mem_cons.mp hc with rfl | hc
    · rfl
    · exact digit hc

theorem splitSign_digits {t : Text} (h : ∀ c ∈ t, isDigit c = true) : splitSign t = (false, t) := by
  cases t with
  | nil => rfl
  | cons c rest =>
    obtain ⟨low, _⟩ := isDigit_iff.mp (h c List.mem_cons_self)
    unfold splitSign
    split
    · rename_i hc
      cases hc
      exact absurd low (by decide)
    · rename_i hc
      cases hc
      exact absurd low (by decide)
    · rfl

/-- The sign of a number that was written, and its digits. -/
theorem splitSign_ofInt (n : Int) : splitSign (ofInt n) = (decide (n < 0), ofNat n.natAbs) := by
  cases n with
  | ofNat n => exact splitSign_digits fun c hc => isDigit_ofNat hc
  | negSucc n =>
    have sign : decide (Int.negSucc n < 0) = true := decide_eq_true (Int.negSucc_lt_zero n)
    rw [sign]
    rfl

theorem signed_natAbs (n : Int) : signed (decide (n < 0)) n.natAbs = n := by
  unfold signed
  by_cases h : n < 0
  · rw [if_pos (decide_eq_true h)]
    omega
  · rw [if_neg (by simp [h])]
    omega

theorem groupedDigits?_ofNat (n : Nat) : groupedDigits? digit? (ofNat n) = some ((ofNat n).map (· - 48)) := by
  have plain : ∀ c ∈ ofNat n, (c == 95) = false := by
    intro c hc
    obtain ⟨_, high⟩ := isDigit_iff.mp (isDigit_ofNat hc)
    exact beq_eq_false_iff_ne.mpr (Nat.ne_of_lt (Nat.lt_of_le_of_lt high (by decide)))
  have filled : (ofNat n).isEmpty = false := List.isEmpty_eq_false_iff.mpr (ofNat_ne_nil n)
  unfold groupedDigits?
  rw [splitBy_of_none plain]
  simp [filled, mapM_digit? fun c hc => isDigit_ofNat hc]

/-- A number that was written is read back, unless it has too many digits. -/
theorem readInteger?_ofInt (n : Int) :
    readInteger? (ofInt n) = if (ofNat n.natAbs).length > digitLimit then none else some n := by
  unfold readInteger?
  rw [trim_ofInt, splitSign_ofInt]
  simp only [groupedDigits?_ofNat, Option.bind_eq_bind, Option.bind_some, List.length_map, ofDigits_ofNat,
    signed_natAbs]

end Strongbox.Text
