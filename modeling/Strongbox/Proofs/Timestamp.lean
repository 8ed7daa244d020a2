import Mathlib.Data.List.TakeWhile
import Strongbox.Proofs.Calendar
import Strongbox.Proofs.Text.Decimal
import Strongbox.Proofs.Text.Utf8

/-!
# Times that are read back

The ISO 8601 text of a wall clock that has a date of the calendar, without a zone, is read back as that wall clock,
to the microsecond.
-/

namespace Strongbox.Timestamp

open Text

theorem earliest_eq : earliest = -62135596800000000 := by decide

theorem latest_eq : latest = 253402300799999999 := by decide

theorem isDated_iff {wall : Int} : isDated wall = true ↔ -62135596800000000 ≤ wall ∧ wall ≤ 253402300799999999 := by
  rw [isDated, Bool.and_eq_true, decide_eq_true_eq, decide_eq_true_eq, earliest_eq, latest_eq]

theorem padded_isDigit {width n : Nat} {c : CodePoint} (h : c ∈ padded width n) : isDigit c = true := by
  rcases List.mem_append.mp h with h | h
  · rw [(List.mem_replicate.mp h).2]
    rfl
  · exact isDigit_ofNat h

/-- All digits but the last one are those of a tenth of the number. -/
theorem padded_succ {width : Nat} (h : 0 < width) (n : Nat) :
    padded (width + 1) n = padded width (n / 10) ++ [48 + n % 10] := by
  obtain ⟨width, rfl⟩ : ∃ w, width = w + 1 := ⟨width - 1, by omega⟩
  by_cases single : n < 10
  · have tenth : n / 10 = 0 := by omega
    have last : n % 10 = n := by omega
    simp [padded, tenth, last, ofNat_of_lt single, ofNat_of_lt (show 0 < 10 by decide), List.replicate_succ']
  · have split := ofNat_of_le (Nat.le_of_not_lt single)
    simp only [padded, split, List.length_append, List.length_singleton, Nat.add_sub_add_right, List.append_assoc]

theorem padded_one {n : Nat} (h : n < 10) : padded 1 n = [48 + n] := by
  rw [padded, ofNat_of_lt h]
  rfl

theorem padded_two {n : Nat} (h : n < 100) : padded 2 n = [48 + n / 10, 48 + n % 10] := by
  rw [padded_succ (by decide), padded_one (by omega)]
  rfl

theorem padded_four {n : Nat} (h : n < 10000) : padded 4 n = padded 2 (n / 100) ++ padded 2 (n % 100) := by
  rw [padded_succ (by decide), padded_succ (by decide), padded_two (by omega), padded_two (by omega),
    padded_two (by omega)]
  have tens : n / 10 % 10 = n % 100 / 10 := by omega
  have ones : n % 10 = n % 100 % 10 := by omega
  have hundreds : n / 10 / 10 = n / 100 := by omega
  rw [hundreds, tens, ones]
  rfl

theorem length_padded {width n : Nat} (h : (ofNat n).length ≤ width) : (padded width n).length = width := by
  rw [padded, List.length_append, List.length_replicate]
  omega

theorem ofDigits_padded (width n : Nat) : ofDigits ((padded width n).map (· - 48)) = n := by
  have zeros : ∀ k, ofDigits (List.replicate k 0 ++ (ofNat n).map (· - 48)) = n := by
    intro k
    induction k with
    | zero => exact ofDigits_ofNat n
    | succ k ih => exact ih
  rw [padded, List.map_append, List.map_replicate]
  exact zeros _

theorem asciiDigit?_digit {d : Nat} (h : d < 10) : asciiDigit? (48 + d) = some d := by
  have digit : isDigit (48 + d) = true := isDigit_iff.mpr (by omega)
  rw [asciiDigit?, if_pos digit]
  congr 1
  omega

theorem twoDigits?_padded {n : Nat} (h : n < 100) (rest : Text) : twoDigits? (padded 2 n ++ rest) = some (n, rest) := by
  rw [padded_two h]
  have value : n / 10 * 10 + n % 10 = n := by omega
  simp only [List.cons_append, List.nil_append, twoDigits?, asciiDigit?_digit (show n / 10 < 10 by omega),
    asciiDigit?_digit (show n % 10 < 10 by omega), Option.bind_eq_bind, Option.bind_some, value]
  rfl

theorem readDate?_printed {year month day : Nat} (date : IsDate year month day) (rest : Text) :
    readDate? (padded 4 year ++ 45 :: (padded 2 month ++ 45 :: (padded 2 day ++ rest))) =
      some (daysOfDate year month day, rest) := by
  obtain ⟨years, months, days⟩ := date
  have short : day < 100 := by
    have : daysInMonth year month ≤ 31 := by
      unfold daysInMonth
      split
      · split <;> omega
      · split <;> omega
    omega
  have value : year / 100 * 100 + year % 100 = year := by omega
  have fits : (decide (month = 0) || decide (month > 12) || decide (day = 0) ||
      decide (day > daysInMonth year month)) = false := by
    simp only [Bool.or_eq_false_iff, decide_eq_false_iff_not]
    omega
  rw [padded_four (by omega), List.append_assoc]
  simp only [readDate?, twoDigits?_padded (show year / 100 < 100 by omega), twoDigits?_padded (show year % 100 < 100 by omega),
    twoDigits?_padded (show month < 100 by omega), twoDigits?_padded short, expect?, if_true, Option.bind_eq_bind,
    Option.bind_some, value, fits, Bool.false_eq_true, if_false]

def fraction (micros : Nat) : Text := if micros = 0 then [] else 46 :: padded 6 micros

theorem readSeconds?_printed {seconds micros : Nat} (hs : seconds < 60) (hm : micros < 1000000) :
    readSeconds? (padded 2 seconds ++ fraction micros) = some (seconds, micros, []) := by
  have minute : ¬ seconds > 59 := by omega
  simp only [readSeconds?, twoDigits?_padded (show seconds < 100 by omega), Option.bind_eq_bind, Option.bind_some,
    minute, if_false, fraction]
  by_cases whole : micros = 0
  · rw [if_pos whole, whole]
  · have digits : ∀ c ∈ padded 6 micros, isDigit c = true := fun c hc => padded_isDigit hc
    have length : (padded 6 micros).length = 6 := length_padded (length_ofNat_le (by omega))
    have all : (padded 6 micros).takeWhile isDigit = padded 6 micros := List.takeWhile_eq_self_iff.mpr digits
    have none : (padded 6 micros).dropWhile isDigit = [] := List.dropWhile_eq_nil_iff.mpr digits
    have some : (padded 6 micros).isEmpty = false := by
      rw [List.isEmpty_eq_false_iff]
      intro empty
      rw [empty] at length
      cases length
    have kept : (padded 6 micros ++ List.replicate 6 48).take 6 = padded 6 micros := by
      rw [List.take_append_of_le_length (by omega), List.take_of_length_le (by omega)]
    rw [if_neg whole]
    simp only [all, none, some, kept, filterMap_asciiDigit? digits, ofDigits_padded]
    rfl

theorem readTime?_printed {hour minute seconds micros : Nat} (hh : hour < 24) (hm : minute < 60) (hs : seconds < 60)
    (hu : micros < 1000000) :
    readTime? (padded 2 hour ++ 58 :: (padded 2 minute ++ 58 :: (padded 2 seconds ++ fraction micros))) =
      some (((hour * 60 + minute) * 60 + seconds) * 1000000 + micros, []) := by
  have clock : (decide (hour > 23) || decide (minute > 59)) = false := by
    simp only [Bool.or_eq_false_iff, decide_eq_false_iff_not]
    omega
  simp only [readTime?, twoDigits?_padded (show hour < 100 by omega), twoDigits?_padded (show minute < 100 by omega), expect?,
    if_true, Option.bind_eq_bind, Option.bind_some, clock, Bool.false_eq_true, if_false, readSeconds?_printed hs hu]
  rfl

/-- The printed text of a wall clock, by its date and its time of day. -/
theorem toText_eq {wall : Int} {year month day : Nat}
    (date : dateOfDays (wall / microsPerDay) = ((year : Int), (month : Int), (day : Int))) {time : Nat}
    (ht : time = (wall % microsPerDay).toNat) :
    toText ⟨wall, none⟩ = padded 4 year ++ 45 :: (padded 2 month ++ 45 :: (padded 2 day ++ 84 ::
      (padded 2 (time / 1000000 / 3600) ++ 58 :: (padded 2 (time / 1000000 / 60 % 60) ++ 58 ::
        (padded 2 (time / 1000000 % 60) ++ fraction (time % 1000000)))))) := by
  simp only [toText, date, ← ht, Int.toNat_natCast, fraction, List.append_assoc, List.cons_append,
    List.nil_append, List.append_nil]

theorem exists_date_of_isDated {wall : Int} (h : isDated wall = true) : ∃ year month day : Nat,
    dateOfDays (wall / microsPerDay) = ((year : Int), (month : Int), (day : Int)) ∧ IsDate year month day ∧
      daysOfDate year month day = wall / microsPerDay := by
  have range := isDated_iff.mp h
  apply exists_date
  unfold microsPerDay
  omega

theorem read?_toText {wall : Int} (h : isDated wall = true) : read? (toText ⟨wall, none⟩) = some ⟨wall, none⟩ := by
  obtain ⟨year, month, day, date, valid, back⟩ := exists_date_of_isDated h
  obtain ⟨time, ht⟩ : ∃ time, time = (wall % microsPerDay).toNat := ⟨_, rfl⟩
  have within : time < 86400000000 ∧ wall = wall / microsPerDay * microsPerDay + time := by
    unfold microsPerDay at *
    omega
  have hour : time / 1000000 / 3600 < 24 := by omega
  have sum : ((time / 1000000 / 3600 * 60 + time / 1000000 / 60 % 60) * 60 + time / 1000000 % 60) * 1000000 +
      time % 1000000 = time := by omega
  have clock := readTime?_printed hour (Nat.mod_lt (time / 1000000 / 60) (show 60 > 0 by decide))
    (Nat.mod_lt (time / 1000000) (show 60 > 0 by decide)) (Nat.mod_lt time (show 1000000 > 0 by decide))
  have iso : readIso? (toText ⟨wall, none⟩) = some ⟨wall, none⟩ := by
    rw [toText_eq date ht]
    simp only [readIso?, readDate?_printed valid, Option.bind_eq_bind, Option.bind_some, clock, sum, readOffset?, back,
      decide_true, Bool.true_or, if_true, ← within.2]
    rfl
  rw [read?, iso]
  rfl

theorem ascii_padded (width n : Nat) : Ascii (padded width n) := by
  intro c hc
  obtain ⟨_, high⟩ := isDigit_iff.mp (padded_isDigit hc)
  exact Nat.lt_of_le_of_lt high (by decide)

theorem ascii_toText {wall : Int} (h : isDated wall = true) : Ascii (toText ⟨wall, none⟩) := by
  obtain ⟨year, month, day, date, _⟩ := exists_date_of_isDated h
  have decimals : Ascii (fraction ((wall % microsPerDay).toNat % 1000000)) := by
    unfold fraction
    split
    · exact Ascii.nil
    · exact (ascii_padded 6 _).cons (by decide)
  rw [toText_eq date rfl]
  have seconds := (ascii_padded 2 ((wall % microsPerDay).toNat / 1000000 % 60)).append decimals
  have minutes := (ascii_padded 2 ((wall % microsPerDay).toNat / 1000000 / 60 % 60)).append (seconds.cons (show 58 < 128 by decide))
  have hours := (ascii_padded 2 ((wall % microsPerDay).toNat / 1000000 / 3600)).append (minutes.cons (show 58 < 128 by decide))
  have days := (ascii_padded 2 day).append (hours.cons (show 84 < 128 by decide))
  have months := (ascii_padded 2 month).append (days.cons (show 45 < 128 by decide))
  exact (ascii_padded 4 year).append (months.cons (by decide))

end Strongbox.Timestamp
