import Strongbox.Binary64

/-!
# Decimals of a given precision

A value is written with a fixed number of places, with a fixed number of digits and an exponent, or in the
shorter of the two ways. It is rounded to the nearest decimal, a tie to the even digit. Values that are no
numbers have names.
-/

namespace Strongbox.Binary64

structure Style where
  /-- The point stands also where no digit follows it, and zeros at the end are kept. -/
  full : Bool := false
  capitals : Bool := false

def Style.letter (style : Style) (c : CodePoint) : CodePoint := if style.capitals then c - 32 else c

def Style.name (style : Style) (x : Binary64) : Text :=
  x.toText.map fun c => if 97 ≤ c && c ≤ 122 then style.letter c else c

def minus (x : Binary64) : Text := if x.isNegative then [45] else []

def pointed (style : Style) (whole fraction : Text) : Text :=
  whole ++ if fraction.isEmpty && !style.full then [] else 46 :: fraction

def filled (width n : Nat) : Text :=
  let digits := Text.ofNat n
  List.replicate (width - digits.length) 48 ++ digits

def placesOf (places num den : Nat) : Text × Text :=
  let digits := filled (places + 1) (roundToEven (num * Nat.pow 10 places) den)
  (digits.take (digits.length - places), digits.drop (digits.length - places))

def toFixed (style : Style) (places : Nat) (x : Binary64) : Text :=
  match x.toRatio? with
  | none => style.name x
  | some (num, den) =>
    let (whole, fraction) := placesOf places num.natAbs den
    x.minus ++ pointed style whole fraction

def roundedDigits (count num den : Nat) : Text × Int :=
  let top := decimalTop num den
  let n := match top - (count : Int) + 1 with
    | .ofNat e => roundToEven num (den * Nat.pow 10 e)
    | .negSucc e => roundToEven (num * Nat.pow 10 (e + 1)) den
  let digits := Text.ofNat n
  (digits.take count, if digits.length > count then top + 1 else top)

def digitsOf (count num den : Nat) : Text × Int :=
  if num = 0 then (List.replicate count 48, 0) else roundedDigits count num den

def exponentText (style : Style) (exponent : Int) : Text :=
  style.letter 101 :: (if exponent < 0 then 45 else 43) :: filled 2 exponent.natAbs

def toScientific (style : Style) (places : Nat) (x : Binary64) : Text :=
  match x.toRatio? with
  | none => style.name x
  | some (num, den) =>
    let (digits, exponent) := digitsOf (places + 1) num.natAbs den
    x.minus ++ pointed style (digits.take 1) (digits.drop 1) ++ exponentText style exponent

def trimZeros (t : Text) : Text := (t.reverse.dropWhile (· == 48)).reverse

/-- Text with a fixed number of digits: positional from a ten-thousandth up to that many digits before the
point, with an exponent otherwise. Zeros at the end are left out, unless the style is full. -/
def toGeneral (style : Style) (count : Nat) (x : Binary64) : Text :=
  match x.toRatio? with
  | none => style.name x
  | some (num, den) =>
    let count := max count 1
    let (digits, exponent) := digitsOf count num.natAbs den
    let trim (t : Text) : Text := if style.full then t else trimZeros t
    x.minus ++
      if exponent < -4 || exponent ≥ count then
        pointed style (digits.take 1) (trim (digits.drop 1)) ++ exponentText style exponent
      else if exponent < 0 then
        pointed style [48] (List.replicate (-exponent - 1).toNat 48 ++ trim digits)
      else pointed style (digits.take (exponent.toNat + 1)) (trim (digits.drop (exponent.toNat + 1)))

def toTenths (x : Binary64) : Text := x.toFixed {} 1

end Strongbox.Binary64
