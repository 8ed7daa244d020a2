import Strongbox.Text.Digit

/-!
# Binary64 values

Exact values of the 64-bit floating-point format: a sign, a natural mantissa and a power of two. Reading
a decimal rounds to the nearest value, ties to the even mantissa; printing gives the fewest digits that
read back.
-/

namespace Strongbox

inductive Binary64 where
  /-- The value `mantissa * 2 ^ exponent`, negated when `negative`. -/
  | finite (negative : Bool) (mantissa : Nat) (exponent : Int)
  | infinite (negative : Bool)
  | nan
  deriving DecidableEq, Repr

namespace Binary64

def roundToEven (num den : Nat) : Nat :=
  let q := num / den
  let r := num % den
  if 2 * r < den then q else if den < 2 * r then q + 1 else q + q % 2

def mantissaAt (num den : Nat) (exponent : Int) : Nat :=
  match exponent with
  | .ofNat e => roundToEven num (den * Nat.pow 2 e)
  | .negSucc e => roundToEven (num * Nat.pow 2 (e + 1)) den

def reaches (num den : Nat) (e : Int) : Bool :=
  match e with
  | .ofNat e => den * Nat.pow 2 e ≤ num
  | .negSucc e => den ≤ num * Nat.pow 2 (e + 1)

def ofRatio (negative : Bool) (num den : Nat) : Binary64 :=
  if num = 0 then .finite negative 0 0
  else
    let guess : Int := (num.log2 : Int) - den.log2
    let top := if reaches num den guess then guess else guess - 1
    let exponent := max (top - 52) (-1074)
    let mantissa := mantissaAt num den exponent
    let (mantissa, exponent) :=
      if mantissa = 0x20000000000000 then (0x10000000000000, exponent + 1) else (mantissa, exponent)
    if exponent > 971 then .infinite negative else .finite negative mantissa exponent

def ofDecimal (negative : Bool) (digits : Nat) (exponent : Int) : Binary64 :=
  let size : Int := (toString digits).length + exponent
  if digits = 0 || size < -400 then .finite negative 0 0
  else if size > 400 then .infinite negative
  else match exponent with
    | .ofNat e => ofRatio negative (digits * Nat.pow 10 e) 1
    | .negSucc e => ofRatio negative digits (Nat.pow 10 (e + 1))

def ofFraction (num : Int) (den : Nat) : Binary64 := ofRatio (num < 0) num.natAbs den

def ofInt (n : Int) : Binary64 := ofRatio (n < 0) n.natAbs 1

def toRatio? : Binary64 → Option (Int × Nat)
  | .finite negative mantissa exponent =>
    let signed := Text.signed negative
    match exponent with
    | .ofNat e => some (signed (mantissa * Nat.pow 2 e), 1)
    | .negSucc e => some (signed mantissa, Nat.pow 2 (e + 1))
  | _ => none

def isNegative : Binary64 → Bool
  | .finite negative _ _ => negative
  | .infinite negative => negative
  | .nan => false

def isPositive : Binary64 → Bool
  | .finite negative mantissa _ => !negative && mantissa != 0
  | .infinite negative => !negative
  | .nan => false

/-- The order of the values; nothing compares with a value that is no number. -/
def le : Binary64 → Binary64 → Bool
  | .nan, _ => false
  | _, .nan => false
  | .infinite negative, b => negative || b == .infinite false
  | a, .infinite negative => !negative || a == .infinite true
  | a, b =>
    match a.toRatio?, b.toRatio? with
    | some (p, q), some (r, s) => p * s ≤ r * q
    | _, _ => false

def toInt? (x : Binary64) : Option Int :=
  match x.toRatio? with
  | some (num, den) => if num % den = 0 then some (num / den) else none
  | none => none

def truncate? (x : Binary64) : Option Int :=
  x.toRatio?.map fun (num, den) => num.tdiv den

def clampExponent (negative : Bool) (digits : List Nat) : Int :=
  let digits := digits.dropWhile (· == 0)
  Text.signed negative (if digits.length > 9 then 1000000000 else Text.ofDigits digits)

structure Decimal where
  negative : Bool
  whole : Text
  fraction : Text
  exponent : Int

def Decimal.toBinary64 (d : Decimal) : Binary64 :=
  let digits := (d.whole ++ d.fraction).filterMap Text.asciiDigit?
  ofDecimal d.negative (Text.ofDigits digits) (d.exponent - d.fraction.length)

def readExponent? : Text → Option Int
  | [] => some 0
  | e :: rest =>
    if e = 101 || e = 69 then
      let (negative, digits) := Text.splitSign rest
      if digits.isEmpty then none
      else (digits.mapM Text.asciiDigit?).map (clampExponent negative)
    else none

def readDecimal? (t : Text) : Option Binary64 :=
  let (negative, body) := Text.splitSign t
  let whole := body.takeWhile Text.isDigit
  let rest := body.dropWhile Text.isDigit
  let (fraction, rest) := match rest with
    | 46 :: after => (after.takeWhile Text.isDigit, after.dropWhile Text.isDigit)
    | _ => ([], rest)
  if whole.isEmpty && fraction.isEmpty then none
  else (readExponent? rest).map fun exponent =>
    Decimal.toBinary64 ⟨negative, whole, fraction, exponent⟩

def read? (t : Text) : Option Binary64 :=
  let (negative, body) := Text.splitSign t
  let name := Text.lowerAscii body
  if name = Text.ofString "inf" || name = Text.ofString "infinity" then some (.infinite negative)
  else if name = Text.ofString "nan" then some .nan
  else readDecimal? t

def groupsDigits (before : CodePoint) : Text → Bool
  | [] => before != 95
  | c :: rest =>
    (if c = 95 then Text.isDigit before else before != 95 || Text.isDigit c) && groupsDigits c rest

/-- A number in text with white space around it, digits of any script, and single underscores between
digits. -/
def readLoose? (t : Text) : Option Binary64 :=
  let t : Text := (Text.trimBy Text.isWhiteSpace t).map fun c => ((Text.digit? c).map (48 + ·)).getD c
  if groupsDigits 0 t then read? (t.filter (· != 95)) else none

/-- The decimal exponent of the first digit: the largest `k` with `10 ^ k` at most the ratio. -/
def decimalTop (num den : Nat) : Int :=
  let guess : Int := (toString num).length - (toString den).length
  let reached (k : Int) : Bool := match k with
    | .ofNat k => den * Nat.pow 10 k ≤ num
    | .negSucc k => den ≤ num * Nat.pow 10 (k + 1)
  if reached guess then guess else guess - 1

/-- The `count`-digit decimals on both sides of a ratio, the nearer one first, as digits and exponent. -/
def neighbours (num den count : Nat) : List (Nat × Int) :=
  let exponent := decimalTop num den - (count : Int) + 1
  let (n, d) := match exponent with
    | .ofNat e => (num, den * Nat.pow 10 e)
    | .negSucc e => (num * Nat.pow 10 (e + 1), den)
  let near := roundToEven n d
  [(near, exponent), (if near * d ≤ n then near + 1 else near - 1, exponent)]

def shortest (x : Binary64) (num den : Nat) : Nat × Int :=
  let candidates := (List.range 17).flatMap fun i => neighbours num den (i + 1)
  (candidates.find? fun (digits, exponent) => ofDecimal x.isNegative digits exponent == x).getD (0, 0)

def positional (digits : Text) (point : Int) : Text :=
  if point ≤ 0 then Text.ofString "0." ++ List.replicate (-point).toNat 48 ++ digits
  else
    let n := point.toNat
    if digits.length ≤ n then digits ++ List.replicate (n - digits.length) 48 ++ Text.ofString ".0"
    else digits.take n ++ [46] ++ digits.drop n

def scientific (digits : Text) (exponent : Int) : Text :=
  let size := Text.ofNat exponent.natAbs
  let padded := if size.length < 2 then 48 :: size else size
  digits.take 1 ++ (if digits.length > 1 then 46 :: digits.drop 1 else []) ++ [101] ++
    [if exponent < 0 then 45 else 43] ++ padded

/-- Values from a ten-thousandth up to ten to the sixteenth are positional, others have an exponent. -/
def toText (x : Binary64) : Text :=
  match x with
  | .nan => Text.ofString "nan"
  | .infinite negative => Text.ofString (if negative then "-inf" else "inf")
  | .finite negative mantissa _ =>
    let sign := if negative then [45] else []
    if mantissa = 0 then sign ++ Text.ofString "0.0"
    else match x.toRatio? with
      | none => []
      | some (num, den) =>
        let (n, exponent) := shortest x num.natAbs den
        let digits := Text.ofNat n
        let point : Int := digits.length + exponent
        let digits := (digits.reverse.dropWhile (· == 48)).reverse
        sign ++ (if -4 < point && point ≤ 16 then positional digits point
          else scientific digits (point - 1))

end Binary64

end Strongbox
