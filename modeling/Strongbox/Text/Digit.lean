import Strongbox.Text.Blank

/-!
# Decimal digits

Reading integers from text: white space around, one sign, decimal digits of any script, and single
underscores between digits.
-/

namespace Strongbox.Text

/-- The zeros of the scripts; the nine code points after each are its other digits. -/
def scriptZeros : List CodePoint :=
  [0x30, 0x660, 0x6F0, 0x7C0, 0x966, 0x9E6, 0xA66, 0xAE6, 0xB66, 0xBE6, 0xC66, 0xCE6, 0xD66, 0xDE6,
    0xE50, 0xED0, 0xF20, 0x1040, 0x1090, 0x17E0, 0x1810, 0x1946, 0x19D0, 0x1A80, 0x1A90, 0x1B50,
    0x1BB0, 0x1C40, 0x1C50, 0xA620, 0xA8D0, 0xA900, 0xA9D0, 0xA9F0, 0xAA50, 0xABF0, 0xFF10, 0x104A0,
    0x10D30, 0x11066, 0x110F0, 0x11136, 0x111D0, 0x112F0, 0x11450, 0x114D0, 0x11650, 0x116C0,
    0x11730, 0x118E0, 0x11950, 0x11C50, 0x11D50, 0x11DA0, 0x16A60, 0x16AC0, 0x16B50, 0x1D7CE,
    0x1D7D8, 0x1D7E2, 0x1D7EC, 0x1D7F6, 0x1E140, 0x1E2F0, 0x1E950, 0x1FBF0]

def isDigit (c : CodePoint) : Bool := 48 ≤ c && c ≤ 57

def asciiDigit? (c : CodePoint) : Option Nat := if isDigit c then some (c - 48) else none

def digit? (c : CodePoint) : Option Nat :=
  (scriptZeros.find? fun z => z ≤ c && c ≤ z + 9).map (c - ·)

def ofDigits (digits : List Nat) : Nat := digits.foldl (fun n d => n * 10 + d) 0

def groupedDigits? (value? : CodePoint → Option Nat) (t : Text) : Option (List Nat) :=
  let groups := splitBy (· == 95) t
  if groups.any List.isEmpty then none
  else (groups.mapM fun (group : Text) => group.mapM value?).map List.flatten

def splitSign : Text → Bool × Text
  | 43 :: rest => (false, rest)
  | 45 :: rest => (true, rest)
  | t => (false, t)

/-- The most digits that a number in text may have. -/
def digitLimit : Nat := 4300

def signed (negative : Bool) (n : Nat) : Int := if negative then -(n : Int) else n

def readInteger? (t : Text) : Option Int := do
  let (negative, body) := splitSign (trimBy isWhiteSpace t)
  let digits ← groupedDigits? digit? body
  if digits.length > digitLimit then none
  else some (signed negative (ofDigits digits))

end Strongbox.Text
