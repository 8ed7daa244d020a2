/-!
# Text as code points

Text is a list of code points. Surrogates are allowed, because a request may name them by escapes and
only the step that encodes the text refuses them.
-/

namespace Strongbox

abbrev CodePoint := Nat

abbrev Text := List CodePoint

abbrev Bytes := List UInt8

namespace Text

def ofString (s : String) : Text := s.toList.map Char.toNat

instance : Coe String Text := ⟨ofString⟩

def isSurrogate (c : CodePoint) : Bool := 0xD800 ≤ c && c ≤ 0xDFFF

def isScalar (c : CodePoint) : Bool := c < 0x110000 && !isSurrogate c

/-- Text without surrogates, which is the text that has an encoded form. -/
def Encodable (t : Text) : Prop := t.all isScalar = true

instance (t : Text) : Decidable (Encodable t) := inferInstanceAs (Decidable (_ = true))

def toDisplay (t : Text) : String :=
  String.ofList (t.map fun c => if isScalar c then Char.ofNat c else Char.ofNat 0xFFFD)

/-- Strictly before in the order of code points, which is also the order of encoded bytes. -/
def before : Text → Text → Bool
  | [], [] => false
  | [], _ :: _ => true
  | _ :: _, [] => false
  | a :: s, b :: t => if a = b then before s t else decide (a < b)

def dropLead? : (lead t : Text) → Option Text
  | [], t => some t
  | _ :: _, [] => none
  | a :: lead, b :: t => if a = b then dropLead? lead t else none

def startsWith (t lead : Text) : Bool := (dropLead? lead t).isSome

def includes (t part : Text) : Bool :=
  match t with
  | [] => part.isEmpty
  | c :: rest => startsWith (c :: rest) part || includes rest part

/-- The pieces of a text between the code points that satisfy `p`; never empty. -/
def splitBy (p : CodePoint → Bool) (t : Text) : List Text :=
  t.foldr (fun c pieces =>
    if p c then [] :: pieces
    else match pieces with
      | [] => [[c]]
      | piece :: more => (c :: piece) :: more) [[]]

def cutFirst? (c : CodePoint) (t : Text) : Option (Text × Text) :=
  match t.dropWhile (· != c) with
  | [] => none
  | _ :: after => some (t.takeWhile (· != c), after)

def cutLast? (c : CodePoint) (t : Text) : Option (Text × Text) :=
  (cutFirst? c t.reverse).map fun (after, ahead) => (ahead.reverse, after.reverse)

def join (separator : Text) (pieces : List Text) : Text := separator.intercalate pieces

/-- Lower case as far as it yields code points below 256. -/
def lowerCodePoint (c : CodePoint) : CodePoint :=
  if (65 ≤ c && c ≤ 90) || (0xC0 ≤ c && c ≤ 0xDE && c ≠ 0xD7) then c + 32
  else if c = 0x178 then 0xFF
  else if c = 0x1E9E then 0xDF
  else if c = 0x212A then 107
  else if c = 0x212B then 0xE5
  else c

/-- Upper case as far as it yields ASCII letters: the small letters, dotless i and long s. -/
def upperCodePoint (c : CodePoint) : CodePoint :=
  if 97 ≤ c && c ≤ 122 then c - 32 else if c = 0x131 then 73 else if c = 0x17F then 83 else c

def lower (t : Text) : Text := t.map lowerCodePoint

def upper (t : Text) : Text := t.map upperCodePoint

def lowerAscii (t : Text) : Text := t.map fun c => if 65 ≤ c && c ≤ 90 then c + 32 else c

def asciiBytes (t : Text) : Bytes := t.map Nat.toUInt8

end Text

def Text.ofNat (n : Nat) : Text := Text.ofString (toString n)

def Text.ofInt : Int → Text
  | .ofNat n => Text.ofNat n
  | .negSucc n => 45 :: Text.ofNat (n + 1)

end Strongbox
