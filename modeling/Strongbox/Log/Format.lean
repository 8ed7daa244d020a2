import Strongbox.Binary64.Rounded
import Strongbox.Json.Shown

/-!
# Formats of messages

A format is text with places for arguments. A place begins with a percent sign; it may name its argument, give
flags, a width and a precision, and ends with the way in which the argument is written. Nothing comes out when
places and arguments do not fit.
-/

namespace Strongbox.Log

inductive Extent where
  | given (n : Nat)
  | taken
  deriving DecidableEq, Repr

structure Place where
  name : Option Text
  flags : Text
  width : Option Extent
  precision : Option Extent
  conversion : CodePoint
  deriving DecidableEq, Repr

def Place.has (p : Place) (flag : CodePoint) : Bool := p.flags.contains flag

inductive Piece where
  | literal (c : CodePoint)
  | place (p : Place)
  deriving DecidableEq, Repr

namespace Place

/-- The name up to the bracket that closes it, and what follows. Brackets inside of it come in pairs. -/
def readName? : (depth : Nat) → Text → Option (Text × Text)
  | _, [] => none
  | depth, c :: rest =>
    if c = 41 then
      match depth with
      | 0 => some ([], rest)
      | depth + 1 => (readName? depth rest).map fun (name, rest) => (c :: name, rest)
    else (readName? (if c = 40 then depth + 1 else depth) rest).map fun (name, rest) => (c :: name, rest)

def isFlag (c : CodePoint) : Bool := [45, 43, 32, 35, 48].contains c

def readExtent (t : Text) : Option Extent × Text :=
  match t with
  | 42 :: rest => (some .taken, rest)
  | _ =>
    let digits := t.takeWhile Text.isDigit
    (if digits.isEmpty then none else some (.given (Text.ofDigits (digits.filterMap Text.asciiDigit?))),
      t.dropWhile Text.isDigit)

/-- A precision after its point. Without digits it is zero. -/
def readPrecision (t : Text) : Option Extent × Text :=
  match t with
  | 46 :: rest =>
    let (extent, rest) := readExtent rest
    (some (extent.getD (.given 0)), rest)
  | _ => (none, t)

def skipSize (t : Text) : Text :=
  match t with
  | c :: rest => if c = 104 || c = 108 || c = 76 then rest else t
  | [] => []

def read? (t : Text) : Option (Place × Text) := do
  let (name, t) ← match t with
    | 40 :: rest => (readName? 0 rest).map fun (name, rest) => (some name, rest)
    | _ => some (none, t)
  let flags := t.takeWhile isFlag
  let (width, t) := readExtent (t.dropWhile isFlag)
  let (precision, t) := readPrecision t
  match skipSize t with
  | [] => none
  | conversion :: rest => some (⟨name, flags, width, precision, conversion⟩, rest)

end Place

def piecesWithin : (fuel : Nat) → Text → Option (List Piece)
  | _, [] => some []
  | 0, _ => none
  | fuel + 1, 37 :: 37 :: rest => (piecesWithin fuel rest).map (.literal 37 :: ·)
  | fuel + 1, 37 :: rest => do
    let (place, rest) ← Place.read? rest
    let pieces ← piecesWithin fuel rest
    pure (.place place :: pieces)
  | fuel + 1, c :: rest => (piecesWithin fuel rest).map (.literal c :: ·)

def pieces? (format : Text) : Option (List Piece) := piecesWithin format.length format

structure Supply where
  queue : List Json
  names : Option (List (Text × Json))

namespace Supply

/-- A single object that is not empty gives arguments with names; it can also be taken as a whole. -/
def ofArguments (arguments : List Json) : Supply :=
  match arguments with
  | [.object (m :: members)] => ⟨arguments, some (m :: members)⟩
  | _ => ⟨arguments, none⟩

def take? (s : Supply) : Option (Json × Supply) :=
  match s.queue with
  | v :: rest => some (v, { s with queue := rest })
  | [] => none

def named? (name : Text) (s : Supply) : Option Supply := do
  let members ← s.names
  let v ← Json.lookup? name members
  pure { s with queue := [v] }

end Supply

def integer? : Json → Option Int
  | .int n => some n
  | .bool b => some (if b then 1 else 0)
  | _ => none

def wholeOf? : Json → Option Int
  | .real x => x.truncate?
  | v => integer? v

def realOf? : Json → Option Binary64
  | .real x => some x
  | v => (integer? v).bind fun n =>
    match Binary64.ofInt n with
    | .infinite _ => none
    | x => some x

def characterOf? : Json → Option Text
  | .text [c] => some [c]
  | .text _ => none
  | v => (integer? v).bind fun n => if 0 ≤ n ∧ n < 0x110000 then some [n.toNat] else none

def digitsIn (base : Nat) : (fuel : Nat) → Nat → Text
  | 0, _ => []
  | fuel + 1, n => if n < base then [Text.hexDigit n] else digitsIn base fuel (n / base) ++ [Text.hexDigit (n % base)]

def asciiQuoted (v : Json) : Text :=
  v.quoted.flatMap fun c => if c < 128 then [c] else Text.escaped c

structure Filling where
  sign : Text := []
  mark : Text := []
  body : Text
  isNumber : Bool := true

namespace Place

def signOf (p : Place) (negative : Bool) : Text :=
  if negative then [45] else if p.has 43 then [43] else if p.has 32 then [32] else []

/-- An integer at a place, with at least as many digits as the precision. -/
def whole (p : Place) (precision : Nat) (base : Nat) (mark : Text) (n : Int) : Filling :=
  let digits := digitsIn base (n.natAbs.log2 + 1) n.natAbs
  { sign := p.signOf (n < 0), mark := if p.has 35 then mark else [],
    body := List.replicate (precision - digits.length) 48 ++ digits }

def real (p : Place) (text : Text) : Filling :=
  match text with
  | 45 :: body => { sign := p.signOf true, body }
  | body => { sign := p.signOf false, body }

def cut (precision : Option Nat) (t : Text) : Filling :=
  { body := (precision.map t.take).getD t, isNumber := false }

def upperFilling (f : Filling) : Filling := { f with mark := f.mark.upper, body := f.body.upper }

def filling? (p : Place) (precision : Option Nat) (v : Json) : Option Filling :=
  let digits := precision.getD 0
  let places := precision.getD 6
  let style : Binary64.Style := { full := p.has 35, capitals := p.conversion < 97 }
  match Char.ofNat p.conversion with
  | 's' => some (cut precision v.shown)
  | 'r' => some (cut precision v.quoted)
  | 'a' => some (cut precision (asciiQuoted v))
  | 'c' => (characterOf? v).map (cut none)
  | 'd' | 'i' | 'u' => (wholeOf? v).map (p.whole digits 10 [])
  | 'o' => (integer? v).map (p.whole digits 8 [48, 111])
  | 'x' => (integer? v).map (p.whole digits 16 [48, 120])
  | 'X' => (integer? v).map fun n => upperFilling (p.whole digits 16 [48, 120] n)
  | 'e' | 'E' => (realOf? v).map fun x => p.real (x.toScientific style places)
  | 'f' | 'F' => (realOf? v).map fun x => p.real (x.toFixed style places)
  | 'g' | 'G' => (realOf? v).map fun x => p.real (x.toGeneral style places)
  | _ => none

def spread (p : Place) (left : Bool) (width : Nat) (f : Filling) : Text :=
  let missing := width - (f.sign ++ f.mark ++ f.body).length
  if left then f.sign ++ f.mark ++ f.body ++ List.replicate missing 32
  else if f.isNumber && p.has 48 then f.sign ++ f.mark ++ List.replicate missing 48 ++ f.body
  else List.replicate missing 32 ++ f.sign ++ f.mark ++ f.body

def extent? (bits : Nat) (s : Supply) : Option Extent → Option (Option Int × Supply)
  | none => some (none, s)
  | some (.given n) => if n < Nat.pow 2 (bits - 1) then some (some n, s) else none
  | some .taken => do
    let (v, s) ← s.take?
    let n ← integer? v
    if -(Nat.pow 2 (bits - 1) : Int) ≤ n ∧ n < Nat.pow 2 (bits - 1) then some (some n, s) else none

/-- The text at a place, and what is left of the arguments. A negative width means the left, and a negative
precision none of the digits; the least width has no size. -/
def text? (p : Place) (s : Supply) : Option (Text × Supply) := do
  let s ← match p.name with
    | some name => s.named? name
    | none => some s
  let (width, s) ← extent? 64 s p.width
  let (precision, s) ← extent? 32 s p.precision
  let (v, s) ← s.take?
  let filling ← p.filling? (precision.map Int.toNat) v
  let width := width.getD 0
  pure (p.spread (p.has 45 || width < 0) (if width.natAbs < 0x8000000000000000 then width.natAbs else 0) filling, s)

end Place

/-- The text of the parts of a format. Of arguments with names a place has to take all that it asks for; others
have to be taken all in the end. -/
def fill? (s : Supply) : List Piece → Option Text
  | [] => if s.names.isNone && !s.queue.isEmpty then none else some []
  | .literal c :: rest => (fill? s rest).map (c :: ·)
  | .place p :: rest => do
    let (text, s) ← p.text? s
    if s.names.isSome && !s.queue.isEmpty then none
    else (fill? s rest).map (text ++ ·)

/-- The message of a format and its arguments. Without arguments the format is taken as it is. -/
def message? (format : Text) (arguments : List Json) : Option Text :=
  if arguments.isEmpty then some format else (pieces? format).bind (fill? (.ofArguments arguments))

end Strongbox.Log
