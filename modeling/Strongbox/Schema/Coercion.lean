import Strongbox.Schema.Checked

/-!
# Coercions

The values that count as text, integers, truth values, numbers and timestamps.
-/

namespace Strongbox.Schema

def text : Json → Checked Text
  | .text t => .ok t
  | _ => .problem .stringType

def fitsWord (n : Int) : Bool := -0x8000000000000000 ≤ n && n < 0x8000000000000000

/-- An integer from a number with a fraction of zero. The least integer of 64 bits is not among them, since
the number may have been rounded to it. -/
def wholeReal (x : Binary64) : Checked Int :=
  match x with
  | .finite .. =>
    match x.toInt? with
    | none => .problem .intFromFraction
    | some n => if fitsWord n && n != -0x8000000000000000 then .ok n else .problem .intTooLong
  | _ => .problem .finiteNumber

/-- The rest of a number in text that begins with a zero. More zeros and underscores are passed over, up to
a digit, a sign or a point; a point keeps what stands before it, and so does the end of the text. -/
def afterZero (last : CodePoint) : Text → Option Text
  | [] => some [last]
  | c :: rest =>
    if c = 48 || c = 95 then afterZero c rest
    else if Text.isDigit c || c = 45 then some (c :: rest)
    else if c = 46 then some (last :: c :: rest)
    else none

def withoutZeros? : Text → Option Text
  | [] => none
  | c :: rest =>
    if c = 48 then afterZero c rest
    else if Text.isDigit c || c = 45 then some (c :: rest)
    else none

def withoutFraction (t : Text) : Text :=
  match t.cutFirst? 46 with
  | some (whole, fraction) => if !fraction.isEmpty && fraction.all (· == 48) then whole else t
  | none => t

def withoutGroups? (t : Text) : Option Text :=
  if (Text.splitBy (· == 95) t).any List.isEmpty then none else some (t.filter (· != 95))

/-- An integer in text put into plain form: no white space around it, no plus sign, no leading zeros, no
fraction and no underscores. -/
def plainInteger? (t : Text) : Option Text := do
  let t := Text.trimBy Text.isWhiteSpace t
  let t ← match t with
    | 43 :: 45 :: _ => none
    | 43 :: rest => some rest
    | _ => some t
  let t := withoutFraction (← withoutZeros? t)
  pure ((withoutGroups? t).getD t)

def beginsTooLong (t : Text) : Bool :=
  let (sign, body) := t.span (· == 45)
  match body with
  | 48 :: _ => false
  | _ => sign.length ≤ 1 && Text.digitLimit < sign.length + (body.takeWhile Text.isDigit).length

/-- An integer in text. Its plain form is an optional minus sign and digits, without a leading zero. -/
def wholeText (t : Text) : Checked Int :=
  if !decide t.Encodable then .problem .stringUnicode
  else if beginsTooLong t then .problem .intTooLong
  else match (plainInteger? t).bind plainValue? with
    | some n => .ok n
    | none => .problem .intParsing
where
  plainValue? (t : Text) : Option Int :=
    let (negative, body) := match t with
      | 45 :: rest => (true, rest)
      | _ => (false, t)
    if body.isEmpty || beginsTooLong t || (body.length > 1 && body.head? == some 48) then none
    else (body.mapM Text.asciiDigit?).map fun digits => Text.signed negative (Text.ofDigits digits)

def int : Json → Checked Int
  | .int n => .ok n
  | .bool b => .ok (if b then 1 else 0)
  | .real x => wholeReal x
  | .text t => wholeText t
  | _ => .problem .intType

def trueNames : List Text := ["1", "on", "t", "true", "y", "yes"].map Text.ofString

def falseNames : List Text := ["0", "off", "f", "false", "n", "no"].map Text.ofString

def wholeBool (n : Int) : Checked Bool :=
  if n = 1 then .ok true else if n = 0 then .ok false
  else if fitsWord n then .problem .boolParsing else .problem .boolType

def bool : Json → Checked Bool
  | .bool b => .ok b
  | .int n => wholeBool n
  | .real x =>
    match wholeReal x with
    | .ok n => wholeBool n
    | .error _ => .problem .boolType
  | .text t =>
    let name := t.lowerAscii
    if !decide t.Encodable then .problem .stringUnicode
    else if name ∈ trueNames then .ok true
    else if name ∈ falseNames then .ok false
    else .problem .boolParsing
  | _ => .problem .boolType

def realText (t : Text) : Checked Binary64 :=
  if !decide t.Encodable then .problem .stringUnicode
  else match (Binary64.read? (Text.trimBy Text.isWhiteSpace t)).or ((withoutGroups? t).bind Binary64.read?) with
    | some x => .ok x
    | none => .problem .realParsing

def real : Json → Checked Binary64
  | .real x => .ok x
  | .int n =>
    match Binary64.ofInt n with
    | .infinite _ => .problem .realType
    | x => .ok x
  | .bool b => .ok (Binary64.ofInt (if b then 1 else 0))
  | .text t => realText t
  | _ => .problem .realType

def dated (t : Timestamp) : Checked Timestamp := if t.hasDate then .ok t else .problem .timeParsing

/-- A timestamp from an integer. In a document, integers beyond 64 bits are no timestamps at all. -/
def wholeTime (origin : Origin) (n : Int) : Checked Timestamp :=
  match if fitsWord n then Timestamp.ofCount? n 0 else none with
  | some t => dated t
  | none =>
    if fitsWord n then .problem .timeParsing
    else match origin, Binary64.ofInt n with
      | .value, .finite .. => .problem .timeParsing
      | _, _ => .problem .timeType

def time (origin : Origin) : Json → Checked Timestamp
  | .text t =>
    if !decide t.Encodable then .problem .stringUnicode
    else match Timestamp.read? t with
      | some t => dated t
      | none => .problem .timeFromDate
  | .int n => wholeTime origin n
  | .real x =>
    match Timestamp.ofReal? x with
    | some t => dated t
    | none => .problem .timeParsing
  | _ => .problem .timeType

def optional (check : Json → Checked α) : Json → Checked (Option α)
  | .null => .ok none
  | v => (check v).map some

def list (check : Json → Checked α) : Json → Checked (List α)
  | .array items => Checked.forEach check 0 items
  | _ => .problem .listType

def required (name : String) (check : Json → Checked α) (members : List (Text × Json)) : Checked α :=
  Checked.under (.field name) <|
    match Json.lookup? (Text.ofString name) members with
    | some v => check v
    | none => .problem .missing

def field (name : String) (absent : α) (check : Json → Checked α) (members : List (Text × Json)) :
    Checked α :=
  match Json.lookup? (Text.ofString name) members with
  | some v => Checked.under (.field name) (check v)
  | none => .ok absent

def model (fields : List (Text × Json) → Checked α) : Json → Checked α
  | .object members => fields members
  | _ => .problem .modelType

/-- A value whose fields are checked, and which may also be given by something with attributes. -/
def modelOrAttributes (origin : Origin) (fields : List (Text × Json) → Checked α) : Json → Checked α
  | .object members => fields members
  | _ =>
    match origin with
    | .document => .problem .modelType
    | .value => .problem .attributesType

def document (check : Json → Checked α) (bytes : Bytes) : Checked α :=
  match Json.parseStrict bytes with
  | .ok v => check v
  | .error _ => .problem .malformed

end Strongbox.Schema
