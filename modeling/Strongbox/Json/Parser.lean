import Strongbox.Json.Lexer
import Strongbox.Text.Utf8
import Strongbox.Text.Wide

/-!
# Reading JSON documents

A stack of open arrays and objects takes one token after the other. Two dialects are read: the strict
one refuses surrogates that stand alone and reads UTF-8 only, the lenient one finds out the encoding.
-/

namespace Strongbox.Json

inductive ReadError where
  | malformed
  | tooManyDigits
  | tooDeep
  | undecodable
  deriving DecidableEq, Repr

/-- What a reader accepts and how it takes numbers. -/
structure Dialect where
  loneSurrogates : Bool
  depthLimit : Nat
  numbersAsText : Bool := false

namespace Dialect

def strict : Dialect := { loneSurrogates := false, depthLimit := 200 }

def lenient : Dialect := { loneSurrogates := true, depthLimit := 960 }

end Dialect

/-- An array or object that is still open; what it holds is kept last first. -/
inductive Frame where
  | array (items : List Json)
  | object (members : List (Text × Json))
  | entry (members : List (Text × Json)) (name : Text)

inductive Reading where
  | value (stack : List Frame)
  | firstItem (stack : List Frame)
  | firstName (stack : List Frame) (members : List (Text × Json))
  | name (stack : List Frame) (members : List (Text × Json))
  | colon (stack : List Frame) (members : List (Text × Json)) (name : Text)
  | next (frame : Frame) (stack : List Frame)
  | done (v : Json)

def place (v : Json) : List Frame → Reading
  | [] => .done v
  | .array items :: stack => .next (.array (v :: items)) stack
  | .entry members name :: stack => .next (.object ((name, v) :: members)) stack
  | .object members :: stack => .next (.object members) stack

def wholeValue (lexeme : Text) : Except ReadError Json :=
  let (negative, digits) := Text.splitSign lexeme
  if digits.length > Text.digitLimit then .error .tooManyDigits
  else .ok (.int (Text.signed negative (Text.ofDigits (digits.filterMap Text.asciiDigit?))))

def scalar? (d : Dialect) : Token → Option (Except ReadError Json)
  | .null => some (.ok .null)
  | .bool b => some (.ok (.bool b))
  | .special x => some (.ok (.real x))
  | .whole lexeme => some (if d.numbersAsText then .ok (.text lexeme) else wholeValue lexeme)
  | .decimal lexeme =>
    some (if d.numbersAsText then .ok (.text lexeme)
      else match Binary64.readDecimal? lexeme with
        | some x => .ok (.real x)
        | none => .error .malformed)
  | .text t =>
    some (if t.any Text.isSurrogate && !d.loneSurrogates then .error .malformed else .ok (.text t))
  | _ => none

def beginValue (d : Dialect) (stack : List Frame) (token : Token) : Except ReadError Reading :=
  if stack.length > d.depthLimit then .error .tooDeep
  else match token with
    | .openArray => .ok (.firstItem stack)
    | .openObject => .ok (.firstName stack [])
    | token =>
      match scalar? d token with
      | some (.ok v) => .ok (place v stack)
      | some (.error e) => .error e
      | none => .error .malformed

def beginName (d : Dialect) (stack : List Frame) (members : List (Text × Json)) :
    Token → Except ReadError Reading
  | .text t =>
    if t.any Text.isSurrogate && !d.loneSurrogates then .error .malformed
    else .ok (.colon stack members t)
  | _ => .error .malformed

def step (d : Dialect) (state : Reading) (token : Token) : Except ReadError Reading :=
  match state with
  | .done _ => .error .malformed
  | .value stack => beginValue d stack token
  | .firstItem stack =>
    match token with
    | .closeArray => .ok (place (.array []) stack)
    | token => beginValue d (.array [] :: stack) token
  | .firstName stack members =>
    match token with
    | .closeObject => .ok (place (.object []) stack)
    | token => beginName d stack members token
  | .name stack members => beginName d stack members token
  | .colon stack members name =>
    match token with
    | .colon => .ok (.value (.entry members name :: stack))
    | _ => .error .malformed
  | .next frame stack =>
    match frame, token with
    | .array items, .comma => .ok (.value (.array items :: stack))
    | .array items, .closeArray => .ok (place (.array items.reverse) stack)
    | .object members, .comma => .ok (.name stack members)
    | .object members, .closeObject => .ok (place (ofMembers members.reverse) stack)
    | _, _ => .error .malformed

def ofTokens (d : Dialect) (tokens : List Token) : Except ReadError Json := do
  match ← tokens.foldlM (step d) (.value []) with
  | .done v => .ok v
  | _ => .error .malformed

def parse (d : Dialect) (t : Text) : Except ReadError Json := ofTokens d (lex t)

/-- A document in UTF-8 without a byte order mark. -/
def parseStrict (bytes : Bytes) : Except ReadError Json :=
  match Utf8.decode? bytes with
  | none => .error .undecodable
  | some t => parse .strict t

/-- The byte order marks and how the bytes after them are decoded; a longer mark comes before its beginning. -/
def byteOrderMarks : List (Bytes × (Bytes → Option Text)) :=
  [([0xFF, 0xFE, 0, 0], Wide.decode32? .little),
    ([0, 0, 0xFE, 0xFF], Wide.decode32? .big),
    ([0xFF, 0xFE], Wide.decode16? .little),
    ([0xFE, 0xFF], Wide.decode16? .big),
    ([0xEF, 0xBB, 0xBF], Utf8.decodeWithSurrogates?)]

/-- Decodes a document without a byte order mark by where its first bytes are zero. -/
def decodeUnmarked? (bytes : Bytes) : Option Text :=
  match bytes with
  | a :: b :: c :: d :: _ =>
    if a = 0 then
      if b = 0 then Wide.decode32? .big bytes else Wide.decode16? .big bytes
    else if b = 0 then
      if c = 0 ∧ d = 0 then Wide.decode32? .little bytes else Wide.decode16? .little bytes
    else Utf8.decodeWithSurrogates? bytes
  | [a, b] =>
    if a = 0 then Wide.decode16? .big bytes
    else if b = 0 then Wide.decode16? .little bytes
    else Utf8.decodeWithSurrogates? bytes
  | _ => Utf8.decodeWithSurrogates? bytes

def decodeDetected? (bytes : Bytes) : Option Text :=
  match byteOrderMarks.find? fun (mark, _) => mark.isPrefixOf bytes with
  | some (mark, decode) => decode (bytes.drop mark.length)
  | none => decodeUnmarked? bytes

/-- A document in any of the five encodings. -/
def parseLenient (bytes : Bytes) : Except ReadError Json :=
  match decodeDetected? bytes with
  | none => .error .undecodable
  | some t => parse .lenient t

end Strongbox.Json
