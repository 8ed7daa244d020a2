import Strongbox.Json.Basic
import Strongbox.Text.Blank

/-!
# Settings files

Lines of names and values. A value is bare up to a comment, or quoted with escapes; it may refer to the
environment and to the lines above. A line that is no binding is passed over.
-/

namespace Strongbox.Dotenv

def isInlineBlank (c : CodePoint) : Bool := Text.isBlank c && c != 10 && c != 13

def isLineEnd (c : CodePoint) : Bool := c == 10 || c == 13

def skipInline (t : Text) : Text := t.dropWhile isInlineBlank

def unifyLineEnds : Text → Text
  | [] => []
  | 13 :: 10 :: rest => 10 :: unifyLineEnds rest
  | c :: rest => (if c = 13 then 10 else c) :: unifyLineEnds rest

/-- A binding, or nothing of interest; and what follows. An error stands where reading stopped. -/
abbrev Parsed (α : Type) := Except Text (α × Text)

def skipExport (t : Text) : Text :=
  match Text.dropLead? (Text.ofString "export") t with
  | some (c :: rest) => if isInlineBlank c then skipInline (c :: rest) else t
  | _ => t

def readName (t : Text) : Parsed (Option Text) :=
  match t with
  | 35 :: _ => .ok (none, t)
  | 39 :: rest =>
    let name := rest.takeWhile (· != 39)
    match rest.dropWhile (· != 39) with
    | _ :: after => if name.isEmpty then .error t else .ok (some name, after)
    | [] => .error t
  | t =>
    let inName (c : CodePoint) : Bool := c != 61 && c != 35 && !Text.isBlank c
    let name := t.takeWhile inName
    if name.isEmpty then .error t else .ok (some name, t.dropWhile inName)

/-- The raw text up to the first quote, and what follows the quote. A backslash takes the next character
along. -/
def upToQuote? (quote : CodePoint) (read : Text) : Text → Option (Text × Text)
  | [] => none
  | 92 :: c :: rest => upToQuote? quote (c :: 92 :: read) rest
  | c :: rest => if c = quote then some (read.reverse, rest) else upToQuote? quote (c :: read) rest

def escape? (double : Bool) (c : CodePoint) : Option CodePoint :=
  if c = 92 || c = 39 then some c
  else if !double then none
  else if c = 34 then some c
  else if c = 97 then some 7
  else if c = 98 then some 8
  else if c = 102 then some 12
  else if c = 110 then some 10
  else if c = 114 then some 13
  else if c = 116 then some 9
  else if c = 118 then some 11
  else none

def unescape (double : Bool) : Text → Text
  | 92 :: c :: rest =>
    match escape? double c with
    | some plain => plain :: unescape double rest
    | none => 92 :: unescape double (c :: rest)
  | c :: rest => c :: unescape double rest
  | [] => []

/-- Bare text up to blanks that a number sign follows. -/
def dropComment : Text → Text
  | [] => []
  | c :: rest =>
    if Text.isBlank c then
      match rest.dropWhile Text.isBlank with
      | 35 :: _ => []
      | _ => c :: dropComment rest
    else c :: dropComment rest

/-- The value after an equals sign. A comment after blanks leaves nothing of it. -/
def readValue (t : Text) : Parsed Text :=
  match skipInline t with
  | 39 :: rest =>
    match upToQuote? 39 [] rest with
    | some (raw, after) => .ok (unescape false raw, after)
    | none => .error t
  | 34 :: rest =>
    match upToQuote? 34 [] rest with
    | some (raw, after) => .ok (unescape true raw, after)
    | none => .error t
  | _ =>
    .ok ((dropComment (t.takeWhile (!isLineEnd ·))).strip, t.dropWhile (!isLineEnd ·))

def readLineEnd (t : Text) : Parsed Unit :=
  let t := match skipInline t with
    | 35 :: rest => rest.dropWhile (!isLineEnd ·)
    | _ => t
  match skipInline t with
  | [] => .ok ((), [])
  | c :: rest => if isLineEnd c then .ok ((), rest) else .error t

def readBinding (t : Text) : Except Text (Option (Text × Option Text) × Text) := do
  let (name, t) ← readName (skipExport t)
  let t := skipInline t
  let (value, t) ← match t with
    | 61 :: rest => (readValue rest).map fun (value, t) => (some value, t)
    | t => .ok (none, t)
  let ((), t) ← readLineEnd t
  pure (name.map fun n => (n, value), t)

def skipLine (t : Text) : Text := (t.dropWhile (!isLineEnd ·)).drop 1

def readBindings : (fuel : Nat) → Text → List (Text × Option Text)
  | 0, _ => []
  | fuel + 1, t =>
    match t.dropWhile Text.isBlank with
    | [] => []
    | t =>
      match readBinding t with
      | .ok (some binding, rest) => binding :: readBindings fuel rest
      | .ok (none, rest) => readBindings fuel rest
      | .error stop => readBindings fuel (skipLine stop)

/-- A piece of a value: text, or a reference with the text for when its name is unknown. -/
inductive Piece where
  | plain (c : CodePoint)
  | reference (name fallback : Text)

def reference? : Text → Option (Piece × Text)
  | 36 :: 123 :: rest =>
    let inName (c : CodePoint) : Bool := c != 125 && c != 58
    let name := rest.takeWhile inName
    match rest.dropWhile inName with
    | 125 :: after => some (.reference name [], after)
    | 58 :: 45 :: more =>
      match Text.cutFirst? 125 more with
      | some (fallback, after) => some (.reference name fallback, after)
      | none => none
    | _ => none
  | _ => none

def pieces : (fuel : Nat) → Text → List Piece
  | 0, _ => []
  | _ + 1, [] => []
  | fuel + 1, c :: rest =>
    match reference? (c :: rest) with
    | some (piece, after) => piece :: pieces fuel after
    | none => .plain c :: pieces fuel rest

def Piece.resolve (bound : List (Text × Option Text)) : Piece → Text
  | .plain c => [c]
  | .reference name fallback =>
    match Json.lookup? name bound with
    | some (some value) => value
    | some none => []
    | none => fallback

/-- Binds the names of a file in order; the environment is known from the start. -/
def resolve (environment : List (Text × Text)) (bindings : List (Text × Option Text)) :
    List (Text × Option Text) :=
  let start := environment.map fun (name, value) => (name, some value)
  (bindings.foldl (fun (bound, read) (name, value) =>
    let value := value.map fun v => (pieces v.length v).flatMap (Piece.resolve bound)
    (Keyed.put (name, value) bound, Keyed.put (name, value) read)) (start, [])).2

def parse (environment : List (Text × Text)) (file : Text) : List (Text × Option Text) :=
  let t := unifyLineEnds file
  resolve environment (readBindings (t.length + 1) t)

end Strongbox.Dotenv
