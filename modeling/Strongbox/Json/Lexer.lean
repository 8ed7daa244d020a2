import Strongbox.Json.Basic

/-!
# JSON tokens

A text is read one code point at a time. What is no token becomes the token `invalid`, and nothing is
read after it, so that errors are found in the order of the text.
-/

namespace Strongbox.Json

inductive Token where
  | openArray
  | closeArray
  | openObject
  | closeObject
  | comma
  | colon
  | null
  | bool (b : Bool)
  | special (x : Binary64)
  | whole (lexeme : Text)
  | decimal (lexeme : Text)
  | text (t : Text)
  | invalid
  deriving Repr

inductive Piece where
  | plain (c : CodePoint)
  | unit (u : Nat)

/-- Joins escaped high surrogates with the escaped low surrogates right after them. -/
def joinPieces : List Piece → Text
  | [] => []
  | .unit u :: .unit v :: rest =>
    if 0xD800 ≤ u && u < 0xDC00 && 0xDC00 ≤ v && v < 0xE000 then
      (0x10000 + (u - 0xD800) * 1024 + (v - 0xDC00)) :: joinPieces rest
    else u :: joinPieces (.unit v :: rest)
  | .unit u :: rest => u :: joinPieces rest
  | .plain c :: rest => c :: joinPieces rest

/-- What the reader is inside of; texts and pieces are kept last first. -/
inductive Scanner where
  | between (tokens : List Token)
  | number (tokens : List Token) (lexeme : Text)
  | word (tokens : List Token) (letters : Text)
  | string (tokens : List Token) (pieces : List Piece)
  | escape (tokens : List Token) (pieces : List Piece)
  | hexadecimal (tokens : List Token) (pieces : List Piece) (value count : Nat)
  | stuck (tokens : List Token)

def isSpace (c : CodePoint) : Bool := c == 32 || c == 9 || c == 10 || c == 13

def isNumberPart (c : CodePoint) : Bool :=
  Text.isDigit c || c == 43 || c == 45 || c == 46 || c == 101 || c == 69

def isLetter (c : CodePoint) : Bool := (65 ≤ c && c ≤ 90) || (97 ≤ c && c ≤ 122)

def hexValue? (c : CodePoint) : Option Nat :=
  if 48 ≤ c && c ≤ 57 then some (c - 48)
  else if 97 ≤ c && c ≤ 102 then some (c - 87)
  else if 65 ≤ c && c ≤ 70 then some (c - 55)
  else none

def splitWhole : Text → Text × Text
  | 48 :: rest => ([48], rest)
  | t => (t.takeWhile Text.isDigit, t.dropWhile Text.isDigit)

def splitFraction : Text → Text × Text
  | 46 :: rest =>
    let digits := rest.takeWhile Text.isDigit
    if digits.isEmpty then ([], 46 :: rest) else (46 :: digits, rest.dropWhile Text.isDigit)
  | t => ([], t)

def splitExponent : Text → Text × Text
  | [] => ([], [])
  | e :: rest =>
    if e = 101 || e = 69 then
      let (sign, body) := match rest with
        | 43 :: body => ([43], body)
        | 45 :: body => ([45], body)
        | body => ([], body)
      let digits := body.takeWhile Text.isDigit
      if digits.isEmpty then ([], e :: rest) else (e :: sign ++ digits, body.dropWhile Text.isDigit)
    else ([], e :: rest)

/-- The tokens of a run of number characters: the longest number, and what is left is invalid. -/
def numberTokens (lexeme : Text) : List Token :=
  let (sign, body) := match lexeme with
    | 45 :: body => ([45], body)
    | body => ([], body)
  let (whole, rest) := splitWhole body
  if whole.isEmpty then [.invalid]
  else
    let (fraction, rest) := splitFraction rest
    let (exponent, rest) := splitExponent rest
    let number : Token :=
      if fraction.isEmpty && exponent.isEmpty then .whole (sign ++ whole)
      else .decimal (sign ++ whole ++ fraction ++ exponent)
    if rest.isEmpty then [number] else [number, .invalid]

def wordToken (letters : Text) : Token :=
  if letters = Text.ofString "null" then .null
  else if letters = Text.ofString "true" then .bool true
  else if letters = Text.ofString "false" then .bool false
  else if letters = Text.ofString "NaN" then .special .nan
  else if letters = Text.ofString "Infinity" then .special (.infinite false)
  else if letters = Text.ofString "-Infinity" then .special (.infinite true)
  else .invalid

def markToken? (c : CodePoint) : Option Token :=
  if c = 91 then some .openArray
  else if c = 93 then some .closeArray
  else if c = 123 then some .openObject
  else if c = 125 then some .closeObject
  else if c = 44 then some .comma
  else if c = 58 then some .colon
  else none

def escaped? (c : CodePoint) : Option CodePoint :=
  if c = 34 || c = 92 || c = 47 then some c
  else if c = 98 then some 8
  else if c = 102 then some 12
  else if c = 110 then some 10
  else if c = 114 then some 13
  else if c = 116 then some 9
  else none

namespace Scanner

def closeNumber (tokens : List Token) (lexeme : Text) : List Token :=
  (numberTokens lexeme.reverse).reverse ++ tokens

def closeWord (tokens : List Token) (letters : Text) : List Token :=
  wordToken letters.reverse :: tokens

def start (tokens : List Token) (c : CodePoint) : Scanner :=
  if isSpace c then .between tokens
  else if c = 34 then .string tokens []
  else if c = 45 || Text.isDigit c then .number tokens [c]
  else if isLetter c then .word tokens [c]
  else match markToken? c with
    | some token => .between (token :: tokens)
    | none => .stuck (.invalid :: tokens)

def step (s : Scanner) (c : CodePoint) : Scanner :=
  match s with
  | .stuck tokens => .stuck tokens
  | .between tokens => start tokens c
  | .number tokens lexeme =>
    if isNumberPart c then .number tokens (c :: lexeme)
    else if lexeme = [45] && isLetter c then .word tokens [c, 45]
    else start (closeNumber tokens lexeme) c
  | .word tokens letters =>
    if isLetter c then .word tokens (c :: letters) else start (closeWord tokens letters) c
  | .string tokens pieces =>
    if c = 34 then .between (.text (joinPieces pieces.reverse) :: tokens)
    else if c = 92 then .escape tokens pieces
    else if c < 32 then .stuck (.invalid :: tokens)
    else .string tokens (.plain c :: pieces)
  | .escape tokens pieces =>
    if c = 117 then .hexadecimal tokens pieces 0 0
    else match escaped? c with
      | some plain => .string tokens (.plain plain :: pieces)
      | none => .stuck (.invalid :: tokens)
  | .hexadecimal tokens pieces value count =>
    match hexValue? c with
    | none => .stuck (.invalid :: tokens)
    | some digit =>
      let value := value * 16 + digit
      if count < 3 then .hexadecimal tokens pieces value (count + 1)
      else .string tokens (.unit value :: pieces)

def finish : Scanner → List Token
  | .between tokens => tokens.reverse
  | .stuck tokens => tokens.reverse
  | .number tokens lexeme => (closeNumber tokens lexeme).reverse
  | .word tokens letters => (closeWord tokens letters).reverse
  | .string tokens _ => (.invalid :: tokens).reverse
  | .escape tokens _ => (.invalid :: tokens).reverse
  | .hexadecimal tokens _ _ _ => (.invalid :: tokens).reverse

end Scanner

def lex (t : Text) : List Token := (t.foldl Scanner.step (.between [])).finish

end Strongbox.Json
