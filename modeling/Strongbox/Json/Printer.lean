import Strongbox.Json.Basic
import Strongbox.Text.Quoted

/-!
# Printing JSON

Compact text without spaces. Only quotes, backslashes and control characters are escaped, and on demand
everything outside ASCII, by 16-bit units.
-/

namespace Strongbox.Json

def unitEscape (u : Nat) : Text := 92 :: 117 :: Text.hexPadded 4 u

def printCodePoint (ascii : Bool) (c : CodePoint) : Text :=
  if c = 34 then [92, 34]
  else if c = 92 then [92, 92]
  else if c = 8 then [92, 98]
  else if c = 9 then [92, 116]
  else if c = 10 then [92, 110]
  else if c = 12 then [92, 102]
  else if c = 13 then [92, 114]
  else if c < 32 then unitEscape c
  else if ascii && c ≥ 127 then
    if c < 0x10000 then unitEscape c
    else unitEscape (0xD800 + (c - 0x10000) / 1024) ++ unitEscape (0xDC00 + (c - 0x10000) % 1024)
  else [c]

def printText (ascii : Bool) (t : Text) : Text := 34 :: t.flatMap (printCodePoint ascii) ++ [34]

def printReal : Binary64 → Text
  | .nan => Text.ofString "NaN"
  | .infinite negative => Text.ofString (if negative then "-Infinity" else "Infinity")
  | x => x.toText

mutual

def print (ascii : Bool) : Json → Text
  | .null => Text.ofString "null"
  | .bool b => Text.ofString (if b then "true" else "false")
  | .int n => Text.ofInt n
  | .real x => printReal x
  | .text t => printText ascii t
  | .array items => 91 :: printItems ascii items ++ [93]
  | .object members => 123 :: printMembers ascii members ++ [125]

def printItems (ascii : Bool) : List Json → Text
  | [] => []
  | [v] => print ascii v
  | v :: w :: rest => print ascii v ++ 44 :: printItems ascii (w :: rest)

def printMembers (ascii : Bool) : List (Text × Json) → Text
  | [] => []
  | [(name, v)] => printText ascii name ++ 58 :: print ascii v
  | (name, v) :: m :: rest =>
    printText ascii name ++ 58 :: print ascii v ++ 44 :: printMembers ascii (m :: rest)

end

def toAscii (v : Json) : Text := print true v

def toText (v : Json) : Text := print false v

end Strongbox.Json
