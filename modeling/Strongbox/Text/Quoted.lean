import Strongbox.Text.Printable

/-!
# Quoted text for the log

Single quotes unless the text holds single quotes and no double ones; the quote and the backslash are
escaped, and hidden characters are written by their number.
-/

namespace Strongbox.Text

def hexDigit (n : Nat) : CodePoint := if n < 10 then 48 + n else 87 + n

def hexPadded : (width n : Nat) → Text
  | 0, _ => []
  | width + 1, n => hexPadded width (n / 16) ++ [hexDigit (n % 16)]

def escaped (c : CodePoint) : Text :=
  if c < 0x100 then ofString "\\x" ++ hexPadded 2 c
  else if c < 0x10000 then ofString "\\u" ++ hexPadded 4 c
  else ofString "\\U" ++ hexPadded 8 c

def quoteCodePoint (quote c : CodePoint) : Text :=
  if c = quote || c = 92 then [92, c]
  else if c = 9 then ofString "\\t"
  else if c = 10 then ofString "\\n"
  else if c = 13 then ofString "\\r"
  else if isPrintable c then [c]
  else escaped c

def quoted (t : Text) : Text :=
  let quote := if 39 ∈ t ∧ 34 ∉ t then 34 else 39
  quote :: t.flatMap (quoteCodePoint quote) ++ [quote]

end Strongbox.Text
