import Strongbox.Text.Basic

/-!
# Blank text

The white space of the character database, and the slightly larger class that trimming removes.
-/

namespace Strongbox.Text

def isWhiteSpace (c : CodePoint) : Bool :=
  (9 ≤ c && c ≤ 13) || c == 0x20 || c == 0x85 || c == 0xA0 || c == 0x1680 ||
    (0x2000 ≤ c && c ≤ 0x200A) || c == 0x2028 || c == 0x2029 || c == 0x202F || c == 0x205F ||
    c == 0x3000

/-- White space and the four information separators. -/
def isBlank (c : CodePoint) : Bool := isWhiteSpace c || (0x1C ≤ c && c ≤ 0x1F)

def trimBy (p : CodePoint → Bool) (t : Text) : Text :=
  ((t.dropWhile p).reverse.dropWhile p).reverse

def strip (t : Text) : Text := trimBy isBlank t

/-- Text of blanks alone, the empty text among it. -/
def blank (t : Text) : Bool := t.all isBlank

end Strongbox.Text
