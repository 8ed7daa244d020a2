import Strongbox.Text.Basic

/-!
# Lines of text

A line ends at any of the line breaks, of which a return before a line feed is one.
-/

namespace Strongbox.Text

def isLineBreak (c : CodePoint) : Bool :=
  (10 ≤ c && c ≤ 13) || (28 ≤ c && c ≤ 30) || c = 0x85 || c = 0x2028 || c = 0x2029

/-- The lines of a text and an end of line after it; never empty. -/
def lines : Text → List Text
  | [] => [[]]
  | 13 :: 10 :: rest => [] :: lines rest
  | c :: rest =>
    if isLineBreak c then [] :: lines rest
    else match lines rest with
      | [] => [[c]]
      | line :: more => (c :: line) :: more

end Strongbox.Text
