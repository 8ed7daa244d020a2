import Strongbox.Encoding.Hex
import Strongbox.Text.Utf8

/-!
# Percent encoding

Bytes outside the unreserved characters are written as a percent sign and two digits.
-/

namespace Strongbox.Percent

def isUnreserved (c : CodePoint) : Bool :=
  (65 ≤ c && c ≤ 90) || (97 ≤ c && c ≤ 122) || (48 ≤ c && c ≤ 57) ||
    c == 45 || c == 46 || c == 95 || c == 126

def escape (b : UInt8) : Text := 37 :: Text.upper (Hex.encode [b])

def encode (safe : Text) (t : Text) : Text :=
  t.flatMap fun c =>
    if isUnreserved c || safe.elem c then [c] else (Utf8.encodeCodePoint c).flatMap escape

def unescape : Text → Bytes
  | 37 :: a :: b :: rest =>
    match Hex.digit? a, Hex.digit? b with
    | some high, some low => (high * 16 + low).toUInt8 :: unescape rest
    | _, _ => 37 :: unescape (a :: b :: rest)
  | c :: rest => Utf8.encodeCodePoint c ++ unescape rest
  | [] => []

/-- The text with the escapes of its ASCII stretches resolved; bytes that are no text then are replaced by a
mark. -/
def decode (t : Text) : Text :=
  let isAscii (c : CodePoint) : Bool := c < 128
  (List.splitBy (fun a b => isAscii a == isAscii b) t).flatMap fun stretch =>
    if stretch.all isAscii then Utf8.decodeRepaired (unescape stretch) else stretch

end Strongbox.Percent
