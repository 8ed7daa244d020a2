import Strongbox.Text.Basic

/-!
# Two- and four-byte encodings

A document may come in 16- or 32-bit units of either byte order. Surrogate pairs are joined; a
surrogate that stands alone is passed on as it is.
-/

namespace Strongbox

inductive ByteOrder where
  | big
  | little
  deriving DecidableEq, Repr

namespace Wide

def unitValue (order : ByteOrder) (bytes : List UInt8) : Nat :=
  let big := match order with
    | .big => bytes
    | .little => bytes.reverse
  big.foldl (fun value byte => value * 256 + byte.toNat) 0

def units16? (order : ByteOrder) : Bytes → Option (List Nat)
  | [] => some []
  | [_] => none
  | a :: b :: rest => (units16? order rest).map (unitValue order [a, b] :: ·)

def joinPairs : List Nat → Text
  | [] => []
  | [u] => [u]
  | u :: v :: rest =>
    if 0xD800 ≤ u && u < 0xDC00 && 0xDC00 ≤ v && v < 0xE000 then
      (0x10000 + (u - 0xD800) * 1024 + (v - 0xDC00)) :: joinPairs rest
    else u :: joinPairs (v :: rest)

def decode16? (order : ByteOrder) (bytes : Bytes) : Option Text :=
  (units16? order bytes).map joinPairs

def decode32? (order : ByteOrder) : Bytes → Option Text
  | [] => some []
  | a :: b :: c :: d :: rest =>
    let value := unitValue order [a, b, c, d]
    if value < 0x110000 then (decode32? order rest).map (value :: ·) else none
  | _ => none

end Wide

end Strongbox
