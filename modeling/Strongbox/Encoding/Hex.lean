import Strongbox.Text.Quoted

/-!
# Hexadecimal

Two lower-case digits for each byte; reading takes either case.
-/

namespace Strongbox.Hex

def encode (bytes : Bytes) : Text :=
  bytes.flatMap fun b => [Text.hexDigit (b.toNat / 16), Text.hexDigit (b.toNat % 16)]

def digit? (c : CodePoint) : Option Nat :=
  if 48 ≤ c && c ≤ 57 then some (c - 48)
  else if 97 ≤ c && c ≤ 102 then some (c - 87)
  else if 65 ≤ c && c ≤ 70 then some (c - 55)
  else none

def decode? : Text → Option Bytes
  | [] => some []
  | [_] => none
  | a :: b :: rest => do
    let high ← digit? a
    let low ← digit? b
    let tail ← decode? rest
    pure ((high * 16 + low).toUInt8 :: tail)

end Strongbox.Hex
