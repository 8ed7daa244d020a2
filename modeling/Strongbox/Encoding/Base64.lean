import Strongbox.Text.Basic

/-!
# Base64

Decoding skips characters outside the alphabet, ignores unused trailing bits, and stops at padding that
completes a group of four.
-/

namespace Strongbox.Base64

def value? (c : CodePoint) : Option Nat :=
  if 65 ≤ c && c ≤ 90 then some (c - 65)
  else if 97 ≤ c && c ≤ 122 then some (c - 71)
  else if 48 ≤ c && c ≤ 57 then some (c + 4)
  else if c = 43 then some 62
  else if c = 47 then some 63
  else none

def symbol (c62 c63 : CodePoint) (v : Nat) : CodePoint :=
  if v < 26 then v + 65
  else if v < 52 then v + 71
  else if v < 62 then v - 4
  else if v = 62 then c62
  else c63

def encodeWith (c62 c63 : CodePoint) : Bytes → Text
  | [] => []
  | [a] => [a.toNat / 4, a.toNat % 4 * 16].map (symbol c62 c63)
  | [a, b] =>
    [a.toNat / 4, a.toNat % 4 * 16 + b.toNat / 16, b.toNat % 16 * 4].map (symbol c62 c63)
  | a :: b :: c :: rest =>
    [a.toNat / 4, a.toNat % 4 * 16 + b.toNat / 16, b.toNat % 16 * 4 + c.toNat / 64,
      c.toNat % 64].map (symbol c62 c63) ++ encodeWith c62 c63 rest

def encodeUrl (bytes : Bytes) : Text := encodeWith 45 95 bytes

structure Progress where
  bytes : Bytes
  position : Nat
  left : Nat
  pads : Nat
  stopped : Bool

def step (p : Progress) (c : CodePoint) : Progress :=
  if p.stopped then p
  else if c = 61 then
    if p.position ≥ 2 then
      let pads := p.pads + 1
      { p with pads, stopped := p.position + pads ≥ 4 }
    else p
  else match value? c with
    | none => p
    | some v =>
      match p.position with
      | 0 => { p with position := 1, left := v, pads := 0 }
      | 1 =>
        { p with bytes := (p.left * 4 + v / 16).toUInt8 :: p.bytes, position := 2, left := v % 16, pads := 0 }
      | 2 =>
        { p with bytes := (p.left * 16 + v / 4).toUInt8 :: p.bytes, position := 3, left := v % 4, pads := 0 }
      | _ => { p with bytes := (p.left * 64 + v).toUInt8 :: p.bytes, position := 0, left := 0, pads := 0 }

def decode? (t : Text) : Option Bytes :=
  let p := t.foldl step ⟨[], 0, 0, 0, false⟩
  if p.stopped || p.position = 0 then some p.bytes.reverse else none

/-- Decodes the alphabet that is safe in addresses; missing padding is added first. -/
def decodeUrl? (t : Text) : Option Bytes :=
  let padded := t ++ List.replicate ((4 - t.length % 4) % 4) 61
  decode? (padded.map fun c => if c = 45 then 43 else if c = 95 then 47 else c)

end Strongbox.Base64
