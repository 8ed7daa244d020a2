import Strongbox.Digest.Hmac

/-!
# Password-based key derivation

The first block of PBKDF2 with HMAC-SHA256: the codes of a chain, each of the one before it, combined by
exclusive or. Every step works on the words of the keyed chains.
-/

namespace Strongbox.Pbkdf2

open Sha2

@[inline] def digestBlock (s : Chain UInt32) : Block UInt32 :=
  ⟨s.a, s.b, s.c, s.d, s.e, s.f, s.g, s.h, 0x80000000, 0, 0, 0, 0, 0, 0, 768⟩

def step (inner outer u : Chain UInt32) : Chain UInt32 :=
  compress outer (digestBlock (compress inner (digestBlock u)))

@[inline] def combine (s t : Chain UInt32) : Chain UInt32 :=
  ⟨s.a ^^^ t.a, s.b ^^^ t.b, s.c ^^^ t.c, s.d ^^^ t.d, s.e ^^^ t.e, s.f ^^^ t.f, s.g ^^^ t.g,
    s.h ^^^ t.h⟩

def iterate (inner outer : Chain UInt32) : (n : Nat) → (u total : Chain UInt32) → Chain UInt32
  | 0, _, total => total
  | n + 1, u, total =>
    let u := step inner outer u
    iterate inner outer n u (combine total u)

def chainOfBytes (bytes : Bytes) : Chain UInt32 :=
  match words32 bytes with
  | [a, b, c, d, e, f, g, h] => ⟨a, b, c, d, e, f, g, h⟩
  | _ => ⟨0, 0, 0, 0, 0, 0, 0, 0⟩

def derive (password salt : Bytes) (rounds : Nat) : Bytes :=
  let state := Hmac.State.keyed .sha256 password
  let first := chainOfBytes ((state.update (salt ++ [0, 0, 0, 1])).finish .sha256)
  (iterate state.inner.chain state.outer.chain (rounds - 1) first first).toBytes

end Strongbox.Pbkdf2
