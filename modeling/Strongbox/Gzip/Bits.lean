import Strongbox.Text.Basic

/-!
# Reading bits

The bits of a byte sequence, the least significant of each byte first.
-/

namespace Strongbox

structure Bits where
  rest : List Bool
  taken : Nat
  deriving DecidableEq, Repr

namespace Bits

def ofByte (b : UInt8) : List Bool :=
  let n := b.toNat
  [n % 2 == 1, n / 2 % 2 == 1, n / 4 % 2 == 1, n / 8 % 2 == 1, n / 16 % 2 == 1, n / 32 % 2 == 1,
    n / 64 % 2 == 1, n / 128 % 2 == 1]

def ofBytes (bytes : Bytes) : Bits := ⟨bytes.flatMap ofByte, 0⟩

def next? : Bits → Option (Bool × Bits)
  | ⟨[], _⟩ => none
  | ⟨b :: rest, taken⟩ => some (b, ⟨rest, taken + 1⟩)

/-- The number that the next `n` bits make, the first one the least significant. -/
def take? : (n : Nat) → Bits → Option (Nat × Bits)
  | 0, s => some (0, s)
  | n + 1, s => do
    let (b, s) ← s.next?
    let (high, s) ← take? n s
    pure (b.toNat + 2 * high, s)

def align (s : Bits) : Bits :=
  let skipped := (8 - s.taken % 8) % 8
  ⟨s.rest.drop skipped, s.taken + skipped⟩

end Bits

end Strongbox
