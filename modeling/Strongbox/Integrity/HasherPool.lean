import Strongbox.Digest.Hmac
import Strongbox.Encoding.Hex
import Strongbox.Failure
import Strongbox.Json.Basic
import Strongbox.Text.Utf8

/-!
# A pool of keyed hashers

A hasher serves one message. What is given back is replaced by a fresh copy of the keyed state; the queue
of spare copies is bounded when the size is positive, and a hasher is made on demand when it is empty.
-/

namespace Strongbox

structure HasherPool where
  keyed : Hmac.State UInt32
  size : Int
  /-- Spare copies of the keyed state, the last one queued first. -/
  free : List (Hmac.State UInt32)
  deriving DecidableEq, Repr

namespace HasherPool

def ofKey (key : Text) (size : Int) : Outcome HasherPool :=
  if key.isEmpty then Outcome.fail .badValue
  else match Utf8.encode? key with
    | none => Outcome.fail .unencodable
    | some bytes =>
      let keyed := Hmac.State.keyed .sha256 bytes
      .ok ⟨keyed, size, List.replicate size.toNat keyed⟩

def acquire (p : HasherPool) : Hmac.State UInt32 × HasherPool :=
  match p.free with
  | [] => (p.keyed, p)
  | h :: rest => (h, { p with free := rest })

/-- Queues a fresh copy, unless the queue is full. -/
def release (p : HasherPool) : HasherPool :=
  if p.size ≤ 0 ∨ (p.free.length : Int) < p.size then { p with free := p.keyed :: p.free } else p

def digest (p : HasherPool) (message : Bytes) : Bytes × HasherPool :=
  let (h, p) := p.acquire
  ((h.update message).finish .sha256, p.release)

def verify (p : HasherPool) (message : Bytes) (supplied : Text) : Outcome Bool :=
  match Utf8.encode? supplied with
  | none => Outcome.fail .unencodable
  | some bytes => .ok (Utf8.encode? (Hex.encode (p.digest message).1) == some bytes)

inductive Event where
  | acquire (name : Text)
  | update (name : Text) (bytes : Bytes)
  | hexdigest (name : Text)
  | release (name : Text)
  | digest (bytes : Bytes)
  deriving DecidableEq, Repr

structure Desk where
  pool : HasherPool
  held : List (Text × Hmac.State UInt32)

namespace Desk

def next (d : Desk) : Event → Option Text × Desk
  | .acquire name =>
    let (h, pool) := d.pool.acquire
    (none, ⟨pool, Keyed.put (name, h) d.held⟩)
  | .update name bytes =>
    (none, { d with held := d.held.map fun (n, h) => (n, if n = name then h.update bytes else h) })
  | .hexdigest name => ((Json.lookup? name d.held).map fun h => Hex.encode (h.finish .sha256), d)
  | .release name => (none, ⟨d.pool.release, d.held.filter fun (n, _) => n ≠ name⟩)
  | .digest bytes =>
    let (code, pool) := d.pool.digest bytes
    (some (Hex.encode code), { d with pool })

end Desk

end HasherPool

end Strongbox
