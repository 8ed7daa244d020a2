import Strongbox.Digest.Sha2

/-!
# HMAC

A keyed state holds the two streams that have taken the padded key. The code of a message comes from a
copy of it, so one keyed state serves any number of messages.
-/

namespace Strongbox.Hmac

open Sha2

variable {W : Type} [Word W] (v : Variant W)

/-- The key filled up with zeros to a block; a long key is replaced by its digest. -/
def blockKey (key : Bytes) : Bytes :=
  let key := if key.length > blockSize W then digest v key else key
  key ++ List.replicate (blockSize W - key.length) 0

structure State (W : Type) where
  inner : Stream W
  outer : Stream W
  deriving DecidableEq, Repr

namespace State

def keyed (key : Bytes) : State W :=
  ⟨(Stream.start v).absorb ((blockKey v key).map (· ^^^ 0x36)),
    (Stream.start v).absorb ((blockKey v key).map (· ^^^ 0x5C))⟩

def update (s : State W) (bytes : Bytes) : State W := { s with inner := s.inner.absorb bytes }

theorem update_append (s : State W) (x y : Bytes) : s.update (x ++ y) = (s.update x).update y := by
  simp [update, Stream.absorb_append]

def finish (s : State W) : Bytes := (s.outer.absorb (s.inner.finish v)).finish v

end State

def code (key message : Bytes) : Bytes :=
  digest v ((blockKey v key).map (· ^^^ 0x5C) ++
    digest v ((blockKey v key).map (· ^^^ 0x36) ++ message))

/-- The streams and the two nested digests give the same code. -/
theorem finish_update_keyed (key message : Bytes) :
    ((State.keyed v key).update message).finish v = code v key message := by
  simp [State.keyed, State.update, State.finish, code, digest, Stream.absorb_append]

end Strongbox.Hmac
