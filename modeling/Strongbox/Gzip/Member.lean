import Strongbox.Gzip.Crc32
import Strongbox.Gzip.Deflate

/-!
# Compressed files

A member has a header, compressed blocks, and a trailer with checksum and length. Bounded inflation reads
the first member of a file.
-/

namespace Strongbox.Gzip

open Deflate

def takeBytes : (n : Nat) → Decode Bytes
  | 0 => pure []
  | n + 1 => do
    let b ← takeBits 8
    let rest ← takeBytes n
    pure (b.toUInt8 :: rest)

def takeZeroEnded : (fuel : Nat) → Decode Bytes
  | 0 => exhausted
  | fuel + 1 => do
    let b ← takeBits 8
    if b = 0 then pure [0]
    else do
      let rest ← takeZeroEnded fuel
      pure (b.toUInt8 :: rest)

def optionalField (present : Bool) (field : Decode Bytes) : Decode Bytes :=
  if present then field else pure []

def takeExtra : Decode Bytes := do
  let size ← takeBytes 2
  let length := (size.getD 0 0).toNat + 256 * (size.getD 1 0).toNat
  let data ← takeBytes length
  pure (size ++ data)

def hasFlag (flags bit : Nat) : Bool := flags / Nat.pow 2 bit % 2 == 1

/-- The header: mark, method, flags, six bytes that do not matter, and the fields that the flags announce. A
header checksum covers everything before it. -/
def takeHeader (fuel : Nat) : Decode Unit := do
  let mark ← takeBytes 2
  require (mark == [0x1F, 0x8B])
  let method ← takeBytes 2
  let flags := (method.getD 1 0).toNat
  require (method.getD 0 0 == 8 && flags < 32)
  let times ← takeBytes 6
  let extra ← optionalField (hasFlag flags 2) takeExtra
  let name ← optionalField (hasFlag flags 3) (takeZeroEnded fuel)
  let comment ← optionalField (hasFlag flags 4) (takeZeroEnded fuel)
  if hasFlag flags 1 then do
    let sum ← takeBits 16
    let covered := mark ++ method ++ times ++ extra ++ name ++ comment
    require ((Crc32.ofBytes covered).toNat % 65536 == sum)
  else pure ()

def takeTrailer : Decode Unit := do
  alignToByte
  let sum ← takeBits 32
  requireOutput fun out => (Crc32.ofArray out).toNat == sum
  let length ← takeBits 32
  requireOutput fun out => out.size % 0x100000000 == length
where
  requireOutput (test : Array UInt8 → Bool) : Decode Unit := fun d =>
    if test d.out then .ok ((), d) else .error .corrupt

def takeMember (fuel : Nat) : Decode Unit := do
  takeHeader fuel
  blocks fuel
  takeTrailer

def decodeMember (limit : Option Nat) (data : Bytes) : Except Stop Decoder :=
  (takeMember (8 * data.length + 1) ⟨.ofBytes data, #[], limit⟩).map (·.2)

inductive InflateError where
  | corrupt
  | negativeLimit
  /-- The limit does not fit 64 bits. -/
  | hugeLimit
  deriving DecidableEq, Repr

/-- The contents of a file's first member, or nothing when they are longer than the limit. -/
def inflate (maxSize : Int) (data : Bytes) : Except InflateError (Option Bytes) :=
  if maxSize + 1 < -0x8000000000000000 || maxSize + 1 ≥ 0x8000000000000000 then .error .hugeLimit
  else if maxSize < -1 then .error .negativeLimit
  else
    let room := (maxSize + 1).toNat
    match decodeMember (if room = 0 then none else some room) data with
    | .ok d => .ok (if (d.out.size : Int) > maxSize then none else some d.out.toList)
    | .error .full => .ok none
    | .error .corrupt => .error .corrupt
    | .error (.truncated written) => if (written : Int) > maxSize then .ok none else .error .corrupt

end Strongbox.Gzip
