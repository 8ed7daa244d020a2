import Strongbox.Gzip.Huffman

/-!
# Compressed blocks

A sequence of blocks, each stored, or coded with fixed or transmitted codes. The output may be limited:
decoding then goes on until one more byte would have to be written.
-/

namespace Strongbox.Deflate

inductive Stop where
  | corrupt
  | truncated (written : Nat)
  | full
  deriving DecidableEq, Repr

structure Decoder where
  bits : Bits
  out : Array UInt8
  limit : Option Nat
  deriving DecidableEq, Repr

abbrev Decode := StateT Decoder (Except Stop)

def stop (reason : Stop) : Decode α := fun _ => .error reason

def corrupt : Decode α := stop .corrupt

def exhausted : Decode α := fun d => .error (.truncated d.out.size)

def require (condition : Bool) : Decode Unit := if condition then pure () else corrupt

def takeBits (n : Nat) : Decode Nat := fun d =>
  match d.bits.take? n with
  | some (v, bits) => .ok (v, { d with bits })
  | none => .error (.truncated d.out.size)

def alignToByte : Decode Unit := fun d => .ok ((), { d with bits := d.bits.align })

def Decoder.hasRoom (d : Decoder) : Bool :=
  match d.limit with
  | none => true
  | some limit => d.out.size < limit

def needRoom : Decode Unit := fun d => if d.hasRoom then .ok ((), d) else .error .full

def write (b : UInt8) : Decode Unit := fun d =>
  if d.hasRoom then .ok ((), { d with out := d.out.push b }) else .error .full

def takeSymbol (h : Huffman) : Decode Nat := fun d =>
  match h.decode d.bits with
  | .symbol s bits => .ok (s, { d with bits })
  | .invalid => .error .corrupt
  | .exhausted => .error (.truncated d.out.size)

def copyByte : Decode Unit := do
  needRoom
  let b ← takeBits 8
  write b.toUInt8

def copyBytes : (n : Nat) → Decode Unit
  | 0 => pure ()
  | n + 1 => do
    copyByte
    copyBytes n

def repeatByte (distance : Nat) : Decode Unit := fun d =>
  write (d.out.getD (d.out.size - distance) 0) d

def repeatBytes (distance : Nat) : (n : Nat) → Decode Unit
  | 0 => pure ()
  | n + 1 => do
    repeatByte distance
    repeatBytes distance n

/-- The distance reaches no further back than the output goes. -/
def requireDistance (distance : Nat) : Decode Unit := fun d =>
  if distance ≤ d.out.size then .ok ((), d) else .error .corrupt

structure Range where
  base : Nat
  extra : Nat

def lengthRanges : List Range :=
  [⟨3, 0⟩, ⟨4, 0⟩, ⟨5, 0⟩, ⟨6, 0⟩, ⟨7, 0⟩, ⟨8, 0⟩, ⟨9, 0⟩, ⟨10, 0⟩, ⟨11, 1⟩, ⟨13, 1⟩, ⟨15, 1⟩,
    ⟨17, 1⟩, ⟨19, 2⟩, ⟨23, 2⟩, ⟨27, 2⟩, ⟨31, 2⟩, ⟨35, 3⟩, ⟨43, 3⟩, ⟨51, 3⟩, ⟨59, 3⟩, ⟨67, 4⟩, ⟨83, 4⟩,
    ⟨99, 4⟩, ⟨115, 4⟩, ⟨131, 5⟩, ⟨163, 5⟩, ⟨195, 5⟩, ⟨227, 5⟩, ⟨258, 0⟩]

def distanceRanges : List Range :=
  [⟨1, 0⟩, ⟨2, 0⟩, ⟨3, 0⟩, ⟨4, 0⟩, ⟨5, 1⟩, ⟨7, 1⟩, ⟨9, 2⟩, ⟨13, 2⟩, ⟨17, 3⟩, ⟨25, 3⟩, ⟨33, 4⟩,
    ⟨49, 4⟩, ⟨65, 5⟩, ⟨97, 5⟩, ⟨129, 6⟩, ⟨193, 6⟩, ⟨257, 7⟩, ⟨385, 7⟩, ⟨513, 8⟩, ⟨769, 8⟩, ⟨1025, 9⟩,
    ⟨1537, 9⟩, ⟨2049, 10⟩, ⟨3073, 10⟩, ⟨4097, 11⟩, ⟨6145, 11⟩, ⟨8193, 12⟩, ⟨12289, 12⟩, ⟨16385, 13⟩,
    ⟨24577, 13⟩]

def takeRange : Option Range → Decode Nat
  | none => corrupt
  | some r => do
    let more ← takeBits r.extra
    pure (r.base + more)

structure Codes where
  literals : Huffman
  distances : Huffman
  deriving DecidableEq, Repr

def takeMatch (c : Codes) (symbol : Nat) : Decode Unit := do
  let length ← takeRange lengthRanges[symbol - 257]?
  let distanceSymbol ← takeSymbol c.distances
  let distance ← takeRange distanceRanges[distanceSymbol]?
  needRoom
  requireDistance distance
  repeatBytes distance length

def symbols (c : Codes) : (fuel : Nat) → Decode Unit
  | 0 => exhausted
  | fuel + 1 => do
    let symbol ← takeSymbol c.literals
    if symbol = 256 then pure ()
    else if symbol < 256 then do
      write symbol.toUInt8
      symbols c fuel
    else do
      takeMatch c symbol
      symbols c fuel

def fixedCodes : Codes :=
  let literals := List.replicate 144 8 ++ List.replicate 112 9 ++ List.replicate 24 7 ++
    List.replicate 8 8
  { literals := (Huffman.ofLengths? false literals).getD ⟨[], []⟩
    distances := (Huffman.ofLengths? false (List.replicate 32 5)).getD ⟨[], []⟩ }

def lengthOrder : List Nat := [16, 17, 18, 0, 8, 7, 9, 6, 10, 5, 11, 4, 12, 3, 13, 2, 14, 1, 15]

def takeTriples : (n : Nat) → Decode (List Nat)
  | 0 => pure []
  | n + 1 => do
    let v ← takeBits 3
    let rest ← takeTriples n
    pure (v :: rest)

/-- The code for lengths. Without any words, every bit stands for the length zero. -/
def lengthCode? (triples : List Nat) : Option Huffman :=
  let known := lengthOrder.zip triples
  let lengths := (List.range 19).map fun symbol =>
    ((known.find? fun (s, _) => s == symbol).map (·.2)).getD 0
  if Huffman.longest lengths = 0 then some ⟨[2], [0, 0]⟩ else Huffman.ofLengths? false lengths

def takeRepeat (symbol : Nat) (last : Option Nat) : Decode (Nat × Nat) :=
  if symbol < 16 then pure (1, symbol)
  else if symbol = 16 then do
    let more ← takeBits 2
    match last with
    | none => corrupt
    | some length => pure (3 + more, length)
  else if symbol = 17 then do
    let more ← takeBits 3
    pure (3 + more, 0)
  else do
    let more ← takeBits 7
    pure (11 + more, 0)

/-- Lengths up to a total of `total`, kept last first; each symbol uses up some of the fuel. -/
def takeLengths (h : Huffman) (total : Nat) : (fuel : Nat) → List Nat → Decode (List Nat)
  | 0, _ => exhausted
  | fuel + 1, read =>
    if read.length = total then pure read.reverse
    else do
      let symbol ← takeSymbol h
      let (count, length) ← takeRepeat symbol read.head?
      require (read.length + count ≤ total)
      takeLengths h total fuel (List.replicate count length ++ read)

def accept : Option α → Decode α
  | some x => pure x
  | none => corrupt

def takeCodes : Decode Codes := do
  let literalCount := (← takeBits 5) + 257
  let distanceCount := (← takeBits 5) + 1
  let tripleCount := (← takeBits 4) + 4
  require (literalCount ≤ 286 && distanceCount ≤ 30)
  let triples ← takeTriples tripleCount
  let code ← accept (lengthCode? triples)
  let total := literalCount + distanceCount
  let lengths ← takeLengths code total (total + 1) []
  require (lengths.getD 256 0 != 0)
  let literals ← accept (Huffman.ofLengths? true (lengths.take literalCount))
  let distances ← accept (Huffman.ofLengths? true (lengths.drop literalCount))
  pure ⟨literals, distances⟩

/-- A stored block: its length twice, once inverted, and its bytes. -/
def storedBlock : Decode Unit := do
  alignToByte
  let both ← takeBits 32
  let length := both % 65536
  require (both / 65536 == 65535 - length)
  copyBytes length

def block (fuel type : Nat) : Decode Unit :=
  if type = 0 then storedBlock
  else if type = 1 then symbols fixedCodes fuel
  else if type = 2 then do
    let codes ← takeCodes
    symbols codes fuel
  else corrupt

def blocks : (fuel : Nat) → Decode Unit
  | 0 => exhausted
  | fuel + 1 => do
    let header ← takeBits 3
    block (fuel + 1) (header / 2)
    if header % 2 = 1 then pure () else blocks fuel

end Strongbox.Deflate
