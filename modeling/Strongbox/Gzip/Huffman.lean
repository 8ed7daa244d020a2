import Strongbox.Gzip.Bits

/-!
# Canonical prefix codes

A code is given by the length of each symbol's code word. Words of one length are consecutive numbers, and
shorter words come before longer ones.
-/

namespace Strongbox

/-- How many code words there are of each length from one bit on, and the symbols in the order of their
words. -/
structure Huffman where
  counts : List Nat
  symbols : List Nat
  deriving DecidableEq, Repr

namespace Huffman

def maxLength : Nat := 15

def countOf (lengths : List Nat) (n : Nat) : Nat := lengths.count n

def symbolsOf (lengths : List Nat) (n : Nat) : List Nat :=
  lengths.zipIdx.filterMap fun (length, symbol) => if length = n then some symbol else none

def longest (lengths : List Nat) : Nat := lengths.foldl max 0

/-- The room that is left when the words of the given counts are taken out of `left` words of one bit
less; nothing, if there are too many of them. -/
def remaining? (left : Nat) : List Nat → Option Nat
  | [] => some left
  | count :: counts => if count ≤ 2 * left then remaining? (2 * left - count) counts else none

/-- The code for given lengths: complete, unless `lenient` lets a single word of one bit stand alone. A code
without words has one bit that means nothing. -/
def ofLengths? (lenient : Bool) (lengths : List Nat) : Option Huffman :=
  let top := longest lengths
  if top = 0 then some ⟨[0], []⟩
  else
    let sizes := (List.range top).map (· + 1)
    let counts := sizes.map (countOf lengths)
    match remaining? 1 (counts ++ List.replicate (maxLength - top) 0) with
    | none => none
    | some left =>
      if left > 0 && !(lenient && top = 1) then none
      else some ⟨counts, sizes.flatMap (symbolsOf lengths)⟩

inductive Word where
  | symbol (s : Nat) (rest : Bits)
  | invalid
  | exhausted
  deriving DecidableEq, Repr

/-- Reads a word bit by bit. Of the words of the current length, `first` is the smallest; `symbols` begins
with its symbol. -/
def decodeFrom (bits : Bits) (code first : Nat) (symbols : List Nat) : List Nat → Word
  | [] => .invalid
  | count :: counts =>
    match bits.next? with
    | none => .exhausted
    | some (b, bits) =>
      let code := 2 * code + b.toNat
      if code < first + count then
        match symbols.drop (code - first) with
        | s :: _ => .symbol s bits
        | [] => .invalid
      else decodeFrom bits code (2 * (first + count)) (symbols.drop count) counts

def decode (h : Huffman) (bits : Bits) : Word := decodeFrom bits 0 0 h.symbols h.counts

end Huffman

end Strongbox
