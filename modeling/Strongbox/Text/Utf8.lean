import Strongbox.Text.Basic

/-!
# UTF-8

Encoding is defined on text without surrogates. Decoding reads one byte at a time and refuses overlong
forms, values outside the code space, and surrogates unless they are asked for.
-/

namespace Strongbox.Utf8

def encodeCodePoint (c : CodePoint) : Bytes :=
  if c < 0x80 then [c.toUInt8]
  else if c < 0x800 then [(0xC0 + c / 64).toUInt8, (0x80 + c % 64).toUInt8]
  else if c < 0x10000 then
    [(0xE0 + c / 4096).toUInt8, (0x80 + c / 64 % 64).toUInt8, (0x80 + c % 64).toUInt8]
  else
    [(0xF0 + c / 262144).toUInt8, (0x80 + c / 4096 % 64).toUInt8, (0x80 + c / 64 % 64).toUInt8,
      (0x80 + c % 64).toUInt8]

def encode? (t : Text) : Option Bytes :=
  if t.Encodable then some (t.flatMap encodeCodePoint) else none

inductive Progress where
  | between (read : Text)
  | within (read : Text) (value owed least : Nat)
  | broken

namespace Progress

def first (read : Text) (b : Nat) : Progress :=
  if b < 0x80 then .between (b :: read)
  else if b < 0xC2 then .broken
  else if b < 0xE0 then .within read (b - 0xC0) 1 0x80
  else if b < 0xF0 then .within read (b - 0xE0) 2 0x800
  else if b < 0xF5 then .within read (b - 0xF0) 3 0x10000
  else .broken

def step (surrogates : Bool) (p : Progress) (byte : UInt8) : Progress :=
  match p with
  | .broken => .broken
  | .between read => first read byte.toNat
  | .within read value owed least =>
    let b := byte.toNat
    if b < 0x80 || 0xC0 ≤ b then .broken
    else
      let value := value * 64 + (b - 0x80)
      if owed > 1 then .within read value (owed - 1) least
      else if value < least || 0x110000 ≤ value then .broken
      else if Text.isSurrogate value && !surrogates then .broken
      else .between (value :: read)

def finish? : Progress → Option Text
  | .between read => some read.reverse
  | _ => none

end Progress

def decode? (bytes : Bytes) : Option Text :=
  (bytes.foldl (Progress.step false) (.between [])).finish?

/-- Like `decode?`, but the three-byte forms of surrogates are read as well. -/
def decodeWithSurrogates? (bytes : Bytes) : Option Text :=
  (bytes.foldl (Progress.step true) (.between [])).finish?

/-- How far a byte sequence has been read when faults in it are replaced: the text last first, and for a
character that is not complete its value so far, how many bytes it lacks, and what the next one may be. -/
inductive Repair where
  | between (read : Text)
  | within (read : Text) (value owed low high : Nat)

namespace Repair

def replacement : CodePoint := 0xFFFD

def first (read : Text) (b : Nat) : Repair :=
  if b < 0x80 then .between (b :: read)
  else if b < 0xC2 then .between (replacement :: read)
  else if b < 0xE0 then .within read (b - 0xC0) 1 0x80 0xBF
  else if b < 0xF0 then
    .within read (b - 0xE0) 2 (if b = 0xE0 then 0xA0 else 0x80) (if b = 0xED then 0x9F else 0xBF)
  else if b < 0xF5 then
    .within read (b - 0xF0) 3 (if b = 0xF0 then 0x90 else 0x80) (if b = 0xF4 then 0x8F else 0xBF)
  else .between (replacement :: read)

/-- The state after one more byte. A byte that cannot continue a character begins a new one. -/
def step (p : Repair) (byte : UInt8) : Repair :=
  match p with
  | .between read => first read byte.toNat
  | .within read value owed low high =>
    let b := byte.toNat
    if b < low || high < b then first (replacement :: read) b
    else if owed > 1 then .within read (value * 64 + (b - 0x80)) (owed - 1) 0x80 0xBF
    else .between ((value * 64 + (b - 0x80)) :: read)

def finish : Repair → Text
  | .between read => read.reverse
  | .within read _ _ _ _ => (replacement :: read).reverse

end Repair

/-- The text of a byte sequence, each longest run of bytes that begins a character without being one replaced
by a mark. -/
def decodeRepaired (bytes : Bytes) : Text := (bytes.foldl Repair.step (.between [])).finish

end Strongbox.Utf8
