import Strongbox.Text.Basic

/-!
# CRC-32

The checksum of compressed files, one bit at a time.
-/

namespace Strongbox.Crc32

def shift (crc : UInt32) : UInt32 :=
  if crc &&& 1 = 1 then (crc >>> 1) ^^^ 0xEDB88320 else crc >>> 1

def step (crc : UInt32) (byte : UInt8) : UInt32 :=
  let c := crc ^^^ byte.toUInt32
  shift (shift (shift (shift (shift (shift (shift (shift c)))))))

def ofBytes (bytes : Bytes) : UInt32 := bytes.foldl step 0xFFFFFFFF ^^^ 0xFFFFFFFF

def ofArray (bytes : Array UInt8) : UInt32 := bytes.foldl step 0xFFFFFFFF ^^^ 0xFFFFFFFF

end Strongbox.Crc32
