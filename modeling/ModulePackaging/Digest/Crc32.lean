import ModulePackaging.Text.Basic

/-!
# The cyclic redundancy check of archives

The remainder of a message by the polynomial of Ethernet and of zip files, bit by bit from the
lowest.
-/

namespace ModulePackaging.Crc32

/-- The remainder after one more bit. -/
def shiftBit (r : UInt32) : UInt32 :=
  if r &&& 1 = 1 then (r >>> 1) ^^^ 0xEDB88320 else r >>> 1

/-- The remainder after one more byte. -/
def step (r : UInt32) (b : UInt8) : UInt32 :=
  (shiftBit ∘ shiftBit ∘ shiftBit ∘ shiftBit ∘ shiftBit ∘ shiftBit ∘ shiftBit ∘ shiftBit)
    (r ^^^ b.toUInt32)

/-- The check of a message. -/
def checksum (message : Bytes) : UInt32 := message.foldl step 0xFFFFFFFF ^^^ 0xFFFFFFFF

end ModulePackaging.Crc32
