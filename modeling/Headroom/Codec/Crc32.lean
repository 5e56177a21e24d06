/-!
The 32-bit cyclic redundancy check, lowest bit first, with the polynomial
`0xEDB88320`.
-/
namespace Headroom.Codec.Crc32

/-- Move one bit out of the remainder. -/
def shift (crc : UInt32) : UInt32 :=
  if crc &&& 1 = 1 then (crc >>> 1) ^^^ 0xEDB88320 else crc >>> 1

/-- Take one byte into the remainder. -/
def add (crc : UInt32) (b : UInt8) : UInt32 :=
  let mixed := crc ^^^ b.toUInt32
  shift (shift (shift (shift (shift (shift (shift (shift mixed)))))))

/-- The check of a whole byte string. -/
def ofBytes (bytes : List UInt8) : UInt32 :=
  bytes.foldl add 0xFFFFFFFF ^^^ 0xFFFFFFFF

end Headroom.Codec.Crc32
