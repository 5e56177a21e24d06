/-!
Byte strings as bits, the lowest bit of each byte first, and numbers read from
either. Reading past the end is one of two faults of a compressed stream; the
other is content that the format does not allow.
-/
namespace Headroom.Codec

/-- Why a compressed stream cannot be read to its end. -/
inductive StreamFault where
  /-- The stream ends too early. -/
  | short
  /-- The stream has content that the format does not allow. -/
  | corrupt
  /-- More was written than was asked for. -/
  | full
  deriving DecidableEq, Repr

def bitsOfByte (b : UInt8) : List Bool :=
  let n := b.toNat
  [n.testBit 0, n.testBit 1, n.testBit 2, n.testBit 3, n.testBit 4, n.testBit 5, n.testBit 6,
    n.testBit 7]

def bits (bytes : List UInt8) : List Bool := bytes.flatMap bitsOfByte

/-- The next `count` bits as a number, the lowest bit first. -/
def takeNumber : (count : Nat) → List Bool → Except StreamFault (Nat × List Bool)
  | 0, stream => .ok (0, stream)
  | _ + 1, [] => .error .short
  | count + 1, bit :: rest => do
    let (high, rest) ← takeNumber count rest
    return (2 * high + bit.toNat, rest)

/-- The stream from its next whole byte on. A stream ends on a whole byte, so the
bits left over tell where that is. -/
def alignToByte (stream : List Bool) : List Bool := stream.drop (stream.length % 8)

/-- A number in `count` bytes, the lowest byte first. -/
def littleEndian : (count : Nat) → Nat → List UInt8
  | 0, _ => []
  | count + 1, n => n.toUInt8 :: littleEndian count (n / 256)

end Headroom.Codec
