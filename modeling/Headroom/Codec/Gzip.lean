import Headroom.Codec.Crc32
import Headroom.Codec.Deflate

/-!
The gzip format: a header, a DEFLATE stream, and the check and length of what it
unpacks to. One member is read; bytes after it are ignored.
-/
namespace Headroom.Codec.Gzip

/-- The longest name or comment that a header may hold. -/
def longestText : Nat := 65535

/-- Drop a text that ends with a zero byte, unless it is too long. -/
def dropText (bytes : List UInt8) : Option (List UInt8) :=
  let text := bytes.takeWhile (· != 0)
  if longestText ≤ text.length then none
  else
    match bytes.drop text.length with
    | _ :: rest => some rest
    | [] => none

/-- Drop a field that begins with its length in two bytes. -/
def dropField : List UInt8 → Option (List UInt8)
  | low :: high :: rest =>
    let length := low.toNat + 256 * high.toNat
    if rest.length < length then none else some (rest.drop length)
  | _ => none

/-- Drop a part of a header if it is there. -/
def dropIf (present : Bool) (drop : List UInt8 → Option (List UInt8)) (bytes : List UInt8) :
    Option (List UInt8) :=
  if present then drop bytes else some bytes

/-- Check the low half of the check over the header so far, which `whole` begins
with, and drop it. -/
def dropHeaderCheck (whole bytes : List UInt8) : Option (List UInt8) :=
  match bytes with
  | low :: high :: rest =>
    let header := whole.take (whole.length - bytes.length)
    if (Crc32.ofBytes header).toNat % 65536 = low.toNat + 256 * high.toNat then some rest else none
  | _ => none

/-- Drop the header. Its flags say which of its optional parts are there; the three
highest flags are reserved and must be off. -/
def dropHeader? (whole : List UInt8) : Option (List UInt8) :=
  match whole with
  | 0x1F :: 0x8B :: 8 :: flags :: _ :: _ :: _ :: _ :: _ :: _ :: rest =>
    let has (flag : Nat) : Bool := flags.toNat.testBit flag
    if has 5 || has 6 || has 7 then none
    else do
      let rest ← dropIf (has 2) dropField rest
      let rest ← dropIf (has 3) dropText rest
      let rest ← dropIf (has 4) dropText rest
      dropIf (has 1) (dropHeaderCheck whole) rest
  | _ => none

/-- Whether the trailer at the next whole byte fits the output. -/
def trailerFits (stream : List Bool) (output : List UInt8) : Bool :=
  let trailer : Except StreamFault (Nat × Nat) := do
    let (check, stream) ← takeNumber 32 (alignToByte stream)
    let (length, _) ← takeNumber 32 stream
    return (check, length)
  match trailer with
  | .ok (check, length) =>
    check == (Crc32.ofBytes output).toNat && length == output.length % UInt32.size
  | .error _ => false

/-- Why nothing is unpacked. -/
inductive Fault where
  | invalid
  /-- The content is longer than the limit. -/
  | tooLong
  /-- There is no counting beyond the limit, and nothing is begun. -/
  | overflow
  deriving DecidableEq, Repr

/-- Content is unpacked in windows of this size; a window with a fault in it is
lost as a whole. -/
def window : Nat := 32768

/-- Unpack, reading at most `readable` bytes of content. That many bytes are too
many, whatever may follow them; with fewer, the stream and its trailer must be
sound. -/
def unpackWithin (readable : Option Nat) (bytes : List UInt8) : Except Fault (List UInt8) :=
  match dropHeader? bytes with
  | none => .error .invalid
  | some body =>
    let cap := readable.map fun count => (count / window + 1) * window
    let progress := Deflate.inflate cap (bits body)
    let reaches (size : Nat) : Bool := readable.any (· ≤ size)
    let size := progress.output.size
    match progress.rest with
    | .error .full => .error .tooLong
    | .error .short => .error (if reaches size then .tooLong else .invalid)
    | .error .corrupt => .error (if reaches (size / window * window) then .tooLong else .invalid)
    | .ok rest =>
      if reaches size then .error .tooLong
      else
        let output := progress.output.toList
        if trailerFits rest output then .ok output else .error .invalid

/-- Unpack content of at most `limit` bytes. One byte more is read, to find out whether the
limit is kept, and the number of bytes to read is a word of 64 bits. -/
def unpack (limit : Option Nat) (bytes : List UInt8) : Except Fault (List UInt8) :=
  match limit with
  | none => unpackWithin none bytes
  | some limit =>
    if limit + 1 < UInt64.size then unpackWithin (some (limit + 1)) bytes
    else .error .overflow

/-- Pack a byte string. -/
def pack (bytes : List UInt8) : List UInt8 :=
  [0x1F, 0x8B, 8, 0, 0, 0, 0, 0, 0, 0xFF] ++ Deflate.store bytes ++
    littleEndian 4 (Crc32.ofBytes bytes).toNat ++ littleEndian 4 (bytes.length % UInt32.size)

end Headroom.Codec.Gzip
