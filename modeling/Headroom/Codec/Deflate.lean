import Headroom.Codec.Huffman

/-!
The DEFLATE format. `inflate` reads all three kinds of block; `store` writes
blocks that hold their bytes as they are.
-/
namespace Headroom.Codec.Deflate

/-- The least length of each length symbol from 257 on, with its extra bits. -/
def lengthTable : List (Nat × Nat) :=
  [(3, 0), (4, 0), (5, 0), (6, 0), (7, 0), (8, 0), (9, 0), (10, 0), (11, 1), (13, 1), (15, 1),
    (17, 1), (19, 2), (23, 2), (27, 2), (31, 2), (35, 3), (43, 3), (51, 3), (59, 3), (67, 4),
    (83, 4), (99, 4), (115, 4), (131, 5), (163, 5), (195, 5), (227, 5), (258, 0)]

/-- The least distance of each distance symbol, with its extra bits. -/
def distanceTable : List (Nat × Nat) :=
  [(1, 0), (2, 0), (3, 0), (4, 0), (5, 1), (7, 1), (9, 2), (13, 2), (17, 3), (25, 3), (33, 4),
    (49, 4), (65, 5), (97, 5), (129, 6), (193, 6), (257, 7), (385, 7), (513, 8), (769, 8),
    (1025, 9), (1537, 9), (2049, 10), (3073, 10), (4097, 11), (6145, 11), (8193, 12),
    (12289, 12), (16385, 13), (24577, 13)]

/-- The order in which the lengths of the code for code lengths are written. -/
def lengthOrder : List Nat :=
  [16, 17, 18, 0, 8, 7, 9, 6, 10, 5, 11, 4, 12, 3, 13, 2, 14, 1, 15]

/-- The fixed code of literals and lengths. -/
def fixedLiterals : CodeTree :=
  (CodeTree.ofLengths? false
    (List.replicate 144 8 ++ List.replicate 112 9 ++ List.replicate 24 7 ++
      List.replicate 8 8)).getD .empty

/-- The fixed code of distances. -/
def fixedDistances : CodeTree :=
  (CodeTree.ofLengths? false (List.replicate 32 5)).getD .empty

/-- What a part of a stream wrote, and the rest of the stream or why it stops. -/
structure Progress where
  output : Array UInt8
  rest : Except StreamFault (List Bool)

/-- Append `count` bytes from `distance` bytes back. What lies before the start of
the output reads as zero. -/
def copyBack (distance : Nat) : (count : Nat) → Array UInt8 → Array UInt8
  | 0, output => output
  | count + 1, output =>
    let b := if distance ≤ output.size then output.getD (output.size - distance) 0 else 0
    copyBack distance count (output.push b)

/-- A number from a table: its least value and extra bits. -/
def tableNumber (table : List (Nat × Nat)) (index : Nat) (stream : List Bool) :
    Except StreamFault (Nat × List Bool) :=
  match table[index]? with
  | none => .error .corrupt
  | some (least, extra) => do
    let (more, stream) ← takeNumber extra stream
    return (least + more, stream)

/-- The length and distance of a copy whose length symbol is `symbol`. -/
def copyOf (distances : CodeTree) (symbol : Nat) (stream : List Bool) :
    Except StreamFault (Nat × Nat × List Bool) := do
  let (length, stream) ← tableNumber lengthTable (symbol - 257) stream
  let (symbol, stream) ← distances.decode stream
  let (distance, stream) ← tableNumber distanceTable symbol stream
  return (length, distance, stream)

/-- The symbols of one block up to its end mark. Each takes at least one bit, so
`fuel` bits allow no more than `fuel` symbols. Writing stops beyond `cap` bytes. -/
def symbols (cap : Option Nat) (literals distances : CodeTree) :
    (fuel : Nat) → List Bool → Array UInt8 → Progress
  | 0, _, output => ⟨output, .error .short⟩
  | fuel + 1, stream, output =>
    if cap.any (· < output.size) then ⟨output, .error .full⟩
    else
      match literals.decode stream with
      | .error fault => ⟨output, .error fault⟩
      | .ok (symbol, stream) =>
        if symbol < 256 then symbols cap literals distances fuel stream (output.push symbol.toUInt8)
        else if symbol = 256 then ⟨output, .ok stream⟩
        else
          match copyOf distances symbol stream with
          | .error fault => ⟨output, .error fault⟩
          | .ok (length, distance, stream) =>
            symbols cap literals distances fuel stream (copyBack distance length output)

section

-- Where the arms are compared, `copyOf` must not be opened: its index counts down from 257.
attribute [local irreducible] copyOf

variable (cap : Option Nat) (literals distances : CodeTree) (stream : List Bool)
  (output : Array UInt8)

theorem symbols_zero : symbols cap literals distances 0 stream output = ⟨output, .error .short⟩ :=
  rfl

theorem symbols_succ (fuel : Nat) :
    symbols cap literals distances (fuel + 1) stream output =
      if cap.any (· < output.size) then ⟨output, .error .full⟩
      else
        match literals.decode stream with
        | .error fault => ⟨output, .error fault⟩
        | .ok (symbol, stream) =>
          if symbol < 256 then
            symbols cap literals distances fuel stream (output.push symbol.toUInt8)
          else if symbol = 256 then ⟨output, .ok stream⟩
          else
            match copyOf distances symbol stream with
            | .error fault => ⟨output, .error fault⟩
            | .ok (length, distance, stream) =>
              symbols cap literals distances fuel stream (copyBack distance length output) :=
  rfl

end

/-- The next `count` bytes of a stream that stands at a whole byte. -/
def storedBytes (cap : Option Nat) :
    (count : Nat) → List Bool → Array UInt8 → Progress
  | 0, stream, output => ⟨output, .ok stream⟩
  | count + 1, stream, output =>
    if cap.any (· < output.size) then ⟨output, .error .full⟩
    else
      match takeNumber 8 stream with
      | .error fault => ⟨output, .error fault⟩
      | .ok (b, stream) => storedBytes cap count stream (output.push b.toUInt8)

/-- A block that holds its bytes as they are. -/
def storedBlock (cap : Option Nat) (stream : List Bool) (output : Array UInt8) : Progress :=
  let header : Except StreamFault (Nat × List Bool) := do
    let (count, stream) ← takeNumber 16 (alignToByte stream)
    let (complement, stream) ← takeNumber 16 stream
    if count + complement = 65535 then return (count, stream) else .error .corrupt
  match header with
  | .error fault => ⟨output, .error fault⟩
  | .ok (count, stream) => storedBytes cap count stream output

/-- The lengths of the code for code lengths, by symbol. -/
def readLengthLengths : (count : Nat) → List Bool → Except StreamFault (List Nat × List Bool)
  | 0, stream => .ok ([], stream)
  | count + 1, stream => do
    let (length, stream) ← takeNumber 3 stream
    let (lengths, stream) ← readLengthLengths count stream
    return (length :: lengths, stream)

/-- Code lengths, `missing` more of them, onto the reversed lengths `done`. Three
symbols stand for a repetition of the last length or of zero. -/
def readLengths (tree : CodeTree) :
    (fuel missing : Nat) → (done : List Nat) → List Bool →
      Except StreamFault (List Nat × List Bool)
  | _, 0, done, stream => .ok (done.reverse, stream)
  | 0, _, _, _ => .error .short
  | fuel + 1, missing, done, stream => do
    let (symbol, stream) ← tree.decode stream
    let again (length least extra : Nat) : Except StreamFault (List Nat × List Bool) := do
      let (more, stream) ← takeNumber extra stream
      let count := least + more
      if missing < count then .error .corrupt
      else readLengths tree fuel (missing - count) (List.replicate count length ++ done) stream
    if symbol < 16 then readLengths tree fuel (missing - 1) (symbol :: done) stream
    else if symbol = 16 then
      match done with
      | [] => .error .corrupt
      | last :: _ => again last 3 2
    else if symbol = 17 then again 0 3 3
    else again 0 11 7

/-- The two codes that a block brings with it. -/
def readCodes (stream : List Bool) : Except StreamFault (CodeTree × CodeTree × List Bool) := do
  let (literalCount, stream) ← takeNumber 5 stream
  let (distanceCount, stream) ← takeNumber 5 stream
  let (lengthCount, stream) ← takeNumber 4 stream
  let literalCount := literalCount + 257
  let distanceCount := distanceCount + 1
  if 286 < literalCount ∨ 30 < distanceCount then .error .corrupt
  else
    let (written, stream) ← readLengthLengths (lengthCount + 4) stream
    let lengths := (List.range 19).map fun symbol =>
      ((lengthOrder.zip written).lookup symbol).getD 0
    match CodeTree.ofLengths? false lengths with
    | none => .error .corrupt
    | some tree =>
      let (all, stream) ←
        readLengths tree stream.length (literalCount + distanceCount) [] stream
      match CodeTree.ofLengths? true (all.take literalCount),
          CodeTree.ofLengths? true (all.drop literalCount) with
      | some literals, some distances => .ok (literals, distances, stream)
      | _, _ => .error .corrupt

/-- One block after its header. -/
def block (cap : Option Nat) (kind : Nat) (stream : List Bool) (output : Array UInt8) : Progress :=
  match kind with
  | 0 => storedBlock cap stream output
  | 1 => symbols cap fixedLiterals fixedDistances (stream.length + 1) stream output
  | 2 =>
    match readCodes stream with
    | .error fault => ⟨output, .error fault⟩
    | .ok (literals, distances, stream) =>
      symbols cap literals distances (stream.length + 1) stream output
  | _ => ⟨output, .error .corrupt⟩

/-- Blocks up to the final one. Each takes at least three bits. -/
def blocks (cap : Option Nat) : (fuel : Nat) → List Bool → Array UInt8 → Progress
  | 0, _, output => ⟨output, .error .short⟩
  | fuel + 1, stream, output =>
    let header : Except StreamFault (Nat × Nat × List Bool) := do
      let (final, stream) ← takeNumber 1 stream
      let (kind, stream) ← takeNumber 2 stream
      return (final, kind, stream)
    match header with
    | .error fault => ⟨output, .error fault⟩
    | .ok (final, kind, stream) =>
      let progress := block cap kind stream output
      match progress.rest with
      | .error _ => progress
      | .ok stream =>
        if final = 1 then progress else blocks cap fuel stream progress.output

/-- Read a compressed stream, writing little more than `cap` bytes. -/
def inflate (cap : Option Nat) (stream : List Bool) : Progress :=
  blocks cap stream.length stream #[]

/-- The most bytes that one block can hold as they are. -/
def storedLimit : Nat := 65535

/-- One block that holds its bytes as they are. -/
def storedForm (final : Bool) (bytes : List UInt8) : List UInt8 :=
  (if final then 1 else 0) :: littleEndian 2 bytes.length ++
    littleEndian 2 (storedLimit - bytes.length) ++ bytes

/-- Blocks of as many bytes as fit, up to the final one. -/
def storeFrom : (fuel : Nat) → List UInt8 → List UInt8
  | 0, bytes => storedForm true bytes
  | fuel + 1, bytes =>
    if bytes.length ≤ storedLimit then storedForm true bytes
    else storedForm false (bytes.take storedLimit) ++ storeFrom fuel (bytes.drop storedLimit)

/-- Write a byte string as a compressed stream. -/
def store (bytes : List UInt8) : List UInt8 := storeFrom (bytes.length / storedLimit) bytes

end Headroom.Codec.Deflate
