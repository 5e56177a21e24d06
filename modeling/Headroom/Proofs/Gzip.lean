import Headroom.Codec.Gzip
import Mathlib.Algebra.Order.Group.Nat
import Mathlib.Tactic.Ring

/-!
What gzip packs is unpacked as it was, whatever its length: numbers are read from the bits of
their bytes, each stored block is read at the whole byte after its header, blocks follow each
other up to the final one, and the trailer fits what they hold (`unpack_pack`).
-/
namespace Headroom.Codec

@[simp] theorem bits_nil : bits [] = [] := rfl

theorem bits_cons (b : UInt8) (bytes : List UInt8) :
    bits (b :: bytes) = bitsOfByte b ++ bits bytes := rfl

theorem bits_append (first second : List UInt8) :
    bits (first ++ second) = bits first ++ bits second :=
  List.flatMap_append

theorem length_bits (bytes : List UInt8) : (bits bytes).length = 8 * bytes.length := by
  induction bytes with
  | nil => rfl
  | cons b rest ih =>
    rw [bits_cons, List.length_append, ih, List.length_cons, Nat.mul_succ, Nat.add_comm]
    rfl

/-- A number is read in parts, the low part first. -/
theorem takeNumber_add {count more low high : Nat} {stream middle rest : List Bool}
    (first : takeNumber count stream = .ok (low, middle))
    (second : takeNumber more middle = .ok (high, rest)) :
    takeNumber (count + more) stream = .ok (low + 2 ^ count * high, rest) := by
  induction count generalizing stream low with
  | zero =>
    obtain ⟨rfl, rfl⟩ : 0 = low ∧ stream = middle := by simpa [takeNumber] using first
    simpa using second
  | succ count ih =>
    cases stream with
    | nil => simp [takeNumber] at first
    | cons bit later =>
      cases inner : takeNumber count later with
      | error fault => simp [takeNumber, inner, bind, Except.bind] at first
      | ok found =>
        obtain ⟨value, after⟩ := found
        obtain ⟨rfl, rfl⟩ : 2 * value + bit.toNat = low ∧ after = middle := by
          simpa [takeNumber, inner, bind, Except.bind, pure, Except.pure] using first
        rw [Nat.succ_add, takeNumber, ih inner]
        simp only [bind, Except.bind, pure, Except.pure]
        congr 2
        ring

theorem takeNumber_bitsOfByte (b : UInt8) (rest : List Bool) :
    takeNumber 8 (bitsOfByte b ++ rest) = .ok (b.toNat, rest) := by
  have value : ∀ n < 256,
      2 * (2 * (2 * (2 * (2 * (2 * (2 * (2 * 0 + (n.testBit 7).toNat) + (n.testBit 6).toNat) +
        (n.testBit 5).toNat) + (n.testBit 4).toNat) + (n.testBit 3).toNat) +
        (n.testBit 2).toNat) + (n.testBit 1).toNat) + (n.testBit 0).toNat = n := by
    decide +kernel
  exact congrArg (fun n => Except.ok (n, rest)) (value b.toNat b.toNat_lt)

theorem takeNumber_littleEndian (count n : Nat) (rest : List Bool) :
    takeNumber (8 * count) (bits (littleEndian count n) ++ rest) =
      .ok (n % 256 ^ count, rest) := by
  induction count generalizing n with
  | zero => simp [littleEndian, takeNumber, Nat.mod_one]
  | succ count ih =>
    have low : n.toUInt8.toNat = n % 256 := UInt8.toNat_ofNat'
    have split : n % 256 ^ (count + 1) = n % 256 + 2 ^ 8 * (n / 256 % 256 ^ count) := by
      rw [show 256 ^ (count + 1) = 256 * 256 ^ count from Nat.pow_succ', Nat.mod_mul]
      rfl
    rw [littleEndian, bits_cons, List.append_assoc, Nat.mul_succ, Nat.add_comm,
      takeNumber_add (takeNumber_bitsOfByte _ _) (ih (n / 256)), low, split]

/-- What is left of a byte is passed over. -/
theorem alignToByte_append {left : List Bool} (part : left.length < 8) (bytes : List UInt8) :
    alignToByte (left ++ bits bytes) = bits bytes := by
  have length : (left ++ bits bytes).length % 8 = left.length := by
    rw [List.length_append, length_bits, Nat.add_mul_mod_self_left, Nat.mod_eq_of_lt part]
  rw [alignToByte, length, List.drop_left]

namespace Deflate

theorem storedBytes_bits (bytes : List UInt8) (rest : List Bool) (output : Array UInt8) :
    storedBytes none bytes.length (bits bytes ++ rest) output =
      ⟨output ++ bytes.toArray, .ok rest⟩ := by
  induction bytes generalizing output with
  | nil => simp [storedBytes]
  | cons b bytes ih =>
    rw [List.length_cons, storedBytes, bits_cons, List.append_assoc, takeNumber_bitsOfByte]
    have same : b.toNat.toUInt8 = b := UInt8.ofNat_toNat
    simp [ih, same]

/-- The length of a block is written twice, the second time from the limit down. -/
theorem storedBlock_bits {left : List Bool} (part : left.length < 8) {bytes : List UInt8}
    (fits : bytes.length ≤ storedLimit) (rest : List UInt8) (output : Array UInt8) :
    storedBlock none
        (left ++ bits (littleEndian 2 bytes.length ++ littleEndian 2 (storedLimit - bytes.length) ++
          bytes ++ rest)) output =
      ⟨output ++ bytes.toArray, .ok (bits rest)⟩ := by
  have limit : storedLimit = 65535 := rfl
  have count := takeNumber_littleEndian 2 bytes.length
  have complement := takeNumber_littleEndian 2 (storedLimit - bytes.length)
  rw [Nat.mod_eq_of_lt (by omega)] at count complement
  have whole : bytes.length + (storedLimit - bytes.length) = 65535 := by omega
  rw [storedBlock, alignToByte_append part]
  simp only [bits_append, List.append_assoc, count, complement, bind, Except.bind, if_pos whole,
    pure, Except.pure]
  exact storedBytes_bits bytes (bits rest) output

/-- A block that is read ends the stream, or goes on with the next one. -/
theorem blocks_of_block {final kind : Nat} {stream middle body rest : List Bool}
    {output written : Array UInt8} (mark : takeNumber 1 stream = .ok (final, middle))
    (tag : takeNumber 2 middle = .ok (kind, body))
    (read : block none kind body output = ⟨written, .ok rest⟩) (fuel : Nat) :
    blocks none (fuel + 1) stream output =
      if final = 1 then ⟨written, .ok rest⟩ else blocks none fuel rest written := by
  simp only [blocks, mark, tag, read, bind, Except.bind, pure, Except.pure]

theorem blocks_storedForm (final : Bool) {bytes : List UInt8} (fits : bytes.length ≤ storedLimit)
    (fuel : Nat) (rest : List UInt8) (output : Array UInt8) :
    blocks none (fuel + 1) (bits (storedForm final bytes ++ rest)) output =
      if final then ⟨output ++ bytes.toArray, .ok (bits rest)⟩
      else blocks none fuel (bits rest) (output ++ bytes.toArray) := by
  have header : bitsOfByte (if final then 1 else 0) =
      final :: false :: false :: List.replicate 5 false := by
    cases final <;> decide
  have mark (rest : List Bool) : takeNumber 1 (final :: rest) = .ok (final.toNat, rest) := by
    cases final <;> rfl
  have left : (List.replicate 5 false).length < 8 := by decide
  have read : block none 0 _ output = _ := storedBlock_bits left fits rest output
  rw [storedForm, List.cons_append, List.cons_append, List.cons_append, bits_cons, header,
    List.cons_append, blocks_of_block (mark _) rfl read]
  cases final <;> rfl

/-- Blocks that hold bytes are read to their end and no further. -/
theorem blocks_storeFrom (k : Nat) {bytes : List UInt8}
    (fits : bytes.length ≤ (k + 1) * storedLimit) {fuel : Nat} (enough : k < fuel)
    (rest : List UInt8) (output : Array UInt8) :
    blocks none fuel (bits (storeFrom k bytes ++ rest)) output =
      ⟨output ++ bytes.toArray, .ok (bits rest)⟩ := by
  induction k generalizing bytes fuel output with
  | zero =>
    obtain ⟨fuel, rfl⟩ := Nat.exists_eq_add_of_lt enough
    exact blocks_storedForm true (by omega) _ rest output
  | succ k ih =>
    obtain ⟨fuel, rfl⟩ := Nat.exists_eq_add_of_lt enough
    rw [storeFrom]
    split
    · rename_i single
      exact blocks_storedForm true single _ rest output
    · have first : (bytes.take storedLimit).length ≤ storedLimit := List.length_take_le _ _
      have later : (bytes.drop storedLimit).length ≤ (k + 1) * storedLimit := by
        rw [Nat.succ_mul] at fits
        rw [List.length_drop]
        omega
      have whole : (bytes.take storedLimit).toArray ++ (bytes.drop storedLimit).toArray =
          bytes.toArray := by
        rw [List.append_toArray, List.take_append_drop]
      rw [List.append_assoc, blocks_storedForm false first, if_neg Bool.false_ne_true,
        ih later (by omega), Array.append_assoc, whole]

theorem length_lt_storeFrom (k : Nat) (bytes : List UInt8) :
    bytes.length < (storeFrom k bytes).length := by
  have form (final : Bool) (bytes : List UInt8) :
      bytes.length < (storedForm final bytes).length := by
    simp only [storedForm, List.length_append, List.length_cons]
    omega
  induction k generalizing bytes with
  | zero => exact form true bytes
  | succ k ih =>
    rw [storeFrom]
    split
    · exact form true bytes
    · have first := form false (bytes.take storedLimit)
      have later := ih (bytes.drop storedLimit)
      have whole := congrArg List.length (List.take_append_drop storedLimit bytes)
      rw [List.length_append] at whole ⊢
      omega

theorem inflate_store (bytes rest : List UInt8) :
    inflate none (bits (store bytes ++ rest)) = ⟨bytes.toArray, .ok (bits rest)⟩ := by
  have fits : bytes.length ≤ (bytes.length / storedLimit + 1) * storedLimit := by
    rw [Nat.mul_comm]
    exact Nat.le_of_lt (Nat.lt_mul_div_succ _ (by decide))
  have enough : bytes.length / storedLimit < (bits (store bytes ++ rest)).length := by
    have blocks := Nat.div_le_self bytes.length storedLimit
    have written := length_lt_storeFrom (bytes.length / storedLimit) bytes
    rw [length_bits, List.length_append, store]
    omega
  exact (blocks_storeFrom _ fits enough rest #[]).trans (by rw [Array.empty_append])

end Deflate

namespace Gzip

theorem trailerFits_written (output : List UInt8) :
    trailerFits
      (bits (littleEndian 4 (Crc32.ofBytes output).toNat ++
        littleEndian 4 (output.length % UInt32.size))) output = true := by
  have check : (Crc32.ofBytes output).toNat % 256 ^ 4 = (Crc32.ofBytes output).toNat :=
    Nat.mod_eq_of_lt (UInt32.toNat_lt _)
  have length : output.length % UInt32.size % 256 ^ 4 = output.length % UInt32.size :=
    Nat.mod_mod _ _
  have first (rest : List Bool) := takeNumber_littleEndian 4 (Crc32.ofBytes output).toNat rest
  have second := takeNumber_littleEndian 4 (output.length % UInt32.size) []
  have nothing : ([] : List Bool).length < 8 := by decide
  have aligned (bytes : List UInt8) : alignToByte (bits bytes) = bits bytes :=
    alignToByte_append nothing bytes
  rw [check] at first
  rw [length, List.append_nil] at second
  rw [trailerFits, aligned, bits_append]
  simp only [first, second, bind, Except.bind, pure, Except.pure, beq_self_eq_true, Bool.and_self]

theorem unpack_pack (bytes : List UInt8) : unpack none (pack bytes) = .ok bytes := by
  have header (rest : List UInt8) :
      dropHeader? ([0x1F, 0x8B, 8, 0, 0, 0, 0, 0, 0, 0xFF] ++ rest) = some rest := by
    rfl
  rw [unpack, unpackWithin, pack, List.append_assoc, List.append_assoc, header]
  simp [Deflate.inflate_store, trailerFits_written]

end Gzip
end Headroom.Codec
