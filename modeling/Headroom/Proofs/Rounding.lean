import Mathlib

/-!
Binary64 values as mantissas and exponents. Rounding to nearest leaves a mantissa of 53 bits
of one that has more; a value that is packed into 64 bits and unpacked again is the same where
its exponent is in range, and an infinity of its sign where it is beyond.
-/
namespace Headroom.Decimal
open Float.Model Float.Model.UnpackedFloat

theorem log2_mul_two_pow {n : Nat} (positive : 0 < n) (shift : Nat) :
    (n * 2 ^ shift).log2 = n.log2 + shift := by
  refine (Nat.log2_eq_iff (Nat.mul_pos positive (Nat.two_pow_pos shift)).ne').mpr ⟨?_, ?_⟩
  · rw [Nat.pow_add]
    exact Nat.mul_le_mul_right _ (Nat.log2_self_le positive.ne')
  · rw [Nat.add_right_comm, Nat.pow_add]
    exact Nat.mul_lt_mul_of_pos_right Nat.lt_log2_self (Nat.two_pow_pos shift)

theorem shiftRight_mantissa (m : ExtendedMantissa) (places : Nat) :
    (m >>> places).mantissa = m.mantissa / 2 ^ places := by
  induction places with
  | zero => exact (Nat.div_one _).symm
  | succ places ih =>
    change (m >>> places).mantissa / 2 = _
    rw [ih, Nat.div_div_eq_div_mul, Nat.pow_succ]

theorem roundedMantissa_bounds (m : ExtendedMantissa) :
    m.mantissa ≤ m.roundedMantissa ∧ m.roundedMantissa ≤ m.mantissa + 1 := by
  rcases m with ⟨mantissa, roundBit, stickyBit⟩
  cases roundBit <;> cases stickyBit <;>
    simp only [ExtendedMantissa.roundedMantissa, ExtendedMantissa.accuracy,
      Accuracy.roundToNearestEven] <;> omega

theorem targetExponent_eq (total : Int) :
    Format.binary64.targetExponent total = max (total - 53) (-1074) := rfl

theorem target_of_bits {mantissa : Nat} {exponent : Int} (bits : Nat)
    (width : mantissa.log2 = 52 + bits) (least : -1074 ≤ exponent) :
    Format.binary64.targetExponent (totalExponent mantissa exponent) = exponent + bits := by
  rw [targetExponent_eq, totalExponent, width]
  omega

/-- Dropping the lowest bits leaves a mantissa of 53 bits. -/
theorem shift_of_bits {mantissa bits : Nat} {exponent : Int} (width : mantissa.log2 = 52 + bits)
    (least : -1074 ≤ exponent) :
    ∃ shifted, shiftToTargetExponent .binary64 mantissa exponent .exact =
        (shifted, exponent + bits) ∧
      shifted.mantissa = mantissa / 2 ^ bits := by
  unfold shiftToTargetExponent
  rw [target_of_bits bits width least]
  have places : (exponent + bits - exponent).toNat = bits := by omega
  simp only [shiftToExponent, places]
  exact ⟨_, rfl, shiftRight_mantissa _ _⟩

theorem ne_zero_of_width {mantissa : Nat} (bits : Nat) (width : mantissa.log2 = 52 + bits) :
    mantissa ≠ 0 := by
  rintro rfl
  simp only [Nat.log2_zero] at width
  omega

theorem bounds_of_width {mantissa : Nat} (width : mantissa.log2 = 52) :
    2 ^ 52 ≤ mantissa ∧ mantissa < 2 ^ 53 :=
  (Nat.log2_eq_iff (ne_zero_of_width 0 width)).mp width

/-- What is left of a mantissa without the bits that do not fit has 53 bits. -/
theorem kept_bounds {mantissa bits : Nat} (width : mantissa.log2 = 52 + bits) :
    2 ^ 52 ≤ mantissa / 2 ^ bits ∧ mantissa / 2 ^ bits < 2 ^ 53 := by
  rw [Nat.le_div_iff_mul_le (Nat.two_pow_pos bits), Nat.div_lt_iff_lt_mul (Nat.two_pow_pos bits),
    ← Nat.pow_add, ← Nat.pow_add, Nat.add_right_comm 52 1 bits, ← width]
  exact ⟨Nat.log2_self_le (ne_zero_of_width bits width), Nat.lt_log2_self⟩

/-- A mantissa of 53 bits or more rounds to one of 53 bits, and to no less than what
is left of it without the bits that do not fit. -/
theorem round_of_bits {mantissa bits : Nat} {exponent : Int} (width : mantissa.log2 = 52 + bits)
    (least : -1074 ≤ exponent) :
    ∃ rounded more, ∃ positive : 0 < rounded,
      roundWithAccuracy .binary64 .positive mantissa exponent .exact =
        .finite .positive rounded (exponent + bits + (more : Nat)) positive ∧
      rounded.log2 = 52 ∧ more ≤ 1 ∧ mantissa / 2 ^ bits ≤ rounded * 2 ^ more := by
  obtain ⟨shifted, shift, kept⟩ := shift_of_bits width least
  obtain ⟨low, high⟩ := kept_bounds width
  obtain ⟨up, near⟩ := roundedMantissa_bounds shifted
  -- rounding up may carry into a 54th bit, which the second shift drops again
  obtain ⟨more, wide, single, whole⟩ : ∃ more, shifted.roundedMantissa.log2 = 52 + more ∧
      more ≤ 1 ∧
      shifted.roundedMantissa / 2 ^ more * 2 ^ more = shifted.roundedMantissa := by
    rcases Nat.lt_or_ge shifted.roundedMantissa (2 ^ 53) with fits | carry
    · exact ⟨0, (Nat.log2_eq_iff (by omega)).mpr ⟨by omega, fits⟩, by decide, by simp⟩
    · have all : shifted.roundedMantissa = 2 ^ 53 := by omega
      exact ⟨1, by rw [all, Nat.log2_two_pow], le_rfl, by rw [all]; norm_num⟩
  obtain ⟨final, same, kept'⟩ := shift_of_bits wide (by omega : -1074 ≤ exponent + bits)
  obtain ⟨low', high'⟩ := kept_bounds wide
  refine ⟨shifted.roundedMantissa / 2 ^ more, more, by omega, ?_,
    (Nat.log2_eq_iff (by omega)).mpr ⟨low', high'⟩, single, by omega⟩
  simp only [roundWithAccuracy, shift, same, kept']
  exact dif_neg (by omega)

/-- A mantissa of 53 bits is not rounded. -/
theorem round_of_width {mantissa : Nat} {exponent : Int} (width : mantissa.log2 = 52)
    (least : -1074 ≤ exponent) (positive : 0 < mantissa) :
    roundWithAccuracy .binary64 .positive mantissa exponent .exact =
      .finite .positive mantissa exponent positive := by
  have target := target_of_bits 0 width least
  have shift : shiftToTargetExponent .binary64 mantissa exponent .exact =
      (⟨mantissa, false, false⟩, exponent) := by
    have places : (exponent + (0 : Nat) - exponent).toNat = 0 := by omega
    rw [shiftToTargetExponent, target, shiftToExponent, places]
    exact Prod.ext rfl (Int.add_zero exponent)
  have rounded : (ExtendedMantissa.mk mantissa false false).roundedMantissa = mantissa := rfl
  simp only [roundWithAccuracy, shift, rounded]
  exact dif_neg positive.ne'

/-- An integer of 53 bits at most is shifted up to 53 bits and loses nothing. -/
theorem ofNat_of_bits {n : Nat} (positive : 0 < n) (small : n.log2 ≤ 52) :
    ∃ shift : Nat, ∃ positive' : 0 < n * 2 ^ shift,
      UnpackedFloat.ofNat .binary64 n = .finite .positive (n * 2 ^ shift) (-shift) positive' ∧
      (n * 2 ^ shift).log2 = 52 ∧ shift ≤ 52 := by
  obtain ⟨shift, total⟩ : ∃ shift, n.log2 + shift = 52 := ⟨52 - n.log2, by omega⟩
  have width : (n * 2 ^ shift).log2 = 52 := by
    rw [log2_mul_two_pow positive, total]
  have positive' : 0 < n * 2 ^ shift := Nat.mul_pos positive (Nat.two_pow_pos shift)
  refine ⟨shift, positive', ?_, width, by omega⟩
  have target : Format.binary64.targetExponent (totalExponent n 0) = -shift := by
    rw [targetExponent_eq, totalExponent]
    omega
  have above : compare (n : Int) 0 = .gt := Int.compare_eq_gt.mpr (by omega)
  have places : (0 - -(shift : Int)).toNat = shift := by omega
  simp only [UnpackedFloat.ofNat, UnpackedFloat.ofInt, UnpackedFloat.normalize, above,
    UnpackedFloat.round, Int.toNat_natCast, target, decreaseExponent, places, Nat.shiftLeft_eq]
  rw [Int.zero_sub]
  exact round_of_width width (by omega) positive'

theorem implicit_bit (mantissa : BitVec 52) :
    (1#1 ++ mantissa).toNat = 2 ^ 52 + mantissa.toNat := by
  rw [BitVec.toNat_append, ← Nat.shiftLeft_add_eq_or_of_lt mantissa.isLt]
  rfl

theorem ofBitVec_toBitVec (sign : Sign) : Sign.ofBitVec sign.toBitVec = sign := by
  cases sign <;> rfl

/-- An exponent that is neither all ones nor all zeros makes a value of 53 bits. -/
theorem unpack_normal {sign : Sign} {exponent : BitVec 11} {mantissa : BitVec 52}
    (notOnes : exponent ≠ -1#11) (notZeros : exponent ≠ 0#11)
    (positive : 0 < (1#1 ++ mantissa).toNat) :
    UnpackedFloat.unpack .binary64 (packComponents .binary64 sign exponent mantissa) =
      .finite sign (1#1 ++ mantissa).toNat (exponent.toNat - 1075) positive := by
  simp only [UnpackedFloat.unpack, unpackExponent_packComponents, unpackMantissa_packComponents,
    unpackSign_packComponents, ofBitVec_toBitVec, notOnes, notZeros, if_false]
  rfl

/-- An exponent of zeros makes zero, or a value with the mantissa as it is. -/
theorem unpack_subnormal (sign : Sign) (mantissa : BitVec 52) :
    UnpackedFloat.unpack .binary64 (packComponents .binary64 sign 0#11 mantissa) =
      if some : 0 < mantissa.toNat then .finite sign mantissa.toNat (-1074) some
      else .zero sign := by
  have notOnes : (0#11 : BitVec 11) ≠ -1#11 := by decide
  simp only [UnpackedFloat.unpack, unpackExponent_packComponents, unpackMantissa_packComponents,
    unpackSign_packComponents, ofBitVec_toBitVec, notOnes, if_false, if_true]
  by_cases zero : mantissa = 0#52
  · subst zero
    rfl
  · have some : 0 < mantissa.toNat := by
      rwa [BitVec.toNat_pos, BitVec.pos_iff_ne_zero]
    rw [dif_neg zero, dif_pos some]
    rfl

theorem unpack_pack (x : UnpackedFloat) :
    (Float.Model.pack x).unpack =
      UnpackedFloat.unpack .binary64 (UnpackedFloat.pack .binary64 x) := rfl

section

variable {sign : Sign} {mantissa : Nat} {exponent : Int} {positive : 0 < mantissa}

theorem pack_huge (most : 971 < exponent) :
    UnpackedFloat.pack .binary64 (.finite sign mantissa exponent positive) =
      UnpackedFloat.pack .binary64 (.infinity sign) := by
  have huge : 2 ^ 11 ≤ (exponent + (1023 : Nat) + (52 : Nat)).toNat + 1 := by omega
  exact if_pos huge

theorem pack_fitting (most : exponent ≤ 971) :
    UnpackedFloat.pack .binary64 (.finite sign mantissa exponent positive) =
      if mantissa.log2 = 52 then
        packComponents .binary64 sign (BitVec.ofNat 11 (exponent + 1075).toNat)
          (BitVec.ofNat 52 mantissa)
      else packComponents .binary64 sign 0#11 (BitVec.ofNat 52 mantissa) := by
  have fits : ¬ 2 ^ 11 ≤ (exponent + (1023 : Nat) + (52 : Nat)).toNat + 1 := by omega
  have place : exponent + (1023 : Nat) + (52 : Nat) = exponent + 1075 := by omega
  have bits : mantissa.log2 + 1 = 53 ↔ mantissa.log2 = 52 := by omega
  refine (if_neg fits).trans ?_
  simp only [← bits, ← place]
  rfl

theorem unpack_pack_infinity (sign : Sign) :
    (Float.Model.pack (.infinity sign)).unpack = .infinity sign := by
  cases sign <;> cbv

theorem unpack_pack_zero (sign : Sign) : (Float.Model.pack (.zero sign)).unpack = .zero sign := by
  cases sign <;> cbv

theorem unpack_pack_huge (most : 971 < exponent) :
    (Float.Model.pack (.finite sign mantissa exponent positive)).unpack = .infinity sign := by
  rw [unpack_pack, pack_huge most, ← unpack_pack, unpack_pack_infinity]

theorem unpack_pack_normal (sign : Sign) (positive : 0 < mantissa) (width : mantissa.log2 = 52)
    (least : -1074 ≤ exponent) (most : exponent ≤ 971) :
    (Float.Model.pack (.finite sign mantissa exponent positive)).unpack =
      .finite sign mantissa exponent positive := by
  obtain ⟨low, high⟩ := bounds_of_width width
  have place : (BitVec.ofNat 11 (exponent + 1075).toNat).toNat = (exponent + 1075).toNat := by
    rw [BitVec.toNat_ofNat]
    omega
  have whole : (1#1 ++ BitVec.ofNat 52 mantissa).toNat = mantissa := by
    rw [implicit_bit, BitVec.toNat_ofNat]
    omega
  rw [unpack_pack, pack_fitting most, if_pos width, unpack_normal]
  · congr 1
    rw [place]
    omega
  · intro same
    have := congrArg BitVec.toNat same
    rw [place] at this
    simp at this
    omega
  · intro same
    have := congrArg BitVec.toNat same
    rw [place] at this
    simp at this
    omega
  · rwa [whole]

theorem unpack_pack_subnormal (narrow : mantissa.log2 ≠ 52) (most : exponent ≤ 971) :
    (Float.Model.pack (.finite sign mantissa exponent positive)).unpack =
      if some : 0 < mantissa % 2 ^ 52 then .finite sign (mantissa % 2 ^ 52) (-1074) some
      else .zero sign := by
  rw [unpack_pack, pack_fitting most, if_neg narrow, unpack_subnormal]
  simp only [BitVec.toNat_ofNat]

end

/-- The shapes of the finite values. -/
theorem unpack_finite_shape {x : Float.Model} {sign : Sign} {mantissa : Nat} {exponent : Int}
    {positive : 0 < mantissa} (shape : x.unpack = .finite sign mantissa exponent positive) :
    (exponent = -1074 ∧ mantissa < 2 ^ 53) ∨
      (mantissa.log2 = 52 ∧ -1074 ≤ exponent ∧ exponent ≤ 971) := by
  have fraction : (@unpackMantissa .binary64 x.toBits.toBitVec).toNat < 2 ^ 52 := BitVec.isLt _
  have place : (@unpackExponent .binary64 x.toBits.toBitVec).toNat < 2 ^ 11 := BitVec.isLt _
  have bias : (Format.binary64.exponentBias : Int) = 1023 := rfl
  unfold Float.Model.unpack UnpackedFloat.unpack at shape
  dsimp only at shape
  split at shape
  · split at shape <;> cases shape
  · rename_i notOnes
    split at shape
    · rename_i zeros
      split at shape
      · cases shape
      · cases shape
        left
        refine ⟨?_, by omega⟩
        rw [zeros]
        rfl
    · rename_i notZeros
      cases shape
      right
      have most : (@unpackExponent .binary64 x.toBits.toBitVec).toNat ≠ 2047 :=
        fun same => notOnes (BitVec.eq_of_toNat_eq same)
      have least : (@unpackExponent .binary64 x.toBits.toBitVec).toNat ≠ 0 :=
        fun same => notZeros (BitVec.eq_of_toNat_eq same)
      refine ⟨?_, by rw [bias]; omega, by rw [bias]; omega⟩
      rw [implicit_bit]
      exact (Nat.log2_eq_iff (by omega)).mpr ⟨by omega, by omega⟩

end Headroom.Decimal
