import Headroom.Decimal.Binary
import Headroom.Proofs.Rounding

/-!
A positive number of 32 bits, times a binary64 factor above one and rounded up, is
more than the number: the product is rounded to nearest, but never down to the number
itself. The two values are opened to their mantissas of 53 bits; subnormal values do
not arise, and a product beyond the range becomes the largest number.
-/
namespace Headroom.Decimal
open Float.Model Float.Model.UnpackedFloat

theorem lt_roundUp {n count parts : Nat} (positive : 0 < parts) (below : n * parts < count) :
    n < (count + (parts - 1)) / parts := by
  rw [Nat.lt_iff_add_one_le, Nat.le_div_iff_mul_le positive, Nat.add_mul]
  omega

/-- A number below `mantissa · 2 ^ (up - down)` is below its ceiling. -/
theorem lt_ceiling_of_finite (up down : Nat) {x : Float} {n mantissa : Nat} {exponent : Int}
    {positive : 0 < mantissa}
    (value : x.toModel.unpack = .finite .positive mantissa exponent positive)
    (scaled : exponent = up - down) (small : n < UInt64.size - 1)
    (below : n * 2 ^ down < mantissa * 2 ^ up) : n < ceiling x := by
  simp only [ceiling, value]
  refine Nat.lt_min.mpr ⟨lt_roundUp ?_ ?_, small⟩
  · unfold fractionOf
    split
    · exact Nat.two_pow_pos _
    · exact Nat.one_pos
  · unfold fractionOf
    split
    · obtain ⟨gap, rfl⟩ : ∃ gap, down = up + gap := ⟨down - up, by omega⟩
      have parts : exponent.natAbs = gap := by omega
      rw [Nat.pow_add, ← Nat.mul_assoc, Nat.mul_right_comm] at below
      rw [parts]
      exact Nat.lt_of_mul_lt_mul_right below
    · obtain ⟨gap, rfl⟩ : ∃ gap, up = down + gap := ⟨up - down, by omega⟩
      have parts : exponent.natAbs = gap := by omega
      rw [Nat.pow_add, Nat.mul_comm (2 ^ down), ← Nat.mul_assoc] at below
      rw [parts, Nat.mul_one]
      exact Nat.lt_of_mul_lt_mul_right below

theorem lt_ceiling_of_infinity {x : Float} {n : Nat}
    (value : x.toModel.unpack = .infinity .positive) (small : n < UInt64.size - 1) :
    n < ceiling x := by
  simpa only [ceiling, value] using small

/-- An integer of 32 bits is shifted up to 53 bits and loses nothing. -/
theorem toFloat_unpack {n : UInt32} (positive : 0 < n.toNat) :
    ∃ shift : Nat, ∃ positive' : 0 < n.toNat * 2 ^ shift,
      n.toFloat.toModel.unpack = .finite .positive (n.toNat * 2 ^ shift) (-shift) positive' ∧
      (n.toNat * 2 ^ shift).log2 = 52 ∧ shift ≤ 52 := by
  have small : n.toNat.log2 < 32 := (Nat.log2_lt positive.ne').mpr n.toNat_lt
  obtain ⟨shift, positive', exact, width, short⟩ := ofNat_of_bits positive (by omega)
  refine ⟨shift, positive', ?_, width, short⟩
  change (Float.Model.pack (UnpackedFloat.ofNat .binary64 n.toNat)).unpack = _
  rw [exact]
  exact unpack_pack_normal .positive positive' width (by omega) (by omega)

/-- A finite value above one has a mantissa of 53 bits. -/
theorem factor_unpack {factor : Float} (finite : factor.isFinite) (above : 1 < factor) :
    ∃ mantissa, ∃ more : Nat, ∃ positive : 0 < mantissa,
      factor.toModel.unpack = .finite .positive mantissa (more - 52) positive ∧
      mantissa.log2 = 52 ∧ 2 ^ 52 < mantissa * 2 ^ more ∧ more ≤ 1023 := by
  have one : (1 : Float).toModel.unpack =
      .finite .positive (2 ^ 52) (-52) (Nat.two_pow_pos 52) := by rfl
  have compared : (1 : Float).toModel.unpack.compare factor.toModel.unpack = some .lt := by
    simpa [LT.lt, Float.lt, Float.Model.lt, UnpackedFloat.lt] using above
  rw [one] at compared
  have known : factor.toModel.unpack.isFinite := finite
  cases shape : factor.toModel.unpack with
  | notANumber => rw [shape] at known; cases known
  | infinity sign => rw [shape] at known; cases known
  | zero sign => rw [shape] at compared; cases compared
  | finite sign mantissa exponent positive =>
    rw [shape] at compared
    cases sign with
    | negative => cases compared
    | positive =>
      have larger : compare (-52) exponent = .lt ∨
          compare (-52) exponent = .eq ∧ compare (2 ^ 52) mantissa = .lt :=
        Ordering.then_eq_lt.mp (Option.some.inj compared)
      rw [Int.compare_eq_lt, Int.compare_eq_eq, Nat.compare_eq_lt] at larger
      obtain ⟨width, most⟩ := (unpack_finite_shape shape).resolve_left (by omega)
      have low := (bounds_of_width width).1
      refine ⟨mantissa, (exponent + 52).toNat, positive, ?_, width, ?_, by omega⟩
      · congr 1
        omega
      · rcases larger with larger | ⟨same, larger⟩
        · obtain ⟨less, grown⟩ : ∃ less, (exponent + 52).toNat = less + 1 :=
            ⟨(exponent + 51).toNat, by omega⟩
          have doubled : 2 ≤ 2 ^ (exponent + 52).toNat := by
            rw [grown, Nat.pow_succ]
            exact Nat.le_mul_of_pos_left 2 (Nat.two_pow_pos less)
          nlinarith
        · exact Nat.lt_of_lt_of_le larger (Nat.le_mul_of_pos_right _ (Nat.two_pow_pos _))

/-- The product of two mantissas of 53 bits has 105 or 106 bits. -/
theorem log2_product {first second : Nat} (firstWidth : first.log2 = 52)
    (secondWidth : second.log2 = 52) :
    (first * second).log2 = 52 + 52 ∨ (first * second).log2 = 52 + 53 := by
  have firstNonzero := ne_zero_of_width 0 firstWidth
  have secondNonzero := ne_zero_of_width 0 secondWidth
  obtain ⟨firstLow, firstHigh⟩ := bounds_of_width firstWidth
  obtain ⟨secondLow, secondHigh⟩ := bounds_of_width secondWidth
  have product : first * second ≠ 0 := Nat.mul_ne_zero firstNonzero secondNonzero
  have low : 2 ^ (52 + 52) ≤ first * second := by
    rw [Nat.pow_add]
    exact Nat.mul_le_mul firstLow secondLow
  have high : first * second < 2 ^ (53 + 53) := by
    rw [Nat.pow_add]
    exact Nat.mul_lt_mul'' firstHigh secondHigh
  have atLeast := (Nat.le_log2 product).mpr low
  have below := (Nat.log2_lt product).mpr high
  omega

/-- When the second mantissa stands for more than one, the bits of the product that
stay stand for more than the first. -/
theorem product_above {first second more bits : Nat} (firstWidth : first.log2 = 52)
    (secondWidth : second.log2 = 52) (above : 2 ^ 52 < second * 2 ^ more)
    (width : (first * second).log2 = 52 + bits) :
    first * 2 ^ 52 < first * second / 2 ^ bits * 2 ^ bits * 2 ^ more := by
  obtain ⟨firstLow, firstHigh⟩ := bounds_of_width firstWidth
  obtain ⟨secondLow, secondHigh⟩ := bounds_of_width secondWidth
  have scale : 1 ≤ 2 ^ more := Nat.two_pow_pos more
  have wide : bits = 52 ∨ bits = 53 := by
    have := log2_product firstWidth secondWidth
    omega
  rcases wide with rfl | rfl
  · rcases Nat.eq_zero_or_pos more with rfl | scaled
    · have kept : first + 1 ≤ first * second / 2 ^ 52 := by
        rw [Nat.le_div_iff_mul_le (Nat.two_pow_pos 52)]
        nlinarith
      omega
    · have kept : first ≤ first * second / 2 ^ 52 := by
        rw [Nat.le_div_iff_mul_le (Nat.two_pow_pos 52)]
        exact Nat.mul_le_mul_left first secondLow
      have doubled : 2 ^ 1 ≤ 2 ^ more := Nat.pow_le_pow_right (by decide) scaled
      calc first * 2 ^ 52 < first * 2 ^ 52 * 2 := by omega
        _ ≤ first * second / 2 ^ 52 * 2 ^ 52 * 2 ^ more :=
          Nat.mul_le_mul (Nat.mul_le_mul_right _ kept) doubled
  · have kept := (kept_bounds width).1
    calc first * 2 ^ 52 < 2 ^ 52 * 2 ^ 53 * 1 := by omega
      _ ≤ first * second / 2 ^ 53 * 2 ^ 53 * 2 ^ more :=
        Nat.mul_le_mul (Nat.mul_le_mul_right _ kept) scale

/-- A factor above one raises every positive number. -/
theorem lt_ceiling_mul {n : UInt32} {factor : Float} (positive : 0 < n.toNat)
    (finite : factor.isFinite) (above : 1 < factor) :
    n.toNat < ceiling (n.toFloat * factor) := by
  obtain ⟨shift, firstPositive, first, firstWidth, short⟩ := toFloat_unpack positive
  obtain ⟨mantissa, more, secondPositive, second, secondWidth, greater, most⟩ :=
    factor_unpack finite above
  obtain ⟨bits, width⟩ : ∃ bits, (n.toNat * 2 ^ shift * mantissa).log2 = 52 + bits := by
    rcases log2_product firstWidth secondWidth with width | width
    · exact ⟨52, width⟩
    · exact ⟨53, width⟩
  obtain ⟨rounded, carry, roundedPositive, product, roundedWidth, -, kept⟩ :=
    round_of_bits width (by omega : -1074 ≤ -(shift : Int) + (more - 52))
  have packed : (n.toFloat * factor).toModel = Float.Model.pack
      (.finite .positive rounded (-shift + (more - 52) + bits + carry) roundedPositive) := by
    rw [← product]
    change Float.Model.pack (UnpackedFloat.mul .binary64 _ _) = _
    rw [first, second]
    rfl
  have small : n.toNat < UInt64.size - 1 := by
    have := n.toNat_lt
    simp only [UInt64.size]
    omega
  rcases Int.lt_or_le 971 (-shift + (more - 52) + bits + carry) with huge | fits
  · refine lt_ceiling_of_infinity ?_ small
    rw [packed, unpack_pack_huge huge]
  · have value := unpack_pack_normal .positive roundedPositive roundedWidth (by omega) fits
    rw [← packed] at value
    refine lt_ceiling_of_finite (more + bits + carry) (shift + 52) value (by omega) small ?_
    calc n.toNat * 2 ^ (shift + 52) = n.toNat * 2 ^ shift * 2 ^ 52 := by ring
      _ < n.toNat * 2 ^ shift * mantissa / 2 ^ bits * 2 ^ bits * 2 ^ more :=
        product_above firstWidth secondWidth greater width
      _ ≤ rounded * 2 ^ carry * 2 ^ bits * 2 ^ more :=
        Nat.mul_le_mul_right _ (Nat.mul_le_mul_right _ kept)
      _ = rounded * 2 ^ (more + bits + carry) := by ring

end Headroom.Decimal
