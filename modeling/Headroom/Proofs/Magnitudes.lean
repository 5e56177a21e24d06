import Headroom.Proofs.Rounding

/-!
How large the results of binary64 arithmetic become. A bound `limit · 2 ^ top` whose limit has
53 bits is a value of that kind itself, so that nothing below it is rounded past it
(`round_bounded`). A sum is within the sum of the bounds of its terms (`add_bounded`), and a
quotient by one or more within the bound of its numerator (`div_bounded`).
-/
namespace Headroom.Decimal
open Float.Model Float.Model.UnpackedFloat

/-- A mantissa that does not pass a whole number, the bits dropped behind it included. -/
def Within (m : ExtendedMantissa) (bound : Nat) : Prop :=
  m.mantissa < bound ∨ m = ⟨bound, false, false⟩

section

variable {m : ExtendedMantissa} {bound : Nat}

theorem Within.mantissa_le (within : Within m bound) : m.mantissa ≤ bound := by
  rcases within with below | rfl
  · exact below.le
  · exact le_rfl

/-- A mantissa that rounds up stays at the bound. -/
theorem Within.rounded (within : Within m bound) : m.roundedMantissa ≤ bound := by
  rcases within with below | rfl
  · exact (roundedMantissa_bounds m).2.trans below
  · exact le_rfl

theorem Within.shiftRightOne (within : Within m (bound * 2)) : Within m.shiftRightOne bound := by
  rcases within with below | rfl
  · left
    change m.mantissa / 2 < bound
    omega
  · right
    simp [ExtendedMantissa.shiftRightOne]

theorem Within.shiftRight {places : Nat} (within : Within m (bound * 2 ^ places)) :
    Within (m >>> places) bound := by
  induction places generalizing bound with
  | zero =>
    rw [Nat.pow_zero, Nat.mul_one] at within
    exact within
  | succ places ih =>
    rw [Nat.pow_succ, Nat.mul_comm (2 ^ places), ← Nat.mul_assoc] at within
    exact (ih within).shiftRightOne

end

theorem ofMantissaAndAccuracy_mantissa (mantissa : Nat) (accuracy : Accuracy) :
    (ExtendedMantissa.ofMantissaAndAccuracy mantissa accuracy).mantissa = mantissa := by
  rcases accuracy with _ | order
  · rfl
  · cases order <;> rfl

theorem within_exact {mantissa bound : Nat} (below : mantissa ≤ bound) :
    Within (.ofMantissaAndAccuracy mantissa .exact) bound := by
  rcases below.lt_or_eq with below | rfl
  · exact .inl below
  · exact .inr rfl

/-- The whole part of a quotient with what its rest tells. -/
theorem within_quotient {count parts bound : Nat} (below : count ≤ bound * parts) :
    Within (.ofMantissaAndAccuracy (count / parts) (accuracyOfFraction (count % parts) parts))
      bound := by
  have split := Nat.div_add_mod' count parts
  rcases Nat.lt_or_ge (count / parts) bound with less | whole
  · left
    rwa [ofMantissaAndAccuracy_mantissa]
  · have rest : count % parts = 0 := by
      have := Nat.mul_le_mul_right parts whole
      omega
    have all : count / parts = bound :=
      le_antisymm (Nat.div_le_of_le_mul (by rwa [Nat.mul_comm])) whole
    right
    rw [rest, all]
    rfl

/-- Finite values with a magnitude of at most `limit · 2 ^ top`. -/
inductive Bounded (limit : Nat) (top : Int) : UnpackedFloat → Prop
  | zero (sign : Sign) : Bounded limit top (.zero sign)
  | finite {sign : Sign} {mantissa : Nat} {exponent : Int} (positive : 0 < mantissa)
      (least : -1074 ≤ exponent) (most : exponent ≤ top)
      (below : mantissa ≤ limit * 2 ^ (top - exponent).toNat) :
      Bounded limit top (.finite sign mantissa exponent positive)

section

variable {limit mantissa : Nat} {top exponent : Int}

theorem two_pow_split (less : Nat) {place : Int} (same : place = exponent - less)
    (most : exponent ≤ top) :
    2 ^ (top - place).toNat = 2 ^ (top - exponent).toNat * 2 ^ less := by
  rw [← Nat.pow_add]
  congr 1
  omega

/-- A mantissa may be written with a smaller exponent, and its bound with it. -/
theorem shiftLeft_below (less : Nat) {place : Int} (same : place = exponent - less)
    (most : exponent ≤ top) (below : mantissa ≤ limit * 2 ^ (top - exponent).toNat) :
    mantissa <<< less ≤ limit * 2 ^ (top - place).toNat := by
  rw [Nat.shiftLeft_eq, two_pow_split less same most, ← Nat.mul_assoc]
  exact Nat.mul_le_mul_right _ below

theorem totalExponent_le (fits : limit < 2 ^ 53) (positive : 0 < mantissa) (most : exponent ≤ top)
    (below : mantissa ≤ limit * 2 ^ (top - exponent).toNat) :
    totalExponent mantissa exponent ≤ 53 + top := by
  have bits : mantissa.log2 < 53 + (top - exponent).toNat := by
    rw [Nat.log2_lt positive.ne', Nat.pow_add]
    exact below.trans_lt (Nat.mul_lt_mul_of_pos_right fits (Nat.two_pow_pos _))
  rw [totalExponent]
  omega

theorem target_le (fits : limit < 2 ^ 53) (least : -1074 ≤ top) (most : exponent ≤ top)
    (below : mantissa ≤ limit * 2 ^ (top - exponent).toNat) :
    Format.binary64.targetExponent (totalExponent mantissa exponent) ≤ top := by
  rw [targetExponent_eq]
  rcases Nat.eq_zero_or_pos mantissa with rfl | positive
  · rw [totalExponent, Nat.log2_zero]
    omega
  · have total := totalExponent_le fits positive most below
    omega

/-- Bits are dropped up to an exponent that the bound allows for. -/
theorem shift_within {accuracy : Accuracy} (fits : limit < 2 ^ 53) (least : -1074 ≤ top)
    (most : exponent ≤ top)
    (within : Within (.ofMantissaAndAccuracy mantissa accuracy)
      (limit * 2 ^ (top - exponent).toNat)) :
    ∃ shifted place, shiftToTargetExponent .binary64 mantissa exponent accuracy =
        (shifted, place) ∧
      -1074 ≤ place ∧ place ≤ top ∧ Within shifted (limit * 2 ^ (top - place).toNat) := by
  have below := within.mantissa_le
  rw [ofMantissaAndAccuracy_mantissa] at below
  have target := target_le fits least most below
  have floor : -1074 ≤ Format.binary64.targetExponent (totalExponent mantissa exponent) :=
    le_max_right _ _
  unfold shiftToTargetExponent shiftToExponent
  generalize Format.binary64.targetExponent (totalExponent mantissa exponent) = place at *
  refine ⟨_, _, rfl, by omega, by omega, Within.shiftRight ?_⟩
  have split : 2 ^ (top - exponent).toNat =
      2 ^ (top - (exponent + (place - exponent).toNat)).toNat * 2 ^ (place - exponent).toNat :=
    two_pow_split _ (by omega) (by omega)
  rw [Nat.mul_assoc, ← split]
  exact within

theorem roundWithAccuracy_bounded (sign : Sign) {accuracy : Accuracy} (fits : limit < 2 ^ 53)
    (least : -1074 ≤ top) (most : exponent ≤ top)
    (within : Within (.ofMantissaAndAccuracy mantissa accuracy)
      (limit * 2 ^ (top - exponent).toNat)) :
    Bounded limit top (roundWithAccuracy .binary64 sign mantissa exponent accuracy) := by
  obtain ⟨shifted, place, shift, -, near, kept⟩ := shift_within fits least most within
  obtain ⟨final, last, same, low, high, held⟩ :=
    shift_within fits least near (within_exact kept.rounded)
  simp only [roundWithAccuracy, shift, same]
  split
  · exact .zero sign
  · exact .finite _ low high held.mantissa_le

theorem round_bounded (sign : Sign) (fits : limit < 2 ^ 53) (least : -1074 ≤ top)
    (most : exponent ≤ top) (below : mantissa ≤ limit * 2 ^ (top - exponent).toNat) :
    Bounded limit top (UnpackedFloat.round .binary64 sign mantissa exponent) := by
  unfold UnpackedFloat.round decreaseExponent
  generalize Format.binary64.targetExponent (totalExponent mantissa exponent) = target
  exact roundWithAccuracy_bounded sign fits least (by omega)
    (within_exact (shiftLeft_below _ rfl most below))

theorem normalize_bounded {amount : Int} (zeroSign : Sign) (fits : limit < 2 ^ 53)
    (least : -1074 ≤ top) (most : exponent ≤ top)
    (below : amount.natAbs ≤ limit * 2 ^ (top - exponent).toNat) :
    Bounded limit top (UnpackedFloat.normalize .binary64 amount exponent zeroSign) := by
  unfold UnpackedFloat.normalize
  split
  · exact round_bounded .negative fits least most (by omega)
  · exact .zero zeroSign
  · exact round_bounded .positive fits least most (by omega)

/-- A value that fits is as large as it was once it is packed, or smaller. -/
theorem Bounded.packed {x : UnpackedFloat} (bounded : Bounded limit top x) (fits : top ≤ 971) :
    Bounded limit top (Float.Model.pack x).unpack := by
  cases bounded with
  | zero sign =>
    rw [unpack_pack_zero]
    exact .zero sign
  | finite positive least most below =>
    rename_i sign mantissa exponent
    by_cases width : mantissa.log2 = 52
    · rw [unpack_pack_normal sign positive width least (most.trans fits)]
      exact .finite positive least most below
    · rw [unpack_pack_subnormal width (most.trans fits)]
      split
      · refine .finite _ le_rfl (least.trans most) ?_
        calc mantissa % 2 ^ 52 ≤ mantissa := Nat.mod_le _ _
          _ ≤ limit * 2 ^ (top - exponent).toNat := below
          _ ≤ limit * 2 ^ (top - -1074).toNat :=
            Nat.mul_le_mul_left _ (Nat.pow_le_pow_right (by decide) (by omega))
      · exact .zero sign

theorem Bounded.isFinite {x : UnpackedFloat} (bounded : Bounded limit top x) :
    x.isFinite = true := by
  cases bounded <;> rfl

/-- What is packed comes out finite, or has passed the range. -/
theorem Bounded.finite_or_infinite {x : UnpackedFloat} (bounded : Bounded limit top x) :
    (Float.Model.pack x).unpack.isFinite = true ∨
      ∃ sign, (Float.Model.pack x).unpack = .infinity sign := by
  cases bounded with
  | zero sign =>
    rw [unpack_pack_zero]
    exact .inl rfl
  | finite positive least most below =>
    rename_i sign mantissa exponent
    rcases Int.lt_or_le 971 exponent with huge | fits
    · exact .inr ⟨sign, unpack_pack_huge huge⟩
    · have alone : Bounded mantissa exponent (.finite sign mantissa exponent positive) :=
        .finite positive least le_rfl (by simp)
      exact .inl (alone.packed fits).isFinite

theorem Bounded.mono {x : UnpackedFloat} (bounded : Bounded limit top x) {more : Nat} {upper : Int}
    (above : top ≤ upper) (le : limit ≤ more * 2 ^ (upper - top).toNat) :
    Bounded more upper x := by
  cases bounded with
  | zero sign => exact .zero sign
  | finite positive least most below =>
    rename_i mantissa exponent
    refine .finite positive least (most.trans above) ?_
    calc mantissa ≤ limit * 2 ^ (top - exponent).toNat := below
      _ ≤ more * 2 ^ (upper - top).toNat * 2 ^ (top - exponent).toNat := Nat.mul_le_mul_right _ le
      _ = more * 2 ^ (upper - exponent).toNat := by
        rw [Nat.mul_assoc, ← Nat.pow_add]
        congr 2
        omega

end

/-- Values of one or more, with a mantissa of 53 bits. -/
inductive AtLeastOne : UnpackedFloat → Prop
  | mk {mantissa : Nat} {exponent : Int} (positive : 0 < mantissa) (width : mantissa.log2 = 52)
      (large : -52 ≤ exponent) : AtLeastOne (.finite .positive mantissa exponent positive)

theorem natAbs_apply (sign : Sign) (amount : Int) : (sign.apply amount).natAbs = amount.natAbs := by
  cases sign
  · exact Int.natAbs_neg amount
  · rfl

theorem add_bounded {x y : UnpackedFloat} {first second : Nat} {top : Int}
    (left : Bounded first top x) (right : Bounded second top y) (fits : first + second < 2 ^ 53)
    (least : -1074 ≤ top) :
    Bounded (first + second) top (UnpackedFloat.add .binary64 x y) := by
  cases left with
  | zero sign =>
    cases right with
    | zero sign' =>
      rw [UnpackedFloat.add]
      split <;> exact .zero _
    | finite positive least' most below =>
      exact Bounded.mono (.finite positive least' most below) le_rfl (by simp)
  | finite positive least' most below =>
    rename_i sign mantissa exponent
    cases right with
    | zero sign' => exact Bounded.mono (.finite positive least' most below) le_rfl (by simp)
    | finite positive' least'' most' below' =>
      rename_i sign' mantissa' exponent'
      -- both are written with the smaller exponent, and the bounds are, too
      have shifted : mantissa <<< (exponent - min exponent exponent').toNat ≤
          first * 2 ^ (top - min exponent exponent').toNat :=
        shiftLeft_below _ (by omega) most below
      have shifted' : mantissa' <<< (exponent' - min exponent exponent').toNat ≤
          second * 2 ^ (top - min exponent exponent').toNat :=
        shiftLeft_below _ (by omega) most' below'
      refine normalize_bounded .positive fits least (by omega) ?_
      refine (Int.natAbs_add_le _ _).trans ?_
      rw [natAbs_apply, natAbs_apply, Nat.add_mul]
      exact Nat.add_le_add shifted shifted'

/-- A quotient by one or more has no larger magnitude than what is divided. -/
theorem div_bounded {x y : UnpackedFloat} {limit : Nat} {top : Int} (bounded : Bounded limit top x)
    (above : AtLeastOne y) (fits : limit < 2 ^ 53) (least : -1074 ≤ top) :
    Bounded limit top (UnpackedFloat.div .binary64 x y) := by
  obtain ⟨positive, width, large⟩ := above
  rename_i parts exponent
  cases bounded with
  | zero sign' => exact .zero _
  | finite positive' least' most below =>
    rename_i sign' count exponent'
    have total := totalExponent_le fits positive' most below
    have ones : totalExponent parts exponent = 53 + exponent := by
      rw [totalExponent, width]
      rfl
    unfold UnpackedFloat.div divCore
    simp only [ones, targetExponent_eq]
    -- one exponent for the quotient, low enough for all its bits
    generalize target : min (exponent' - exponent)
      (max (totalExponent count exponent' - (53 + exponent) - 53) (-1074)) = place
    have high : place ≤ top := by omega
    refine roundWithAccuracy_bounded _ fits least high (within_quotient ?_)
    obtain ⟨low, -⟩ := bounds_of_width width
    calc count <<< (exponent' - exponent - place).toNat
      _ = count * 2 ^ (exponent' - exponent - place).toNat := Nat.shiftLeft_eq _ _
      _ ≤ limit * 2 ^ (top - exponent').toNat * 2 ^ (exponent' - exponent - place).toNat :=
        Nat.mul_le_mul_right _ below
      _ = limit * 2 ^ ((top - exponent').toNat + (exponent' - exponent - place).toNat) := by
        rw [Nat.mul_assoc, ← Nat.pow_add]
      _ ≤ limit * 2 ^ ((top - place).toNat + 52) :=
        Nat.mul_le_mul_left _ (Nat.pow_le_pow_right (by decide) (by omega))
      _ = limit * 2 ^ (top - place).toNat * 2 ^ 52 := by rw [Nat.pow_add, Nat.mul_assoc]
      _ ≤ limit * 2 ^ (top - place).toNat * parts := Nat.mul_le_mul_left _ low

/-- The magnitude of a finite value. -/
def magnitude (x : Float) : ℚ :=
  match x.toModel.unpack with
  | .finite _ mantissa exponent _ => mantissa * 2 ^ exponent
  | _ => 0

section

variable {x y : Float}

/-- The exponents of the finite values are all in one range. -/
theorem bounded_of_isFinite {limit : Nat} (finite : x.isFinite)
    (below : ∀ sign mantissa exponent positive,
      x.toModel.unpack = .finite sign mantissa exponent positive →
        mantissa ≤ limit * 2 ^ (971 - exponent).toNat) :
    Bounded limit 971 x.toModel.unpack := by
  have known : x.toModel.unpack.isFinite := finite
  cases shape : x.toModel.unpack with
  | notANumber => rw [shape] at known; cases known
  | infinity sign => rw [shape] at known; cases known
  | zero sign => exact .zero sign
  | finite sign mantissa exponent positive =>
    have shapes := unpack_finite_shape shape
    exact .finite positive (by omega) (by omega) (below _ _ _ _ shape)

theorem bounded_of_finite (finite : x.isFinite) : Bounded (2 ^ 53 - 1) 971 x.toModel.unpack := by
  refine bounded_of_isFinite finite fun sign mantissa exponent positive shape => ?_
  have small : mantissa < 2 ^ 53 := by
    rcases unpack_finite_shape shape with ⟨-, small⟩ | ⟨width, -⟩
    · exact small
    · exact (bounds_of_width width).2
  exact (Nat.le_sub_one_of_lt small).trans (Nat.le_mul_of_pos_right _ (Nat.two_pow_pos _))

theorem bounded_of_magnitude {limit : Nat} (finite : x.isFinite)
    (below : magnitude x ≤ limit * 2 ^ 971) : Bounded limit 971 x.toModel.unpack := by
  refine bounded_of_isFinite finite fun sign mantissa exponent positive shape => ?_
  have most : exponent ≤ 971 := by
    have shapes := unpack_finite_shape shape
    omega
  have scale : (2 : ℚ) ^ 971 = 2 ^ (971 - exponent).toNat * 2 ^ exponent := by
    rw [← zpow_natCast, ← zpow_natCast, ← zpow_add₀ two_ne_zero]
    congr 1
    omega
  rw [magnitude, shape, scale, ← mul_assoc] at below
  exact_mod_cast le_of_mul_le_mul_right below (zpow_pos two_pos exponent)

/-- A sum of finite values is finite, or has passed the range. -/
theorem add_finite_or_infinite (left : x.isFinite) (right : y.isFinite) :
    (x + y).isFinite ∨ ∃ sign, (x + y).toModel.unpack = .infinity sign := by
  have bounded : Bounded (2 ^ 51 + 2 ^ 51) 973
      (UnpackedFloat.add .binary64 x.toModel.unpack y.toModel.unpack) :=
    add_bounded ((bounded_of_finite left).mono (by decide) (by decide))
      ((bounded_of_finite right).mono (by decide) (by decide)) (by decide) (by decide)
  exact bounded.finite_or_infinite

/-- A finite value added to an infinity does not bring it back. -/
theorem add_infinite {sign : Sign} (infinite : x.toModel.unpack = .infinity sign)
    (finite : y.isFinite) : (x + y).toModel.unpack = .infinity sign := by
  have known : y.toModel.unpack.isFinite := finite
  change
    (Float.Model.pack (UnpackedFloat.add .binary64 x.toModel.unpack y.toModel.unpack)).unpack = _
  rw [infinite]
  cases shape : y.toModel.unpack with
  | notANumber => rw [shape] at known; cases known
  | infinity sign => rw [shape] at known; cases known
  | zero sign' => exact unpack_pack_infinity sign
  | finite sign' mantissa exponent positive => exact unpack_pack_infinity sign

end

/-- What is rounded at one or above stays there, or passes the range. -/
theorem round_atLeastOne {mantissa bits : Nat} {exponent : Int}
    (width : mantissa.log2 = 52 + bits) (large : -52 ≤ exponent + bits)
    (least : -1074 ≤ exponent) {x : UnpackedFloat}
    (packed : x = (Float.Model.pack
      (roundWithAccuracy .binary64 .positive mantissa exponent .exact)).unpack) :
    AtLeastOne x ∨ (x = .infinity .positive ∧ 970 < exponent + bits) := by
  obtain ⟨rounded, more, positive, product, width', single, -⟩ := round_of_bits width least
  rw [product] at packed
  rcases Int.lt_or_le 971 (exponent + bits + more) with huge | fits
  · exact .inr ⟨packed.trans (unpack_pack_huge huge), by omega⟩
  · rw [unpack_pack_normal .positive positive width' (by omega) fits] at packed
    rw [packed]
    exact .inl (.mk positive width' (by omega))

theorem one_unpack : (Float.ofBits 0x3FF0000000000000).toModel.unpack =
    .finite .positive (2 ^ 52) (-52) (Nat.two_pow_pos 52) := by
  rfl

/-- A count of 53 bits is converted through a word and multiplied by one. -/
theorem ofNat_of_lt {n : Nat} (positive : 0 < n) (small : n < 2 ^ 53) :
    AtLeastOne (Float.ofNat n).toModel.unpack := by
  have same : n.toUInt64.toNat = n := by
    rw [Nat.toUInt64, UInt64.toNat_ofNat']
    omega
  have bits : n.log2 < 53 := (Nat.log2_lt positive.ne').mpr small
  obtain ⟨shift, positive', exact, width, short⟩ := ofNat_of_bits positive (by omega)
  have value : n.toUInt64.toFloat.toModel.unpack =
      .finite .positive (n * 2 ^ shift) (-shift) positive' := by
    change (Float.Model.pack (UnpackedFloat.ofNat .binary64 n.toUInt64.toNat)).unpack = _
    rw [same, exact]
    exact unpack_pack_normal .positive positive' width (by omega) (by omega)
  have product : Float.ofNat n = n.toUInt64.toFloat * Float.ofBits 0x3FF0000000000000 := by
    rw [Float.ofNat]
    exact dif_pos ⟨small, by decide⟩
  have wide : (n * 2 ^ shift * 2 ^ 52).log2 = 52 + 52 := by
    rw [log2_mul_two_pow positive', width]
  refine
    (round_atLeastOne wide (by omega) (by omega : -1074 ≤ -(shift : Int) + -52) ?_).resolve_right
      (by omega)
  rw [product]
  change (Float.Model.pack (UnpackedFloat.mul .binary64 _ _)).unpack = _
  rw [value, one_unpack]
  rfl

/-- A larger count is rounded from its scientific notation. -/
theorem ofNat_of_le {n : Nat} (large : 2 ^ 53 ≤ n) :
    AtLeastOne (Float.ofNat n).toModel.unpack ∨
      ((Float.ofNat n).toModel.unpack = .infinity .positive ∧ 2 ^ 64 ≤ n) := by
  have positive : 0 < n := (Nat.two_pow_pos 53).trans_le large
  have scientific : Float.ofNat n = .ofModel (Float.Model.ofScientific n 0) := by
    rw [Float.ofNat]
    exact dif_neg fun both => absurd both.1 large.not_gt
  have product : UnpackedFloat.ofScientific .binary64 n 0 =
      roundWithAccuracy .binary64 .positive ((n <<< 53) * 10 ^ 0) (-53 + 0) .exact := by
    rw [UnpackedFloat.ofScientific, dif_neg positive.ne', if_neg (by decide), if_neg (by simp),
      if_pos le_rfl]
    rfl
  have wide : ((n <<< 53) * 10 ^ 0).log2 = 52 + (n.log2 + 1) := by
    rw [Nat.pow_zero, Nat.mul_one, Nat.shiftLeft_eq, log2_mul_two_pow positive]
    omega
  refine (round_atLeastOne wide (by omega) (by omega : -1074 ≤ -(53 : Int) + 0) ?_).imp_right
    fun beyond => ⟨beyond.1, ?_⟩
  · rw [scientific, ← product]
    rfl
  · have bits := beyond.2
    exact (Nat.pow_le_pow_right (by decide) (by omega)).trans (Nat.log2_self_le positive.ne')

/-- A count is one or more as a value too, or passes the range, which takes more than 64 bits. -/
theorem ofNat_atLeastOne {n : Nat} (positive : 0 < n) :
    AtLeastOne (Float.ofNat n).toModel.unpack ∨
      ((Float.ofNat n).toModel.unpack = .infinity .positive ∧ 2 ^ 64 ≤ n) :=
  (Nat.lt_or_ge n (2 ^ 53)).elim (fun small => .inl (ofNat_of_lt positive small)) ofNat_of_le

section

variable {x : Float} {n : Nat} {sign : Sign}

/-- A finite value shared out over a count is finite. -/
theorem div_count_finite (finite : x.isFinite) (positive : 0 < n) :
    (x / Float.ofNat n).isFinite := by
  change (Float.Model.pack (UnpackedFloat.div .binary64 x.toModel.unpack
    (Float.ofNat n).toModel.unpack)).unpack.isFinite = true
  rcases ofNat_atLeastOne positive with above | ⟨infinite, -⟩
  · exact ((div_bounded (bounded_of_finite finite) above (by decide) (by decide)).packed
      le_rfl).isFinite
  · have known : x.toModel.unpack.isFinite := finite
    rw [infinite]
    cases shape : x.toModel.unpack with
    | notANumber => rw [shape] at known; cases known
    | infinity sign => rw [shape] at known; cases known
    | zero sign =>
      rw [UnpackedFloat.div, unpack_pack_zero]
      rfl
    | finite sign mantissa exponent positive =>
      rw [UnpackedFloat.div, unpack_pack_zero]
      rfl

/-- An infinity shared out over a count is infinite; over a count beyond the range it is no
number. -/
theorem div_count_infinite (infinite : x.toModel.unpack = .infinity sign) (positive : 0 < n) :
    ¬ (x / Float.ofNat n).isFinite ∧ (n < 2 ^ 64 → (x / Float.ofNat n).isInf) := by
  change ¬ (Float.Model.pack (UnpackedFloat.div .binary64 x.toModel.unpack
      (Float.ofNat n).toModel.unpack)).unpack.isFinite = true ∧
    (_ → (Float.Model.pack (UnpackedFloat.div .binary64 x.toModel.unpack
      (Float.ofNat n).toModel.unpack)).unpack.isInf = true)
  rw [infinite]
  rcases ofNat_atLeastOne positive with above | ⟨beyond, large⟩
  · generalize (Float.ofNat n).toModel.unpack = count at above ⊢
    obtain ⟨positive', width, -⟩ := above
    rw [UnpackedFloat.div, unpack_pack_infinity]
    exact ⟨Bool.false_ne_true, fun _ => rfl⟩
  · rw [beyond, UnpackedFloat.div]
    exact ⟨by decide, fun small => absurd large small.not_ge⟩

end

end Headroom.Decimal
