import Headroom.Proofs.Numerals

/-!
Floats within JSON. The notation of a float is a numeral, or null for a float that is no
number (`jsonNotation_isNumeral`).
-/
namespace Headroom.Decimal

/-- Every point of the interval of a value that is not zero lies above zero. -/
theorem RoundingInterval.lower_pos {x : Binary} (some : x.mantissa ≠ 0) :
    0 < (RoundingInterval.of x).lower := by
  simp only [RoundingInterval.of, fractionOf]
  split
  · split <;> simp <;> omega
  · have unit : 0 < Nat.pow 2 (x.exponent - 2).natAbs := Nat.pow_pos (by decide)
    have four : 4 * Nat.pow 2 (x.exponent - 2).natAbs ≤
        4 * x.mantissa * Nat.pow 2 (x.exponent - 2).natAbs :=
      Nat.mul_le_mul_right _ (by omega)
    split <;> simp only [Nat.one_mul] <;> omega

/-- Of a number and the next the smaller can only be picked where it fits. -/
theorem fits_of_picked {below : Nat} {fits more nearer : Prop} [Decidable fits] [Decidable more]
    [Decidable nearer]
    (picked : (if fits ∧ more then some (if nearer then below else below + 1)
      else if fits then some below else if more then some (below + 1) else none) = some 0) :
    fits ∧ below = 0 := by
  split at picked
  · rename_i both
    have zero := Option.some.inj picked
    split at zero
    · exact ⟨both.1, zero⟩
    · cases zero
  · split at picked
    · rename_i here
      exact ⟨here, Option.some.inj picked⟩
    · split at picked
      · cases Option.some.inj picked
      · cases picked

/-- No neighbour that lies in an interval above zero is zero. -/
theorem RoundingInterval.neighbour?_ne_zero {i : RoundingInterval} (positive : 0 < i.lower)
    {exponent : Int} {digits : Nat} (found : i.neighbour? exponent = some digits) :
    digits ≠ 0 := by
  have scaled : 0 < i.lower * (if exponent < 0 then Nat.pow 10 exponent.natAbs else 1) := by
    refine Nat.mul_pos positive ?_
    split
    · exact Nat.pow_pos (by decide)
    · exact Nat.one_pos
  rintro rfl
  obtain ⟨fits, zero⟩ := fits_of_picked found
  rw [zero, Nat.zero_mul] at fits
  split at fits
  · exact Nat.not_le.mpr scaled fits
  · exact Nat.not_lt_zero _ fits

theorem Scaled.trim_ne_zero {fuel : Nat} {x : Scaled} (some : x.digits ≠ 0) :
    (x.trim fuel).digits ≠ 0 := by
  induction fuel generalizing x with
  | zero => exact some
  | succ fuel ih =>
    rw [Scaled.trim]
    split
    · rename_i tens
      exact ih (by dsimp only; omega)
    · exact some

/-- The digits that are found are not zero, or stand far behind the point. -/
theorem RoundingInterval.search_digits {i : RoundingInterval} (positive : 0 < i.lower)
    (order : Int) (fuel count : Nat) :
    (i.search order fuel count).digits ≠ 0 ∨
      (i.search order fuel count).exponent = -((count + fuel : Nat) : Int) := by
  induction fuel generalizing count with
  | zero => exact .inr rfl
  | succ fuel ih =>
    rw [RoundingInterval.search]
    split
    · rename_i digits found
      exact .inl (Scaled.trim_ne_zero (neighbour?_ne_zero positive found))
    · have later := ih (count + 1)
      rwa [Nat.add_right_comm] at later

theorem Binary.shortest_digits {x : Binary} (some : x.mantissa ≠ 0) :
    x.shortest.digits ≠ 0 ∨ x.shortest.exponent = -18 :=
  RoundingInterval.search_digits (RoundingInterval.lower_pos some) _ 17 1

theorem pushn_toList (c : Char) (n : Nat) : ("".pushn c n).toList = List.replicate n c := by
  rw [String.pushn_eq_repeat_push]
  induction n with
  | zero => rfl
  | succ n ih => rw [Nat.repeat, String.toList_push, ih, List.replicate_succ']

section

variable (digits : String) {exponent : Int}

theorem positional_whole (whole : 0 ≤ exponent) :
    (positional digits exponent).toList =
      digits.toList ++ List.replicate exponent.natAbs '0' := by
  simp only [positional, if_pos whole, String.toList_append, pushn_toList]

theorem positional_split (part : exponent < 0) (within : exponent.natAbs < digits.length) :
    (positional digits exponent).toList =
      digits.toList.take (digits.length - exponent.natAbs) ++
        '.' :: digits.toList.drop (digits.length - exponent.natAbs) := by
  simp [positional, if_neg (Int.not_le.mpr part), if_pos within, List.splitAt_eq]

theorem positional_part (part : exponent < 0) (beyond : digits.length ≤ exponent.natAbs) :
    (positional digits exponent).toList =
      '0' :: '.' :: (List.replicate (exponent.natAbs - digits.length) '0' ++ digits.toList) := by
  simp [positional, if_neg (Int.not_le.mpr part), if_neg (Nat.not_lt.mpr beyond), pushn_toList]

end

/-- The text of a decimal that is not negative. -/
def Scaled.text (s : Scaled) : String :=
  let digits := toString s.digits
  let order : Int := s.exponent + digits.length
  if 0 < order ∧ order ≤ 16 then
    if 0 ≤ s.exponent then positional digits s.exponent ++ ".0"
    else positional digits s.exponent
  else if -5 < order ∧ order ≤ 0 then positional digits s.exponent
  else
    let mantissa := positional digits (1 - digits.length)
    let power := order - 1
    mantissa ++ "e" ++ (if power < 0 then "-" else "+") ++ toString power.natAbs

theorem jsonNotation_eq (x : Float) :
    jsonNotation x =
      match classify x with
      | .nan | .infinite _ => "null"
      | .finite negative magnitude =>
        let text := if magnitude.mantissa = 0 then "0.0" else magnitude.shortest.text
        if negative then "-" ++ text else text := rfl

open Json (IsWhole IsExponent IsMagnitude IsNumeral isWhole_toDigits head?_toDigits)

/-- Digits of which the first is not zero. -/
structure IsLeading (digits : List Char) : Prop where
  all : ∀ c ∈ digits, c.isDigit
  nonempty : digits ≠ []
  first : digits.head? ≠ some '0'

theorem IsLeading.whole {digits : List Char} (leading : IsLeading digits) : IsWhole digits :=
  ⟨leading.all, leading.nonempty, fun zero => absurd zero leading.first⟩

theorem isLeading_toDigits {n : Nat} (positive : n ≠ 0) : IsLeading (Nat.toDigits 10 n) :=
  ⟨(isWhole_toDigits n).all, (isWhole_toDigits n).nonempty, head?_toDigits positive⟩

theorem IsLeading.append {digits more : List Char} (leading : IsLeading digits)
    (all : ∀ c ∈ more, c.isDigit) : IsLeading (digits ++ more) where
  all c member := (List.mem_append.mp member).elim (leading.all c) (all c)
  nonempty none := leading.nonempty (List.append_eq_nil_iff.mp none).1
  first := by
    rw [List.head?_append_of_ne_nil _ leading.nonempty]
    exact leading.first

theorem IsLeading.take {digits : List Char} (leading : IsLeading digits) {count : Nat}
    (positive : 0 < count) : IsLeading (digits.take count) where
  all c member := leading.all c (List.mem_of_mem_take member)
  nonempty := by
    simp [leading.nonempty, Nat.pos_iff_ne_zero.mp positive]
  first := by
    rw [List.head?_take, if_neg (Nat.pos_iff_ne_zero.mp positive)]
    exact leading.first

theorem isDigit_replicate (n : Nat) : ∀ c ∈ List.replicate n '0', c.isDigit := by
  intro c member
  rw [List.eq_of_mem_replicate member]
  decide

theorem toString_toList (n : Nat) : (toString n).toList = Nat.toDigits 10 n := by
  rw [Nat.toString_eq_repr, Nat.toList_repr]

theorem length_toString_pos (n : Nat) : 0 < (toString n).length := by
  rw [← String.length_toList, toString_toList]
  exact Nat.length_toDigits_pos

/-- The exponent part as it is written. -/
theorem isExponent_power (power : Int) :
    IsExponent ("e" ++ (if power < 0 then "-" else "+") ++ toString power.natAbs).toList := by
  have whole := isWhole_toDigits power.natAbs
  rw [String.toList_append, String.toList_append, toString_toList]
  split
  · exact .present '-' (.inr rfl) whole.all whole.nonempty
  · exact .present '+' (.inl rfl) whole.all whole.nonempty

/-- A number with several digits is not zero. -/
theorem ne_zero_of_digits {n : Nat} (several : 1 < (toString n).length) : n ≠ 0 := by
  rintro rfl
  exact absurd several (by decide)

/-- Digits with the point among them. -/
theorem isMagnitude_split {n : Nat} {exponent : Int} {rest : List Char} (part : exponent < 0)
    (within : exponent.natAbs < (toString n).length) (after : IsExponent rest) :
    IsMagnitude ((positional (toString n) exponent).toList ++ rest) := by
  have places : 0 < exponent.natAbs := Int.natAbs_pos.mpr (by omega)
  have length : (toString n).toList.length = (toString n).length := String.length_toList
  have leading : IsLeading (toString n).toList := by
    rw [toString_toList]
    exact isLeading_toDigits (ne_zero_of_digits (Nat.lt_of_le_of_lt places within))
  rw [positional_split _ part within, List.append_assoc, List.cons_append]
  refine .mk (leading.take (Nat.sub_pos_of_lt within)).whole (.point ?_ ?_ after)
  · exact fun c member => leading.all c (List.mem_of_mem_drop member)
  · intro none
    have short := List.drop_eq_nil_iff.mp none
    omega

/-- Digits before the point, with zeros up to it. -/
theorem isMagnitude_whole {n : Nat} (positive : n ≠ 0) {exponent : Int} (whole : 0 ≤ exponent) :
    IsMagnitude (positional (toString n) exponent ++ ".0").toList := by
  have leading : IsLeading (toString n).toList := by
    rw [toString_toList]
    exact isLeading_toDigits positive
  rw [String.toList_append, positional_whole _ whole]
  exact .mk (leading.append (isDigit_replicate _)).whole
    (.point (isDigit_replicate 1) (by decide) .absent)

/-- Digits behind the point, with zeros in front of them. -/
theorem isMagnitude_part {n : Nat} {exponent : Int} (beyond : exponent + (toString n).length ≤ 0) :
    IsMagnitude (positional (toString n) exponent).toList := by
  have some := length_toString_pos n
  rw [positional_part _ (by omega) (by omega), ← List.append_nil (_ ++ _)]
  refine .mk (isWhole_toDigits 0) (.point ?_ ?_ .absent)
  · simp only [List.mem_append]
    rintro c (zero | digit)
    · exact isDigit_replicate _ c zero
    · exact (isWhole_toDigits n).all c (by rwa [← toString_toList])
  · intro none
    rw [List.append_eq_nil_iff, toString_toList] at none
    exact Nat.toDigits_ne_nil none.2

/-- One digit before the point, and a power of ten. -/
theorem isMagnitude_power (n : Nat) {power : List Char} (exponent : IsExponent power) :
    IsMagnitude ((positional (toString n) (1 - (toString n).length)).toList ++ power) := by
  obtain one | several := Nat.eq_or_lt_of_le (Nat.succ_le_of_lt (length_toString_pos n))
  · have mantissa : (positional (toString n) (1 - (toString n).length)).toList =
        Nat.toDigits 10 n := by
      rw [← one, positional_whole _ (by decide), toString_toList]
      exact List.append_nil _
    rw [mantissa]
    exact .mk (isWhole_toDigits n) (.plain exponent)
  · exact isMagnitude_split (by omega) (by omega) exponent

/-- A decimal is written as a numeral; a zero only where it stands far behind the point. -/
theorem Scaled.isMagnitude_text {s : Scaled} (sound : s.digits ≠ 0 ∨ s.exponent = -18) :
    IsMagnitude s.text.toList := by
  unfold Scaled.text
  dsimp only
  split
  · rename_i order
    split
    · rename_i whole
      exact isMagnitude_whole (sound.resolve_right (by omega)) whole
    · rename_i part
      simpa using isMagnitude_split (Int.not_le.mp part) (by omega) .absent
  · split
    · exact isMagnitude_part (by omega)
    · rw [String.append_assoc, String.append_assoc, String.toList_append, ← String.append_assoc]
      exact isMagnitude_power _ (isExponent_power _)

theorem jsonNotation_of_finite {x : Float} {negative : Bool} {magnitude : Binary}
    (finite : classify x = .finite negative magnitude) : IsNumeral (jsonNotation x).toList := by
  have text : IsMagnitude
      (if magnitude.mantissa = 0 then "0.0" else magnitude.shortest.text).toList := by
    split
    · exact .mk (isWhole_toDigits 0) (.point (isDigit_replicate 1) (by decide) .absent)
    · rename_i some
      exact Scaled.isMagnitude_text (Binary.shortest_digits some)
  rw [jsonNotation_eq, finite]
  dsimp only
  cases negative with
  | false => exact .positive text
  | true =>
    rw [if_pos rfl, String.toList_append]
    exact .negative text

/-- A float is written as a numeral, or as null if it is no number. -/
theorem jsonNotation_isNumeral (x : Float) :
    jsonNotation x = "null" ∨ IsNumeral (jsonNotation x).toList := by
  cases finite : classify x with
  | nan | infinite _ =>
    left
    rw [jsonNotation_eq, finite]
  | finite negative magnitude => exact .inr (jsonNotation_of_finite finite)

end Headroom.Decimal
