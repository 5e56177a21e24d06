/-!
A finite binary64 value as an exact number: an integer times a power of two,
and the fraction of two natural numbers it stands for.
-/
namespace Headroom.Decimal

/-- The magnitude `mantissa · 2 ^ exponent`. -/
structure Binary where
  mantissa : Nat
  exponent : Int
  deriving DecidableEq, Repr

/-- The classes of binary64 values; the flag of the last two is the sign. -/
inductive FloatClass where
  | nan
  | infinite (negative : Bool)
  | finite (negative : Bool) (magnitude : Binary)
  deriving DecidableEq, Repr

/-- Split the 64 bits of a float into sign, exponent and mantissa. -/
def classify (x : Float) : FloatClass :=
  let bits := x.toBits.toNat
  let negative := bits / Nat.pow 2 63 == 1
  let exponent : Nat := bits / Nat.pow 2 52 % Nat.pow 2 11
  let fraction : Nat := bits % Nat.pow 2 52
  if exponent = 2047 then
    if fraction = 0 then .infinite negative else .nan
  else if exponent = 0 then .finite negative ⟨fraction, -1074⟩
  else .finite negative ⟨Nat.pow 2 52 + fraction, Int.ofNat exponent - 1075⟩

/-- `count · 2 ^ exponent` as a numerator over a denominator. -/
def fractionOf (count : Nat) (exponent : Int) : Nat × Nat :=
  if exponent < 0 then (count, Nat.pow 2 exponent.natAbs)
  else (count * Nat.pow 2 exponent.natAbs, 1)

/-- The least natural number at or above a value, and at most the largest of 64 bits;
zero for a negative value and for one that is no number. -/
def ceiling (x : Float) : Nat :=
  match x.toModel.unpack with
  | .finite .positive mantissa exponent _ =>
    let (count, parts) := fractionOf mantissa exponent
    min ((count + (parts - 1)) / parts) (UInt64.size - 1)
  | .infinity .positive => UInt64.size - 1
  | _ => 0

/-- How many decimal digits `n` is written with; zero has none. -/
def digitCount (n : Nat) : Nat :=
  if n = 0 then 0 else (Nat.toDigits 10 n).length

end Headroom.Decimal
