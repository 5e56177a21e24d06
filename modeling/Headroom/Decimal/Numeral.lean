/-!
Decimal numerals and the binary64 value nearest to one. A numeral keeps every
digit that was written, so rounding happens once, when a float is asked for.
-/
namespace Headroom.Decimal

/-- The number `± digits · 10 ^ exponent`. -/
structure Numeral where
  negative : Bool
  digits : Nat
  exponent : Int
  deriving DecidableEq, Repr

/-- The value of a run of digits, most significant first, continuing from `start`. -/
def digitsValue (start : Nat) (digits : List Nat) : Nat :=
  digits.foldl (fun value digit => 10 * value + digit) start

/-- The nearest binary64 value. A magnitude beyond the largest finite value gives
infinity and one below half the smallest gives zero; both are settled from the
exponent alone once it leaves the range where digits can matter. -/
def Numeral.toFloat (n : Numeral) : Float :=
  let magnitude : Float :=
    if n.digits = 0 then 0
    else if n.exponent > 400 then 1.0 / 0.0
    else if n.exponent + n.digits.log2 + 1 < -400 then 0
    else Float.ofScientific n.digits (n.exponent < 0) n.exponent.natAbs
  if n.negative then -magnitude else magnitude

end Headroom.Decimal
