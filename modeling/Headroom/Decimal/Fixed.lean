import Headroom.Decimal.Shortest

/-!
A fixed number of places after the point, rounded from the exact value of the
float; a value half-way between two neighbours goes to the even one.
-/
namespace Headroom.Decimal

/-- The quotient rounded to the nearest whole number, halves to the even one. -/
def roundHalfEven (numerator denominator : Nat) : Nat :=
  let quotient := numerator / denominator
  let twice := 2 * (numerator % denominator)
  if twice < denominator then quotient
  else if denominator < twice then quotient + 1
  else if quotient % 2 = 0 then quotient else quotient + 1

/-- The float with `places` digits after the point; `places` is positive. -/
def fixed (places : Nat) (x : Float) : String :=
  match classify x with
  | .nan => "NaN"
  | .infinite negative => if negative then "-inf" else "inf"
  | .finite negative magnitude =>
    let (numerator, denominator) := fractionOf magnitude.mantissa magnitude.exponent
    let rounded := roundHalfEven (numerator * Nat.pow 10 places) denominator
    let text := positional (toString rounded) (-places)
    if negative then "-" ++ text else text

end Headroom.Decimal
