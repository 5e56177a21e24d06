import Headroom.Decimal.Binary

/-!
The decimal with the fewest digits that reads back as a given binary64 value.

The reals that round to the value form an interval around it, with both ends
included exactly when the mantissa is even. For one digit, two digits and so on
the two neighbours of the value on that decimal grid are tested in exact
arithmetic; the first grid with a neighbour inside the interval gives the
digits, and of two neighbours inside the nearer one is taken. If any point of a
grid lies in the interval then so does a neighbour, so no shorter decimal reads
back.
-/
namespace Headroom.Decimal

/-- The decimal `digits · 10 ^ exponent`. -/
structure Scaled where
  digits : Nat
  exponent : Int
  deriving DecidableEq, Repr

/-- A value with the ends of its rounding interval over one denominator. -/
structure RoundingInterval where
  lower : Nat
  value : Nat
  upper : Nat
  denominator : Nat
  closed : Bool
  deriving DecidableEq, Repr

/-- The interval of a magnitude: half the gap to each neighbour. Below a power of
two the gap is half as wide, except at the bottom of the range. -/
def RoundingInterval.of (x : Binary) : RoundingInterval :=
  let narrow := x.mantissa = Nat.pow 2 52 ∧ x.exponent > -1074
  let (value, denominator) := fractionOf (4 * x.mantissa) (x.exponent - 2)
  let unit := (fractionOf 1 (x.exponent - 2)).1
  { lower := value - (if narrow then unit else 2 * unit)
    value
    upper := value + 2 * unit
    denominator
    closed := x.mantissa % 2 = 0 }

/-- The position of the leading digit: `10 ^ (order - 1) ≤ value < 10 ^ order`. -/
def RoundingInterval.order (i : RoundingInterval) : Int :=
  if i.denominator ≤ i.value then digitCount (i.value / i.denominator)
  else 1 - (digitCount ((i.denominator + i.value - 1) / i.value - 1) : Int)

/-- The better neighbour of the value on the grid of multiples of `10 ^ exponent`,
if one lies in the interval. -/
def RoundingInterval.neighbour? (i : RoundingInterval) (exponent : Int) : Option Nat :=
  let scale := if exponent < 0 then Nat.pow 10 exponent.natAbs else 1
  let step := i.denominator * if exponent < 0 then 1 else Nat.pow 10 exponent.natAbs
  let value := i.value * scale
  let below := value / step
  let above := below + 1
  let inside (bound point : Nat) := if i.closed then bound ≤ point else bound < point
  let belowFits := inside (i.lower * scale) (below * step)
  let aboveFits := inside (above * step) (i.upper * scale)
  if belowFits ∧ aboveFits then
    let down := value - below * step
    let up := above * step - value
    some (if down < up ∨ (down = up ∧ below % 2 = 0) then below else above)
  else if belowFits then some below
  else if aboveFits then some above
  else none

/-- Move factors of ten from the digits into the exponent, at most `fuel` of them. -/
def Scaled.trim (fuel : Nat) (x : Scaled) : Scaled :=
  match fuel with
  | 0 => x
  | fuel + 1 =>
    if x.digits % 10 = 0 ∧ x.digits ≠ 0 then
      Scaled.trim fuel ⟨x.digits / 10, x.exponent + 1⟩
    else x

/-- Try grids of growing fineness, starting with `count` digits. Seventeen digits
tell any two binary64 values apart, so the search ends within seventeen grids. -/
def RoundingInterval.search (i : RoundingInterval) (order : Int) :
    (fuel count : Nat) → Scaled
  | 0, count => ⟨i.value * Nat.pow 10 count / i.denominator, -count⟩
  | fuel + 1, count =>
    match i.neighbour? (order - count) with
    | some digits => Scaled.trim 20 ⟨digits, order - count⟩
    | none => i.search order fuel (count + 1)

/-- The shortest decimal of a magnitude that is not zero. -/
def Binary.shortest (x : Binary) : Scaled :=
  let interval := RoundingInterval.of x
  interval.search interval.order 17 1

/-- Digits with the decimal point set `places` digits from the right, and zeros
where the number has no digits of its own. -/
def positional (digits : String) (exponent : Int) : String :=
  let length := digits.length
  if 0 ≤ exponent then digits ++ "".pushn '0' exponent.natAbs
  else
    let places := exponent.natAbs
    if places < length then
      let (whole, part) := digits.toList.splitAt (length - places)
      String.ofList whole ++ "." ++ String.ofList part
    else "0." ++ "".pushn '0' (places - length) ++ digits

/-- Plain notation: the shortest digits, never an exponent, no point on a whole
number, and the words `NaN`, `inf` and `-inf`. -/
def plain (x : Float) : String :=
  match classify x with
  | .nan => "NaN"
  | .infinite negative => if negative then "-inf" else "inf"
  | .finite negative magnitude =>
    let digits :=
      if magnitude.mantissa = 0 then "0"
      else
        let shortest := magnitude.shortest
        positional (toString shortest.digits) shortest.exponent
    if negative then "-" ++ digits else digits

/-- Notation of JSON numbers: always a point or an exponent, positional while the
leading digit stands between the fifth place after the point and the sixteenth
before it, and a signed exponent beyond. -/
def jsonNotation (x : Float) : String :=
  match classify x with
  | .nan | .infinite _ => "null"
  | .finite negative magnitude =>
    let text :=
      if magnitude.mantissa = 0 then "0.0"
      else
        let shortest := magnitude.shortest
        let digits := toString shortest.digits
        let order : Int := shortest.exponent + digits.length
        if 0 < order ∧ order ≤ 16 then
          if 0 ≤ shortest.exponent then positional digits shortest.exponent ++ ".0"
          else positional digits shortest.exponent
        else if -5 < order ∧ order ≤ 0 then positional digits shortest.exponent
        else
          let mantissa := positional digits (1 - digits.length)
          let power := order - 1
          mantissa ++ "e" ++ (if power < 0 then "-" else "+") ++ toString power.natAbs
    if negative then "-" ++ text else text

end Headroom.Decimal
