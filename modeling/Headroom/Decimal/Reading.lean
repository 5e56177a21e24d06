import Headroom.Decimal.Numeral

/-!
Reading a float from free text: an optional sign, digits with an optional point
on either side of them, an optional exponent; or one of the words `inf`,
`infinity` and `nan` in any mix of cases. Nothing else may stand in the text.
-/
namespace Headroom.Decimal

/-- The value of an ASCII digit. -/
def digit? (c : Char) : Option Nat :=
  if '0' ≤ c ∧ c ≤ '9' then some (c.toNat - '0'.toNat) else none

/-- The digits at the front of a text, and the rest. -/
def spanDigits : List Char → List Nat × List Char
  | [] => ([], [])
  | c :: rest =>
    match digit? c with
    | some d => let (digits, tail) := spanDigits rest; (d :: digits, tail)
    | none => ([], c :: rest)

/-- An optional sign: whether it is a minus, and the rest. -/
def takeSign : List Char → Bool × List Char
  | '-' :: rest => (true, rest)
  | '+' :: rest => (false, rest)
  | rest => (false, rest)

/-- The exponent part at the end of a numeral; an absent one is zero. -/
def exponent? : List Char → Option Int
  | [] => some 0
  | c :: rest =>
    if c = 'e' ∨ c = 'E' then
      let (negative, rest) := takeSign rest
      match spanDigits rest with
      | (d :: digits, []) =>
        let value : Int := digitsValue 0 (d :: digits)
        some (if negative then -value else value)
      | _ => none
    else none

/-- An unsigned numeral: digits, point, digits, exponent, with at least one digit. -/
def unsigned? (negative : Bool) (text : List Char) : Option Numeral :=
  let (whole, rest) := spanDigits text
  let (fraction, rest) :=
    match rest with
    | '.' :: tail => spanDigits tail
    | _ => ([], rest)
  if whole.isEmpty ∧ fraction.isEmpty then none
  else (exponent? rest).map fun exponent =>
    { negative
      digits := digitsValue 0 (whole ++ fraction)
      exponent := exponent - fraction.length }

/-- The float a whole text stands for. -/
def readFloat? (text : String) : Option Float :=
  let (negative, rest) := takeSign text.toList
  let sign (x : Float) := if negative then -x else x
  match String.ofList (rest.map Char.toLower) with
  | "inf" | "infinity" => some (sign (1.0 / 0.0))
  | "nan" => some (0.0 / 0.0)
  | _ => (unsigned? negative rest).map Numeral.toFloat

end Headroom.Decimal
