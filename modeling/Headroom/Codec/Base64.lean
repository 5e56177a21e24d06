/-!
Base64 with the standard alphabet. The text comes in groups of four letters; the
last group is filled up with `=`, and the bits that its last letter has to spare
are zero, so each byte string has one written form.
-/
namespace Headroom.Codec.Base64

/-- The letter of a number below 64. -/
def letter (n : Nat) : UInt8 :=
  if n < 26 then (n + 65).toUInt8
  else if n < 52 then (n + 71).toUInt8
  else if n < 62 then (n - 4).toUInt8
  else if n = 62 then 43
  else 47

/-- The number of a letter. -/
def value? (b : UInt8) : Option Nat :=
  let n := b.toNat
  if 65 ≤ n ∧ n ≤ 90 then some (n - 65)
  else if 97 ≤ n ∧ n ≤ 122 then some (n - 71)
  else if 48 ≤ n ∧ n ≤ 57 then some (n + 4)
  else if n = 43 then some 62
  else if n = 47 then some 63
  else none

/-- The filler of an incomplete last group. -/
def filler : UInt8 := 61

def encode : List UInt8 → List UInt8
  | a :: b :: c :: rest =>
    let n := (a.toNat * 256 + b.toNat) * 256 + c.toNat
    letter (n / 262144) :: letter (n / 4096 % 64) :: letter (n / 64 % 64) :: letter (n % 64) ::
      encode rest
  | [a, b] =>
    let n := (a.toNat * 256 + b.toNat) * 4
    [letter (n / 4096), letter (n / 64 % 64), letter (n % 64), filler]
  | [a] =>
    let n := a.toNat * 16
    [letter (n / 64), letter (n % 64), filler, filler]
  | [] => []

/-- The two bytes of a last group of three letters. -/
def decodeThree? (a b c : UInt8) : Option (List UInt8) := do
  let n := ((← value? a) * 64 + (← value? b)) * 64 + (← value? c)
  if n % 4 = 0 then return [(n / 1024).toUInt8, (n / 4).toUInt8] else none

/-- The one byte of a last group of two letters. -/
def decodeTwo? (a b : UInt8) : Option (List UInt8) := do
  let n := (← value? a) * 64 + (← value? b)
  if n % 16 = 0 then return [(n / 16).toUInt8] else none

/-- The three bytes of a full group. -/
def decodeFour? (a b c d : UInt8) : Option (List UInt8) := do
  let n := (((← value? a) * 64 + (← value? b)) * 64 + (← value? c)) * 64 + (← value? d)
  return [(n / 65536).toUInt8, (n / 256).toUInt8, n.toUInt8]

/-- Decode onto the reversed bytes `done`. -/
def decodeOnto (done : List UInt8) : List UInt8 → Option (List UInt8)
  | [] => some done.reverse
  | a :: b :: c :: d :: rest =>
    if rest.isEmpty ∧ d = filler then
      let last := if c = filler then decodeTwo? a b else decodeThree? a b c
      last.map fun bytes => done.reverse ++ bytes
    else
      match decodeFour? a b c d with
      | some bytes => decodeOnto (bytes.reverse ++ done) rest
      | none => none
  | _ => none

def decode? (text : List UInt8) : Option (List UInt8) := decodeOnto [] text

end Headroom.Codec.Base64
