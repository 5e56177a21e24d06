/-!
The inside of a JSON string literal, as bytes between the quotes. Escapes stand
for the UTF-8 bytes of their character; the result is a text if all its bytes
together are UTF-8.
-/
namespace Headroom.Json

/-- The value of a hexadecimal digit. -/
def hexDigit? (b : UInt8) : Option Nat :=
  let n := b.toNat
  if 48 ≤ n ∧ n ≤ 57 then some (n - 48)
  else if 97 ≤ n ∧ n ≤ 102 then some (n - 87)
  else if 65 ≤ n ∧ n ≤ 70 then some (n - 55)
  else none

/-- The unit written by four hexadecimal digits. -/
def codeUnit? (a b c d : UInt8) : Option Nat := do
  return (((← hexDigit? a) * 16 + (← hexDigit? b)) * 16 + (← hexDigit? c)) * 16 + (← hexDigit? d)

/-- The byte that a one-letter escape stands for. -/
def shortEscape? (b : UInt8) : Option UInt8 :=
  match b with
  | 34 => some 34
  | 92 => some 92
  | 47 => some 47
  | 98 => some 8
  | 102 => some 12
  | 110 => some 10
  | 114 => some 13
  | 116 => some 9
  | _ => none

/-- Replace every escape by its bytes, onto the reversed bytes `done`. A leading
surrogate must be followed by an escaped trailing one, and a trailing one alone
is refused. -/
def expand (done : List UInt8) : List UInt8 → Option (List UInt8)
  | [] => some done.reverse
  | 92 :: 117 :: a :: b :: c :: d :: rest =>
    match codeUnit? a b c d with
    | none => none
    | some unit =>
      if 0xD800 ≤ unit ∧ unit < 0xDC00 then
        match rest with
        | 92 :: 117 :: e :: f :: g :: h :: rest =>
          match codeUnit? e f g h with
          | none => none
          | some low =>
            if 0xDC00 ≤ low ∧ low < 0xE000 then
              let point := 0x10000 + (unit - 0xD800) * 0x400 + (low - 0xDC00)
              expand ((String.utf8EncodeChar (Char.ofNat point)).reverse ++ done) rest
            else none
        | _ => none
      else if 0xDC00 ≤ unit ∧ unit < 0xE000 then none
      else expand ((String.utf8EncodeChar (Char.ofNat unit)).reverse ++ done) rest
  | 92 :: escape :: rest =>
    match shortEscape? escape with
    | some byte => expand (byte :: done) rest
    | none => none
  | [92] => none
  | byte :: rest => expand (byte :: done) rest

/-- The text of a literal, if it is one. -/
def literalText? (body : List UInt8) : Option String :=
  (expand [] body).bind fun bytes => String.fromUTF8? ⟨bytes.toArray⟩

end Headroom.Json
