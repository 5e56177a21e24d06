import Headroom.Decimal.Reading
import Headroom.Json.Literal

/-!
The tokens of a JSON text. Bytes are read one at a time by a small machine, so
the whole pass is a fold; at the first byte that can start or continue no token
it stops, and the list of tokens ends there with `broken`.

A literal is accepted when its escapes are well formed. Whether it is also a
Unicode text is kept as part of the token, because a text that is skipped need
not be one.
-/
namespace Headroom.Json

/-- A number as it is kept of its text: the digits that a word of 64 bits holds, times a power
of ten. `whole` says that it was written with neither point nor exponent, and that no digit was
left out. -/
structure Numeral where
  negative : Bool
  significand : UInt64
  exponent : Int
  whole : Bool
  deriving DecidableEq, Repr

inductive Token where
  | openArray | closeArray | openObject | closeObject | comma | colon
  | null
  | bool (value : Bool)
  | number (value : Numeral)
  | string (text : Option String)
  | broken
  deriving DecidableEq, Repr

/-- Append digits to a number as long as it stays below 2 ^ 64; the first digit that does not fit
is left, with all that follow it. -/
def gather (start : UInt64) : List Nat → UInt64 × List Nat
  | [] => (start, [])
  | d :: rest =>
    if 10 * start.toNat + d < UInt64.size then gather (10 * start.toNat + d).toUInt64 rest
    else (start, d :: rest)

/-- A numeral of its digits before and behind the point. Where those before it do not all fit,
each of the others counts as a power of ten; behind the point gathering goes on, and the digits
that do not fit are dropped. -/
def Numeral.ofDigits (negative : Bool) (digits fraction : List Nat) (exponent : Int)
    (plain : Bool) : Numeral :=
  let (significand, left) := gather 0 digits
  let (significand, dropped) := gather significand fraction
  { negative
    significand
    exponent := exponent + left.length - (fraction.length - dropped.length)
    whole := plain && left.isEmpty }

/-- A numeral without its sign, of which the first digits have been spanned: no needless leading
zero, and digits on both sides of a point. -/
def Numeral.ofSpan? (negative : Bool) : List Nat × List Char → Option Numeral
  | ([], _) => none
  | (0 :: _ :: _, _) => none
  | (digits, []) => some (ofDigits negative digits [] 0 true)
  | (digits, '.' :: rest) =>
    match Decimal.spanDigits rest with
    | ([], _) => none
    | (fraction, rest) => (Decimal.exponent? rest).map fun exponent =>
      ofDigits negative digits fraction exponent false
  | (digits, rest) => (Decimal.exponent? rest).map fun exponent =>
    ofDigits negative digits [] exponent false

/-- The numeral that a text is. -/
def Numeral.ofText? : List Char → Option Numeral
  | '-' :: rest => ofSpan? true (Decimal.spanDigits rest)
  | text => ofSpan? false (Decimal.spanDigits text)

/-- The token written by a run of letters, digits, signs and points. -/
def Token.ofWord (word : List UInt8) : Token :=
  let text := word.map fun b => Char.ofNat b.toNat
  match String.ofList text with
  | "null" => .null
  | "true" => .bool true
  | "false" => .bool false
  | _ =>
    match Numeral.ofText? text with
    | some n => .number n
    | none => .broken

/-- Where the machine stands; bytes collected so far are kept newest first. -/
inductive Lexing where
  | ready
  | word (bytes : List UInt8)
  | literal (bytes : List UInt8)
  | escape (bytes : List UInt8)
  | hex (missing : Nat) (bytes : List UInt8)
  | broken
  deriving DecidableEq, Repr

/-- Letters, digits, the two signs and the point. -/
def isWordByte (b : UInt8) : Bool :=
  let n := b.toNat
  (48 ≤ n && n ≤ 57) || (65 ≤ n && n ≤ 90) || (97 ≤ n && n ≤ 122) || n == 43 || n == 45 || n == 46

/-- Take a byte that starts something new. -/
def Lexing.start (b : UInt8) : Lexing × List Token :=
  match b with
  | 0x20 | 0x09 | 0x0A | 0x0D => (.ready, [])
  | 0x22 => (.literal [], [])
  | 0x2C => (.ready, [.comma])
  | 0x3A => (.ready, [.colon])
  | 0x5B => (.ready, [.openArray])
  | 0x5D => (.ready, [.closeArray])
  | 0x7B => (.ready, [.openObject])
  | 0x7D => (.ready, [.closeObject])
  | b => if isWordByte b then (.word [b], []) else (.broken, [.broken])

/-- One byte: the new place, and the tokens that it completes. -/
def Lexing.step (b : UInt8) : Lexing → Lexing × List Token
  | .ready => start b
  | .word bytes =>
    if isWordByte b then (.word (b :: bytes), [])
    else
      match Token.ofWord bytes.reverse with
      | .broken => (.broken, [.broken])
      | token =>
        let (next, tokens) := start b
        (next, token :: tokens)
  | .literal bytes =>
    if b = 0x22 then (.ready, [.string (literalText? bytes.reverse)])
    else if b = 0x5C then (.escape (b :: bytes), [])
    else if b < 0x20 then (.broken, [.broken])
    else (.literal (b :: bytes), [])
  | .escape bytes =>
    if b = 0x75 then (.hex 4 (b :: bytes), [])
    else if (shortEscape? b).isSome then (.literal (b :: bytes), [])
    else (.broken, [.broken])
  | .hex missing bytes =>
    if (hexDigit? b).isSome then
      if missing ≤ 1 then (.literal (b :: bytes), []) else (.hex (missing - 1) (b :: bytes), [])
    else (.broken, [.broken])
  | .broken => (.broken, [])

/-- What the end of the text completes; an open literal is broken off. -/
def Lexing.finish : Lexing → List Token
  | .ready => []
  | .word bytes => [Token.ofWord bytes.reverse]
  | .literal _ | .escape _ | .hex _ _ => [.broken]
  | .broken => []

/-- The tokens of a text, onto the reversed tokens `done`. -/
def tokensFrom (place : Lexing) (done : List Token) : List UInt8 → List Token
  | [] => (place.finish.reverse ++ done).reverse
  | b :: rest =>
    let (next, tokens) := place.step b
    tokensFrom next (tokens.reverse ++ done) rest

/-- The tokens of a text. -/
def tokens (bytes : List UInt8) : List Token := tokensFrom .ready [] bytes

end Headroom.Json
