import Headroom.Decimal.Shortest
import Headroom.Json.Basic

/-!
Writing JSON: compact on one line, or indented by two spaces with one member or
item a line.
-/
namespace Headroom.Json

/-- The lower-case hexadecimal digit of a number below sixteen. -/
def hexLetter (n : Nat) : Char :=
  Char.ofNat (if n < 10 then 48 + n else 87 + n)

/-- A character inside a literal. -/
def escapeChar (c : Char) : List Char :=
  match c with
  | '\x22' => ['\x5c', '\x22']
  | '\x5c' => ['\x5c', '\x5c']
  | '\x08' => ['\x5c', 'b']
  | '\x0c' => ['\x5c', 'f']
  | '\n' => ['\x5c', 'n']
  | '\r' => ['\x5c', 'r']
  | '\t' => ['\x5c', 't']
  | c =>
    if c.toNat < 0x20 then
      ['\x5c', 'u', '0', '0', hexLetter (c.toNat / 16), hexLetter (c.toNat % 16)]
    else [c]

/-- A text as a literal, with its quotes. -/
def quote (text : String) : String :=
  String.ofList ('\x22' :: text.toList.flatMap escapeChar ++ ['\x22'])

def Number.render : Number → String
  | .integer n => toString n
  | .float x => Decimal.jsonNotation x

mutual
/-- The value on one line, without blanks. -/
def render : Json → String
  | .null => "null"
  | .bool value => if value then "true" else "false"
  | .number n => n.render
  | .string text => quote text
  | .array [] => "[]"
  | .array (item :: rest) => "[" ++ item.render ++ renderItems rest ++ "]"
  | .object [] => "\x7b\x7d"
  | .object ((key, value) :: rest) =>
    "\x7b" ++ quote key ++ ":" ++ value.render ++ renderMembers rest ++ "\x7d"

def renderItems : List Json → String
  | [] => ""
  | item :: rest => "," ++ item.render ++ renderItems rest

def renderMembers : List (String × Json) → String
  | [] => ""
  | (key, value) :: rest => "," ++ quote key ++ ":" ++ value.render ++ renderMembers rest
end

/-- The start of a line at a nesting depth. -/
def lineStart (depth : Nat) : String := "\n" ++ "".pushn ' ' (2 * depth)

mutual
/-- The value over several lines, from a nesting depth on. -/
def renderLines (depth : Nat) : Json → String
  | .array (item :: rest) =>
    "[" ++ lineStart (depth + 1) ++ item.renderLines (depth + 1) ++
      renderItemLines (depth + 1) rest ++ lineStart depth ++ "]"
  | .object ((key, value) :: rest) =>
    "\x7b" ++ lineStart (depth + 1) ++ quote key ++ ": " ++ value.renderLines (depth + 1) ++
      renderMemberLines (depth + 1) rest ++ lineStart depth ++ "\x7d"
  | .null => render .null
  | .bool value => render (.bool value)
  | .number n => render (.number n)
  | .string text => render (.string text)
  | .array [] => render (.array [])
  | .object [] => render (.object [])

def renderItemLines (depth : Nat) : List Json → String
  | [] => ""
  | item :: rest => "," ++ lineStart depth ++ item.renderLines depth ++ renderItemLines depth rest

def renderMemberLines (depth : Nat) : List (String × Json) → String
  | [] => ""
  | (key, value) :: rest =>
    "," ++ lineStart depth ++ quote key ++ ": " ++ value.renderLines depth ++
      renderMemberLines depth rest
end

/-- The value over several lines. -/
def pretty (value : Json) : String := value.renderLines 0

end Headroom.Json
