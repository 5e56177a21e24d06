import Headroom.Decimal.Reading
import Headroom.Decimal.Shortest
import Headroom.Json.Basic
import Headroom.Text.Case
import Headroom.Text.Cut

/-!
Settings before they have types. A value can be put under a key of a table that
other sources have filled before: tables are merged key by key, and anything else
takes the place of what was there. A value is converted where the setting it is
meant for has another type, as far as its text or number allows.
-/
namespace Headroom.Configuration

inductive Value where
  | nothing
  | bool (value : Bool)
  /-- A whole number of 64 bits with a sign. -/
  | integer (value : Int)
  | float (value : Float)
  | text (value : String)
  | list (items : List Value)
  | table (members : List (String × Value))
  deriving Repr, Inhabited

namespace Value

/-- The members of a table; other values have none. -/
def members : Value → List (String × Value)
  | table members => members
  | _ => []

/-- The member of a table. -/
def member? (value : Value) (key : String) : Option Value := value.members.lookup key

/-- The table with a member put in place; a value that is no table gives way. -/
def withMember (target : Value) (key : String) (value : Value) : Value :=
  let members := target.members
  if members.any (·.1 == key) then
    table (members.map fun member => if member.1 == key then (key, value) else member)
  else table (members ++ [(key, value)])

mutual
/-- Put a value under a key, whatever its case. -/
def put (target : Value) (key : String) : Value → Value
  | table incoming =>
    let key := Text.lower key
    target.withMember key (putAll ((target.member? key).getD (table [])) incoming)
  | value => target.withMember (Text.lower key) value

/-- Put all members of a table under their keys. -/
def putAll (target : Value) : List (String × Value) → Value
  | [] => target
  | (key, value) :: rest => putAll (put target key value) rest
end

/-- Put a value under a path of keys; what stands in the way of the path gives way
to tables. -/
def putAt (target : Value) (value : Value) : List String → Value
  | [] => target
  | [key] => target.put key value
  | key :: rest =>
    let key := Text.lower key
    target.withMember key (putAt ((target.member? key).getD nothing) value rest)

/-- The characters of a key that can be part of a path. -/
def isPathChar (c : Char) : Bool := c.isAlphanum || c == '_' || c == '-' || c == ' '

/-- The path that a key stands for: its parts between points, or the whole key
where that makes no path. -/
def path (key : String) : List String :=
  let parts := Text.parts '.' key
  if parts.all fun part => !part.isEmpty && part.all isPathChar then parts else [key]

/-- Put a source's members in place, with keys that may be paths. -/
def layer (target : Value) (source : List (String × Value)) : Value :=
  source.foldl (fun target member => target.putAt member.2 (path member.1)) target

/-- The whole number that a text stands for, within bounds. Only a number that may
be negative may have a minus. -/
def readInteger? (low high : Int) (text : String) : Option Int :=
  let (negative, digits) := Decimal.takeSign text.toList
  if negative ∧ low = 0 then none
  else
    match Decimal.spanDigits digits with
    | ([], _) => none
    | (digits, []) =>
      let magnitude : Int := Decimal.digitsValue 0 digits
      let value := if negative then -magnitude else magnitude
      if low ≤ value ∧ value < high then some value else none
    | _ => none

/-- What a text stands for: a truth value, a whole number, any other number, or
itself, whichever fits first. -/
def ofText (text : String) : Value :=
  match Text.lower text with
  | "true" => bool true
  | "false" => bool false
  | _ =>
    match readInteger? (-Nat.pow 2 63) (Nat.pow 2 63) text with
    | some value => integer value
    | none =>
      match Decimal.readFloat? text with
      | some value => float value
      | none => .text text

mutual
def ofJson : Json → Value
  | .null => nothing
  | .bool value => bool value
  | .number (.integer value) =>
    if value < Nat.pow 2 63 then integer value else float (Float.ofInt value)
  | .number (.float value) => float value
  | .string value => text value
  | .array items => list (ofItems items)
  | .object members => table (ofMembers members)

def ofItems : List Json → List Value
  | [] => []
  | item :: rest => ofJson item :: ofItems rest

def ofMembers : List (String × Json) → List (String × Value)
  | [] => []
  | (key, value) :: rest => (key, ofJson value) :: ofMembers rest
end

end Value
end Headroom.Configuration
