/-!
JSON values as a program keeps them: numbers are whole or binary64, strings are
Unicode text, and an object is a list of members with distinct keys.
-/
namespace Headroom

/-- A number that was written as a whole number of at most 64 bits, or any other. -/
inductive Json.Number where
  | integer (value : Int)
  | float (value : Float)
  deriving DecidableEq, Repr

inductive Json where
  | null
  | bool (value : Bool)
  | number (value : Json.Number)
  | string (value : String)
  | array (items : List Json)
  | object (members : List (String × Json))
  deriving Repr, Inhabited

namespace Json

/-- A whole number as a value. -/
def integer (n : Int) : Json := .number (.integer n)

/-- A binary64 number as a value. -/
def float (x : Float) : Json := .number (.float x)

/-- A count as a value. -/
def count (n : Nat) : Json := .integer n

/-- A text, or null when there is none. -/
def optionalString : Option String → Json
  | some text => .string text
  | none => .null

/-- Add a member; an earlier member of the same key gives way and keeps its place. -/
def insertMember (members : List (String × Json)) (key : String) (value : Json) :
    List (String × Json) :=
  if members.any (·.1 == key) then
    members.map fun member => if member.1 == key then (key, value) else member
  else members ++ [(key, value)]

/-- The member of an object; other values have none. -/
def member? (key : String) : Json → Option Json
  | .object members => (members.find? (·.1 == key)).map (·.2)
  | _ => none

/-- The item of an array; other values have none. -/
def item? (index : Nat) : Json → Option Json
  | .array items => items[index]?
  | _ => none

def string? : Json → Option String
  | .string text => some text
  | _ => none

def Number.toFloat : Number → Float
  | .integer n => Float.ofInt n
  | .float x => x

def Number.int64? : Number → Option Int64
  | .integer n => if -Nat.pow 2 63 ≤ n ∧ n < Nat.pow 2 63 then some (Int64.ofInt n) else none
  | .float _ => none

def float? : Json → Option Float
  | .number n => some n.toFloat
  | _ => none

def int64? : Json → Option Int64
  | .number n => n.int64?
  | _ => none

def isObject : Json → Bool
  | .object _ => true
  | _ => false

end Json
end Headroom
