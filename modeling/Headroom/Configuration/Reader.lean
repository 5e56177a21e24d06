import Headroom.Configuration.Value

/-!
Settings of a known type, out of values. Texts, numbers and truth values are
converted into one another where that makes sense, a group of settings is a table
or a list in order, and names of choices are read in any case.
-/
namespace Headroom.Configuration

/-- A reader of one type; `none` when the value cannot be converted. -/
abbrev Reader (α : Type) := Value → Option α

/-- The words that stand for a truth value. -/
def wordTruth? (word : String) : Option Bool :=
  match Text.lower word with
  | "true" | "on" | "yes" => some true
  | "false" | "off" | "no" => some false
  | _ => none

namespace Reader

/-- A text, or a number or truth value written as one. -/
def text : Reader String
  | .text value => some value
  | .bool value => some (if value then "true" else "false")
  | .integer value => some (toString value)
  | .float value => some (Decimal.plain value)
  | _ => none

/-- A truth value. A number is true unless it is zero. -/
def bool : Reader Bool
  | .bool value => some value
  | .integer value => some (value != 0)
  | .float value => some (value != 0)
  | .text word =>
    match word with
    | "1" => some true
    | "0" => some false
    | _ => wordTruth? word
  | _ => none

/-- A count of at most 64 bits. Other numbers are rounded, a half away from zero,
and brought into that range. -/
def count : Reader Nat
  | .integer value => if value < 0 then none else some value.toNat
  | .float value => some value.round.toUInt64.toNat
  | .bool value => some value.toNat
  | .text word =>
    match wordTruth? word with
    | some value => some value.toNat
    | none => (Value.readInteger? 0 UInt64.size word).map Int.toNat
  | _ => none

/-- A count below a bound. -/
def countBelow (bound : Nat) : Reader Nat := fun value =>
  (count value).filter (· < bound)

def uint16 : Reader UInt16 := fun value => (countBelow UInt16.size value).map Nat.toUInt16

def uint32 : Reader UInt32 := fun value => (countBelow UInt32.size value).map Nat.toUInt32

def float : Reader Float
  | .float value => some value
  | .integer value => some (Float.ofInt value)
  | .bool value => some (if value then 1 else 0)
  | .text word =>
    match wordTruth? word with
    | some value => some (if value then 1 else 0)
    | none => Decimal.readFloat? word
  | _ => none

/-- Nothing, or the value. -/
def optional {α : Type} (read : Reader α) : Reader (Option α)
  | .nothing => some none
  | value => (read value).map some

/-- A name out of a list of spellings in lower case, or a table whose only key is
such a name. -/
def choice {α : Type} (spellings : List (String × α)) : Reader α
  | .text name => spellings.lookup (Text.lower name)
  | .table [(name, _)] => spellings.lookup (Text.lower name)
  | _ => none

end Reader

/-- The settings of one group by key; a list gives them in the order of the keys,
and what it has beyond them is not used. -/
def group? (keys : List String) : Value → Option (List (String × Value))
  | .table members => some members
  | .list items => some (keys.zip items)
  | _ => none

/-- A setting that must be there. -/
def required {α : Type} (settings : List (String × Value)) (key : String) (read : Reader α) :
    Option α :=
  (settings.lookup key).bind read

/-- A setting with a value to use when it is absent. -/
def defaulted {α : Type} (settings : List (String × Value)) (key : String) (value : α)
    (read : Reader α) : Option α :=
  match settings.lookup key with
  | some found => read found
  | none => some value

end Headroom.Configuration
