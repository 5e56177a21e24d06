import Headroom.Json.Raw

/-!
Reading values of a known shape. A structure is an object of its members, or an
array of them in order; a named choice is its name, or an object of its name and
null. In an object a known key may come once, and other members are skipped
unread; in an array, members that have a default may be left out at the end.
-/
namespace Headroom.Json

/-- A reader of one shape; `none` when the value has another. -/
abbrev Reader (α : Type) := Raw → Option α

namespace Reader

def string : Reader String
  | .string text => text
  | _ => none

def bool : Reader Bool
  | .bool value => some value
  | _ => none

/-- A whole number from `low` up to, and not including, `high`. -/
def integer (low high : Int) : Reader Int
  | .number n =>
    match n.toNumber? with
    | some (.integer value) => if low ≤ value ∧ value < high then some value else none
    | _ => none
  | _ => none

def uint32 : Reader UInt32 := fun tree => (integer 0 UInt32.size tree).map fun n => n.toNat.toUInt32

def uint64 : Reader Nat := fun tree => (integer 0 UInt64.size tree).map Int.toNat

def int64 : Reader Int64 := fun tree =>
  (integer (-Nat.pow 2 63) (Nat.pow 2 63) tree).map Int64.ofInt

/-- Any number that has a value. -/
def float : Reader Float
  | .number n => n.toNumber?.map Number.toFloat
  | _ => none

/-- Null, or the value. -/
def optional {α : Type} (read : Reader α) : Reader (Option α)
  | .null => some none
  | tree => (read tree).map some

def list {α : Type} (read : Reader α) : Reader (List α)
  | .array items => items.mapM read
  | _ => none

/-- A name out of a list of spellings. -/
def choice {α : Type} (spellings : List (String × α)) : Reader α
  | .string (some name) => spellings.lookup name
  | .object [(some name, .null)] => spellings.lookup name
  | _ => none

end Reader

/-- The members of one structure, found by key. `keyed` says that they came as an
object, where any member may be absent; in an array a member is absent when the
array ends before it. -/
structure Members where
  keyed : Bool
  values : List (String × Raw)

/-- Collect the known members of an object; a key that comes twice is refused. -/
def Members.collect (keys : List String) :
    List (Option String × Raw) → Option (List (String × Raw))
  | [] => some []
  | (none, _) :: _ => none
  | (some key, value) :: rest =>
    (collect keys rest).bind fun known =>
      if key ∈ keys then
        if known.any (·.1 == key) then none else some ((key, value) :: known)
      else some known

/-- The members of a structure with these keys, in this order. -/
def Members.of? (keys : List String) : Raw → Option Members
  | .object members => (collect keys members).map fun values => ⟨true, values⟩
  | .array items => if items.length ≤ keys.length then some ⟨false, keys.zip items⟩ else none
  | _ => none

def Members.find? (m : Members) (key : String) : Option Raw :=
  m.values.lookup key

/-- A member that must be there. -/
def Members.required {α : Type} (m : Members) (key : String) (read : Reader α) : Option α :=
  (m.find? key).bind read

/-- A member that may be absent or null in an object, and null in an array. -/
def Members.nullable {α : Type} (m : Members) (key : String) (read : Reader α) :
    Option (Option α) :=
  match m.find? key with
  | some tree => Reader.optional read tree
  | none => if m.keyed then some none else none

/-- A member with a value to use when it is absent. -/
def Members.defaulted {α : Type} (m : Members) (key : String) (value : α) (read : Reader α) :
    Option α :=
  match m.find? key with
  | some tree => read tree
  | none => some value

end Headroom.Json
