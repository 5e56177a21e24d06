import Headroom.Json.Basic
import Headroom.Json.Token

/-!
A JSON text as written: repeated keys, numbers of any magnitude and texts that are
no Unicode are all still there, and nesting has no limit. What a program keeps of
it is decided later, by `Raw.toJson?` for free-form values and by the readers
of `Headroom.Json.Members` for values of a known shape.

A float is made of a numeral by arithmetic on floats: the digits that were gathered are
rounded to one, and multiplied or divided by powers of ten, with a rounding at each step.
So it need not be the float nearest to what was written, and a product beyond the finite
range is refused, also where that nearest float is the largest one.
-/
namespace Headroom.Json

/-- The tree of a well-formed text; a text that is no Unicode is `none`. -/
inductive Raw where
  | null
  | bool (value : Bool)
  | number (value : Numeral)
  | string (text : Option String)
  | array (items : List Raw)
  | object (members : List (Option String × Raw))
  deriving Repr, Inhabited

/-- An array or object that is still open, with what it holds so far, newest first. -/
inductive Frame where
  | items (done : List Raw)
  | members (done : List (Option String × Raw)) (key : Option String)
  deriving Repr

/-- What may come next, below the open arrays and objects of `outer`. -/
inductive Building where
  | expectValue (outer : List Frame)
  | expectItem (outer : List Frame)
  | expectMember (outer : List Frame)
  | expectKey (done : List (Option String × Raw)) (outer : List Frame)
  | expectColon (done : List (Option String × Raw)) (key : Option String) (outer : List Frame)
  | complete (value : Raw) (outer : List Frame)
  deriving Repr

/-- Take a token where a value must come. -/
def Building.begin (outer : List Frame) : Token → Option Building
  | .null => some (.complete .null outer)
  | .bool value => some (.complete (.bool value) outer)
  | .number value => some (.complete (.number value) outer)
  | .string text => some (.complete (.string text) outer)
  | .openArray => some (.expectItem outer)
  | .openObject => some (.expectMember outer)
  | _ => none

/-- One token; `none` when the text is not well formed. -/
def Building.step (token : Token) : Building → Option Building
  | .expectValue outer => begin outer token
  | .expectItem outer =>
    match token with
    | .closeArray => some (.complete (.array []) outer)
    | token => begin (.items [] :: outer) token
  | .expectMember outer =>
    match token with
    | .closeObject => some (.complete (.object []) outer)
    | .string key => some (.expectColon [] key outer)
    | _ => none
  | .expectKey done outer =>
    match token with
    | .string key => some (.expectColon done key outer)
    | _ => none
  | .expectColon done key outer =>
    match token with
    | .colon => some (.expectValue (.members done key :: outer))
    | _ => none
  | .complete _ [] => none
  | .complete value (.items done :: outer) =>
    match token with
    | .comma => some (.expectValue (.items (value :: done) :: outer))
    | .closeArray => some (.complete (.array (value :: done).reverse) outer)
    | _ => none
  | .complete value (.members done key :: outer) =>
    match token with
    | .comma => some (.expectKey ((key, value) :: done) outer)
    | .closeObject => some (.complete (.object ((key, value) :: done).reverse) outer)
    | _ => none

/-- Build on through all tokens. -/
def Building.run : Building → List Token → Option Building
  | state, [] => some state
  | state, token :: rest => (state.step token).bind fun next => next.run rest

/-- The value, if it is complete. -/
def Building.result? : Building → Option Raw
  | .complete value [] => some value
  | _ => none

/-- Read a text that holds one value and nothing else. -/
def Raw.ofBytes? (bytes : List UInt8) : Option Raw :=
  ((Building.expectValue []).run (tokens bytes)).bind Building.result?

def Raw.ofString? (text : String) : Option Raw := Raw.ofBytes? text.toUTF8.toList

/-- The largest power of ten that is a float. -/
def largestPower : Nat := 308

/-- A power of ten, up to the largest. -/
def powerOfTen (exponent : Nat) : Float := Float.ofScientific 1 false exponent

/-- Divide by the largest power of ten so many times, unless nothing is left before, and then
by one more power. -/
def divided (x : Float) (last : Nat) : (times : Nat) → Float
  | 0 => x / powerOfTen last
  | times + 1 => if x == 0 then x else divided (x / powerOfTen largestPower) last times

/-- The magnitude of a numeral as a float, unless it is beyond the finite range. -/
def Numeral.magnitude? (n : Numeral) : Option Float :=
  let x := n.significand.toFloat
  let places := n.exponent.natAbs
  if n.exponent < 0 then
    let times := (places - 1) / largestPower
    some (divided x (places - times * largestPower) times)
  else if places ≤ largestPower then
    let y := x * powerOfTen places
    if y.isInf then none else some y
  else if x == 0 then some x
  else none

/-- The value of a number. Whole numbers of at most 64 bits stay whole, but minus
zero is a float; a float beyond the finite range is refused. -/
def Numeral.toNumber? (n : Numeral) : Option Number :=
  let value : Int := if n.negative then -n.significand.toNat else n.significand.toNat
  if n.whole ∧ ¬(n.negative ∧ n.significand = 0) ∧ -Nat.pow 2 63 ≤ value then
    some (.integer value)
  else n.magnitude?.map fun x => .float (if n.negative then -x else x)

/-- How deeply arrays and objects may nest in a free-form value. -/
def depthLimit : Nat := 127

mutual
/-- The free-form value: the last of repeated members counts, and at most `depth`
arrays and objects may be nested. -/
def Raw.toJsonWithin? (depth : Nat) : Raw → Option Json
  | .null => some .null
  | .bool value => some (.bool value)
  | .number n => n.toNumber?.map .number
  | .string text => text.map .string
  | .array items =>
    if depth = 0 then none else (itemsWithin? (depth - 1) items).map .array
  | .object members =>
    if depth = 0 then none
    else (membersWithin? (depth - 1) members).map fun pairs =>
      .object (pairs.foldl (fun kept pair => insertMember kept pair.1 pair.2) [])

def itemsWithin? (depth : Nat) : List Raw → Option (List Json)
  | [] => some []
  | item :: rest => do
    let value ← item.toJsonWithin? depth
    let values ← itemsWithin? depth rest
    return value :: values

def membersWithin? (depth : Nat) : List (Option String × Raw) → Option (List (String × Json))
  | [] => some []
  | (key, item) :: rest => do
    let key ← key
    let value ← item.toJsonWithin? depth
    let values ← membersWithin? depth rest
    return (key, value) :: values
end

def Raw.toJson? (tree : Raw) : Option Json := tree.toJsonWithin? depthLimit

/-- Read a free-form value. -/
def ofBytes? (bytes : List UInt8) : Option Json := (Raw.ofBytes? bytes).bind Raw.toJson?

/-- Read a free-form value from a text. -/
def ofString? (text : String) : Option Json := ofBytes? text.toUTF8.toList

/-- What is read of a text is what is kept of its tree. -/
theorem ofString?_of_raw {text : String} {tree : Raw} (written : Raw.ofString? text = some tree) :
    ofString? text = tree.toJson? := by
  unfold Raw.ofString? at written
  rw [ofString?, ofBytes?, written, Option.bind_some]

end Headroom.Json
