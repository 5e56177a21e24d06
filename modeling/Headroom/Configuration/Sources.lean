import Headroom.Configuration.Toml
import Headroom.Configuration.Yaml
import Headroom.Json.Raw

/-!
Where settings come from: a file in the format that its name tells, and the
environment's variables.
-/
namespace Headroom.Configuration

/-- A file by name; one without content does not exist. -/
structure File where
  name : String
  content : Option String
  deriving DecidableEq, Repr

/-- The part of a file name after its last point; a point at the front begins the
name itself. -/
def extension? (name : String) : Option String :=
  match Text.parts '.' name with
  | [_] | ["", _] => none
  | parts => parts.getLast?

/-- A text without a byte order mark. -/
def withoutMark (text : String) : String :=
  match text.toList with
  | c :: rest => if c.toNat = 0xFEFF then String.ofList rest else text
  | [] => text

/-- The table in a file; `none` if the file cannot be read, is of no known format,
or holds anything else. -/
def File.table? (file : File) : Option (List (String × Value)) := do
  let text := withoutMark (← file.content)
  match ← extension? file.name with
  | "json" =>
    match Value.ofJson (← Json.ofString? text) with
    | .table members => return members
    | _ => none
  | "toml" => Toml.read? text
  | "yaml" | "yml" =>
    match ← Yaml.read? text with
    | .table members => return members
    | _ => none
  | _ => none

/-- The key that a name stands for: two underscores are the point between two keys. -/
def nestedKey : List Char → List Char
  | '_' :: '_' :: rest => '.' :: nestedKey rest
  | c :: rest => c :: nestedKey rest
  | [] => []

/-- The variables whose names begin so, in any case, by the rest of their names. Two
underscores part the keys of nested tables. -/
def fromEnvironment (start : String) (environment : List (String × String)) :
    List (String × Value) :=
  environment.filterMap fun (name, text) =>
    let name := (Text.lower name).toList
    if start.toList.isPrefixOf name then
      some (String.ofList (nestedKey (name.drop start.length)), Value.ofText text)
    else none

/-- The variables of exactly these names, as texts under their keys; of two
variables for one key the later in the list counts. -/
def fromNames (names : List (String × String)) (environment : List (String × String)) :
    List (String × Value) :=
  names.filterMap fun (name, key) =>
    (environment.lookup name).map fun text => (key, Value.text text)

end Headroom.Configuration
