import Headroom.Configuration.Sources

/-!
Where a member of a source ends up. Every member goes under one key of the table at the top:
what it puts there depends on what was under that key before and on nothing else
(`putAt_path`), so that what a table holds under a key after a source is made of the members
for that key alone, in their order (`member?_layer`).
-/
namespace Headroom.Configuration

namespace Value

/-- The members with the one under a key replaced. -/
def replaced (key : String) (value : Value) (members : List (String × Value)) :
    List (String × Value) :=
  members.map fun member => if member.1 == key then (key, value) else member

theorem lookup_replaced_self {key : String} (value : Value) {members : List (String × Value)}
    (present : members.any (·.1 == key)) :
    (replaced key value members).lookup key = some value := by
  induction members with
  | nil => cases present
  | cons member rest ih =>
    rw [replaced, List.map_cons, ← replaced]
    by_cases here : member.1 == key
    · rw [if_pos here, List.lookup_cons, beq_self_eq_true]
    · rw [List.any_cons, Bool.or_eq_true] at present
      have apart : (key == member.1) = false := by
        rw [beq_eq_false_iff_ne]
        exact fun same => here (beq_iff_eq.mpr same.symm)
      rw [if_neg here, List.lookup_cons, apart]
      exact ih (present.resolve_left here)

theorem lookup_replaced_other {key k : String} (other : k ≠ key) (value : Value)
    (members : List (String × Value)) :
    (replaced key value members).lookup k = members.lookup k := by
  induction members with
  | nil => rfl
  | cons member rest ih =>
    rw [replaced, List.map_cons, ← replaced]
    by_cases here : member.1 == key
    · have apart : (k == member.1) = false := by
        rw [beq_eq_false_iff_ne, beq_iff_eq.mp here]
        exact other
      rw [if_pos here, List.lookup_cons, List.lookup_cons, apart, beq_false_of_ne other, ih]
    · rw [if_neg here, List.lookup_cons, List.lookup_cons, ih]

theorem lookup_concat (members : List (String × Value)) (key k : String) (value : Value) :
    (members ++ [(key, value)]).lookup k =
      (members.lookup k).or (if k = key then some value else none) := by
  rw [List.lookup_append, List.lookup_cons, List.lookup_nil]
  by_cases same : k = key
  · rw [if_pos same, beq_iff_eq.mpr same]
  · rw [if_neg same, beq_false_of_ne same]

/-- Putting a member in place changes what is under its key and nothing else. -/
@[simp] theorem member?_withMember (target : Value) (key : String) (value : Value) (k : String) :
    (target.withMember key value).member? k = if k = key then some value else target.member? k := by
  unfold withMember member?
  simp only
  split
  · rename_i present
    change (replaced key value target.members).lookup k = _
    by_cases same : k = key
    · rw [if_pos same, same, lookup_replaced_self value present]
    · rw [if_neg same, lookup_replaced_other same]
  · rename_i absent
    change (target.members ++ [(key, value)]).lookup k = _
    rw [lookup_concat]
    by_cases same : k = key
    · have none : target.members.lookup key = none := by
        rw [List.lookup_eq_none_iff]
        intro member found
        have apart := List.any_eq_false.mp (eq_false_of_ne_true absent) member found
        exact bne_iff_ne.mpr fun same => apart (beq_iff_eq.mpr same.symm)
      rw [if_pos same, if_pos same, same, none]
      rfl
    · rw [if_neg same, if_neg same, Option.or_none]

theorem cutAt_ne_nil (separates : Char → Bool) (text : List Char) :
    Text.cutAt separates text ≠ [] := by
  cases text with
  | nil => exact List.cons_ne_nil _ _
  | cons c rest =>
    rw [Text.cutAt, List.foldr_cons]
    split
    · exact List.cons_ne_nil _ _
    · split <;> exact List.cons_ne_nil _ _

theorem path_ne_nil (key : String) : path key ≠ [] := by
  unfold path
  simp only
  split
  · rw [Text.parts, ne_eq, List.map_eq_nil_iff]
    exact cutAt_ne_nil _ _
  · exact List.cons_ne_nil _ _

/-- The key of the table at the top that a member with a key goes under. -/
def topKey (key : String) : String := Text.lower ((path key).headD key)

/-- What stands under a member's top key after it, by what stood there before. -/
def settled (member : String × Value) (held : Option Value) : Value :=
  match (path member.1).tail, member.2 with
  | [], table incoming => putAll (held.getD (table [])) incoming
  | [], value => value
  | below, value => putAt (held.getD nothing) value below

/-- A member changes the table under its top key only, whatever else the table holds. -/
theorem putAt_path (target : Value) (member : String × Value) :
    target.putAt member.2 (path member.1) =
      target.withMember (topKey member.1) (settled member (target.member? (topKey member.1))) := by
  obtain ⟨key, value⟩ := member
  unfold settled topKey
  cases found : path key with
  | nil => exact absurd found (path_ne_nil key)
  | cons first below =>
    cases below with
    | nil => cases value <;> rfl
    | cons next rest => cases value <;> rfl

/-- What members for one key make of what stood there. -/
def settledAll (members : List (String × Value)) (held : Option Value) : Option Value :=
  members.foldl (fun held member => some (settled member held)) held

/-- The members of a source that go under a key. -/
def under (key : String) (source : List (String × Value)) : List (String × Value) :=
  source.filter fun member => topKey member.1 == key

/-- What a table holds under a key after a source is made of the members for that key. -/
theorem member?_layer (target : Value) (source : List (String × Value)) (key : String) :
    (target.layer source).member? key = settledAll (under key source) (target.member? key) := by
  induction source generalizing target with
  | nil => rfl
  | cons member rest ih =>
    have later := ih (target.putAt member.2 (path member.1))
    rw [putAt_path, member?_withMember] at later
    rw [layer, List.foldl_cons, ← layer, putAt_path, later, under, under, List.filter_cons]
    by_cases here : key = topKey member.1
    · rw [if_pos here, if_pos (beq_iff_eq.mpr here.symm), here]
      rfl
    · rw [if_neg here, if_neg fun same => here (beq_iff_eq.mp same).symm]

@[simp] theorem settledAll_nil (held : Option Value) : settledAll [] held = held := rfl

theorem settledAll_append (first second : List (String × Value)) (held : Option Value) :
    settledAll (first ++ second) held = settledAll second (settledAll first held) :=
  List.foldl_append

theorem under_append (key : String) (first second : List (String × Value)) :
    under key (first ++ second) = under key first ++ under key second :=
  List.filter_append ..

theorem under_eq_nil {key : String} {source : List (String × Value)}
    (apart : ∀ member ∈ source, topKey member.1 ≠ key) : under key source = [] :=
  List.filter_eq_nil_iff.mpr fun member found same => apart member found (beq_iff_eq.mp same)

/-- A member under a key of the table at the top, with a value that is no table. -/
structure Simple (member : String × Value) : Prop where
  top : (path member.1).tail = []
  noTable : ∀ members, member.2 ≠ table members

/-- A value that is no table takes the place of what stood under its key. -/
theorem Simple.settled {member : String × Value} (simple : Simple member) (held : Option Value) :
    settled member held = member.2 := by
  obtain ⟨key, value⟩ := member
  have top : (path key).tail = [] := simple.top
  rw [Value.settled]
  simp only [top]
  cases value with
  | table members => exact absurd rfl (simple.noTable members)
  | _ => rfl

/-- Of simple members for one key the last counts. -/
theorem settledAll_of_simple {members : List (String × Value)}
    (simple : ∀ member ∈ members, Simple member) (held : Option Value) :
    settledAll members held = (members.getLast?.map (·.2)).or held := by
  induction members generalizing held with
  | nil => rfl
  | cons member rest ih =>
    rw [settledAll, List.foldl_cons, ← settledAll, (simple member List.mem_cons_self).settled,
      ih fun later found => simple later (List.mem_cons_of_mem _ found), List.getLast?_cons]
    cases rest.getLast? <;> rfl

end Value

/-- The key that a variable is for, if its name begins so. -/
def variableKey? (start name : String) : Option String :=
  let name := (Text.lower name).toList
  if start.toList.isPrefixOf name then some (String.ofList (nestedKey (name.drop start.length)))
  else none

theorem fromEnvironment_eq (start : String) (environment : List (String × String)) :
    fromEnvironment start environment =
      environment.filterMap fun v => (variableKey? start v.1).map (·, Value.ofText v.2) := by
  unfold fromEnvironment variableKey?
  congr 1
  funext v
  simp only
  split <;> rfl

theorem fromEnvironment_append (start : String) (first second : List (String × String)) :
    fromEnvironment start (first ++ second) =
      fromEnvironment start first ++ fromEnvironment start second :=
  List.filterMap_append

/-- Whether a variable goes under a key of the table at the top. -/
def VariableFor (start key name : String) : Prop :=
  ∃ path, variableKey? start name = some path ∧ Value.topKey path = key

theorem under_fromEnvironment {start key : String} {environment : List (String × String)}
    (apart : ∀ v ∈ environment, ¬ VariableFor start key v.1) :
    Value.under key (fromEnvironment start environment) = [] := by
  apply Value.under_eq_nil
  intro member found same
  rw [fromEnvironment_eq] at found
  obtain ⟨v, there, made⟩ := List.mem_filterMap.mp found
  obtain ⟨path, for_, rfl⟩ := Option.map_eq_some_iff.mp made
  exact apart v there ⟨path, for_, same⟩

theorem fromNames_cons (name : String × String) (names environment : List (String × String)) :
    fromNames (name :: names) environment =
      ((environment.lookup name.1).map fun text => (name.2, Value.text text)).toList ++
        fromNames names environment := by
  obtain ⟨name, key⟩ := name
  simp only [fromNames, List.filterMap_cons]
  cases environment.lookup name <;> rfl

/-- Of the variables that are looked for by name those for a key go under it. -/
theorem under_fromNames (key : String) (names environment : List (String × String)) :
    Value.under key (fromNames names environment) =
      fromNames (names.filter fun name => Value.topKey name.2 == key) environment := by
  induction names with
  | nil => rfl
  | cons name rest ih =>
    rw [fromNames_cons, Value.under_append, ih, List.filter_cons]
    by_cases here : Value.topKey name.2 == key
    · rw [if_pos here, fromNames_cons]
      cases environment.lookup name.1 <;> simp [Value.under, here]
    · rw [if_neg here]
      cases environment.lookup name.1 <;> simp [Value.under, here]

theorem fromNames_congr {names environment environment' : List (String × String)}
    (same : ∀ name ∈ names, environment.lookup name.1 = environment'.lookup name.1) :
    fromNames names environment = fromNames names environment' := by
  induction names with
  | nil => rfl
  | cons name rest ih =>
    rw [fromNames_cons, fromNames_cons, same name List.mem_cons_self,
      ih fun later found => same later (List.mem_cons_of_mem _ found)]

theorem fromNames_append (first second environment : List (String × String)) :
    fromNames (first ++ second) environment =
      fromNames first environment ++ fromNames second environment :=
  List.filterMap_append

/-- Of variables for one key, looked for in turn, the last that is there comes last. -/
theorem getLast?_fromNames (key : String) (names : List String)
    (environment : List (String × String)) :
    (fromNames (names.reverse.map (·, key)) environment).getLast? =
      (names.findSome? fun name => environment.lookup name).map fun text =>
        (key, Value.text text) := by
  induction names with
  | nil => rfl
  | cons name rest ih =>
    rw [List.reverse_cons, List.map_append, fromNames_append, List.getLast?_append, ih,
      List.findSome?_cons, List.map_singleton, fromNames_cons]
    cases environment.lookup name <;> rfl

end Headroom.Configuration
