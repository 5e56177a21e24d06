import Mathlib
import Headroom.Proofs.Layers
import Headroom.Service.Settings

/-!
The settings that say which service is looked after, and which source counts for each. If the
sources give these settings and nothing else, as texts, then a variable with the usual beginning
comes before the file, the file before the plain variables and these before the usual value, for
each setting by itself (`identity_by_precedence`).
-/
namespace Headroom.Service

open Headroom.Configuration (Value Reader File required defaulted fromEnvironment fromNames
  under_fromNames fromNames_congr getLast?_fromNames
  under_fromEnvironment fromEnvironment_append fromEnvironment_eq
  VariableFor extension? withoutMark variableKey?)

/-- The settings that say which service is looked after. -/
inductive Identity where
  | cluster | service | container | family | metricNamespace
  deriving DecidableEq, Repr

namespace Identity

def all : List Identity := [.cluster, .service, .container, .family, .metricNamespace]

def key : Identity → String
  | .cluster => "cluster_name"
  | .service => "service_name"
  | .container => "container_name"
  | .family => "family"
  | .metricNamespace => "namespace"

/-- The variable with the usual beginning. -/
def marked : Identity → String
  | .cluster => "SCALER_CLUSTER_NAME"
  | .service => "SCALER_SERVICE_NAME"
  | .container => "SCALER_CONTAINER_NAME"
  | .family => "SCALER_FAMILY"
  | .metricNamespace => "SCALER_NAMESPACE"

/-- The plain variables, with the one that counts first at the front. -/
def plain : Identity → List String
  | .cluster => ["ECS_CLUSTER_NAME"]
  | .service => ["ECS_SERVICE_NAME"]
  | .container => ["ECS_CONTAINER_NAME", "CONTAINER_NAME"]
  | .family => ["TASK_DEFINITION_FAMILY"]
  | .metricNamespace => ["METRIC_NAMESPACE"]

/-- The value that is used when no source has one. -/
def usual? : Identity → Option String
  | .metricNamespace => some "ECS/ContainerInsights"
  | _ => none

theorem key_injective {i j : Identity} (same : i.key = j.key) : i = j := by
  cases i <;> cases j <;> first | rfl | exact absurd same (by decide)

theorem marked_injective {i j : Identity} (same : i.marked = j.marked) : i = j := by
  cases i <;> cases j <;> first | rfl | exact absurd same (by decide)

theorem topKey_key (i : Identity) : Value.topKey i.key = i.key := by
  cases i <;> cbv

theorem tail_path_key (i : Identity) : (Value.path i.key).tail = [] := by
  cases i <;> cbv

theorem variableKey?_marked (i : Identity) : variableKey? "scaler_" i.marked = some i.key := by
  cases i <;> decide +kernel

end Identity

def Settings.identity (s : Settings) : Identity → String
  | .cluster => s.cluster
  | .service => s.service
  | .container => s.container
  | .family => s.family
  | .metricNamespace => s.metricNamespace

theorem required_eq {α : Type} (members : List (String × Value)) (key : String) (read : Reader α) :
    required members key read = ((members.lookup key).map read).getD none := by
  cases found : members.lookup key <;> simp [required, found]

theorem defaulted_eq {α : Type} (members : List (String × Value)) (key : String) (value : α)
    (read : Reader α) :
    defaulted members key value read = ((members.lookup key).map read).getD (some value) := by
  cases found : members.lookup key <;> simp [defaulted, found]

/-- The text that a tree gives for a setting of the identity, or the usual one. -/
def textIn (tree : Value) (i : Identity) : Option String :=
  ((tree.member? i.key).map Reader.text).getD i.usual?

/-- Settings that are read carry the texts of the tree. -/
theorem textIn_of_read {tree : Value} {s : Settings} (read : Settings.read tree = some s)
    (i : Identity) : textIn tree i = some (s.identity i) := by
  simp only [textIn, Value.member?]
  unfold Settings.read at read
  obtain ⟨_, cluster, read⟩ := Option.bind_eq_some_iff.mp read
  obtain ⟨_, service, read⟩ := Option.bind_eq_some_iff.mp read
  obtain ⟨_, container, read⟩ := Option.bind_eq_some_iff.mp read
  obtain ⟨_, family, read⟩ := Option.bind_eq_some_iff.mp read
  obtain ⟨_, metricNamespace, read⟩ := Option.bind_eq_some_iff.mp read
  rw [required_eq] at cluster service container family
  rw [defaulted_eq] at metricNamespace
  -- The settings that are not the identity's.
  iterate 10 obtain ⟨_, -, read⟩ := Option.bind_eq_some_iff.mp read
  cases read
  cases i with
  | cluster => exact cluster
  | service => exact service
  | container => exact container
  | family => exact family
  | metricNamespace => exact metricNamespace

/-- The usual settings for an identity. -/
def Settings.ofIdentity (f : Identity → String) : Settings where
  cluster := f .cluster
  service := f .service
  container := f .container
  family := f .family
  metricNamespace := f .metricNamespace

@[simp] theorem Settings.identity_ofIdentity (f : Identity → String) (i : Identity) :
    (Settings.ofIdentity f).identity i = f i := by
  cases i <;> rfl

/-- The keys of the settings that are not the identity's. -/
def otherKeys : List String :=
  ["alarm_name", "api_port", "backend", "http", "seed", "scaling", "alarm", "retry",
    "publish_timeout_ms", "max_decompressed_bytes"]

theorem otherKeys_apart {key : String} (other : key ∈ otherKeys) (i : Identity) : key ≠ i.key := by
  have apart : ∀ i ∈ Identity.all, ∀ key ∈ otherKeys, key ≠ i.key := by decide
  exact apart i (by cases i <;> decide) key other

/-- A tree that holds nothing but the identity is read as the usual settings with it. -/
theorem read_of_textIn {tree : Value} {f : Identity → String}
    (others : ∀ key ∈ otherKeys, tree.member? key = none)
    (texts : ∀ i, textIn tree i = some (f i)) :
    Settings.read tree = some (Settings.ofIdentity f) := by
  have absent (key : String) (other : key ∈ otherKeys) : tree.members.lookup key = none :=
    others key other
  simp only [textIn, Value.member?] at texts
  have cluster := texts .cluster
  have service := texts .service
  have container := texts .container
  have family := texts .family
  have metricNamespace := texts .metricNamespace
  simp only [Identity.key, Identity.usual?] at cluster service container family metricNamespace
  simp only [Settings.read, required_eq, defaulted_eq, cluster, service, container, family,
    metricNamespace]
  rw [absent "alarm_name" (by decide), absent "api_port" (by decide), absent "backend" (by decide),
    absent "http" (by decide), absent "seed" (by decide), absent "scaling" (by decide),
    absent "alarm" (by decide), absent "retry" (by decide),
    absent "publish_timeout_ms" (by decide), absent "max_decompressed_bytes" (by decide)]
  rfl

/-- Settings are read from the texts for the identity and what is under the other keys. -/
theorem read_congr {a b : Value}
    (identity : ∀ i : Identity,
      (a.member? i.key).map Reader.text = (b.member? i.key).map Reader.text)
    (others : ∀ key ∈ otherKeys, a.member? key = b.member? key) :
    Settings.read a = Settings.read b := by
  have same (key : String) (other : key ∈ otherKeys) :
      a.members.lookup key = b.members.lookup key := others key other
  have cluster := identity .cluster
  have service := identity .service
  have container := identity .container
  have family := identity .family
  have metricNamespace := identity .metricNamespace
  simp only [Value.member?, Identity.key] at cluster service container family metricNamespace
  simp only [Settings.read, required_eq, defaulted_eq, cluster, service, container, family,
    metricNamespace]
  rw [same "alarm_name" (by decide), same "api_port" (by decide), same "backend" (by decide),
    same "http" (by decide), same "seed" (by decide), same "scaling" (by decide),
    same "alarm" (by decide), same "retry" (by decide),
    same "publish_timeout_ms" (by decide), same "max_decompressed_bytes" (by decide)]

/-- The members of the file, if there is one. -/
def fileMembers? : Option File → Option (List (String × Value))
  | none => some []
  | some file => file.table?

/-- The settings of all sources in one tree. -/
def merged (members : List (String × Value)) (environment : List (String × String)) : Value :=
  [fromNames Settings.plainVariables environment, members,
    fromEnvironment "scaler_" environment].foldl Value.layer (.table [])

/-- Settings are loaded in three steps, each of which may refuse them. -/
theorem load_eq (file : Option File) (environment : List (String × String)) :
    Settings.load file environment =
      match fileMembers? file with
      | none => .error .unreadable
      | some members =>
        match Settings.read (merged members environment) with
        | none => .error .invalid
        | some s => s.validate.map fun _ => s := by
  have afterwards (members : List (String × Value)) :
      (match Settings.read (merged members environment) with
        | none => throw .invalid
        | some s => do
          s.validate
          return s : Except SettingsFault Settings) =
        match Settings.read (merged members environment) with
        | none => .error .invalid
        | some s => s.validate.map fun _ => s := by
    cases Settings.read (merged members environment) with
    | none => rfl
    | some s => cases checked : s.validate <;> simp [checked] <;> rfl
  cases file with
  | none => exact afterwards []
  | some file =>
    cases found : file.table? with
    | none =>
      simp only [Settings.load, fileMembers?, found]
      rfl
    | some members =>
      simp only [Settings.load, fileMembers?, found, pure_bind]
      exact afterwards members

/-- What is under a key of the tree comes from the variables with the usual beginning, the file
and the plain variables, the later on top of what the earlier left. -/
theorem member?_merged (members : List (String × Value)) (environment : List (String × String))
    (key : String) :
    (merged members environment).member? key =
      Value.settledAll (Value.under key (fromEnvironment "scaler_" environment))
        (Value.settledAll (Value.under key members)
          (Value.settledAll
            (Value.under key (fromNames Settings.plainVariables environment)) none)) := by
  simp only [merged, List.foldl_cons, List.foldl_nil, Value.member?_layer]
  rfl

/-- A member of a source for a key of the identity. -/
theorem Identity.simple (i : Identity) {value : Value}
    (noTable : ∀ members, value ≠ .table members) : Value.Simple (i.key, value) :=
  ⟨i.tail_path_key, noTable⟩

theorem Identity.simple_text (i : Identity) (text : String) : Value.Simple (i.key, .text text) := by
  apply i.simple
  intro members same
  cases same

theorem exists_key_of_mem_plainVariables :
    ∀ name ∈ Settings.plainVariables, ∃ i ∈ Identity.all, name.2 = i.key := by
  decide

theorem plainVariables_for (i : Identity) :
    (Settings.plainVariables.filter fun name => Value.topKey name.2 == i.key) =
      i.plain.reverse.map (·, i.key) := by
  have top : ∀ name ∈ Settings.plainVariables,
      (Value.topKey name.2 == i.key) = (name.2 == i.key) := by
    intro name found
    obtain ⟨j, -, same⟩ := exists_key_of_mem_plainVariables name found
    rw [same, j.topKey_key]
  rw [List.filter_congr top]
  cases i <;> decide

/-- The plain variables of a key leave the text of the one that counts first. -/
theorem settledAll_plain (i : Identity) (environment : List (String × String)) :
    Value.settledAll (Value.under i.key (fromNames Settings.plainVariables environment)) none =
      (i.plain.findSome? fun name => environment.lookup name).map .text := by
  rw [under_fromNames, plainVariables_for, Value.settledAll_of_simple, getLast?_fromNames,
    Option.map_map, Option.or_none]
  · rfl
  · intro member found
    obtain ⟨⟨name, key⟩, there, made⟩ := List.mem_filterMap.mp found
    obtain ⟨text, -, rfl⟩ := Option.map_eq_some_iff.mp made
    obtain ⟨name', -, same⟩ := List.mem_map.mp there
    cases same
    exact i.simple_text text

theorem read_of_load {file : Option File} {environment : List (String × String)} {s : Settings}
    (loaded : Settings.load file environment = .ok s) :
    ∃ members, fileMembers? file = some members ∧
      Settings.read (merged members environment) = some s := by
  rw [load_eq] at loaded
  split at loaded
  · cases loaded
  · rename_i members given
    refine ⟨members, given, ?_⟩
    split at loaded
    · cases loaded
    · rename_i read
      cases checked : Settings.validate _ <;> rw [checked] at loaded <;> cases loaded
      exact read

/-- A text that spells no truth value, no whole number of 64 bits and no other number. -/
def IsWord (text : String) : Prop :=
  Text.lower text ∉ ["true", "false"] ∧
    Value.readInteger? (-Nat.pow 2 63) (Nat.pow 2 63) text = none ∧
    (Decimal.readFloat? text).isNone

instance : DecidablePred IsWord := fun _ => instDecidableAnd

theorem IsWord.ofText {text : String} (word : IsWord text) : Value.ofText text = .text text := by
  obtain ⟨truth, whole, number⟩ := word
  unfold Value.ofText
  split
  · rename_i same
    simp [same] at truth
  · rename_i same
    simp [same] at truth
  · rw [whole]
    simp only [Option.isNone_iff_eq_none.mp number]

/-- The text that the sources give for a setting: the variable with the usual beginning before
the file, where the last member counts, and the file before the plain variables. -/
def givenText (members : List (String × Value)) (environment : List (String × String))
    (i : Identity) : Option String :=
  (environment.lookup i.marked).or
    ((((members.filter (·.1 == i.key)).getLast?).bind fun member => Reader.text member.2).or
      (i.plain.findSome? fun name => environment.lookup name))

/-- Sources that give the identity and nothing else, in texts that are not blank, with words in
the variables that begin as usual. Other variables may be there. -/
structure IdentityOnly (members : List (String × Value)) (environment : List (String × String)) :
    Prop where
  distinct : (environment.map (·.1)).Nodup
  named : ∀ v ∈ environment, variableKey? "scaler_" v.1 = none ∨
    ∃ i : Identity, v.1 = i.marked ∧ IsWord v.2
  file : ∀ member ∈ members, ∃ (i : Identity) (text : String), member = (i.key, .text text)
  filled : ∀ i text, givenText members environment i = some text → Text.trim text ≠ ""

/-- Among distinct names the last entry for a name is the first. -/
theorem getLast?_filter_eq_lookup {environment : List (String × String)}
    (distinct : (environment.map (·.1)).Nodup) (name : String) :
    ((environment.filter (·.1 == name)).getLast?).map (·.2) = environment.lookup name := by
  induction environment with
  | nil => rfl
  | cons v rest ih =>
    rw [List.map_cons, List.nodup_cons] at distinct
    rw [List.filter_cons, List.lookup_cons]
    by_cases here : v.1 = name
    · have none : rest.filter (·.1 == name) = [] := by
        rw [List.filter_eq_nil_iff]
        intro other found same
        apply distinct.1
        rw [here, ← beq_iff_eq.mp same]
        exact List.mem_map_of_mem found
      rw [if_pos (beq_iff_eq.mpr here), none, beq_iff_eq.mpr here.symm]
      rfl
    · rw [if_neg fun same => here (beq_iff_eq.mp same), ih distinct.2,
        beq_false_of_ne (Ne.symm here)]

section
variable {members : List (String × Value)} {environment : List (String × String)}

/-- The variables with the usual beginning that go under a key are those of its name. -/
theorem IdentityOnly.under_marked (only : IdentityOnly members environment) (i : Identity) :
    Value.under i.key (fromEnvironment "scaler_" environment) =
      (environment.filter (·.1 == i.marked)).map fun v => (i.key, Value.text v.2) := by
  have known := only.named
  rw [fromEnvironment_eq]
  clear only
  induction environment with
  | nil => rfl
  | cons v rest ih =>
    have later := ih fun other found => known other (List.mem_cons_of_mem _ found)
    rw [List.filterMap_cons, List.filter_cons]
    rcases known v List.mem_cons_self with foreign | ⟨j, name, word⟩
    · have other : ¬ (v.1 == i.marked) := by
        intro same
        rw [beq_iff_eq.mp same, i.variableKey?_marked] at foreign
        cases foreign
      rw [foreign, if_neg other]
      exact later
    · rw [name, j.variableKey?_marked, word.ofText]
      simp only [Option.map_some]
      by_cases same : j = i
      · rw [same, if_pos (beq_self_eq_true i.marked), List.map_cons, ← later, Value.under,
          List.filter_cons, if_pos (beq_iff_eq.mpr i.topKey_key)]
        rfl
      · rw [if_neg fun names => same (Identity.marked_injective (beq_iff_eq.mp names)), ← later,
          Value.under, List.filter_cons, if_neg ?_]
        · rfl
        · rw [j.topKey_key]
          exact fun keys => same (Identity.key_injective (beq_iff_eq.mp keys))

theorem IdentityOnly.simple_members (only : IdentityOnly members environment) (i : Identity) :
    Value.under i.key members = members.filter (·.1 == i.key) := by
  apply List.filter_congr
  intro member found
  obtain ⟨j, text, rfl⟩ := only.file member found
  rw [j.topKey_key]

/-- What is under a key of the identity is the text that its sources give. -/
theorem IdentityOnly.member?_merged (only : IdentityOnly members environment) (i : Identity) :
    (merged members environment).member? i.key =
      (givenText members environment i).map Value.text := by
  have marked := only.under_marked i
  have fromFile := only.simple_members i
  have simple : ∀ member ∈ members.filter (·.1 == i.key), Value.Simple member := by
    intro member found
    obtain ⟨j, text, rfl⟩ := only.file member (List.mem_filter.mp found).1
    exact j.simple_text text
  have texts : (members.filter (·.1 == i.key)).getLast?.map (·.2) =
      ((members.filter (·.1 == i.key)).getLast?.bind fun member =>
        Reader.text member.2).map Value.text := by
    cases last : (members.filter (·.1 == i.key)).getLast? with
    | none => rfl
    | some member =>
      have found := (List.mem_filter.mp (List.mem_of_getLast? last)).1
      obtain ⟨j, text, rfl⟩ := only.file member found
      rfl
  rw [Service.member?_merged, marked, fromFile, settledAll_plain,
    Value.settledAll_of_simple simple, Value.settledAll_of_simple, givenText,
    ← getLast?_filter_eq_lookup only.distinct, texts, Option.map_or, Option.map_or,
    List.getLast?_map, Option.map_map, Option.map_map]
  · rfl
  · intro member found
    obtain ⟨v, -, rfl⟩ := List.mem_map.mp found
    exact i.simple_text v.2

theorem IdentityOnly.textIn (only : IdentityOnly members environment) (i : Identity) :
    Service.textIn (merged members environment) i =
      (givenText members environment i).or i.usual? := by
  rw [Service.textIn, only.member?_merged]
  cases givenText members environment i <;> rfl

/-- The sources leave the other keys empty. -/
theorem IdentityOnly.others (only : IdentityOnly members environment) {key : String}
    (other : key ∈ otherKeys) : (merged members environment).member? key = none := by
  have apart := otherKeys_apart other
  have plain : Value.under key (fromNames Settings.plainVariables environment) = [] := by
    rw [under_fromNames, List.filter_eq_nil_iff.mpr]
    · rfl
    intro entry listed top
    obtain ⟨i, -, known⟩ := exists_key_of_mem_plainVariables entry listed
    rw [known, i.topKey_key] at top
    exact apart i (beq_iff_eq.mp top).symm
  have fromFile : Value.under key members = [] := by
    apply Value.under_eq_nil
    intro member found
    obtain ⟨i, text, rfl⟩ := only.file member found
    rw [i.topKey_key]
    exact (apart i).symm
  have marked : Value.under key (fromEnvironment "scaler_" environment) = [] := by
    apply under_fromEnvironment
    rintro v found ⟨path, for_, top⟩
    rcases only.named v found with foreign | ⟨i, name, -⟩
    · rw [foreign] at for_
      cases for_
    · rw [name, i.variableKey?_marked] at for_
      cases for_
      exact apart i (i.topKey_key ▸ top).symm
  rw [Service.member?_merged, plain, fromFile, marked]
  rfl

/-- The usual settings for an identity without blanks are accepted. -/
theorem validate_ofIdentity {f : Identity → String} (filled : ∀ i, Text.trim (f i) ≠ "") :
    (Settings.ofIdentity f).validate = .ok () := by
  have names : (Settings.ofIdentity f).names.find? (fun name => Text.trim name.2 == "") = none := by
    simp only [Settings.names, Settings.ofIdentity, List.find?_cons, List.find?_nil,
      beq_false_of_ne (filled _)]
  have thresholds : (Settings.ofIdentity f).thresholds.validate = .ok () :=
    show ({} : ThresholdPolicy).validate = .ok () from if_pos (by decide +kernel)
  unfold Settings.validate
  rw [names, thresholds]
  rfl

end

/-- Sources for the identity alone that give all of it are loaded as the usual settings. -/
theorem IdentityOnly.load {file : Option File} {members : List (String × Value)}
    {environment : List (String × String)} (given : fileMembers? file = some members)
    (only : IdentityOnly members environment) {f : Identity → String}
    (texts : ∀ i, (givenText members environment i).or i.usual? = some (f i)) :
    Settings.load file environment = .ok (Settings.ofIdentity f) := by
  have read := read_of_textIn (fun key other => only.others other)
    (fun i => (only.textIn i).trans (texts i))
  have filled (i : Identity) : Text.trim (f i) ≠ "" := by
    have text := texts i
    cases found : givenText members environment i with
    | some shown =>
      rw [found, Option.some_or] at text
      cases text
      exact only.filled i _ found
    | none =>
      rw [found, Option.none_or] at text
      cases i with
      | metricNamespace =>
        rw [← Option.some.inj text]
        decide +kernel
      | _ => cases text
  rw [load_eq, given]
  simp only [read, validate_ofIdentity filled]
  rfl

/-- With sources for the identity alone, settings are loaded exactly if each name but the
namespace is given by some source. What is loaded are the usual settings with each setting of
the identity as its own sources give it, in their order, and else as it usually is; so sources
that agree on one setting load the same for it, whatever they give for the others. -/
theorem identity_by_precedence {file : Option File} {members : List (String × Value)}
    {environment : List (String × String)} (given : fileMembers? file = some members)
    (only : IdentityOnly members environment) :
    ((∃ s, Settings.load file environment = .ok s) ↔
      ∀ i, i ≠ .metricNamespace → (givenText members environment i).isSome) ∧
    (∀ s, Settings.load file environment = .ok s → s = Settings.ofIdentity s.identity ∧
      ∀ i, some (s.identity i) = (givenText members environment i).or i.usual?) ∧
    ∀ {file' : Option File} {members' : List (String × Value)}
      {environment' : List (String × String)}, fileMembers? file' = some members' →
      IdentityOnly members' environment' → ∀ i : Identity,
      (∀ name ∈ i.marked :: i.plain, environment.lookup name = environment'.lookup name) →
      members.filter (·.1 == i.key) = members'.filter (·.1 == i.key) →
      ∀ s s', Settings.load file environment = .ok s → Settings.load file' environment' = .ok s' →
        s.identity i = s'.identity i := by
  have shown {file : Option File} {members : List (String × Value)}
      {environment : List (String × String)} (given : fileMembers? file = some members)
      (only : IdentityOnly members environment) {s : Settings}
      (loaded : Settings.load file environment = .ok s) (i : Identity) :
      some (s.identity i) = (givenText members environment i).or i.usual? := by
    obtain ⟨members', given', read⟩ := read_of_load loaded
    cases given.symm.trans given'
    rw [← only.textIn, textIn_of_read read]
  refine ⟨⟨?_, ?_⟩, ?_, ?_⟩
  · rintro ⟨s, loaded⟩ i named
    have text := shown given only loaded i
    have usual : i.usual? = none := by cases i <;> first | rfl | exact absurd rfl named
    rw [usual, Option.or_none] at text
    rw [← text]
    rfl
  · intro named
    have texts (i : Identity) : (givenText members environment i).or i.usual? =
        some (((givenText members environment i).or i.usual?).getD "") := by
      by_cases other : i = .metricNamespace
      · subst other
        cases givenText members environment .metricNamespace <;> rfl
      · obtain ⟨text, found⟩ := Option.isSome_iff_exists.mp (named i other)
        rw [found]
        rfl
    exact ⟨_, only.load given texts⟩
  · intro s loaded
    have texts := shown given only loaded
    have usual := only.load given fun i => (texts i).symm
    exact ⟨Except.ok.inj (loaded.symm.trans usual), texts⟩
  · intro file' members' environment' given' only' i environments fromFile s s' loaded loaded'
    have plain : (i.plain.findSome? fun name => environment.lookup name) =
        i.plain.findSome? fun name => environment'.lookup name := by
      have same : (i.plain.map fun name => environment.lookup name) =
          i.plain.map fun name => environment'.lookup name :=
        List.map_congr_left fun name found => environments name (List.mem_cons_of_mem _ found)
      have found := congrArg (List.findSome? id) same
      rwa [List.findSome?_map, List.findSome?_map] at found
    apply Option.some.inj
    rw [shown given only loaded i, shown given' only' loaded' i, givenText, givenText,
      environments i.marked List.mem_cons_self, fromFile, plain]

/-- Sources that give some settings twice and leave the namespace out. -/
def layeredFile : File where
  name := "scaler.json"
  content := some "\x7b\"cluster_name\": \"red\", \"service_name\": \"web\"\x7d"

def layeredVariables : List (String × String) :=
  [("SCALER_CLUSTER_NAME", "blue"), ("ECS_CLUSTER_NAME", "green"), ("CONTAINER_NAME", "api"),
    ("ECS_CONTAINER_NAME", "backend"), ("TASK_DEFINITION_FAMILY", "007"), ("PATH", "/bin")]

theorem layered_identity :
    ∃ members, fileMembers? (some layeredFile) = some members ∧
      IdentityOnly members layeredVariables ∧
      ∃ s, Settings.load (some layeredFile) layeredVariables = .ok s ∧ s.cluster = "blue" ∧
        s.service = "web" ∧ s.container = "backend" ∧ s.family = "007" ∧
        s.metricNamespace = "ECS/ContainerInsights" := by
  have given : fileMembers? (some layeredFile) =
      some [("cluster_name", .text "red"), ("service_name", .text "web")] := by
    cbv
  have only : IdentityOnly [("cluster_name", .text "red"), ("service_name", .text "web")]
      layeredVariables := by
    constructor
    case distinct => decide
    case named =>
      intro v found
      rcases List.mem_cons.mp found with rfl | later
      · exact .inr ⟨.cluster, rfl, by decide +kernel⟩
      · have foreign : ∀ v ∈ layeredVariables.tail, variableKey? "scaler_" v.1 = none := by
          decide +kernel
        exact .inl (foreign v later)
    case file =>
      intro member found
      rcases List.mem_cons.mp found with rfl | found
      · exact ⟨.cluster, "red", rfl⟩
      · exact ⟨.service, "web", List.mem_singleton.mp found⟩
    case filled =>
      intro i text shown
      cases i <;> cases shown <;> decide +kernel
  obtain ⟨loads, values, -⟩ := identity_by_precedence given only
  have named (i : Identity) (other : i ≠ .metricNamespace) :
      (givenText [("cluster_name", .text "red"), ("service_name", .text "web")] layeredVariables
        i).isSome := by
    cases i <;> first | rfl | exact absurd rfl other
  obtain ⟨s, loaded⟩ := loads.mpr named
  obtain ⟨-, text⟩ := values s loaded
  exact ⟨_, given, only, s, loaded, Option.some.inj (text .cluster),
    Option.some.inj (text .service), Option.some.inj (text .container),
    Option.some.inj (text .family), Option.some.inj (text .metricNamespace)⟩

end Headroom.Service
