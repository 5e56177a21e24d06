import Mathlib
import Headroom.Proofs.Identity

/-!
One text by each source. A variable with the usual beginning is taken for what it spells and
written out again where a text is wanted (`spelling`), while a plain variable and a text in a
file are taken as they are. Apart from that the three are the same, whatever else the sources
give (`text_by_each_source`), so that they differ for texts such as `007`
(`marked_number_respelled`).
-/
namespace Headroom.Service

open Headroom.Configuration (Value Reader File fromEnvironment fromNames under_fromNames
  fromNames_congr under_fromEnvironment fromEnvironment_append fromEnvironment_eq VariableFor
  variableKey? extension? withoutMark)

/-- What a text is written as once it has been taken for what it spells. -/
def spelling (text : String) : String := (Reader.text (Value.ofText text)).getD text

theorem ofText_cases (text : String) :
    (∃ b, Value.ofText text = .bool b) ∨ (∃ n, Value.ofText text = .integer n) ∨
      (∃ x, Value.ofText text = .float x) ∨ Value.ofText text = .text text := by
  unfold Value.ofText
  split
  · exact .inl ⟨true, rfl⟩
  · exact .inl ⟨false, rfl⟩
  · split
    · exact .inr (.inl ⟨_, rfl⟩)
    · split
      · exact .inr (.inr (.inl ⟨_, rfl⟩))
      · exact .inr (.inr (.inr rfl))

theorem text_ofText (text : String) : Reader.text (Value.ofText text) = some (spelling text) := by
  unfold spelling
  rcases ofText_cases text with ⟨b, same⟩ | ⟨n, same⟩ | ⟨x, same⟩ | same <;> rw [same] <;> rfl

theorem ofText_ne_table (text : String) (members : List (String × Value)) :
    Value.ofText text ≠ .table members := by
  intro table
  rcases ofText_cases text with ⟨b, same⟩ | ⟨n, same⟩ | ⟨x, same⟩ | same <;>
    cases same.symm.trans table

theorem IsWord.spelling {text : String} (word : IsWord text) : spelling text = text := by
  rw [Service.spelling, word.ofText]
  rfl

/-- Whether a variable is one for a key. -/
def GivenBy (key name : String) : Prop :=
  VariableFor "scaler_" key name ∨ (name, key) ∈ Settings.plainVariables

theorem givenBy_marked {key : String} {i : Identity} (given : GivenBy key i.marked) :
    key = i.key := by
  rcases given with ⟨path, found, top⟩ | listed
  · rw [i.variableKey?_marked] at found
    cases found
    rw [← top, i.topKey_key]
  · cases i <;> simp [Settings.plainVariables, Identity.marked] at listed

theorem variableKey?_plain {i : Identity} {name : String} (plain : name ∈ i.plain) :
    variableKey? "scaler_" name = none := by
  have all : ∀ i ∈ Identity.all, ∀ name ∈ i.plain, variableKey? "scaler_" name = none := by
    decide +kernel
  exact all i (by cases i <;> decide) name plain

theorem givenBy_plain {key name : String} {i : Identity} (plain : name ∈ i.plain)
    (given : GivenBy key name) : key = i.key := by
  rcases given with ⟨path, found, -⟩ | listed
  · rw [variableKey?_plain plain] at found
    cases found
  · have known : ∀ entry ∈ Settings.plainVariables, ∀ i ∈ Identity.all,
        entry.1 ∈ i.plain → entry.2 = i.key := by
      decide
    exact known _ listed i (by cases i <;> decide) plain

theorem lookup_insert {name other : String} (apart : name ≠ other) (text : String)
    (before after : List (String × String)) :
    (before ++ (other, text) :: after).lookup name = (before ++ after).lookup name := by
  rw [List.lookup_append, List.lookup_append, List.lookup_cons, beq_false_of_ne apart]

/-- A variable has no bearing on a key that it does not give. -/
theorem member?_merged_insert {key name : String} (apart : ¬ GivenBy key name)
    (members : List (String × Value)) (before after : List (String × String)) (text : String) :
    (merged members (before ++ (name, text) :: after)).member? key =
      (merged members (before ++ after)).member? key := by
  have plain :
      Value.under key (fromNames Settings.plainVariables (before ++ (name, text) :: after)) =
        Value.under key (fromNames Settings.plainVariables (before ++ after)) := by
    rw [under_fromNames, under_fromNames]
    apply fromNames_congr
    intro entry found
    obtain ⟨listed, top⟩ := List.mem_filter.mp found
    obtain ⟨i, -, known⟩ := exists_key_of_mem_plainVariables entry listed
    rw [known, i.topKey_key, ← known, beq_iff_eq] at top
    apply lookup_insert
    rintro rfl
    exact apart (.inr (top ▸ listed))
  have marked : Value.under key (fromEnvironment "scaler_" (before ++ (name, text) :: after)) =
      Value.under key (fromEnvironment "scaler_" (before ++ after)) := by
    have none : Value.under key (fromEnvironment "scaler_" [(name, text)]) = [] := by
      apply under_fromEnvironment
      intro v found
      rw [List.mem_singleton.mp found]
      exact fun given => apart (.inl given)
    rw [List.append_cons, fromEnvironment_append, fromEnvironment_append, fromEnvironment_append,
      Value.under_append, Value.under_append, Value.under_append, none, List.append_nil]
  rw [member?_merged, member?_merged, plain, marked]

/-- Sources that do not give a key. -/
structure Silent (key : String) (members : List (String × Value))
    (environment : List (String × String)) : Prop where
  file : ∀ member ∈ members, Value.topKey member.1 ≠ key
  unset : ∀ v ∈ environment, ¬ GivenBy key v.1

section
variable {i : Identity} {members : List (String × Value)} {before after : List (String × String)}

theorem under_key_eq_nil {environment : List (String × String)}
    (quiet : ∀ v ∈ environment, ¬ GivenBy i.key v.1) :
    Value.under i.key (fromEnvironment "scaler_" environment) = [] :=
  under_fromEnvironment fun v found given => quiet v found (.inl given)

/-- The variable with the usual beginning puts what it spells in place. -/
theorem member?_merged_marked (quiet : ∀ v ∈ after, ¬ GivenBy i.key v.1) (text : String) :
    (merged members (before ++ (i.marked, text) :: after)).member? i.key =
      some (Value.ofText text) := by
  have here : Value.under i.key (fromEnvironment "scaler_" [(i.marked, text)]) =
      [(i.key, Value.ofText text)] := by
    rw [fromEnvironment_eq, List.filterMap_cons, i.variableKey?_marked]
    simp [Value.under, i.topKey_key]
  rw [member?_merged, List.append_cons, fromEnvironment_append, fromEnvironment_append,
    Value.under_append, Value.under_append, here, under_key_eq_nil quiet, List.append_nil,
    Value.settledAll_append]
  exact congrArg some ((i.simple (ofText_ne_table text)).settled _)

/-- The file puts its text in place, if the variables leave it. -/
theorem member?_merged_file {environment : List (String × String)} {m₁ m₂ : List (String × Value)}
    (quiet : Silent i.key (m₁ ++ m₂) environment) (text : String) :
    (merged (m₁ ++ (i.key, .text text) :: m₂) environment).member? i.key = some (.text text) := by
  have later : Value.under i.key m₂ = [] :=
    Value.under_eq_nil fun member found => quiet.file member (List.mem_append_right _ found)
  have here : Value.under i.key [(i.key, Value.text text)] = [(i.key, .text text)] := by
    simp [Value.under, i.topKey_key]
  rw [member?_merged, under_key_eq_nil quiet.unset, Value.settledAll_nil, List.append_cons,
    Value.under_append, Value.under_append, here, later, List.append_nil, Value.settledAll_append]
  exact congrArg some ((i.simple_text text).settled _)

theorem givenBy_of_plain {name : String} (plain : name ∈ i.plain) : GivenBy i.key name := by
  have listed : ∀ i ∈ Identity.all, ∀ name ∈ i.plain, (name, i.key) ∈ Settings.plainVariables := by
    decide
  exact .inr (listed i (by cases i <;> decide) name plain)

/-- Of the plain variables of a silent key there is the one that is put in. -/
theorem findSome?_plain (quiet : ∀ v ∈ before ++ after, ¬ GivenBy i.key v.1) {name : String}
    (plain : name ∈ i.plain) (text : String) :
    (i.plain.findSome? fun other => (before ++ (name, text) :: after).lookup other) =
      some text := by
  have absent {other : String} (plain : other ∈ i.plain) :
      (before ++ after).lookup other = none := by
    rw [List.lookup_eq_none_iff]
    intro v found
    rw [bne_iff_ne]
    rintro rfl
    exact quiet v found (givenBy_of_plain plain)
  have here : (before ++ (name, text) :: after).lookup name = some text := by
    have none := absent plain
    rw [List.lookup_append, Option.or_eq_none_iff] at none
    rw [List.lookup_append, none.1, List.lookup_cons, beq_self_eq_true]
    rfl
  cases found : i.plain.findSome? fun other => (before ++ (name, text) :: after).lookup other with
  | none =>
    have missing := List.findSome?_eq_none_iff.mp found name plain
    rw [here] at missing
    cases missing
  | some shown =>
    obtain ⟨other, listed, held⟩ := List.exists_of_findSome?_eq_some found
    by_cases same : other = name
    · rw [same, here] at held
      exact held.symm
    · rw [lookup_insert same, absent listed] at held
      cases held

/-- A plain variable puts its text in place, if nothing else gives the key. -/
theorem member?_merged_plain (quiet : Silent i.key members (before ++ after)) {name : String}
    (plain : name ∈ i.plain) (text : String) :
    (merged members (before ++ (name, text) :: after)).member? i.key = some (.text text) := by
  have marked : Value.under i.key (fromEnvironment "scaler_" (before ++ (name, text) :: after)) =
      [] := by
    apply under_fromEnvironment
    intro v found given
    rcases List.mem_append.mp found with found | found
    · exact quiet.unset v (List.mem_append_left _ found) (.inl given)
    · rcases List.mem_cons.mp found with rfl | found
      · obtain ⟨path, key, -⟩ := given
        rw [variableKey?_plain plain] at key
        cases key
      · exact quiet.unset v (List.mem_append_right _ found) (.inl given)
  rw [member?_merged, marked, Value.under_eq_nil quiet.file, settledAll_plain,
    findSome?_plain quiet.unset plain]
  rfl

/-- What a file puts under other keys does not change with one key. -/
theorem member?_merged_file_other {environment : List (String × String)}
    {m₁ m₂ : List (String × Value)} {key : String} (other : key ≠ i.key) (value : Value) :
    (merged (m₁ ++ (i.key, value) :: m₂) environment).member? key =
      (merged (m₁ ++ m₂) environment).member? key := by
  have here : Value.under key [(i.key, value)] = [] :=
    Value.under_eq_nil fun member found => by
      rw [List.mem_singleton.mp found, i.topKey_key]
      exact other.symm
  rw [member?_merged, member?_merged, List.append_cons, Value.under_append, Value.under_append,
    Value.under_append, here, List.append_nil]

end

/-- Trees that differ under one key of the identity, but give one text there, are read alike. -/
theorem read_eq_of_text {i : Identity} {a b : Value}
    (text : (a.member? i.key).map Reader.text = (b.member? i.key).map Reader.text)
    (others : ∀ key ≠ i.key, a.member? key = b.member? key) :
    Settings.read a = Settings.read b := by
  apply read_congr
  · intro j
    by_cases same : j = i
    · rw [same, text]
    · rw [others j.key fun keys => same (Identity.key_injective keys)]
  · intro key other
    exact others key (otherKeys_apart other i)

/-- Sources that are read alike are loaded alike. -/
theorem load_congr {file file' : Option File} {members members' : List (String × Value)}
    {environment environment' : List (String × String)} (given : fileMembers? file = some members)
    (given' : fileMembers? file' = some members')
    (same : Settings.read (merged members environment) =
      Settings.read (merged members' environment')) :
    Settings.load file environment = Settings.load file' environment' := by
  rw [load_eq, load_eq, given, given']
  simp only [same]

/-- What is loaded carries the text under the key. -/
theorem identity_of_load {file : Option File} {members : List (String × Value)}
    {environment : List (String × String)} {s : Settings} {i : Identity} {value : Value}
    (given : fileMembers? file = some members)
    (held : (merged members environment).member? i.key = some value)
    (loaded : Settings.load file environment = .ok s) :
    Reader.text value = some (s.identity i) := by
  obtain ⟨members', given', read⟩ := read_of_load loaded
  rw [given] at given'
  cases given'
  have shown := textIn_of_read read i
  rwa [textIn, held] at shown

/-- A file that is read as a JSON object. -/
def HoldsJson (file : File) (members : List (String × Json)) : Prop :=
  extension? file.name = some "json" ∧
    ∃ content, file.content = some content ∧
      Json.ofString? (withoutMark content) = some (.object members)

theorem HoldsJson.table? {file : File} {members : List (String × Json)}
    (holds : HoldsJson file members) : file.table? = some (Value.ofMembers members) := by
  obtain ⟨extension, content, found, read⟩ := holds
  unfold File.table?
  simp only [found, extension, read, bind, Option.bind_some, Value.ofJson]
  rfl

theorem ofMembers_append (first second : List (String × Json)) :
    Value.ofMembers (first ++ second) = Value.ofMembers first ++ Value.ofMembers second := by
  induction first with
  | nil => rfl
  | cons member rest ih =>
    obtain ⟨key, value⟩ := member
    rw [List.cons_append, Value.ofMembers, Value.ofMembers, ih, List.cons_append]

section
variable {i : Identity} {file : Option File} {members : List (String × Value)}
  {before after : List (String × String)} (given : fileMembers? file = some members)
  (quiet : Silent i.key members (before ++ after)) {name : String} (plain : name ∈ i.plain)
include given quiet plain

/-- The variable with the usual beginning is loaded as a plain one with what it spells. -/
theorem load_marked (v : String) :
    Settings.load file (before ++ (i.marked, v) :: after) =
      Settings.load file (before ++ (name, spelling v) :: after) := by
  have later : ∀ v ∈ after, ¬ GivenBy i.key v.1 := fun v found =>
    quiet.unset v (List.mem_append_right before found)
  apply load_congr given given
  apply read_eq_of_text (i := i)
  · rw [member?_merged_marked later, member?_merged_plain quiet plain, Option.map_some,
      text_ofText]
    rfl
  · intro key other
    rw [member?_merged_insert fun given => other (givenBy_marked given),
      member?_merged_insert fun given => other (givenBy_plain plain given)]

/-- A text in a JSON file is loaded as a plain variable with that text. -/
theorem load_document {document : File} {first second : List (String × Json)} {v : String}
    (holds : HoldsJson document (first ++ (i.key, .string v) :: second))
    (same : members = Value.ofMembers (first ++ second)) :
    Settings.load (some document) (before ++ after) =
      Settings.load file (before ++ (name, v) :: after) := by
  have table := holds.table?
  rw [ofMembers_append] at table same
  subst same
  apply load_congr (show fileMembers? (some document) = _ from table) given
  apply read_eq_of_text (i := i)
  · rw [Value.ofMembers, Value.ofJson, member?_merged_file quiet, member?_merged_plain quiet plain]
  · intro key other
    rw [member?_merged_insert fun given => other (givenBy_plain plain given)]
    exact member?_merged_file_other other _

end

/-- A setting of the identity may come from one source or another. The variable with the usual
beginning is loaded as a plain one is that holds what the text spells, and the text in a JSON
file as a plain variable that holds the same text, whatever else is set and wherever it stands.
So the first carries what the text spells, the others the text; for words that is the same. -/
theorem text_by_each_source {i : Identity} {file : Option File} {members : List (String × Value)}
    {before after : List (String × String)} (given : fileMembers? file = some members)
    (quiet : Silent i.key members (before ++ after)) (v : String) :
    (∀ name ∈ i.plain,
      Settings.load file (before ++ (i.marked, v) :: after) =
        Settings.load file (before ++ (name, spelling v) :: after)) ∧
    (∀ name ∈ i.plain, ∀ (document : File) (first second : List (String × Json)),
      HoldsJson document (first ++ (i.key, .string v) :: second) →
        members = Value.ofMembers (first ++ second) →
          Settings.load (some document) (before ++ after) =
            Settings.load file (before ++ (name, v) :: after)) ∧
    (∀ s, Settings.load file (before ++ (i.marked, v) :: after) = .ok s →
      s.identity i = spelling v) ∧
    (∀ name ∈ i.plain, ∀ s, Settings.load file (before ++ (name, v) :: after) = .ok s →
      s.identity i = v) ∧
    (IsWord v → ∀ name ∈ i.plain,
      Settings.load file (before ++ (i.marked, v) :: after) =
        Settings.load file (before ++ (name, v) :: after)) := by
  refine ⟨?_, ?_, ?_, ?_, ?_⟩
  · intro name plain
    exact load_marked given quiet plain v
  · intro name plain document first second holds same
    exact load_document given quiet plain holds same
  · intro s loaded
    have held : (merged members (before ++ (i.marked, v) :: after)).member? i.key =
        some (Value.ofText v) :=
      member?_merged_marked
        (fun v found => quiet.unset v (List.mem_append_right before found)) v
    have carried := identity_of_load given held loaded
    rw [text_ofText] at carried
    exact (Option.some.inj carried).symm
  · intro name plain s loaded
    have carried := identity_of_load given (member?_merged_plain quiet plain v) loaded
    exact (Option.some.inj carried).symm
  · intro word name plain
    rw [load_marked given quiet plain, word.spelling]

/-- A file with a service's name and what stands before it. -/
def partFile (members : String) : File where
  name := "scaler.json"
  content := some ("\x7b" ++ members ++ "\"service_name\": \"web\"\x7d")

def partVariables : List (String × String) :=
  [("CONTAINER_NAME", "api"), ("TASK_DEFINITION_FAMILY", "tasks")]

theorem part_given : fileMembers? (some (partFile "")) = some [("service_name", .text "web")] := by
  cbv

theorem part_holds : HoldsJson (partFile "\"cluster_name\": \"007\", ")
    ([] ++ (Identity.cluster.key, .string "007") :: [("service_name", .string "web")]) :=
  ⟨by cbv, _, rfl, by cbv⟩

theorem partVariables_foreign : ∀ v ∈ partVariables, variableKey? "scaler_" v.1 = none := by
  decide +kernel

theorem part_silent :
    Silent Identity.cluster.key [("service_name", .text "web")] ([] ++ partVariables) := by
  constructor
  case file =>
    intro member found
    rw [List.mem_singleton.mp found]
    change Value.topKey Identity.service.key ≠ _
    rw [Identity.topKey_key]
    decide
  case unset =>
    rintro v found (⟨path, key, -⟩ | listed)
    · rw [partVariables_foreign v found] at key
      cases key
    · have others : ∀ v ∈ partVariables,
          (v.1, Identity.cluster.key) ∉ Settings.plainVariables := by
        decide
      exact others v found listed

theorem cluster_by_each_source :
    Settings.load (some (partFile "")) (("SCALER_CLUSTER_NAME", "007") :: partVariables) =
      Settings.load (some (partFile "")) (("ECS_CLUSTER_NAME", "7") :: partVariables) ∧
    Settings.load (some (partFile "\"cluster_name\": \"007\", ")) partVariables =
      Settings.load (some (partFile "")) (("ECS_CLUSTER_NAME", "007") :: partVariables) := by
  obtain ⟨marked, document, -⟩ := text_by_each_source part_given part_silent "007"
  refine ⟨?_, ?_⟩
  · have spelled : spelling "007" = "7" := by decide +kernel
    rw [← spelled]
    exact marked "ECS_CLUSTER_NAME" (by decide)
  · exact document "ECS_CLUSTER_NAME" (by decide) _ [] _ part_holds rfl

/-- The identity that is given with a cluster in a plain variable. -/
def partIdentity (cluster : String) : Identity → String
  | .cluster => cluster
  | .service => "web"
  | .container => "api"
  | .family => "tasks"
  | .metricNamespace => "ECS/ContainerInsights"

theorem part_load (cluster : String) (filled : Text.trim cluster ≠ "") :
    Settings.load (some (partFile "")) (("ECS_CLUSTER_NAME", cluster) :: partVariables) =
      .ok (Settings.ofIdentity (partIdentity cluster)) := by
  have only : IdentityOnly [("service_name", .text "web")]
      (("ECS_CLUSTER_NAME", cluster) :: partVariables) := by
    constructor
    case distinct =>
      change ["ECS_CLUSTER_NAME", "CONTAINER_NAME", "TASK_DEFINITION_FAMILY"].Nodup
      decide
    case named =>
      intro v found
      rcases List.mem_cons.mp found with rfl | found
      · have listed : "ECS_CLUSTER_NAME" ∈ Identity.cluster.plain := by decide
        exact .inl (variableKey?_plain listed)
      · exact .inl (partVariables_foreign v found)
    case file =>
      intro member found
      exact ⟨.service, "web", List.mem_singleton.mp found⟩
    case filled =>
      intro i text shown
      cases i <;> cases shown
      · exact filled
      all_goals decide +kernel
  apply only.load part_given
  intro i
  cases i <;> rfl

/-- A cluster that is given by number keeps its zeros in a plain variable and in the file, and
loses them in the variable with the usual beginning. -/
theorem marked_number_respelled : ∃ s s' s'',
    Settings.load (some (partFile "")) (("SCALER_CLUSTER_NAME", "007") :: partVariables) = .ok s ∧
    Settings.load (some (partFile "")) (("ECS_CLUSTER_NAME", "007") :: partVariables) = .ok s' ∧
    Settings.load (some (partFile "\"cluster_name\": \"007\", ")) partVariables = .ok s'' ∧
    s.cluster = "7" ∧ s'.cluster = "007" ∧ s''.cluster = "007" := by
  have listed : "ECS_CLUSTER_NAME" ∈ Identity.cluster.plain := by decide
  have number := part_load (spelling "007") (by decide +kernel)
  have plain := part_load "007" (by decide +kernel)
  have spelled : spelling "007" = "7" := by decide +kernel
  have marked := (load_marked part_given part_silent listed "007").trans number
  have document := (load_document part_given part_silent listed part_holds rfl).trans plain
  exact ⟨_, _, _, marked, plain, document, spelled, rfl, rfl⟩

end Headroom.Service
