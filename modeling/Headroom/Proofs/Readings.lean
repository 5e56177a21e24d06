import Headroom.Error
import Headroom.Proofs.Holdings

/-!
Which records are samples, and what the others are refused for. The requirements are asked one
after the other, each by a check of its own (`check_eq_error_iff`), and reading a record makes
these checks and no other (`map_ofRecord`). A record is then a sample just when it holds all that
a sample has, and is refused for the first requirement that it fails (`reads_or_refuses`).
-/
namespace Headroom

namespace Sample

open Json (Number)

/-- What a value measures: a number itself, a text what stands between its blanks. -/
inductive Measures : Json → Float → Prop
  | number (n : Number) : Measures (.number n) n.toFloat
  | text {text core : String} {x : Float} (trimmed : Text.Trimmed text core)
      (reads : Decimal.readFloat? core = some x) : Measures (.string text) x

/-- What has to be met by a record that is a sample. -/
inductive Requirement where
  | object
  | quantity (member : String)
  | name (member : String)
  | time

/-- All that has to be met, in the order in which it is asked for. -/
def requirements : List Requirement :=
  [.object, .quantity "CpuUtilized", .quantity "MemoryUtilized", .name "ClusterName",
    .name "ServiceName", .time]

/-- How a record fails a requirement. -/
inductive Requirement.Fails (record : Record) : Requirement → Rejection → Prop
  | notAnObject (none : record.members? = none) : Fails record .object .notAnObject
  /-- There is no such quantity, or it is null. -/
  | unmeasured (member : String) (empty : ∀ value, record.Holds member value → value = .null) :
      Fails record (.quantity member) (.missing member)
  | unusable (member : String) (value : Json) (holds : record.Holds member value)
      (some : value ≠ .null) (unusable : ∀ x, Measures value x → x.isFinite = false) :
      Fails record (.quantity member) (.notNumeric member)
  | unnamed (member : String) (unnamed : ∀ text, ¬ record.Holds member (.string text)) :
      Fails record (.name member) (.missing member)
  | untimed (own : ∀ t : Int64, ¬ record.Holds "Timestamp" (Json.integer t.toInt))
      (event : record.timestamp = none) : Fails record .time (.missing "Timestamp")

/-- What a sample has of the record that it is read from. -/
structure ReadsFrom (record : Record) (s : Sample) : Prop where
  cpu : ∃ value, record.Holds "CpuUtilized" value ∧ Measures value s.cpu ∧ s.cpu.isFinite
  memory : ∃ value, record.Holds "MemoryUtilized" value ∧ Measures value s.memory ∧
    s.memory.isFinite
  cluster : record.Holds "ClusterName" (.string s.cluster)
  service : record.Holds "ServiceName" (.string s.service)
  container : ∀ name, s.container = some name ↔ record.Holds "ContainerName" (.string name)
  /-- Its own time comes before the one of its event. -/
  time : record.Holds "Timestamp" (Json.integer s.timestamp.toInt) ∨
    (∀ t : Int64, ¬ record.Holds "Timestamp" (Json.integer t.toInt)) ∧
      record.timestamp = some s.timestamp

theorem measures_number {n : Number} {x : Float} : Measures (.number n) x ↔ n.toFloat = x := by
  constructor
  · rintro ⟨⟩
    rfl
  · rintro rfl
    exact .number n

theorem measures_string {text : String} {x : Float} :
    Measures (.string text) x ↔ Decimal.readFloat? (Text.trim text) = some x := by
  constructor
  · rintro (_ | ⟨trimmed, reads⟩)
    rwa [Text.trim_eq_iff.mpr trimmed]
  · exact fun reads => .text (Text.trimmed_trim text) reads

section

variable {record : Json} {member : String} {value : Json}

theorem quantity_absent (absent : record.member? member = none) :
    quantity record member = .error (.missing member) := by
  simp only [quantity, absent]

theorem quantity_null (null : record.member? member = some .null) :
    quantity record member = .error (.missing member) := by
  simp only [quantity, null]

theorem quantity_measured {x : Float} (found : record.member? member = some value)
    (measured : Measures value x) :
    quantity record member = if x.isFinite then .ok x else .error (.notNumeric member) := by
  cases measured with
  | number n => simp only [quantity, found]
  | text trimmed reads =>
    simp only [quantity, found, Text.trim_eq_iff.mpr trimmed, reads]

theorem quantity_unmeasured (found : record.member? member = some value) (some : value ≠ .null)
    (none : ∀ x, ¬ Measures value x) : quantity record member = .error (.notNumeric member) := by
  cases value with
  | null => exact absurd rfl some
  | number n => exact absurd (.number n) (none _)
  | string text =>
    cases reads : Decimal.readFloat? (Text.trim text) with
    | none => simp only [quantity, found, reads]
    | some x => exact absurd (measures_string.mpr reads) (none x)
  | bool _ | array _ | object _ => simp only [quantity, found]

theorem Measures.ne_null {x : Float} (measured : Measures value x) : value ≠ .null := by
  rintro rfl
  cases measured

theorem Measures.unique {x y : Float} (one : Measures value x) (other : Measures value y) :
    x = y := by
  cases one with
  | number n => exact measures_number.mp other
  | text trimmed reads =>
    have reads' := measures_string.mp other
    rw [Text.trim_eq_iff.mpr trimmed, reads] at reads'
    exact Option.some.inj reads'

/-- What a quantity comes to. -/
inductive Quantified (record : Json) (member : String) : Except Rejection Float → Prop
  | taken (value : Json) (x : Float) (found : record.member? member = some value)
      (measured : Measures value x) (finite : x.isFinite) : Quantified record member (.ok x)
  | missing (empty : ∀ value, record.member? member = some value → value = .null) :
      Quantified record member (.error (.missing member))
  | unusable (value : Json) (found : record.member? member = some value) (some : value ≠ .null)
      (unusable : ∀ x, Measures value x → x.isFinite = false) :
      Quantified record member (.error (.notNumeric member))

theorem quantified (record : Json) (member : String) :
    Quantified record member (quantity record member) := by
  cases found : record.member? member with
  | none =>
    rw [quantity_absent found]
    exact .missing fun value other => by simp [found] at other
  | some value =>
    by_cases null : value = .null
    · rw [quantity_null (found.trans (congrArg some null))]
      exact .missing fun value' other => by
        rw [← Option.some.inj (found.symm.trans other), null]
    · by_cases any : ∃ x, Measures value x
      · obtain ⟨x, measured⟩ := any
        rw [quantity_measured found measured]
        split
        · rename_i finite
          exact .taken value x found measured finite
        · rename_i infinite
          refine .unusable value found null fun y other => ?_
          rw [← measured.unique other]
          exact eq_false_of_ne_true infinite
      · rw [quantity_unmeasured found null (not_exists.mp any)]
        exact .unusable value found null fun x measured => absurd ⟨x, measured⟩ any

end

section

variable {json : Json} {member : String} {event : Option Int64}

theorem name_eq_ok_iff {text : String} :
    name json member = .ok text ↔ json.member? member = some (.string text) := by
  unfold name
  cases json.member? member with
  | none => simp
  | some value => cases value <;> simp [Json.string?]

theorem name_eq_error_iff {r : Rejection} :
    name json member = .error r ↔
      (∀ text, json.member? member ≠ some (.string text)) ∧ r = .missing member := by
  unfold name
  cases json.member? member with
  | none => simp [eq_comm]
  | some value => cases value <;> simp [Json.string?, eq_comm]

/-- The time that an object has of its own. -/
theorem ownTime_eq_some_iff {t : Int64} :
    (json.member? "Timestamp").bind Json.int64? = some t ↔
      json.member? "Timestamp" = some (Json.integer t.toInt) := by
  simp only [Option.bind_eq_some_iff, Json.int64?_eq_some]
  constructor
  · rintro ⟨value, found, rfl⟩
    exact found
  · exact fun found => ⟨_, found, rfl⟩

theorem ownTime_eq_none_iff :
    (json.member? "Timestamp").bind Json.int64? = none ↔
      ∀ t : Int64, json.member? "Timestamp" ≠ some (Json.integer t.toInt) := by
  rw [Option.eq_none_iff_forall_ne_some]
  exact forall_congr' fun t => not_congr ownTime_eq_some_iff

theorem time_eq_ok_iff {t : Int64} :
    time json event = .ok t ↔
      json.member? "Timestamp" = some (Json.integer t.toInt) ∨
        (∀ t : Int64, json.member? "Timestamp" ≠ some (Json.integer t.toInt)) ∧
          event = some t := by
  rw [← ownTime_eq_some_iff, ← ownTime_eq_none_iff, time]
  cases (json.member? "Timestamp").bind Json.int64? with
  | none => cases event <;> simp
  | some own => simp

theorem time_eq_error_iff {r : Rejection} :
    time json event = .error r ↔
      (∀ t : Int64, json.member? "Timestamp" ≠ some (Json.integer t.toInt)) ∧ event = none ∧
        r = .missing "Timestamp" := by
  rw [← ownTime_eq_none_iff, time]
  cases (json.member? "Timestamp").bind Json.int64? with
  | none => cases event <;> simp [eq_comm]
  | some own => simp

end

/-- One requirement, asked of a record. -/
def check (record : Record) : Requirement → Except Rejection Unit
  | .object => if record.members?.isSome then .ok () else .error .notAnObject
  | .quantity member => (quantity record.kept member).map fun _ => ()
  | .name member => (name record.kept member).map fun _ => ()
  | .time => (time record.kept record.timestamp).map fun _ => ()

theorem map_eq_error_iff {ε α β : Type} {f : α → β} {x : Except ε α} {error : ε} :
    x.map f = .error error ↔ x = .error error := by
  cases x <;> simp [Except.map]

theorem map_bind_unit {ε α β : Type} {f : α → Except ε β} {next : Except ε Unit}
    (same : ∀ a, ((f a).map fun _ => ()) = next) {x : Except ε α} :
    ((x >>= f).map fun _ => ()) = ((x.map fun _ => ()) >>= fun _ => next) := by
  cases x with
  | error _ => rfl
  | ok a => exact same a

theorem forM_eq_ok_iff {ε α : Type} {check : α → Except ε Unit} {items : List α} :
    items.forM check = .ok () ↔ ∀ item ∈ items, check item = .ok () := by
  induction items with
  | nil => exact ⟨fun _ => by simp, fun _ => rfl⟩
  | cons first rest ih =>
    rw [List.forall_mem_cons, ← ih]
    change (check first >>= fun _ => rest.forM check) = _ ↔ _
    rw [bind_eq_ok_iff]
    exact ⟨fun ⟨_, passed, others⟩ => ⟨passed, others⟩, fun ⟨passed, others⟩ => ⟨_, passed, others⟩⟩

/-- A list of checks fails with the first of them that does. -/
theorem forM_eq_error_iff {ε α : Type} {check : α → Except ε Unit} {items : List α} {error : ε} :
    items.forM check = .error error ↔ ∃ before item after, items = before ++ item :: after ∧
      (∀ earlier ∈ before, check earlier = .ok ()) ∧ check item = .error error := by
  induction items with
  | nil => simp [pure, Except.pure]
  | cons first rest ih =>
    change (check first >>= fun _ => rest.forM check) = _ ↔ _
    cases checked : check first with
    | error other =>
      change Except.error other = _ ↔ _
      constructor
      · intro same
        exact ⟨[], first, rest, rfl, by simp, checked.trans same⟩
      · rintro ⟨before, item, after, split, passed, failed⟩
        cases before with
        | nil =>
          obtain ⟨rfl, rfl⟩ := List.cons.inj split
          exact checked.symm.trans failed
        | cons earlier before =>
          obtain ⟨rfl, rfl⟩ := List.cons.inj split
          rw [passed first List.mem_cons_self] at checked
          cases checked
    | ok _ =>
      change rest.forM check = _ ↔ _
      rw [ih]
      constructor
      · rintro ⟨before, item, after, rfl, passed, failed⟩
        exact ⟨first :: before, item, after, rfl,
          List.forall_mem_cons.mpr ⟨checked, passed⟩, failed⟩
      · rintro ⟨before, item, after, split, passed, failed⟩
        cases before with
        | nil =>
          obtain ⟨rfl, rfl⟩ := List.cons.inj split
          rw [checked] at failed
          cases failed
        | cons earlier before =>
          obtain ⟨rfl, rfl⟩ := List.cons.inj split
          exact ⟨before, item, after, rfl, (List.forall_mem_cons.mp passed).2, failed⟩

section

variable {record : Record} {r : Rejection}

theorem quantity_eq_error_iff {member : String} :
    quantity record.kept member = .error r ↔ Requirement.Fails record (.quantity member) r := by
  have comes := quantified record.kept member
  constructor
  · intro failed
    rw [failed] at comes
    cases comes with
    | missing empty =>
      exact .unmeasured member fun value holds => empty value (Record.holds_iff.mp holds)
    | unusable value found some unusable =>
      exact .unusable member value (Record.holds_iff.mpr found) some unusable
  · intro fails
    generalize quantity record.kept member = result at comes
    cases fails with
    | unmeasured _ empty =>
      cases comes with
      | taken value x found measured _ =>
        exact absurd (empty value (Record.holds_iff.mpr found)) measured.ne_null
      | missing _ => rfl
      | unusable value found some _ => exact absurd (empty value (Record.holds_iff.mpr found)) some
    | unusable _ value holds some unusable =>
      have held := Record.holds_iff.mp holds
      cases comes with
      | taken value' x found measured finite =>
        obtain rfl := Option.some.inj (held.symm.trans found)
        rw [unusable x measured] at finite
        cases finite
      | missing empty => exact absurd (empty value held) some
      | unusable _ _ _ _ => rfl

theorem check_eq_error_iff {q : Requirement} :
    check record q = .error r ↔ q.Fails record r := by
  cases q with
  | object =>
    rw [check]
    cases written : record.members? with
    | none =>
      constructor
      · rintro ⟨⟩
        exact .notAnObject written
      · rintro ⟨⟩
        rfl
    | some members =>
      constructor
      · rintro ⟨⟩
      · rintro ⟨none⟩
        rw [written] at none
        cases none
  | quantity member => rw [check, map_eq_error_iff, quantity_eq_error_iff]
  | name member =>
    rw [check, map_eq_error_iff, name_eq_error_iff]
    constructor
    · rintro ⟨unnamed, rfl⟩
      exact .unnamed member fun text holds => unnamed text (Record.holds_iff.mp holds)
    · rintro ⟨⟩
      rename_i unnamed
      exact ⟨fun text found => unnamed text (Record.holds_iff.mpr found), rfl⟩
  | time =>
    rw [check, map_eq_error_iff, time_eq_error_iff]
    constructor
    · rintro ⟨own, event, rfl⟩
      exact .untimed (fun t holds => own t (Record.holds_iff.mp holds)) event
    · rintro ⟨⟩
      rename_i own event
      exact ⟨fun t found => own t (Record.holds_iff.mpr found), event, rfl⟩

theorem check_eq_ok_iff {q : Requirement} :
    check record q = .ok () ↔ ∀ r, ¬ q.Fails record r := by
  simp only [← check_eq_error_iff]
  cases check record q with
  | ok _ => simp
  | error r => simp

end

section

variable {record : Record}

theorem ofRecord_eq (record : Record) :
    ofRecord record =
      if record.members?.isSome then ofObject record.kept record.timestamp
      else .error .notAnObject := by
  unfold ofRecord Record.kept
  cases written : record.members? with
  | none =>
    split
    · rename_i members read
      exact absurd read (Record.ofString?_of_none written members)
    · rfl
  | some members =>
    rw [Record.ofString?_of_members? written]
    rfl

/-- Reading a record makes the checks one after the other, and fails in no other way. -/
theorem map_ofRecord (record : Record) :
    ((ofRecord record).map fun _ => ()) = requirements.forM (check record) := by
  rw [ofRecord_eq]
  change _ = (check record .object >>= fun _ => _)
  cases object : record.members?.isSome with
  | false =>
    have refused : check record .object = .error .notAnObject := by
      rw [check, object]
      rfl
    rw [refused]
    rfl
  | true =>
    have passed : check record .object = .ok () := by
      rw [check, object]
      rfl
    rw [passed, if_pos rfl]
    unfold ofObject
    change _ = (check record (.quantity "CpuUtilized") >>= fun _ =>
      check record (.quantity "MemoryUtilized") >>= fun _ =>
      check record (.name "ClusterName") >>= fun _ => check record (.name "ServiceName") >>=
      fun _ => check record .time >>= fun _ => pure ())
    simp only [check]
    refine map_bind_unit fun cpu => ?_
    refine map_bind_unit fun memory => ?_
    refine map_bind_unit fun cluster => ?_
    refine map_bind_unit fun service => ?_
    refine map_bind_unit fun time => ?_
    rfl

theorem ofObject_eq_ok_iff {json : Json} {event : Option Int64} {s : Sample} :
    ofObject json event = .ok s ↔
      quantity json "CpuUtilized" = .ok s.cpu ∧ quantity json "MemoryUtilized" = .ok s.memory ∧
        name json "ClusterName" = .ok s.cluster ∧ name json "ServiceName" = .ok s.service ∧
        time json event = .ok s.timestamp ∧
        (json.member? "ContainerName").bind Json.string? = s.container := by
  simp only [ofObject, bind_eq_ok_iff]
  constructor
  · rintro ⟨cpu, first, memory, second, cluster, third, service, fourth, time, fifth, ⟨⟩⟩
    exact ⟨first, second, third, fourth, fifth, rfl⟩
  · rintro ⟨first, second, third, fourth, fifth, container⟩
    exact ⟨_, first, _, second, _, third, _, fourth, _, fifth, by rw [container]; rfl⟩

theorem quantity_eq_ok_iff {member : String} {x : Float} :
    quantity record.kept member = .ok x ↔
      ∃ value, record.Holds member value ∧ Measures value x ∧ x.isFinite := by
  simp only [Record.holds_iff]
  constructor
  · intro taken
    have comes := quantified record.kept member
    rw [taken] at comes
    cases comes with
    | taken value _ found measured finite => exact ⟨value, found, measured, finite⟩
  · rintro ⟨value, found, measured, finite⟩
    rw [quantity_measured found measured, if_pos finite]

theorem container_eq_iff {json : Json} {container : Option String} :
    (json.member? "ContainerName").bind Json.string? = container ↔
      ∀ name, container = some name ↔ json.member? "ContainerName" = some (.string name) := by
  have text (name : String) : (json.member? "ContainerName").bind Json.string? = some name ↔
      json.member? "ContainerName" = some (.string name) := by
    cases json.member? "ContainerName" with
    | none => simp
    | some value => cases value <;> simp [Json.string?]
  simp only [← text]
  constructor
  · rintro rfl name
    rfl
  · intro same
    exact Option.ext fun name => (same name).symm

theorem ofRecord_eq_ok_iff {s : Sample} : ofRecord record = .ok s ↔ ReadsFrom record s := by
  rw [ofRecord_eq]
  constructor
  · intro read
    split at read
    · obtain ⟨cpu, memory, cluster, service, time, container⟩ := ofObject_eq_ok_iff.mp read
      exact
        { cpu := quantity_eq_ok_iff.mp cpu
          memory := quantity_eq_ok_iff.mp memory
          cluster := Record.holds_iff.mpr (name_eq_ok_iff.mp cluster)
          service := Record.holds_iff.mpr (name_eq_ok_iff.mp service)
          container := by
            simpa only [Record.holds_iff] using container_eq_iff.mp container
          time := by
            simpa only [Record.holds_iff] using time_eq_ok_iff.mp time }
    · cases read
  · intro reads
    obtain ⟨members, written, -⟩ := reads.cluster
    rw [written, Option.isSome_some, if_pos rfl, ofObject_eq_ok_iff]
    refine ⟨quantity_eq_ok_iff.mpr reads.cpu, quantity_eq_ok_iff.mpr reads.memory,
      name_eq_ok_iff.mpr (Record.holds_iff.mp reads.cluster),
      name_eq_ok_iff.mpr (Record.holds_iff.mp reads.service), ?_, ?_⟩
    · rw [time_eq_ok_iff]
      simpa only [Record.holds_iff] using reads.time
    · rw [container_eq_iff]
      simpa only [Record.holds_iff] using reads.container

/-- Any record is a sample just when it holds all that one has, that is, when it meets every
requirement; any other one is refused for the first requirement that it fails. -/
theorem reads_or_refuses (record : Record) :
    (∀ s, ofRecord record = .ok s ↔ ReadsFrom record s) ∧
      ((∃ s, ReadsFrom record s) ↔ ∀ q ∈ requirements, ∀ r, ¬ q.Fails record r) ∧
      ∀ r, ofRecord record = .error r ↔
        ∃ before q after, requirements = before ++ q :: after ∧
          (∀ earlier ∈ before, ∀ r, ¬ earlier.Fails record r) ∧ q.Fails record r := by
  have refused (r : Rejection) : ofRecord record = .error r ↔
      ∃ before q after, requirements = before ++ q :: after ∧
        (∀ earlier ∈ before, ∀ r, ¬ earlier.Fails record r) ∧ q.Fails record r := by
    rw [← map_eq_error_iff, map_ofRecord, forM_eq_error_iff]
    simp only [check_eq_ok_iff, check_eq_error_iff]
  refine ⟨fun s => ofRecord_eq_ok_iff, ?_, refused⟩
  simp only [← ofRecord_eq_ok_iff, ← check_eq_ok_iff]
  rw [← forM_eq_ok_iff, ← map_ofRecord]
  cases ofRecord record with
  | ok s => exact ⟨fun _ => rfl, fun _ => ⟨s, rfl⟩⟩
  | error r => exact ⟨by rintro ⟨s, ⟨⟩⟩, by rintro ⟨⟩⟩

end

/-- A record that tells a quantity twice, one in a text with blanks around it, and a time that
is no whole number. -/
def layered : Record where
  message := "\x7b\"CpuUtilized\":null,\"MemoryUtilized\":256,\"CpuUtilized\":\" 12.5\\u00a0\"," ++
    "\"ClusterName\":\"c\",\"ServiceName\":\"s\",\"Timestamp\":1.5\x7d"
  timestamp := some 9

/-- The same record with one quantity that is no number, and without a name. -/
def unnamed : Record where
  message := "\x7b\"CpuUtilized\":1,\"MemoryUtilized\":[256],\"ServiceName\":\"s\"\x7d"
  timestamp := none

theorem layered_reads :
    ReadsFrom layered
        { cluster := "c", service := "s", container := none, cpu := 12.5, memory := 256,
          timestamp := 9 } ∧
      ∃ before q after, requirements = before ++ q :: after ∧
        (∀ earlier ∈ before, ∀ r, ¬ earlier.Fails unnamed r) ∧
        q.Fails unnamed (.notNumeric "MemoryUtilized") :=
  ⟨((reads_or_refuses layered).1 _).mp (by decide +kernel),
    ((reads_or_refuses unnamed).2.2 _).mp (by decide +kernel)⟩

end Sample
end Headroom
