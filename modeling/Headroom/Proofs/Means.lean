import Headroom.Averages
import Mathlib.Data.List.Induction
import Mathlib.Order.Bounds.Basic

/-!
What a batch of records averages to. A tally takes the records one after the other; after any
number of them it holds the sums, the counts, the last origin and the greatest time of the
samples among them (`Tally.after_foldl`). From that follow the averages and the one way in
which there are none, for any records in any order (`means_of_samples`); a record that is no
sample shows in the count of those left out and nowhere else.
-/
namespace Headroom

/-- Whether a record is read as a sample. -/
def Record.isSample (record : Record) : Bool := (Sample.ofRecord record).isOk

namespace Averages

/-- How many of some records are no samples. -/
def invalid (records : List Record) : Nat := records.countP fun record => !record.isSample

/-- The samples among some records, in their order. -/
def samplesOf (records : List Record) : List Sample :=
  records.filterMap fun record => (Sample.ofRecord record).toOption

/-- The sum of some values, added up from the left onto zero. -/
def sum (values : List Float) : Float := values.foldl (· + ·) 0

/-- The times of some samples. -/
def times (samples : List Sample) : Set Int64 := {t | ∃ sample ∈ samples, sample.timestamp = t}

section

variable {records : List Record} {record : Record} {sample : Sample}

theorem isSample_of_ok (read : Sample.ofRecord record = .ok sample) : record.isSample = true := by
  rw [Record.isSample, read]
  rfl

theorem isSample_of_error {rejection : Sample.Rejection}
    (refused : Sample.ofRecord record = .error rejection) : record.isSample = false := by
  rw [Record.isSample, refused]
  rfl

theorem samplesOf_concat_ok (records : List Record) (read : Sample.ofRecord record = .ok sample) :
    samplesOf (records ++ [record]) = samplesOf records ++ [sample] := by
  simp [samplesOf, List.filterMap_append, read, Except.toOption]

theorem samplesOf_concat_error (records : List Record) {rejection : Sample.Rejection}
    (refused : Sample.ofRecord record = .error rejection) :
    samplesOf (records ++ [record]) = samplesOf records := by
  simp [samplesOf, List.filterMap_append, refused, Except.toOption]

theorem samplesOf_eq_nil_iff : samplesOf records = [] ↔ ∀ record ∈ records, ¬ record.isSample := by
  rw [samplesOf, List.filterMap_eq_nil_iff]
  refine forall₂_congr fun record _ => ?_
  cases read : Sample.ofRecord record with
  | ok sample => simp [Except.toOption, isSample_of_ok read]
  | error rejection => simp [Except.toOption, isSample_of_error read]

theorem any_isSample_iff : records.any Record.isSample ↔ samplesOf records ≠ [] := by
  rw [Ne, samplesOf_eq_nil_iff]
  simp

theorem invalid_eq_length (none : ∀ record ∈ records, ¬ record.isSample) :
    invalid records = records.length := by
  rw [invalid, List.countP_eq_length]
  simpa using none

/-- Records that are no samples do not change which samples there are. -/
theorem samplesOf_filter (records : List Record) :
    samplesOf (records.filter Record.isSample) = samplesOf records := by
  rw [samplesOf, samplesOf, List.filterMap_filter]
  congr 1
  funext record
  cases read : Sample.ofRecord record with
  | ok sample => rw [isSample_of_ok read, if_pos rfl]
  | error rejection =>
    rw [isSample_of_error read, if_neg Bool.false_ne_true]
    rfl

end

theorem times_concat (samples : List Sample) (sample : Sample) :
    times (samples ++ [sample]) = insert sample.timestamp (times samples) := by
  ext time
  simp only [times, List.mem_append, List.mem_singleton, Set.mem_ofPred_eq, Set.mem_insert_iff]
  constructor
  · rintro ⟨other, member | rfl, rfl⟩
    · exact .inr ⟨other, member, rfl⟩
    · exact .inl rfl
  · rintro (rfl | ⟨other, member, rfl⟩)
    · exact ⟨sample, .inr rfl, rfl⟩
    · exact ⟨other, .inl member, rfl⟩

/-- The later of two times is the greatest, when the first was so before. -/
theorem isGreatest_later {samples : List Sample} {newest : Int64} (time : Int64)
    (unset : samples = [] → newest = Int64.minValue)
    (greatest : samples ≠ [] → IsGreatest (times samples) newest) :
    IsGreatest (insert time (times samples)) (if newest < time then time else newest) := by
  by_cases none : samples = []
  · have same : (if newest < time then time else newest) = time := by
      have least := Int64.minValue_le time
      rw [unset none]
      grind
    rw [same, none]
    refine ⟨Set.mem_insert _ _, ?_⟩
    rintro other (rfl | ⟨sample, member, -⟩)
    · exact Int64.le_refl _
    · cases member
  · obtain ⟨taken, above⟩ := greatest none
    split
    · rename_i later
      refine ⟨Set.mem_insert _ _, ?_⟩
      rintro other (rfl | member)
      · exact Int64.le_refl _
      · exact Int64.le_trans (above member) (Int64.le_of_lt later)
    · rename_i earlier
      refine ⟨Set.mem_insert_of_mem _ taken, ?_⟩
      rintro other (rfl | member)
      · exact Int64.not_lt.mp earlier
      · exact above member

/-- What a tally holds after some records. -/
structure Tally.After (records : List Record) (t : Tally) : Prop where
  cpu : t.cpu = sum ((samplesOf records).map (·.cpu))
  memory : t.memory = sum ((samplesOf records).map (·.memory))
  samples : t.samples = records.countP Record.isSample
  skipped : t.skipped = invalid records
  origin : t.origin = (samplesOf records).getLast?.map fun last => (last.cluster, last.service)
  unset : samplesOf records = [] → t.newest = Int64.minValue
  newest : samplesOf records ≠ [] → IsGreatest (times (samplesOf records)) t.newest

namespace Tally

theorem After.start : After [] {} where
  cpu := rfl
  memory := rfl
  samples := rfl
  skipped := rfl
  origin := rfl
  unset _ := rfl
  newest some := absurd rfl some

variable {records : List Record} {t : Tally} {record : Record}

theorem After.left_out (held : After records t) {rejection : Sample.Rejection}
    (refused : Sample.ofRecord record = .error rejection) :
    After (records ++ [record]) (t.add record) := by
  have same := samplesOf_concat_error records refused
  have added : t.add record = { t with skipped := t.skipped + 1 } := by
    rw [add, refused]
  rw [added]
  exact
    { cpu := by rw [same]; exact held.cpu
      memory := by rw [same]; exact held.memory
      samples := by
        rw [List.countP_append, List.countP_singleton, isSample_of_error refused]
        exact held.samples
      skipped := by
        rw [invalid, List.countP_append, List.countP_singleton, isSample_of_error refused]
        exact congrArg (· + 1) held.skipped
      origin := by rw [same]; exact held.origin
      unset := by rw [same]; exact held.unset
      newest := by rw [same]; exact held.newest }

theorem After.taken (held : After records t) {sample : Sample}
    (read : Sample.ofRecord record = .ok sample) :
    After (records ++ [record]) (t.add record) := by
  have more := samplesOf_concat_ok records read
  have greatest := isGreatest_later sample.timestamp held.unset held.newest
  rw [add, read]
  exact
    { cpu := by
        rw [more, List.map_append, sum, List.foldl_append, ← sum, ← held.cpu]
        rfl
      memory := by
        rw [more, List.map_append, sum, List.foldl_append, ← sum, ← held.memory]
        rfl
      samples := by
        rw [List.countP_append, List.countP_singleton, isSample_of_ok read, ← held.samples]
        rfl
      skipped := by
        rw [invalid, List.countP_append, List.countP_singleton, isSample_of_ok read]
        exact held.skipped
      origin := by
        rw [more, List.getLast?_concat]
        rfl
      unset := fun none => by simp [more] at none
      newest := fun _ => by
        rw [more, times_concat]
        exact greatest }

/-- One more record, whether it is a sample or not. -/
theorem After.add (held : After records t) (record : Record) :
    After (records ++ [record]) (t.add record) := by
  cases read : Sample.ofRecord record with
  | ok sample => exact held.taken read
  | error rejection => exact held.left_out read

theorem after_foldl (records : List Record) : After records (records.foldl Tally.add {}) := by
  induction records using List.reverseRecOn with
  | nil => exact .start
  | append_singleton before record ih =>
    rw [List.foldl_append]
    exact ih.add record

end Tally

/-- What the averages of some records come to. -/
inductive Told (container : String) (records : List Record) : Except Error Averages → Prop
  | empty (none : ∀ record ∈ records, ¬ record.isSample) :
      Told container records (.error (.emptyBatch records.length))
  | averaged (last : Sample) (newest : Int64) (ends : (samplesOf records).getLast? = some last)
      (greatest : IsGreatest (times (samplesOf records)) newest) :
      Told container records (.ok
        { cpu :=
            { metric := .cpuUtilized
              dimensions := [⟨"ClusterName", last.cluster⟩, ⟨"ServiceName", last.service⟩,
                ⟨"ContainerName", container⟩]
              value := sum ((samplesOf records).map (·.cpu)) /
                Float.ofNat (records.countP Record.isSample)
              unit := "None"
              timestamp := newest }
          memory :=
            { metric := .memoryUtilized
              dimensions := [⟨"ClusterName", last.cluster⟩, ⟨"ServiceName", last.service⟩,
                ⟨"ContainerName", container⟩]
              value := sum ((samplesOf records).map (·.memory)) /
                Float.ofNat (records.countP Record.isSample)
              unit := "None"
              timestamp := newest }
          samples := records.countP Record.isSample
          skipped := records.countP fun record => !record.isSample })

section

variable {container : String} {records : List Record}

theorem told_ofRecords (container : String) (records : List Record) :
    Told container records (ofRecords container records) := by
  have held := Tally.after_foldl records
  rw [ofRecords, Tally.averages, held.origin]
  cases ends : (samplesOf records).getLast? with
  | none =>
    have none := samplesOf_eq_nil_iff.mp (List.getLast?_eq_none_iff.mp ends)
    rw [held.skipped, invalid_eq_length none]
    exact .empty none
  | some last =>
    have some : samplesOf records ≠ [] := List.getLast?_isSome.mp (by rw [ends]; rfl)
    rw [held.cpu, held.memory, held.samples, held.skipped]
    exact .averaged last _ ends (held.newest some)

/-- There is one way only in which the averages of some records may come out. -/
theorem Told.unique {first second : Except Error Averages} (one : Told container records first)
    (other : Told container records second) : first = second := by
  cases one with
  | empty none =>
    cases other with
    | empty _ => rfl
    | averaged last _ ends _ =>
      rw [samplesOf_eq_nil_iff.mpr none] at ends
      cases ends
  | averaged last newest ends greatest =>
    cases other with
    | empty none =>
      rw [samplesOf_eq_nil_iff.mpr none] at ends
      cases ends
    | averaged last' newest' ends' greatest' =>
      obtain rfl := Option.some.inj (ends.symm.trans ends')
      have same : newest = newest' :=
        Int64.le_antisymm (greatest'.2 greatest.1) (greatest.2 greatest'.1)
      rw [same]

/-- The same result with another number of records left out. -/
def recount (skipped : Nat) : Except Error Averages → Except Error Averages
  | .ok averages => .ok { averages with skipped }
  | .error (.emptyBatch _) => .error (.emptyBatch skipped)
  | .error error => .error error

theorem told_recount {others : List Record}
    (same : others.filter Record.isSample = records.filter Record.isSample)
    {result : Except Error Averages} (told : Told container records result) :
    Told container others (recount (invalid others) result) := by
  have samples : samplesOf others = samplesOf records := by
    rw [← samplesOf_filter others, same, samplesOf_filter]
  have count : others.countP Record.isSample = records.countP Record.isSample := by
    rw [List.countP_eq_length_filter, same, ← List.countP_eq_length_filter]
  cases told with
  | empty none =>
    have none := samplesOf_eq_nil_iff.mp (samples.trans (samplesOf_eq_nil_iff.mpr none))
    rw [recount, invalid_eq_length none]
    exact .empty none
  | averaged last newest ends greatest =>
    rw [recount, ← samples, ← count]
    exact .averaged last newest (samples ▸ ends) (samples ▸ greatest)

/-- The averages of any records are those of the samples among them, and fail where there are
none; a batch with the same samples differs in the count of the records left out alone. -/
theorem means_of_samples (container : String) (records : List Record) :
    (∀ result, ofRecords container records = result ↔ Told container records result) ∧
      ∀ others, others.filter Record.isSample = records.filter Record.isSample →
        ofRecords container others = recount (invalid others) (ofRecords container records) := by
  have told := told_ofRecords container records
  refine ⟨fun result => ⟨?_, told.unique⟩, fun others same => ?_⟩
  · rintro rfl
    exact told
  · exact (told_ofRecords container others).unique (told_recount same told)

end

/-- A record of one service with some cpu, as JSON, and 256 MiB. -/
def recordOf (cpu : String) (time : Int64) : Record where
  message := "\x7b\"ClusterName\":\"c\",\"ServiceName\":\"s\",\"CpuUtilized\":" ++ cpu ++
    ",\"MemoryUtilized\":256\x7d"
  timestamp := some time

def tidy : List Record := [recordOf "12.5" 9, recordOf "7.5" 4]

/-- The same samples between records that are none. -/
def untidy : List Record :=
  [⟨"not json", some 50⟩, recordOf "12.5" 9, recordOf "null" 60, recordOf "7.5" 4,
    recordOf "\"high\"" 70]

def tidyMeans : Averages :=
  let point (metric : Metric) (value : Float) : Datapoint :=
    { metric
      dimensions := [⟨"ClusterName", "c"⟩, ⟨"ServiceName", "s"⟩, ⟨"ContainerName", "web"⟩]
      value
      unit := "None"
      timestamp := 9 }
  { cpu := point .cpuUtilized 10, memory := point .memoryUtilized 256, samples := 2, skipped := 0 }

theorem untidy_means :
    untidy.filter Record.isSample = tidy.filter Record.isSample ∧
      Told "web" tidy (.ok tidyMeans) ∧
      ofRecords "web" untidy = .ok { tidyMeans with skipped := 3 } := by
  have same : untidy.filter Record.isSample = tidy.filter Record.isSample := by decide +kernel
  have taken : ofRecords "web" tidy = .ok tidyMeans := by decide +kernel
  obtain ⟨tells, recounted⟩ := means_of_samples "web" tidy
  have left : invalid untidy = 3 := by decide +kernel
  refine ⟨same, (tells _).mp taken, ?_⟩
  rw [recounted untidy same, taken, left]
  rfl

end Averages
end Headroom
