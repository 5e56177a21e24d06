import Headroom.Proofs.FloatText
import Headroom.Proofs.Magnitudes
import Headroom.Proofs.Means
import Headroom.Proofs.Readings

/-!
When the means of a batch are numbers. Every sample is finite, but a sum of them may pass the
range of binary64, and is infinite from there on (`sum_append_infinite`). A mean is finite just
when no sum on the way to it is infinite (`means_in_range`); then only is it a number in JSON
(`Decimal.jsonNotation_eq_null_iff`).
-/
namespace Headroom.Decimal
open Float.Model Float.Model.UnpackedFloat

theorem unpack_isFinite (x : Float.Model) :
    x.unpack.isFinite = true ↔ @unpackExponent .binary64 x.toBits.toBitVec ≠ -1#11 := by
  unfold Float.Model.unpack UnpackedFloat.unpack
  dsimp only
  split
  · rename_i ones
    exact iff_of_false (by split <;> exact Bool.false_ne_true) fun other => other ones
  · rename_i notOnes
    refine iff_of_true ?_ notOnes
    split
    · split <;> rfl
    · rfl

theorem unpackExponent_toNat (bits : BitVec 64) :
    (@unpackExponent .binary64 bits).toNat = bits.toNat / 2 ^ 52 % 2 ^ 11 := by
  rw [unpackExponent, BitVec.toNat_cast, BitVec.extractLsb_toNat, Nat.shiftRight_eq_div_pow]
  rfl

/-- A float is finite just when its bits are those of a finite value. -/
theorem isFinite_iff_classify (x : Float) :
    x.isFinite ↔ ∃ negative magnitude, classify x = .finite negative magnitude := by
  have exponent : x.isFinite ↔ x.toBits.toNat / Nat.pow 2 52 % Nat.pow 2 11 ≠ 2047 := by
    refine (unpack_isFinite x.toModel).trans (not_congr ?_)
    rw [← BitVec.toNat_inj, unpackExponent_toNat]
    rfl
  rw [exponent]
  simp only [classify]
  by_cases ones : x.toBits.toNat / Nat.pow 2 52 % Nat.pow 2 11 = 2047
  · rw [if_pos ones]
    refine iff_of_false (fun other => other ones) ?_
    split <;> simp
  · rw [if_neg ones]
    refine iff_of_true ones ?_
    split <;> exact ⟨_, _, rfl⟩

/-- A float is written as null just when it is not finite. -/
theorem jsonNotation_eq_null_iff (x : Float) : jsonNotation x = "null" ↔ ¬ x.isFinite := by
  rw [isFinite_iff_classify]
  cases finite : classify x with
  | nan | infinite _ => simp [jsonNotation_eq, finite]
  | finite negative magnitude =>
    have numeral := jsonNotation_of_finite finite
    simp only [FloatClass.finite.injEq, exists_and_left, exists_eq', and_true, not_true,
      iff_false]
    intro null
    rw [null] at numeral
    rcases numeral.chars 'n' (by decide) with digit | mark
    · exact absurd digit (by decide)
    · exact absurd mark (by decide)

end Headroom.Decimal

namespace Headroom.Averages
open Decimal (Bounded magnitude)

theorem sum_concat (values : List Float) (value : Float) :
    sum (values ++ [value]) = sum values + value := by
  rw [sum, List.foldl_append]
  rfl

theorem sum_finite_or_infinite {values : List Float} (finite : ∀ v ∈ values, v.isFinite) :
    (sum values).isFinite ∨ ∃ sign, (sum values).toModel.unpack = .infinity sign := by
  induction values using List.reverseRecOn with
  | nil => exact .inl (by decide)
  | append_singleton before last ih =>
    rw [sum_concat]
    have lastFinite := finite last (by simp)
    rcases ih fun v member => finite v (by simp [member]) with known | ⟨sign, infinite⟩
    · exact Decimal.add_finite_or_infinite known lastFinite
    · exact .inr ⟨sign, Decimal.add_infinite infinite lastFinite⟩

/-- Values that are added to an infinite sum do not bring it back. -/
theorem sum_append_infinite {front rest : List Float} {sign : Float.Model.UnpackedFloat.Sign}
    (infinite : (sum front).toModel.unpack = .infinity sign) (finite : ∀ v ∈ rest, v.isFinite) :
    (sum (front ++ rest)).toModel.unpack = .infinity sign := by
  induction rest using List.reverseRecOn with
  | nil => rwa [List.append_nil]
  | append_singleton before last ih =>
    rw [← List.append_assoc, sum_concat]
    exact Decimal.add_infinite (ih fun v member => finite v (by simp [member]))
      (finite last (by simp))

theorem not_isFinite_of_infinite {x : Float} {sign : Float.Model.UnpackedFloat.Sign}
    (infinite : x.toModel.unpack = .infinity sign) : ¬ x.isFinite := by
  change ¬ x.toModel.unpack.isFinite = true
  rw [infinite]
  exact Bool.false_ne_true

/-- A sum is finite just when every sum on the way to it is. -/
theorem sum_isFinite_iff {values : List Float} (finite : ∀ v ∈ values, v.isFinite) :
    (sum values).isFinite ↔ ∀ front, front <+: values → (sum front).isFinite := by
  constructor
  · rintro known front ⟨rest, rfl⟩
    refine (sum_finite_or_infinite fun v member => finite v (by simp [member])).resolve_right ?_
    rintro ⟨sign, infinite⟩
    exact not_isFinite_of_infinite
      (sum_append_infinite infinite fun v member => finite v (by simp [member])) known
  · exact fun every => every values (List.prefix_refl values)

/-- A sum grows by no more than the bound of its terms with every one of them. -/
theorem sum_bounded {values : List Float} {limit : Nat} (small : values.length * limit < 2 ^ 53)
    (bounded : ∀ v ∈ values, Bounded limit 971 v.toModel.unpack) :
    Bounded (values.length * limit) 971 (sum values).toModel.unpack := by
  induction values using List.reverseRecOn with
  | nil =>
    have zero : (sum []).toModel.unpack = .zero .positive := by rfl
    rw [zero]
    exact .zero .positive
  | append_singleton before last ih =>
    rw [List.length_append, List.length_singleton, Nat.add_mul, Nat.one_mul] at small ⊢
    rw [sum_concat]
    have front := ih (by omega) fun v member => bounded v (by simp [member])
    exact (Decimal.add_bounded front (bounded last (by simp)) small (by decide)).packed le_rfl

/-- How the mean of some finite values comes out in a datapoint. -/
structure IsMean (values : List Float) (point : Datapoint) : Prop where
  value : point.value = sum values / Float.ofNat values.length
  finite_iff : point.value.isFinite ↔ ∀ front, front <+: values → (sum front).isFinite
  /-- A mean is no other than a number or an infinity, but for counts beyond 64 bits. -/
  infinite : values.length < 2 ^ 64 → ¬ point.value.isFinite → point.value.isInf
  null_iff : (point.toJson.member? "Value").map Json.render = some "null" ↔
    ¬ point.value.isFinite
  /-- Few or small values are safe: below `2 ^ 53` times `2 ^ 971` no sum of theirs is infinite. -/
  of_small : ∀ limit : Nat, values.length * limit < 2 ^ 53 →
    (∀ v ∈ values, magnitude v ≤ limit * 2 ^ 971) → point.value.isFinite

theorem isMean_of_value {values : List Float} {point : Datapoint} (some : values ≠ [])
    (finite : ∀ v ∈ values, v.isFinite)
    (mean : point.value = sum values / Float.ofNat values.length) : IsMean values point := by
  have positive : 0 < values.length := List.length_pos_iff.mpr some
  have same : point.value.isFinite ↔ (sum values).isFinite := by
    rw [mean]
    rcases sum_finite_or_infinite finite with known | ⟨sign, infinite⟩
    · exact iff_of_true (Decimal.div_count_finite known positive) known
    · exact iff_of_false (Decimal.div_count_infinite infinite positive).1
        (not_isFinite_of_infinite infinite)
  exact
    { value := mean
      finite_iff := same.trans (sum_isFinite_iff finite)
      infinite := by
        intro small unbounded
        rw [same] at unbounded
        obtain ⟨sign, infinite⟩ := (sum_finite_or_infinite finite).resolve_left unbounded
        rw [mean]
        exact (Decimal.div_count_infinite infinite positive).2 small
      null_iff := by
        have member : point.toJson.member? "Value" = .some (.float point.value) := rfl
        rw [member, Option.map_some, Option.some_inj]
        exact Decimal.jsonNotation_eq_null_iff point.value
      of_small := by
        intro limit small below
        rw [same]
        exact (sum_bounded small fun v member =>
          Decimal.bounded_of_magnitude (finite v member) (below v member)).isFinite }

theorem length_samplesOf (records : List Record) :
    (samplesOf records).length = records.countP Record.isSample := by
  induction records using List.reverseRecOn with
  | nil => rfl
  | append_singleton before record ih =>
    rw [List.countP_append, List.countP_singleton, ← ih]
    cases read : Sample.ofRecord record with
    | ok sample =>
      rw [samplesOf_concat_ok before read, isSample_of_ok read, List.length_append]
      rfl
    | error rejection =>
      rw [samplesOf_concat_error before read, isSample_of_error read]
      rfl

theorem readsFrom_of_mem {records : List Record} {sample : Sample}
    (member : sample ∈ samplesOf records) : ∃ record ∈ records, Sample.ReadsFrom record sample := by
  obtain ⟨record, member, read⟩ := List.mem_filterMap.mp member
  refine ⟨record, member, Sample.ofRecord_eq_ok_iff.mp ?_⟩
  cases result : Sample.ofRecord record with
  | ok other =>
    rw [result] at read
    exact congrArg Except.ok (Option.some.inj read)
  | error rejection =>
    rw [result] at read
    cases read

/-- What is finite in every sample that is read is finite in those of a batch. -/
theorem finite_of_reads {quantity : Sample → Float} (records : List Record)
    (finite : ∀ record sample, Sample.ReadsFrom record sample → (quantity sample).isFinite) :
    ∀ v ∈ (samplesOf records).map quantity, v.isFinite := by
  simp only [List.mem_map]
  rintro _ ⟨sample, member, rfl⟩
  obtain ⟨record, -, reads⟩ := readsFrom_of_mem member
  exact finite record sample reads

/-- The means of a batch are finite just when no sum of its samples passes the range. -/
theorem means_in_range {container : String} {records : List Record} {averages : Averages}
    (taken : ofRecords container records = .ok averages) :
    IsMean ((samplesOf records).map (·.cpu)) averages.cpu ∧
      IsMean ((samplesOf records).map (·.memory)) averages.memory := by
  have told := told_ofRecords container records
  rw [taken] at told
  cases told with
  | averaged last newest ends greatest =>
    have some : samplesOf records ≠ [] := List.getLast?_isSome.mp (by rw [ends]; rfl)
    have count := length_samplesOf records
    have cpu := finite_of_reads records fun _ _ reads => reads.cpu.choose_spec.2.2
    have memory := finite_of_reads records fun _ _ reads => reads.memory.choose_spec.2.2
    constructor
    · exact isMean_of_value (by simpa using some) cpu (by rw [List.length_map, count])
    · exact isMean_of_value (by simpa using some) memory (by rw [List.length_map, count])

/-- Two samples with more than half of the range each. -/
def vast : List Record := [recordOf "1e308" 1, recordOf "1e308" 2]

def vastMeans : Averages :=
  let point (metric : Metric) (value : Float) : Datapoint :=
    { metric
      dimensions := [⟨"ClusterName", "c"⟩, ⟨"ServiceName", "s"⟩, ⟨"ContainerName", "web"⟩]
      value
      unit := "None"
      timestamp := 2 }
  { cpu := point .cpuUtilized (1 / 0), memory := point .memoryUtilized 256, samples := 2,
    skipped := 0 }

theorem vast_means :
    ofRecords "web" vast = .ok vastMeans ∧ IsMean [1e308, 1e308] vastMeans.cpu ∧
      IsMean [256, 256] vastMeans.memory := by
  have taken : ofRecords "web" vast = .ok vastMeans := by decide +kernel
  have cpu : (samplesOf vast).map (·.cpu) = [1e308, 1e308] := by decide +kernel
  have memory : (samplesOf vast).map (·.memory) = [256, 256] := by decide +kernel
  have means := means_in_range taken
  rw [cpu, memory] at means
  exact ⟨taken, means⟩

/-- The mean of two equal samples of 1e308 is infinite. -/
theorem vast_mean_infinite :
    ¬ ∀ (container : String) (records : List Record) (averages : Averages),
      ofRecords container records = .ok averages →
        averages.cpu.value.isFinite ∧ averages.memory.value.isFinite := by
  intro always
  have finite := (always "web" vast vastMeans (by decide +kernel)).1
  exact absurd finite (by decide +kernel)

end Headroom.Averages
