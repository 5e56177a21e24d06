import Headroom.Pipeline
import Headroom.Proofs.Means

/-!
What becomes of a log batch before the metrics backend is asked, whatever its payload
(`Pipeline.prepared`). Every record of a batch is a sample or is left out, none is counted
twice, and there are averages just when one of the records is a sample. A payload that
cannot be decoded is refused as such, and has no records to count. Under a limit that is not
counted beyond (`Uncounted`) nothing is unpacked, and the handling breaks off
(`LogBatch.decode_overflow_iff`).
-/
namespace Headroom

namespace Averages

variable {container : String} {records : List Record}

/-- Averages are taken where there is a sample, and tell how many records were left out. -/
theorem of_ofRecords_ok {averages : Averages}
    (taken : ofRecords container records = .ok averages) :
    records.any Record.isSample ∧ averages.skipped = invalid records := by
  have told := told_ofRecords container records
  rw [taken] at told
  cases told with
  | averaged last newest ends greatest =>
    have some : samplesOf records ≠ [] := List.getLast?_isSome.mp (by rw [ends]; rfl)
    exact ⟨any_isSample_iff.mpr some, rfl⟩

/-- Without a sample the batch is empty, and every record was left out. -/
theorem of_ofRecords_error {error : Error}
    (refused : ofRecords container records = .error error) :
    ¬ records.any Record.isSample ∧ error = .emptyBatch (invalid records) := by
  have told := told_ofRecords container records
  rw [refused] at told
  cases told with
  | empty none =>
    rw [any_isSample_iff, not_not, invalid_eq_length none]
    exact ⟨samplesOf_eq_nil_iff.mpr none, rfl⟩

end Averages

namespace Codec.Gzip

variable {bytes : List UInt8}

/-- There is a limit, and a word of 64 bits does not count beyond it. -/
def Uncounted (limit : Option Nat) : Prop := ∃ size, limit = some size ∧ UInt64.size ≤ size + 1

@[simp] theorem not_uncounted_none : ¬ Uncounted none := by
  rintro ⟨size, ⟨⟩, -⟩

@[simp] theorem uncounted_some {size : Nat} : Uncounted (some size) ↔ UInt64.size ≤ size + 1 := by
  simp [Uncounted]

theorem unpackWithin_ne_overflow (readable : Option Nat) :
    unpackWithin readable bytes ≠ .error .overflow := by
  unfold unpackWithin
  split
  · simp
  · dsimp only
    split
    · simp
    · split <;> simp
    · split <;> simp
    · split
      · simp
      · split <;> simp

/-- Unpacking overflows by the limit alone, whatever the bytes are. -/
theorem unpack_overflow_iff {limit : Option Nat} :
    unpack limit bytes = .error .overflow ↔ Uncounted limit := by
  cases limit with
  | none => simp [unpack, unpackWithin_ne_overflow]
  | some size =>
    rw [unpack]
    split
    · simpa [unpackWithin_ne_overflow] using ‹size + 1 < UInt64.size›
    · simpa using ‹¬ size + 1 < UInt64.size›

end Codec.Gzip

namespace LogBatch

open Codec.Gzip (Uncounted)

variable {limit : Option Nat} {encoding : Encoding} {payload : List UInt8}

theorem gunzip_refused {bytes : List UInt8} {error : Error}
    (refused : gunzip limit bytes = .error (.refused error)) :
    ∃ detail, error = .decode detail := by
  unfold gunzip at refused
  split at refused
  · cases refused
  · cases refused
    exact ⟨_, rfl⟩
  · cases refused
    exact ⟨_, rfl⟩
  · cases refused

theorem unpack_refused {error : Error}
    (refused : unpack limit encoding payload = .error (.refused error)) :
    ∃ detail, error = .decode detail := by
  cases encoding with
  | gzipBase64 =>
    simp only [unpack] at refused
    split at refused
    · exact gunzip_refused refused
    · cases refused
      exact ⟨_, rfl⟩
  | gzip => exact gunzip_refused refused
  | identity => cases refused

/-- What is refused is refused as what cannot be decoded. -/
theorem decode_refused {error : Error}
    (refused : decode limit encoding payload = .error (.refused error)) :
    ∃ detail, error = .decode detail := by
  unfold decode at refused
  cases unpacked : unpack limit encoding payload with
  | error failure =>
    rw [unpacked] at refused
    obtain rfl := Except.error.inj refused
    exact unpack_refused unpacked
  | ok content =>
    rw [unpacked] at refused
    have refused : readContent content = .error (.refused error) := refused
    unfold readContent at refused
    split at refused
    · cases refused
    · cases refused
      exact ⟨_, rfl⟩

theorem gunzip_overflow_iff {bytes : List UInt8} :
    gunzip limit bytes = .error .overflow ↔ Uncounted limit := by
  rw [← @Codec.Gzip.unpack_overflow_iff bytes]
  unfold gunzip
  split <;> simp_all

/-- The bytes of a payload that are to be unpacked, if any are. -/
def packed? (encoding : Encoding) (payload : List UInt8) : Option (List UInt8) :=
  match encoding with
  | .gzipBase64 => Codec.Base64.decode? (trim payload)
  | .gzip => some payload
  | .identity => none

theorem unpack_overflow_iff :
    unpack limit encoding payload = .error .overflow ↔
      (packed? encoding payload).isSome ∧ Uncounted limit := by
  cases encoding with
  | gzipBase64 =>
    rw [unpack, packed?]
    split
    · rename_i bytes decoded
      rw [gunzip_overflow_iff, decoded]
      simp
    · rename_i malformed
      simp [malformed]
  | gzip =>
    rw [unpack, packed?, gunzip_overflow_iff]
    simp
  | identity => simp [unpack, packed?]

/-- Decoding overflows just where there is something to unpack, under a limit that a word of 64
bits does not count beyond. -/
theorem decode_overflow_iff :
    decode limit encoding payload = .error .overflow ↔
      (packed? encoding payload).isSome ∧ Uncounted limit := by
  rw [← unpack_overflow_iff, decode]
  cases unpack limit encoding payload with
  | error failure => simp [bind, Except.bind]
  | ok content =>
    have read : readContent content ≠ .error .overflow := by
      unfold readContent
      split <;> simp
    exact iff_of_false read (by simp)

/-- Without a limit, or under one that is counted beyond, what is not decoded is refused. -/
theorem decode_error {failure : Failure} (counted : ¬ Uncounted limit)
    (failed : decode limit encoding payload = .error failure) :
    ∃ detail, failure = .refused (.decode detail) := by
  cases failure with
  | refused error =>
    obtain ⟨detail, rfl⟩ := decode_refused failed
    exact ⟨detail, rfl⟩
  | overflow => exact absurd (decode_overflow_iff.mp failed).2 counted

end LogBatch

namespace Pipeline

open LogBatch (Batch Delivery Outcome)

/-- What preparing a batch may come to. -/
inductive Prepared (p : Pipeline) (d : Delivery) : Except (Option Outcome) Averages → Prop where
  | undecoded (error : Error) (refused : d.decode p.limit = .error (.refused error)) :
      Prepared p d (.error (some (.rejected error)))
  | overflow (overflows : d.decode p.limit = .error .overflow) : Prepared p d (.error none)
  | control (batch : Batch) (decoded : d.decode p.limit = .ok batch)
      (probes : batch.control = true) : Prepared p d (.error (some .skipped))
  | empty (batch : Batch) (decoded : d.decode p.limit = .ok batch)
      (carries : batch.control = false) (invalid : ¬ batch.records.any Record.isSample) :
      Prepared p d (.error (some (.rejected (.emptyBatch (Averages.invalid batch.records)))))
  | averaged (batch : Batch) (averages : Averages) (decoded : d.decode p.limit = .ok batch)
      (carries : batch.control = false) (valid : batch.records.any Record.isSample)
      (taken : Averages.ofRecords p.target.container batch.records = .ok averages) :
      Prepared p d (.ok averages)

/-- The rules of `Prepared` are all there are. -/
theorem prepared (p : Pipeline) (d : Delivery) : Prepared p d (p.prepare d) := by
  unfold prepare
  cases decoded : d.decode p.limit with
  | error failure =>
    cases failure with
    | refused error => exact .undecoded error decoded
    | overflow => exact .overflow decoded
  | ok batch =>
    cases probes : batch.control with
    | true =>
      simp only [probes, if_true]
      exact .control batch decoded probes
    | false =>
      simp only [probes, Bool.false_eq_true, if_false]
      cases taken : Averages.ofRecords p.target.container batch.records with
      | error error =>
        obtain ⟨invalid, rfl⟩ := Averages.of_ofRecords_error taken
        exact .empty batch decoded probes invalid
      | ok averages =>
        exact .averaged batch averages decoded probes (Averages.of_ofRecords_ok taken).1 taken

/-- A handling breaks off where decoding overflows, before it tells anything or asks anybody. -/
theorem handle_breaksOff {σ : Type} {p : Pipeline}
    {publish : σ → String → List Datapoint → Except Error Unit × σ} {world : σ} {d : Delivery}
    (broken : (p.handle publish world d).outcome = none) :
    d.decode p.limit = .error .overflow ∧ p.handle publish world d = ⟨none, [], world⟩ := by
  unfold handle at broken ⊢
  have prepared := p.prepared d
  generalize p.prepare d = prepares at broken prepared ⊢
  cases prepared with
  | overflow overflows => exact ⟨overflows, rfl⟩
  | _ => simp at broken

end Pipeline
end Headroom
