import Headroom.Proofs.Packing
import Headroom.Proofs.Preparation
import Headroom.Service.Api

/-!
A limit on what a payload may unpack to. Under a cap the same is written as without one, or
writing stops beyond the cap (`Capped`), so a stream is read within a limit just when it is read
without one to no more than the limit, trailer and all (`Gzip.unpack_limited_iff`). Within the
limit a payload is decoded as it is without one, and beyond it refused
(`LogBatch.decode_by_limit`). All this is for a limit with a successor in 64 bits. The largest
one has none: the count of the bytes to read overflows, and whoever has something unpacked under
this limit breaks off without an answer (`LogBatch.largest_limit_overflows`). No other request to
the service goes unanswered, and this one leaves it unchanged (`Service.State.respond_unanswered`).
-/
namespace Headroom

namespace Codec.Deflate

theorem size_copyBack (distance count : Nat) (output : Array UInt8) :
    (copyBack distance count output).size = output.size + count := by
  induction count generalizing output with
  | zero => rfl
  | succ count ih =>
    rw [copyBack, ih, Array.size_push]
    omega

section

variable (cap : Option Nat)

theorem le_size_symbols (literals distances : CodeTree) (fuel : Nat) (stream : List Bool)
    (output : Array UInt8) :
    output.size ≤ (symbols cap literals distances fuel stream output).output.size := by
  induction fuel generalizing stream output with
  | zero => rw [symbols_zero]
  | succ fuel ih =>
    rw [symbols_succ]
    split
    · exact Nat.le_refl _
    split
    · exact Nat.le_refl _
    · rename_i symbol rest _
      split
      · have more := ih rest (output.push symbol.toUInt8)
        rw [Array.size_push] at more
        omega
      split
      · exact Nat.le_refl _
      split
      · exact Nat.le_refl _
      · rename_i length distance rest _
        have more := ih rest (copyBack distance length output)
        rw [size_copyBack] at more
        omega

theorem le_size_storedBytes (count : Nat) (stream : List Bool) (output : Array UInt8) :
    output.size ≤ (storedBytes cap count stream output).output.size := by
  induction count generalizing stream output with
  | zero => exact Nat.le_refl _
  | succ count ih =>
    rw [storedBytes]
    split
    · exact Nat.le_refl _
    split
    · exact Nat.le_refl _
    · rename_i b rest _
      have more := ih rest (output.push b.toUInt8)
      rw [Array.size_push] at more
      omega

theorem le_size_block (kind : Nat) (stream : List Bool) (output : Array UInt8) :
    output.size ≤ (block cap kind stream output).output.size := by
  unfold block
  split
  · unfold storedBlock
    dsimp only
    split
    · exact Nat.le_refl _
    · exact le_size_storedBytes cap _ _ output
  · exact le_size_symbols cap _ _ _ _ output
  · split
    · exact Nat.le_refl _
    · exact le_size_symbols cap _ _ _ _ output
  · exact Nat.le_refl _

theorem le_size_blocks (fuel : Nat) (stream : List Bool) (output : Array UInt8) :
    output.size ≤ (blocks cap fuel stream output).output.size := by
  induction fuel generalizing stream output with
  | zero => exact Nat.le_refl _
  | succ fuel ih =>
    rw [blocks]
    dsimp only
    split
    · exact Nat.le_refl _
    · rename_i kind body _
      have first := le_size_block cap kind body output
      split
      · exact first
      split
      · exact first
      · exact Nat.le_trans first (ih _ _)

end

/-- What is written under a cap, beside what is written without one. -/
inductive Capped (cap : Nat) (free capped : Progress) : Prop where
  | same (equal : capped = free)
  | stopped (full : capped.rest = .error .full) (beyond : cap < capped.output.size)
      (less : capped.output.size ≤ free.output.size)

section

variable {cap : Nat}

/-- Before a byte is written, the output so far is held against the cap. -/
theorem Capped.guard {output : Array UInt8} {free capped : Progress}
    (grows : output.size ≤ free.output.size) (within : Capped cap free capped) :
    Capped cap free
      (if (some cap).any (· < output.size) then ⟨output, .error .full⟩ else capped) := by
  split
  · rename_i beyond
    exact .stopped rfl (by simpa using beyond) grows
  · exact within

theorem symbols_capped (literals distances : CodeTree) (fuel : Nat) (stream : List Bool)
    (output : Array UInt8) :
    Capped cap (symbols none literals distances fuel stream output)
      (symbols (some cap) literals distances fuel stream output) := by
  induction fuel generalizing stream output with
  | zero =>
    rw [symbols_zero, symbols_zero]
    exact .same rfl
  | succ fuel ih =>
    have grows := le_size_symbols none literals distances (fuel + 1) stream output
    rw [symbols_succ, Option.any_none, if_neg Bool.false_ne_true] at grows ⊢
    rw [symbols_succ]
    refine .guard grows ?_
    split
    · exact .same rfl
    split
    · exact ih _ _
    split
    · exact .same rfl
    split
    · exact .same rfl
    · exact ih _ _

theorem storedBytes_capped (count : Nat) (stream : List Bool) (output : Array UInt8) :
    Capped cap (storedBytes none count stream output)
      (storedBytes (some cap) count stream output) := by
  induction count generalizing stream output with
  | zero => exact .same rfl
  | succ count ih =>
    have grows := le_size_storedBytes none (count + 1) stream output
    rw [storedBytes, Option.any_none, if_neg Bool.false_ne_true] at grows ⊢
    rw [storedBytes]
    refine .guard grows ?_
    split
    · exact .same rfl
    · exact ih _ _

theorem block_capped (kind : Nat) (stream : List Bool) (output : Array UInt8) :
    Capped cap (block none kind stream output) (block (some cap) kind stream output) := by
  unfold block
  split
  · unfold storedBlock
    dsimp only
    split
    · exact .same rfl
    · exact storedBytes_capped _ _ _
  · exact symbols_capped _ _ _ _ _
  · split
    · exact .same rfl
    · exact symbols_capped _ _ _ _ _
  · exact .same rfl

/-- A block that is stopped is the last, and what follows it without a cap only adds to it. -/
theorem blocks_capped (fuel : Nat) (stream : List Bool) (output : Array UInt8) :
    Capped cap (blocks none fuel stream output) (blocks (some cap) fuel stream output) := by
  induction fuel generalizing stream output with
  | zero => exact .same rfl
  | succ fuel ih =>
    rw [blocks, blocks]
    dsimp only
    split
    · exact .same rfl
    · rename_i final kind body _
      cases @block_capped cap kind body output with
      | same equal =>
        rw [equal]
        split
        · exact .same rfl
        split
        · exact .same rfl
        · exact ih _ _
      | stopped full beyond less =>
        rw [full]
        dsimp only
        refine .stopped full beyond (Nat.le_trans less ?_)
        split
        · exact Nat.le_refl _
        split
        · exact Nat.le_refl _
        · exact le_size_blocks none _ _ _

/-- A cap has no bearing on content that it leaves room for, and none else is read under it. -/
theorem inflate_capped_iff {stream rest : List Bool} {content : Array UInt8}
    (room : content.size ≤ cap) :
    inflate (some cap) stream = ⟨content, .ok rest⟩ ↔
      inflate none stream = ⟨content, .ok rest⟩ := by
  have capped : Capped cap (inflate none stream) (inflate (some cap) stream) :=
    blocks_capped stream.length stream #[]
  cases capped with
  | same equal => rw [equal]
  | stopped full beyond less =>
    constructor
    · intro read
      rw [read] at full
      cases full
    · intro read
      rw [read] at less
      exact absurd beyond (Nat.not_lt.mpr (Nat.le_trans less room))

end
end Codec.Deflate

namespace Codec.Gzip

variable {bytes content : List UInt8}

/-- What bytes must be to be unpacked. -/
theorem unpackWithin_eq_ok_iff {readable : Option Nat} :
    unpackWithin readable bytes = .ok content ↔
      ∃ body rest, dropHeader? bytes = some body ∧
        Deflate.inflate (readable.map fun count => (count / window + 1) * window) (bits body) =
          ⟨content.toArray, .ok rest⟩ ∧
        readable.any (· ≤ content.length) = false ∧ trailerFits rest content = true := by
  unfold unpackWithin
  cases dropHeader? bytes with
  | none => simp
  | some body =>
    simp only [Option.some.injEq, exists_and_left, exists_eq_left']
    generalize Deflate.inflate _ (bits body) = progress
    obtain ⟨output, stop | rest⟩ := progress
    · cases stop <;> simp
    · have size : output.toList.length = output.size := Array.length_toList
      simp only [Deflate.Progress.mk.injEq, Except.ok.injEq]
      constructor
      · intro unpacked
        split at unpacked
        · cases unpacked
        · rename_i few
          split at unpacked
          · obtain rfl := Except.ok.inj unpacked
            exact ⟨rest, by simp, by simpa [size] using few, ‹_›⟩
          · cases unpacked
      · rintro ⟨_, ⟨rfl, rfl⟩, few, fits⟩
        simp [few, fits]

/-- A member is unpacked within a limit if it is unpacked without one to no more. -/
theorem unpack_limited_iff {limit : Nat} (counted : limit + 1 < UInt64.size) :
    unpack (some limit) bytes = .ok content ↔
      unpack none bytes = .ok content ∧ content.length ≤ limit := by
  have room (within : content.length ≤ limit) :
      content.toArray.size ≤ ((limit + 1) / window + 1) * window := by
    have windows : limit + 1 < window * ((limit + 1) / window + 1) :=
      Nat.lt_mul_div_succ _ (by decide)
    rw [List.size_toArray, Nat.mul_comm]
    omega
  simp only [unpack, if_pos counted, unpackWithin_eq_ok_iff,
    Option.map_some, Option.map_none, Option.any_some, Option.any_none, decide_eq_false_iff_not,
    Nat.not_le]
  constructor
  · rintro ⟨body, rest, header, read, few, fits⟩
    have within : content.length ≤ limit := Nat.le_of_lt_succ few
    rw [Deflate.inflate_capped_iff (room within)] at read
    exact ⟨⟨body, rest, header, read, trivial, fits⟩, within⟩
  · rintro ⟨⟨body, rest, header, read, -, fits⟩, within⟩
    rw [← Deflate.inflate_capped_iff (room within)] at read
    exact ⟨body, rest, header, read, Nat.lt_succ_of_le within, fits⟩

end Codec.Gzip

namespace LogBatch

variable {encoding : Encoding} {payload content : List UInt8}

theorem gunzip_eq_ok_iff {limit : Option Nat} {bytes : List UInt8} :
    gunzip limit bytes = .ok content ↔ Codec.Gzip.unpack limit bytes = .ok content := by
  unfold gunzip
  split <;> simp_all

/-- A packed payload is unpacked within a limit if it is unpacked without one to no more. -/
theorem unpack_limited_iff {limit : Nat} (counted : limit + 1 < UInt64.size)
    (packed : encoding ≠ .identity) :
    unpack (some limit) encoding payload = .ok content ↔
      unpack none encoding payload = .ok content ∧ content.length ≤ limit := by
  cases encoding with
  | gzipBase64 =>
    unfold unpack
    cases Codec.Base64.decode? (trim payload) with
    | none => simp
    | some bytes =>
      dsimp only
      rw [gunzip_eq_ok_iff, gunzip_eq_ok_iff, Codec.Gzip.unpack_limited_iff counted]
  | gzip =>
    unfold unpack
    rw [gunzip_eq_ok_iff, gunzip_eq_ok_iff, Codec.Gzip.unpack_limited_iff counted]
  | identity => exact absurd rfl packed

theorem decode_of_unpack {limit : Option Nat}
    (unpacked : unpack limit encoding payload = .ok content) :
    decode limit encoding payload = readContent content := by
  rw [decode, unpacked]
  rfl

/-- What is decoded has been unpacked. -/
theorem unpacked_of_decode {limit : Option Nat} {batch : Batch}
    (decoded : decode limit encoding payload = .ok batch) :
    ∃ content, unpack limit encoding payload = .ok content ∧ readContent content = .ok batch :=
  bind_eq_ok_iff.mp decoded

/-- What a limit does to the decoding of a payload. -/
structure DecodesWithin (limit : Nat) (encoding : Encoding) (payload : List UInt8) : Prop where
  /-- What unpacks to no more than the limit is decoded as it is without one. -/
  within : ∀ content, unpack none encoding payload = .ok content → content.length ≤ limit →
    decode (some limit) encoding payload = decode none encoding payload
  /-- Anything else is refused. -/
  beyond : (¬ ∃ content, unpack none encoding payload = .ok content ∧ content.length ≤ limit) →
    ∃ detail, decode (some limit) encoding payload = .error (.refused (.decode detail))
  /-- A batch is read from no more than the limit. -/
  sized : ∀ batch, decode (some limit) encoding payload = .ok batch → ∃ content,
    unpack none encoding payload = .ok content ∧ content.length ≤ limit ∧
      readContent content = .ok batch
  /-- With more room the batch is read as well. -/
  raised : ∀ batch, decode (some limit) encoding payload = .ok batch → ∀ more, limit ≤ more →
    more + 1 < UInt64.size → decode (some more) encoding payload = .ok batch

/-- A limit that a word can count beyond tells what is decoded from what is refused. -/
theorem decode_by_limit {limit : Nat} (counted : limit + 1 < UInt64.size)
    (packed : encoding ≠ .identity) (payload : List UInt8) :
    DecodesWithin limit encoding payload := by
  have within {limit : Nat} (counted : limit + 1 < UInt64.size) {content : List UInt8}
      (unpacked : unpack none encoding payload = .ok content) (few : content.length ≤ limit) :
      decode (some limit) encoding payload = readContent content :=
    decode_of_unpack ((unpack_limited_iff counted packed).mpr ⟨unpacked, few⟩)
  have sized : ∀ batch, decode (some limit) encoding payload = .ok batch → ∃ content,
      unpack none encoding payload = .ok content ∧ content.length ≤ limit ∧
        readContent content = .ok batch := by
    intro batch decoded
    obtain ⟨content, unpacked, read⟩ := unpacked_of_decode decoded
    obtain ⟨unpacked, few⟩ := (unpack_limited_iff counted packed).mp unpacked
    exact ⟨content, unpacked, few, read⟩
  constructor
  case within =>
    intro content unpacked few
    rw [within counted unpacked few, decode_of_unpack unpacked]
  case beyond =>
    intro none
    cases decoded : decode (some limit) encoding payload with
    | error failure =>
      obtain ⟨detail, rfl⟩ := decode_error (by simpa using counted) decoded
      exact ⟨detail, rfl⟩
    | ok batch =>
      obtain ⟨content, unpacked, few, -⟩ := sized batch decoded
      exact absurd ⟨content, unpacked, few⟩ none
  case sized => exact sized
  case raised =>
    intro batch decoded more wider counted
    obtain ⟨content, unpacked, few, read⟩ := sized batch decoded
    rw [within counted unpacked (Nat.le_trans few wider), read]

/-- An object without members, and the batch that it is. -/
def bare : List UInt8 := [0x7B, 0x7D]

def bareBatch : Batch := { group := none, stream := none, control := false, records := [] }

theorem decode_bare (encoding : Encoding) :
    decode none encoding (pack encoding bare) = .ok bareBatch := by
  rw [decode_pack]
  rfl

/-- With room for it the object is decoded, with less it is refused. -/
theorem bare_by_limit :
    (2 + 1 < UInt64.size ∧ 1 + 1 < UInt64.size ∧ Encoding.gzipBase64 ≠ .identity) ∧
      decode (some 2) .gzipBase64 (pack .gzipBase64 bare) = .ok bareBatch ∧
      ∃ detail, decode (some 1) .gzipBase64 (pack .gzipBase64 bare) =
        .error (.refused (.decode detail)) := by
  have unpacked : unpack none .gzipBase64 (pack .gzipBase64 bare) = .ok bare := unpack_pack _ bare
  have room : DecodesWithin 2 .gzipBase64 (pack .gzipBase64 bare) :=
    decode_by_limit (by decide) (by decide) _
  have tight : DecodesWithin 1 .gzipBase64 (pack .gzipBase64 bare) :=
    decode_by_limit (by decide) (by decide) _
  refine ⟨⟨by decide, by decide, by decide⟩, ?_, ?_⟩
  · rw [room.within bare unpacked (by decide), decode_bare]
  · apply tight.beyond
    rintro ⟨content, same, few⟩
    obtain rfl := Except.ok.inj (unpacked.symm.trans same)
    exact absurd few (by decide)

/-- Under the largest limit of all the count of the bytes to read overflows, and the object that
is decoded without a limit comes to nothing. -/
theorem largest_limit_overflows :
    ¬ DecodesWithin (UInt64.size - 1) .gzipBase64 (pack .gzipBase64 bare) ∧
      decode none .gzipBase64 (pack .gzipBase64 bare) = .ok bareBatch ∧
      decode (some (UInt64.size - 1)) .gzipBase64 (pack .gzipBase64 bare) = .error .overflow := by
  have base64 : (packed? .gzipBase64 (pack .gzipBase64 bare)).isSome := by decide +kernel
  have overflows : decode (some (UInt64.size - 1)) .gzipBase64 (pack .gzipBase64 bare) =
      .error .overflow :=
    decode_overflow_iff.mpr ⟨base64, by simp⟩
  refine ⟨fun kept => ?_, decode_bare .gzipBase64, overflows⟩
  have same := kept.within bare (unpack_pack .gzipBase64 bare) (by decide)
  rw [overflows, decode_bare] at same
  cases same

end LogBatch

/-- A service leaves a request unanswered only under a limit that is not counted beyond, and it
is afterwards as it was before. -/
theorem Service.State.respond_unanswered {σ : Type} {c : Collaborators σ} {s : State σ}
    {q : Incoming} (unanswered : (s.respond c q).1 = none) :
    Codec.Gzip.Uncounted s.pipeline.limit ∧ (s.respond c q).2 = s := by
  have batches (unanswered : (s.postBatch c q).1 = none) :
      Codec.Gzip.Uncounted s.pipeline.limit ∧ (s.postBatch c q).2 = s := by
    unfold postBatch at unanswered ⊢
    split at unanswered
    · cases unanswered
    rename_i json
    split at unanswered
    · cases unanswered
    rename_i short
    rw [if_neg json, if_neg short]
    split at unanswered
    · cases unanswered
    · cases unanswered
    · obtain ⟨overflows, broken⟩ := Pipeline.handle_breaksOff (Option.map_eq_none_iff.mp unanswered)
      rw [broken]
      exact ⟨(LogBatch.decode_overflow_iff.mp overflows).2, rfl⟩
  unfold respond at unanswered ⊢
  split at unanswered
  · cases unanswered
  split at unanswered
  · cases unanswered
  rename_i taken
  rw [if_neg taken]
  split at unanswered
  · exact batches unanswered
  · cases unanswered
  · cases unanswered

end Headroom
