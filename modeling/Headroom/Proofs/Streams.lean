import Headroom.Error
import Headroom.Proofs.Gzip

/-!
Reading goes by what is read. A number, a symbol, a code or a block is read of a stream as it
is read of any longer one, which leaves that much more unread; what a longer stream adds is whole
bytes, so that the blocks that begin at a byte stand where they stood. So the header of a member
and the content after it are read of all bytes that begin with those they are read of
(`Gzip.dropHeader?_more`, `Deflate.inflate_more`).
-/
namespace Headroom.Codec

/-- A reader goes by what it reads, whatever more there is. -/
def ReadsOn {α : Type} (read : List Bool → Except StreamFault (α × List Bool)) : Prop :=
  ∀ ⦃stream value rest⦄, read stream = .ok (value, rest) →
    ∀ more, read (stream ++ more) = .ok (value, rest ++ more)

/-- What is read first is read of a longer stream as well, and what comes after goes on from
there. -/
theorem ReadsOn.bind {α β γ : Type} {read : List Bool → Except StreamFault (α × List Bool)}
    (on : ReadsOn read) {stream more : List Bool} {onward : α × List Bool → Except StreamFault β}
    {onward' : α × List Bool → Except StreamFault γ} {found : β} {found' : γ}
    (whole : (read stream >>= onward) = .ok found)
    (after : ∀ value rest, onward (value, rest) = .ok found →
      onward' (value, rest ++ more) = .ok found') :
    (read (stream ++ more) >>= onward') = .ok found' := by
  obtain ⟨⟨value, rest⟩, first, later⟩ := bind_eq_ok_iff.mp whole
  exact bind_eq_ok_iff.mpr ⟨_, on first more, after value rest later⟩

theorem takeNumber_readsOn (count : Nat) : ReadsOn (takeNumber count) := by
  induction count with
  | zero =>
    rintro stream _ _ ⟨⟩ more
    rfl
  | succ count ih =>
    intro stream value rest read more
    cases stream with
    | nil => cases read
    | cons bit later =>
      refine ih.bind read fun high after read => ?_
      cases read
      rfl

theorem CodeTree.decode_readsOn (tree : CodeTree) : ReadsOn tree.decode := by
  induction tree with
  | empty =>
    intro stream value rest read
    rw [decode] at read
    cases read
  | leaf symbol =>
    intro stream value rest read more
    rw [decode] at read ⊢
    cases read
    rfl
  | node zero one left right =>
    intro stream value rest read more
    cases stream with
    | nil => cases read
    | cons bit later =>
      cases bit with
      | false => exact left read more
      | true => exact right read more

/-- A stream stands at a whole byte wherever whole bytes are added to it. -/
theorem alignToByte_append_whole (stream : List Bool) {more : List Bool}
    (whole : more.length % 8 = 0) :
    alignToByte (stream ++ more) = alignToByte stream ++ more := by
  have same : (stream ++ more).length % 8 = stream.length % 8 := by
    rw [List.length_append]
    omega
  rw [alignToByte, same, List.drop_append_of_le_length (Nat.mod_le _ _), alignToByte]

namespace Deflate

theorem tableNumber_readsOn (table : List (Nat × Nat)) (index : Nat) :
    ReadsOn (tableNumber table index) := by
  intro stream value rest read more
  unfold tableNumber at read ⊢
  split at read
  · cases read
  · refine (takeNumber_readsOn _).bind read fun extra after read => ?_
    cases read
    rfl

theorem copyOf_more {distances : CodeTree} {symbol length distance : Nat}
    {stream rest : List Bool} (read : copyOf distances symbol stream = .ok (length, distance, rest))
    (more : List Bool) :
    copyOf distances symbol (stream ++ more) = .ok (length, distance, rest ++ more) := by
  refine (tableNumber_readsOn _ _).bind read fun length afterLength read => ?_
  refine distances.decode_readsOn.bind read fun code afterCode read => ?_
  refine (tableNumber_readsOn _ _).bind read fun distance afterDistance read => ?_
  cases read
  rfl

theorem readLengthLengths_readsOn (count : Nat) : ReadsOn (readLengthLengths count) := by
  induction count with
  | zero =>
    rintro stream _ _ ⟨⟩ more
    rfl
  | succ count ih =>
    intro stream value rest read more
    refine (takeNumber_readsOn 3).bind read fun length after read => ?_
    refine ih.bind read fun lengths last read => ?_
    cases read
    rfl

/-- With more of the stream there is also more fuel, which is not needed. -/
theorem readLengths_more {tree : CodeTree} {fuel enough missing : Nat} {done lengths : List Nat}
    {stream rest : List Bool}
    (read : readLengths tree fuel missing done stream = .ok (lengths, rest))
    (fueled : fuel ≤ enough) (more : List Bool) :
    readLengths tree enough missing done (stream ++ more) = .ok (lengths, rest ++ more) := by
  induction fuel generalizing enough missing done stream with
  | zero =>
    cases missing with
    | zero =>
      rw [readLengths] at read ⊢
      cases read
      rfl
    | succ missing => cases read
  | succ fuel ih =>
    cases missing with
    | zero =>
      rw [readLengths] at read ⊢
      cases read
      rfl
    | succ missing =>
      obtain ⟨enough, rfl⟩ : ∃ n, enough = n + 1 := Nat.exists_eq_succ_of_ne_zero (by omega)
      have fueled : fuel ≤ enough := Nat.le_of_succ_le_succ fueled
      refine tree.decode_readsOn.bind read fun symbol after read => ?_
      -- The three symbols that repeat a length differ in the length and in how far they count.
      have again (length least extra : Nat)
          (read : (takeNumber extra after >>= fun found =>
            if missing + 1 < least + found.1 then .error .corrupt
            else readLengths tree fuel (missing + 1 - (least + found.1))
              (List.replicate (least + found.1) length ++ done) found.2) = .ok (lengths, rest)) :
          (takeNumber extra (after ++ more) >>= fun found =>
            if missing + 1 < least + found.1 then .error .corrupt
            else readLengths tree enough (missing + 1 - (least + found.1))
              (List.replicate (least + found.1) length ++ done) found.2) =
            .ok (lengths, rest ++ more) := by
        refine (takeNumber_readsOn extra).bind read fun count last read => ?_
        dsimp only at read ⊢
        split at read
        · cases read
        · rename_i fits
          rw [if_neg fits]
          exact ih read fueled
      dsimp only at read ⊢
      split at read
      · rename_i plain
        rw [if_pos plain]
        exact ih read fueled
      · rename_i special
        rw [if_neg special]
        split at read
        · rename_i copies
          rw [if_pos copies]
          cases done with
          | nil => cases read
          | cons last earlier => exact again last 3 2 read
        · rename_i zeros
          rw [if_neg zeros]
          split at read
          · rename_i few
            rw [if_pos few]
            exact again 0 3 3 read
          · rename_i many
            rw [if_neg many]
            exact again 0 11 7 read

theorem readCodes_more {literals distances : CodeTree} {stream rest : List Bool}
    (read : readCodes stream = .ok (literals, distances, rest)) (more : List Bool) :
    readCodes (stream ++ more) = .ok (literals, distances, rest ++ more) := by
  refine (takeNumber_readsOn 5).bind read fun literalCount afterLiterals read => ?_
  refine (takeNumber_readsOn 5).bind read fun distanceCount afterDistances read => ?_
  refine (takeNumber_readsOn 4).bind read fun lengthCount afterCounts read => ?_
  dsimp only at read ⊢
  split at read
  · cases read
  · rename_i known
    rw [if_neg known]
    refine (readLengthLengths_readsOn _).bind read fun written afterLengths read => ?_
    dsimp only at read ⊢
    split at read
    · cases read
    · obtain ⟨⟨all, last⟩, lengths, read⟩ := bind_eq_ok_iff.mp read
      have fueled : afterLengths.length ≤ (afterLengths ++ more).length := by simp
      refine bind_eq_ok_iff.mpr ⟨_, readLengths_more lengths fueled more, ?_⟩
      dsimp only at read ⊢
      split at read
      · cases read
        rfl
      · cases read

theorem symbols_more {literals distances : CodeTree} {fuel enough : Nat} {stream rest : List Bool}
    {output written : Array UInt8}
    (read : symbols none literals distances fuel stream output = ⟨written, .ok rest⟩)
    (fueled : fuel ≤ enough) (more : List Bool) :
    symbols none literals distances enough (stream ++ more) output =
      ⟨written, .ok (rest ++ more)⟩ := by
  induction fuel generalizing enough stream output with
  | zero =>
    rw [symbols_zero] at read
    cases read
  | succ fuel ih =>
    obtain ⟨enough, rfl⟩ : ∃ n, enough = n + 1 := Nat.exists_eq_succ_of_ne_zero (by omega)
    have fueled : fuel ≤ enough := Nat.le_of_succ_le_succ fueled
    rw [symbols_succ, Option.any_none, if_neg Bool.false_ne_true] at read ⊢
    split at read
    · cases read
    · rename_i symbol after first
      rw [literals.decode_readsOn first more]
      dsimp only
      split at read
      · rename_i byte
        rw [if_pos byte]
        exact ih read fueled
      · rename_i above
        rw [if_neg above]
        split at read
        · rename_i final
          rw [if_pos final]
          cases read
          rfl
        · rename_i copies
          rw [if_neg copies]
          split at read
          · cases read
          · rename_i length distance last copied
            rw [copyOf_more copied more]
            exact ih read fueled

theorem storedBytes_more {count : Nat} {stream rest : List Bool} {output written : Array UInt8}
    (read : storedBytes none count stream output = ⟨written, .ok rest⟩) (more : List Bool) :
    storedBytes none count (stream ++ more) output = ⟨written, .ok (rest ++ more)⟩ := by
  induction count generalizing stream output with
  | zero =>
    rw [storedBytes] at read ⊢
    cases read
    rfl
  | succ count ih =>
    rw [storedBytes, Option.any_none, if_neg Bool.false_ne_true] at read ⊢
    split at read
    · cases read
    · rename_i b after first
      rw [takeNumber_readsOn 8 first more]
      exact ih read

section

variable {stream rest more : List Bool} {output written : Array UInt8}

theorem storedBlock_more (read : storedBlock none stream output = ⟨written, .ok rest⟩)
    (whole : more.length % 8 = 0) :
    storedBlock none (stream ++ more) output = ⟨written, .ok (rest ++ more)⟩ := by
  unfold storedBlock at read ⊢
  dsimp only at read ⊢
  split at read
  · cases read
  · rename_i count after header
    obtain ⟨⟨first, afterCount⟩, counted, header⟩ := bind_eq_ok_iff.mp header
    obtain ⟨⟨second, afterComplement⟩, complemented, header⟩ := bind_eq_ok_iff.mp header
    split at header
    · rename_i complete
      cases header
      simp only [alignToByte_append_whole stream whole, takeNumber_readsOn 16 counted more,
        takeNumber_readsOn 16 complemented more, bind, Except.bind, if_pos complete, pure,
        Except.pure]
      exact storedBytes_more read more
    · cases header

theorem block_more {kind : Nat} (read : block none kind stream output = ⟨written, .ok rest⟩)
    (whole : more.length % 8 = 0) :
    block none kind (stream ++ more) output = ⟨written, .ok (rest ++ more)⟩ := by
  have fueled : stream.length + 1 ≤ (stream ++ more).length + 1 := by simp
  unfold block at read ⊢
  split at read
  · exact storedBlock_more read whole
  · exact symbols_more read fueled more
  · split at read
    · cases read
    · rename_i literals distances after codes
      rw [readCodes_more codes more]
      exact symbols_more read (by simp) more
  · cases read

theorem blocks_more {fuel enough : Nat}
    (read : blocks none fuel stream output = ⟨written, .ok rest⟩) (fueled : fuel ≤ enough)
    (whole : more.length % 8 = 0) :
    blocks none enough (stream ++ more) output = ⟨written, .ok (rest ++ more)⟩ := by
  induction fuel generalizing enough stream output with
  | zero =>
    rw [blocks] at read
    cases read
  | succ fuel ih =>
    obtain ⟨enough, rfl⟩ : ∃ n, enough = n + 1 := Nat.exists_eq_succ_of_ne_zero (by omega)
    have fueled : fuel ≤ enough := Nat.le_of_succ_le_succ fueled
    rw [blocks] at read
    dsimp only at read
    split at read
    · cases read
    · rename_i final kind body header
      obtain ⟨⟨mark, afterMark⟩, marked, header⟩ := bind_eq_ok_iff.mp header
      obtain ⟨⟨tag, afterTag⟩, tagged, header⟩ := bind_eq_ok_iff.mp header
      obtain ⟨rfl, rfl, rfl⟩ : mark = final ∧ tag = kind ∧ afterTag = body := by
        simpa [pure, Except.pure] using header
      have marked := takeNumber_readsOn 1 marked more
      have tagged := takeNumber_readsOn 2 tagged more
      split at read
      · rename_i stop
        rw [read] at stop
        cases stop
      · rename_i after goesOn
        have first : block none tag afterTag output =
            ⟨(block none tag afterTag output).output, .ok after⟩ := by
          rw [← goesOn]
        rw [blocks_of_block marked tagged (block_more first whole)]
        split at read
        · rename_i last
          rw [if_pos last]
          rw [first] at read
          cases read
          rfl
        · rename_i between
          rw [if_neg between]
          exact ih read fueled

end

theorem inflate_more {stream rest more : List Bool} {written : Array UInt8}
    (read : inflate none stream = ⟨written, .ok rest⟩) (whole : more.length % 8 = 0) :
    inflate none (stream ++ more) = ⟨written, .ok (rest ++ more)⟩ :=
  blocks_more read (by simp) whole

end Deflate

namespace Gzip

theorem dropText_more {bytes rest : List UInt8} (dropped : dropText bytes = some rest)
    (more : List UInt8) : dropText (bytes ++ more) = some (rest ++ more) := by
  unfold dropText at dropped
  dsimp only at dropped
  split at dropped
  · cases dropped
  · rename_i short
    split at dropped
    · rename_i mark later split
      obtain rfl := Option.some.inj dropped
      have inside : (bytes.takeWhile (· != 0)).length < bytes.length :=
        List.drop_eq_nil_iff.not.mp (by rw [split]; simp) |> Nat.lt_of_not_le
      have text : (bytes ++ more).takeWhile (· != 0) = bytes.takeWhile (· != 0) := by
        rw [List.takeWhile_append, if_neg (Nat.ne_of_lt inside)]
      unfold dropText
      dsimp only
      rw [text, if_neg short, List.drop_append_of_le_length (Nat.le_of_lt inside), split]
      rfl
    · cases dropped

theorem dropField_more {bytes rest : List UInt8} (dropped : dropField bytes = some rest)
    (more : List UInt8) : dropField (bytes ++ more) = some (rest ++ more) := by
  unfold dropField at dropped
  split at dropped
  · rename_i low high body
    dsimp only at dropped
    split at dropped
    · cases dropped
    · rename_i enough
      obtain rfl := Option.some.inj dropped
      have enough' : ¬ (body ++ more).length < low.toNat + 256 * high.toNat := by
        rw [List.length_append]
        omega
      rw [List.cons_append, List.cons_append, dropField, if_neg enough',
        List.drop_append_of_le_length (Nat.not_lt.mp enough)]
  · cases dropped

/-- The check is over what stands before it, which stays when more follows. -/
theorem dropHeaderCheck_more {whole bytes rest : List UInt8}
    (dropped : dropHeaderCheck whole bytes = some rest) (more : List UInt8) :
    dropHeaderCheck (whole ++ more) (bytes ++ more) = some (rest ++ more) := by
  unfold dropHeaderCheck at dropped
  split at dropped
  · rename_i low high body
    dsimp only at dropped
    split at dropped
    · rename_i fits
      obtain rfl := Option.some.inj dropped
      have header : (whole ++ more).take ((whole ++ more).length -
          (low :: high :: (body ++ more)).length) =
          whole.take (whole.length - (low :: high :: body).length) := by
        have same : (whole ++ more).length - (low :: high :: (body ++ more)).length =
            whole.length - (low :: high :: body).length := by
          simp only [List.length_append, List.length_cons]
          omega
        rw [same, List.take_append_of_le_length (Nat.sub_le _ _)]
      rw [List.cons_append, List.cons_append, dropHeaderCheck, header, if_pos fits]
    · cases dropped
  · cases dropped

theorem dropIf_more {present : Bool} {drop drop' : List UInt8 → Option (List UInt8)}
    {bytes rest more : List UInt8}
    (goesOn : ∀ {rest}, drop bytes = some rest → drop' (bytes ++ more) = some (rest ++ more))
    (dropped : dropIf present drop bytes = some rest) :
    dropIf present drop' (bytes ++ more) = some (rest ++ more) := by
  cases present with
  | false =>
    cases dropped
    rfl
  | true => exact goesOn dropped

theorem dropHeader?_cons (flags a b c d e f : UInt8) (rest : List UInt8) :
    dropHeader? (0x1F :: 0x8B :: 8 :: flags :: a :: b :: c :: d :: e :: f :: rest) =
      if flags.toNat.testBit 5 || flags.toNat.testBit 6 || flags.toNat.testBit 7 then none
      else (do
        let afterField ← dropIf (flags.toNat.testBit 2) dropField rest
        let afterName ← dropIf (flags.toNat.testBit 3) dropText afterField
        let afterComment ← dropIf (flags.toNat.testBit 4) dropText afterName
        dropIf (flags.toNat.testBit 1)
          (dropHeaderCheck (0x1F :: 0x8B :: 8 :: flags :: a :: b :: c :: d :: e :: f :: rest))
          afterComment) :=
  rfl

theorem dropHeader?_more {bytes rest : List UInt8} (dropped : dropHeader? bytes = some rest)
    (more : List UInt8) : dropHeader? (bytes ++ more) = some (rest ++ more) := by
  unfold dropHeader? at dropped
  split at dropped
  · rename_i flags _ _ _ _ _ _ body
    dsimp only at dropped
    split at dropped
    · cases dropped
    · rename_i known
      simp only [Option.bind_eq_bind, Option.bind_eq_some_iff] at dropped
      obtain ⟨afterField, field, afterName, name, afterComment, comment, check⟩ := dropped
      have field := dropIf_more (fun h => dropField_more h more) field
      have name := dropIf_more (fun h => dropText_more h more) name
      have comment := dropIf_more (fun h => dropText_more h more) comment
      have check := dropIf_more (fun h => dropHeaderCheck_more h more) check
      simp only [List.cons_append] at check ⊢
      rw [dropHeader?_cons, if_neg known]
      simp only [Option.bind_eq_bind, Option.bind_eq_some_iff]
      exact ⟨_, field, _, name, _, comment, check⟩
  · cases dropped

end Gzip
end Headroom.Codec
