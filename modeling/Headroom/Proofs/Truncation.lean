import Headroom.Proofs.Limits
import Headroom.Proofs.Streams

/-!
A payload that is cut short is refused, wherever the cut falls. A member of gzip ends with its
trailer, and what is read of the front of it would have to leave the trailer whole
(`Gzip.IsMember.unpack_cut`). A cut between two groups of base64 leaves the front of the bytes,
any other cut no text at all (`Base64.decode?_cut`). The text of an object is complete with its
last bracket and no sooner (`Json.Raw.ofBytes?_cut`).
-/
namespace Headroom

namespace Codec

theorem length_of_takeNumber {count n : Nat} {stream rest : List Bool}
    (read : takeNumber count stream = .ok (n, rest)) : stream.length = count + rest.length := by
  induction count generalizing stream n with
  | zero =>
    cases read
    rw [Nat.zero_add]
  | succ count ih =>
    cases stream with
    | nil => cases read
    | cons bit later =>
      obtain ⟨⟨high, after⟩, inner, ⟨⟩⟩ := bind_eq_ok_iff.mp read
      rw [List.length_cons, ih inner]
      omega

theorem length_littleEndian (count n : Nat) : (littleEndian count n).length = count := by
  induction count generalizing n with
  | zero => rfl
  | succ count ih => rw [littleEndian, List.length_cons, ih]

namespace Gzip

/-- The bits of a trailer. -/
def trailerSize : Nat := 64

theorem trailerSize_le_of_fits {stream : List Bool} {output : List UInt8}
    (fits : trailerFits stream output = true) : trailerSize ≤ (alignToByte stream).length := by
  unfold trailerFits at fits
  dsimp only at fits
  split at fits
  · rename_i check length read
    obtain ⟨⟨check, afterCheck⟩, first, read⟩ := bind_eq_ok_iff.mp read
    obtain ⟨⟨length, afterLength⟩, second, -⟩ := bind_eq_ok_iff.mp read
    have first : (alignToByte stream).length = 32 + afterCheck.length := length_of_takeNumber first
    have second : afterCheck.length = 32 + afterLength.length := length_of_takeNumber second
    rw [trailerSize]
    omega
  · cases fits

/-- Bytes that hold the content, and end where the trailer after it ends. -/
structure IsMember (content bytes : List UInt8) : Prop where
  unpacks : unpack none bytes = .ok content
  ends : ∀ body rest, dropHeader? bytes = some body →
    Deflate.inflate none (bits body) = ⟨content.toArray, .ok rest⟩ →
    (alignToByte rest).length = trailerSize

theorem isMember_pack (content : List UInt8) : IsMember content (pack content) := by
  refine ⟨unpack_pack content, fun body rest header read => ?_⟩
  let trailer := littleEndian 4 (Crc32.ofBytes content).toNat ++
    littleEndian 4 (content.length % UInt32.size)
  have begins : dropHeader? (pack content) = some (Deflate.store content ++ trailer) := by
    rw [pack, List.append_assoc, List.append_assoc]
    rfl
  obtain rfl := Option.some.inj (begins.symm.trans header)
  rw [Deflate.inflate_store] at read
  obtain rfl : bits trailer = rest := by simpa using read
  have nothing : ([] : List Bool).length < 8 := by decide
  have aligned : alignToByte (bits trailer) = bits trailer := alignToByte_append nothing trailer
  rw [aligned, length_bits, List.length_append, length_littleEndian, length_littleEndian]
  rfl

/-- What is read of the front of a member leaves the trailer and what was cut off. -/
theorem IsMember.unpack_cut {content bytes cut : List UInt8} (member : IsMember content bytes)
    (front : cut <+: bytes) (short : cut ≠ bytes) (found : List UInt8) :
    unpack none cut ≠ .ok found := by
  intro unpacked
  obtain ⟨more, rfl⟩ := front
  obtain ⟨body, rest, header, read, -, fits⟩ := unpackWithin_eq_ok_iff.mp unpacked
  have whole : (bits more).length % 8 = 0 := by
    rw [length_bits, Nat.mul_mod_right]
  have header := dropHeader?_more header more
  have read := Deflate.inflate_more read whole
  rw [← bits_append] at read
  obtain ⟨body', rest', header', read', -, -⟩ := unpackWithin_eq_ok_iff.mp member.unpacks
  obtain rfl := Option.some.inj (header.symm.trans header')
  obtain rfl : found = content := by
    have same := read.symm.trans read'
    simpa using congrArg (fun progress => progress.output.toList) same
  have ends := member.ends _ _ header read
  rw [alignToByte_append_whole rest whole, List.length_append, length_bits] at ends
  have enough := trailerSize_le_of_fits fits
  have nothing : more = [] := List.eq_nil_of_length_eq_zero (by omega)
  exact short (by rw [nothing, List.append_nil])

end Gzip

namespace Base64

/-- Fewer letters than a group has are no group, unless there are none. -/
theorem decodeOnto_few {text done read : List UInt8} (few : text.length < 4)
    (decoded : decodeOnto done text = some read) : read = done.reverse := by
  obtain _ | ⟨a, _ | ⟨b, _ | ⟨c, _ | ⟨d, rest⟩⟩⟩⟩ := text
  case nil => exact (Option.some.inj decoded).symm
  case cons.cons.cons.cons =>
    simp only [List.length_cons] at few
    omega
  all_goals cases decoded

/-- A text that is cut between two groups is read as the front of the bytes; cut within a group,
it is no text. -/
theorem decodeOnto_cut {bytes cut done read : List UInt8} (front : cut <+: encode bytes)
    (fewer : cut.length < (encode bytes).length) (decoded : decodeOnto done cut = some read) :
    ∃ kept, kept <+: bytes ∧ kept ≠ bytes ∧ read = done.reverse ++ kept := by
  have within {bytes cut done : List UInt8} (decoded : decodeOnto done cut = some read)
      (few : cut.length < 4) (more : bytes ≠ []) :
      ∃ kept, kept <+: bytes ∧ kept ≠ bytes ∧ read = done.reverse ++ kept :=
    ⟨[], List.nil_prefix, more.symm, by rw [decodeOnto_few few decoded, List.append_nil]⟩
  induction bytes using encode.induct generalizing cut done with
  | case1 a b c rest ih =>
    by_cases few : cut.length < 4
    · exact within decoded few (List.cons_ne_nil _ _)
    have group : (encode [a, b, c]).length = 4 := rfl
    rw [encode_cons] at front fewer
    obtain ⟨later, rfl⟩ : encode [a, b, c] <+: cut :=
      List.prefix_of_prefix_length_le (List.prefix_append _ _) front (by omega)
    rw [decodeOnto_full] at decoded
    rw [List.length_append, List.length_append, Nat.add_lt_add_iff_left] at fewer
    obtain ⟨kept, ⟨more, rfl⟩, part, rfl⟩ :=
      ih ((List.prefix_append_right_inj _).mp front) fewer decoded
    refine ⟨a :: b :: c :: kept, ⟨more, rfl⟩, fun same => part ?_, by simp⟩
    simpa using same
  | case2 a b => exact within decoded fewer (List.cons_ne_nil _ _)
  | case3 a => exact within decoded fewer (List.cons_ne_nil _ _)
  | case4 => exact absurd fewer (Nat.not_lt_zero _)

theorem decode?_cut {bytes cut read : List UInt8} (front : cut <+: encode bytes)
    (short : cut ≠ encode bytes) (decoded : decode? cut = some read) :
    read <+: bytes ∧ read ≠ bytes := by
  have fewer : cut.length < (encode bytes).length :=
    Nat.lt_of_le_of_ne front.length_le (mt front.eq_of_length short)
  obtain ⟨kept, front, part, rfl⟩ := decodeOnto_cut front fewer decoded
  exact ⟨front, part⟩

end Base64
end Codec

namespace Json

/-- Where bytes leave the machine, and the tokens that they complete. -/
def Lexing.lex (place : Lexing) : List UInt8 → Lexing × List Token
  | [] => (place, [])
  | b :: rest =>
    let last := (place.step b).1.lex rest
    (last.1, (place.step b).2 ++ last.2)

theorem tokensFrom_cons (place : Lexing) (b : UInt8) (rest : List UInt8) :
    tokensFrom place [] (b :: rest) = (place.step b).2 ++ tokensFrom (place.step b).1 [] rest := by
  show tokensFrom (place.step b).1 ((place.step b).2.reverse ++ []) rest = _
  rw [tokensFrom_done]
  simp

theorem tokensFrom_append (place : Lexing) (front back : List UInt8) :
    tokensFrom place [] (front ++ back) =
      (place.lex front).2 ++ tokensFrom (place.lex front).1 [] back := by
  induction front generalizing place with
  | nil => rfl
  | cons b rest ih => rw [List.cons_append, tokensFrom_cons, ih, ← List.append_assoc, Lexing.lex]

theorem tokensFrom_lex (place : Lexing) (bytes : List UInt8) :
    tokensFrom place [] bytes = (place.lex bytes).2 ++ (place.lex bytes).1.finish := by
  have whole := tokensFrom_append place bytes []
  rw [List.append_nil] at whole
  rw [whole, tokensFrom]
  simp

/-- The blanks between tokens. -/
def isBlank (b : UInt8) : Bool := b == 0x20 || b == 0x09 || b == 0x0A || b == 0x0D

/-- Within a word or a literal. -/
def Lexing.isWithin : Lexing → Bool
  | .ready | .broken => false
  | .word _ | .literal _ | .escape _ | .hex _ _ => true

/-- A step that breaks off says so, and one that says nothing is within a word or a literal. -/
structure Lexing.Tells (outcome : Lexing × List Token) : Prop where
  broken : outcome.1 = .broken → .broken ∈ outcome.2
  within : outcome.2 = [] → outcome.1.isWithin = true

theorem Lexing.start_blank {b : UInt8} (blank : isBlank b = true) : start b = (.ready, []) := by
  simp only [isBlank, Bool.or_eq_true, beq_iff_eq] at blank
  obtain ((rfl | rfl) | rfl) | rfl := blank <;> rfl

theorem Lexing.start_tells {b : UInt8} (ink : isBlank b = false) : Tells (start b) := by
  have mark (token : Token) : Tells (.ready, [token]) := ⟨by simp, by simp⟩
  unfold start
  split
  case h_5 => exact ⟨by simp, fun _ => rfl⟩
  case h_12 =>
    split
    · exact ⟨by simp, fun _ => rfl⟩
    · exact ⟨fun _ => List.mem_singleton_self _, by simp⟩
  all_goals first | exact mark _ | exact absurd ink (by decide)

theorem Lexing.broken_of_start {b : UInt8} (stops : (start b).1 = .broken) :
    .broken ∈ (start b).2 := by
  cases blank : isBlank b with
  | false => exact (start_tells blank).broken stops
  | true =>
    rw [start_blank blank] at stops
    cases stops

theorem Lexing.step_tells {place : Lexing} (within : place.isWithin = true) (b : UInt8) :
    Tells (place.step b) := by
  have goesOn {next : Lexing} (within : next.isWithin = true) : Tells (next, []) := by
    refine ⟨?_, fun _ => within⟩
    rintro rfl
    cases within
  have breaks : Tells (.broken, [.broken]) := ⟨fun _ => List.mem_singleton_self _, by simp⟩
  cases place with
  | word bytes =>
    rw [step]
    split
    · exact goesOn rfl
    · split
      · exact breaks
      · exact ⟨fun stops => List.mem_cons_of_mem _ (broken_of_start stops), by simp⟩
  | literal bytes =>
    rw [step]
    split
    · exact ⟨by simp, by simp⟩
    split
    · exact goesOn rfl
    split
    · exact breaks
    · exact goesOn rfl
  | escape bytes =>
    rw [step]
    split
    · exact goesOn rfl
    split
    · exact goesOn rfl
    · exact breaks
  | hex missing bytes =>
    rw [step]
    split
    · split
      · exact goesOn rfl
      · exact goesOn rfl
    · exact breaks
  | ready => cases within
  | broken => cases within

/-- Where the machine has broken off, the tokens say so. -/
theorem Lexing.broken_of_lex {place : Lexing} {bytes : List UInt8} (goes : place ≠ .broken)
    (stops : (place.lex bytes).1 = .broken) : .broken ∈ (place.lex bytes).2 := by
  induction bytes generalizing place with
  | nil => exact absurd stops goes
  | cons b rest ih =>
    rw [lex] at stops ⊢
    rw [List.mem_append]
    by_cases broken : (place.step b).1 = .broken
    · refine .inl ?_
      cases place with
      | ready => exact broken_of_start broken
      | broken => exact absurd rfl goes
      | word _ | literal _ | escape _ | hex _ _ => exact (step_tells rfl b).broken broken
    · exact .inr (ih broken stops)

theorem tokensFrom_within {place : Lexing} (within : place.isWithin = true) (bytes : List UInt8) :
    tokensFrom place [] bytes ≠ [] := by
  induction bytes generalizing place with
  | nil =>
    rw [tokensFrom_lex]
    cases place <;> simp_all [Lexing.lex, Lexing.finish, Lexing.isWithin]
  | cons b rest ih =>
    intro none
    rw [tokensFrom_cons] at none
    obtain ⟨quiet, none⟩ := List.append_eq_nil_iff.mp none
    exact ih ((Lexing.step_tells within b).within quiet) none

/-- Bytes that are not all blank hold a token. -/
theorem tokens_ne_nil {bytes : List UInt8} (ink : ∃ b ∈ bytes, isBlank b = false) :
    tokens bytes ≠ [] := by
  induction bytes with
  | nil => simp at ink
  | cons b rest ih =>
    intro none
    rw [tokens, tokensFrom_cons] at none
    obtain ⟨quiet, none⟩ := List.append_eq_nil_iff.mp none
    cases blank : isBlank b with
    | false => exact tokensFrom_within ((Lexing.start_tells blank).within quiet) rest none
    | true =>
      have later : ∃ b ∈ rest, isBlank b = false := by simpa [blank] using ink
      rw [Lexing.step, Lexing.start_blank blank] at none
      exact ih later none

/-- A word that is read on is the first token that is read. -/
theorem tokensFrom_word (bytes : List UInt8) (word : List UInt8) :
    ∃ whole later, tokensFrom (.word word) [] bytes = Token.ofWord whole :: later := by
  induction bytes generalizing word with
  | nil => exact ⟨word.reverse, [], rfl⟩
  | cons b rest ih =>
    rw [tokensFrom_cons, Lexing.step]
    split
    · exact ih (b :: word)
    · split
      · rename_i broken
        exact ⟨word.reverse, _, by rw [broken]; rfl⟩
      · exact ⟨word.reverse, _, rfl⟩

namespace Building

theorem run_append (state : Building) (early late : List Token) :
    state.run (early ++ late) = (state.run early).bind fun next => next.run late := by
  induction early generalizing state with
  | nil => rfl
  | cons token rest ih =>
    simp only [List.cons_append, run]
    cases state.step token with
    | none => rfl
    | some next => exact ih next

theorem step_broken (state : Building) : state.step .broken = none := by
  cases state with
  | complete value outer =>
    cases outer with
    | nil => rfl
    | cons frame outer => cases frame <;> rfl
  | _ => rfl

theorem run_broken {tokens : List Token} (broken : .broken ∈ tokens) (state : Building) :
    state.run tokens = none := by
  induction tokens generalizing state with
  | nil => cases broken
  | cons token rest ih =>
    rw [run]
    cases broken with
    | head => rw [step_broken, Option.bind_none]
    | tail _ later =>
      cases state.step token with
      | none => rfl
      | some next => exact ih later next

/-- Nothing follows a value that is complete. -/
theorem run_complete {value : Raw} {tokens : List Token} {last : Building}
    (built : (complete value []).run tokens = some last) :
    tokens = [] ∧ last = complete value [] := by
  cases tokens with
  | nil => exact ⟨rfl, (Option.some.inj built).symm⟩
  | cons token rest => cases built

end Building

theorem Building.eq_complete_of_result? {state : Building} {value : Raw}
    (done : state.result? = some value) : state = .complete value [] := by
  unfold result? at done
  split at done
  · cases done
    rfl
  · cases done

/-- What a word can be: no mark, and no text. -/
inductive Token.IsPlain : Token → Prop where
  | null : IsPlain .null
  | bool (value : Bool) : IsPlain (.bool value)
  | number (value : Numeral) : IsPlain (.number value)
  | broken : IsPlain .broken

theorem Token.isPlain_ofWord (word : List UInt8) : (Token.ofWord word).IsPlain := by
  unfold ofWord
  dsimp only
  split
  · exact .null
  · exact .bool true
  · exact .bool false
  · split
    · exact .number _
    · exact .broken

/-- A word completes a text only if it is all of the text. -/
theorem Building.eq_expectValue_of_step {state : Building} {token : Token} {tree : Raw}
    (plain : token.IsPlain) (done : state.step token = some (.complete tree [])) :
    state = .expectValue [] := by
  cases state with
  | expectValue outer => cases plain <;> simp_all [step, begin]
  | complete value outer =>
    cases outer with
    | nil => cases done
    | cons frame outer => cases frame <;> cases plain <;> cases done
  | _ => cases plain <;> cases done

/-- A word is no object. -/
theorem Building.step_plain {token : Token} {next : Building} (plain : token.IsPlain)
    (begun : (expectValue []).step token = some next) :
    ∃ value, next = .complete value [] ∧ ∀ members, value ≠ .object members := by
  cases plain <;> cases begun <;> exact ⟨_, rfl, by simp⟩

/-- The text of an object is whole only with what stands at its end. -/
theorem Raw.ofBytes?_cut {front back : List UInt8} {members : List (Option String × Raw)}
    (text : ofBytes? (front ++ back) = some (.object members))
    (ink : ∃ b ∈ back, isBlank b = false) : ofBytes? front = none := by
  rw [Option.eq_none_iff_forall_ne_some]
  intro tree part
  obtain ⟨last, built, done⟩ := Option.bind_eq_some_iff.mp text
  obtain rfl := Building.eq_complete_of_result? done
  obtain ⟨last, ended, done⟩ := Option.bind_eq_some_iff.mp part
  obtain rfl := Building.eq_complete_of_result? done
  rw [tokens, tokensFrom_append, Building.run_append] at built
  rw [tokens, tokensFrom_lex, Building.run_append] at ended
  obtain ⟨state, early, built⟩ := Option.bind_eq_some_iff.mp built
  rw [early, Option.bind_some] at ended
  cases place : (Lexing.ready.lex front).1 with
  | ready =>
    -- All of the front is read, and more follows it.
    rw [place] at built ended
    obtain rfl := Option.some.inj ended
    exact tokens_ne_nil ink (Building.run_complete built).1
  | word word =>
    -- The front is one word, and so is the beginning of the whole.
    rw [place] at built ended
    obtain ⟨whole, later, goesOn⟩ := tokensFrom_word back word
    obtain ⟨_, step, ⟨⟩⟩ := Option.bind_eq_some_iff.mp ended
    obtain rfl := Building.eq_expectValue_of_step (Token.isPlain_ofWord _) step
    rw [goesOn] at built
    obtain ⟨_, step, built⟩ := Option.bind_eq_some_iff.mp built
    obtain ⟨value, rfl, other⟩ := Building.step_plain (Token.isPlain_ofWord _) step
    obtain ⟨rfl, same⟩ := Building.run_complete built
    cases same
    exact other members rfl
  | broken =>
    have starts : Lexing.ready ≠ .broken := by decide
    rw [Building.run_broken (Lexing.broken_of_lex starts place)] at early
    cases early
  | literal _ | escape _ | hex _ _ =>
    rw [place, Lexing.finish, Building.run_broken (List.mem_singleton_self _)] at ended
    cases ended

end Json

namespace LogBatch

/-- The payloads that hold the content. -/
inductive Packs (content : List UInt8) : Encoding → List UInt8 → Prop where
  | gzipBase64 {member : List UInt8} (packed : Codec.Gzip.IsMember content member) :
    Packs content .gzipBase64 (Codec.Base64.encode member)
  | gzip {member : List UInt8} (packed : Codec.Gzip.IsMember content member) :
    Packs content .gzip member
  | identity : Packs content .identity content

theorem packs_pack (encoding : Encoding) (content : List UInt8) :
    Packs content encoding (pack encoding content) := by
  cases encoding with
  | gzipBase64 => exact .gzipBase64 (Codec.Gzip.isMember_pack content)
  | gzip => exact .gzip (Codec.Gzip.isMember_pack content)
  | identity => exact .identity

theorem trim_encode_cut {bytes cut : List UInt8} (front : cut <+: Codec.Base64.encode bytes) :
    trim cut = cut :=
  trim_eq_self fun b member =>
    (plain_of_isLetter (Codec.Base64.isLetter_of_mem_encode bytes b (front.subset member))).2

theorem Packs.unpack {encoding : Encoding} {content payload : List UInt8}
    (packed : Packs content encoding payload) : unpack none encoding payload = .ok content := by
  cases packed with
  | gzipBase64 packed =>
    rw [LogBatch.unpack, trim_encode_cut (List.prefix_refl _), Codec.Base64.decode?_encode]
    exact gunzip_eq_ok_iff.mpr packed.unpacks
  | gzip packed => exact gunzip_eq_ok_iff.mpr packed.unpacks
  | identity => rfl

/-- The text of an object, with nothing after its last bracket. -/
structure IsObjectText (content : List UInt8) : Prop where
  reads : ∃ members, Json.Raw.ofBytes? content = some (.object members)
  ends : ∃ b, content.getLast? = some b ∧ Json.isBlank b = false

/-- The front of a packed payload, or of a text, holds no content that can be read. -/
theorem Packs.cut {encoding : Encoding} {content payload cut : List UInt8}
    (packed : Packs content encoding payload) (text : encoding = .identity → IsObjectText content)
    (front : cut <+: payload) (short : cut ≠ payload) {found : List UInt8}
    (unpacked : LogBatch.unpack none encoding cut = .ok found) :
    Json.Raw.ofBytes? found = none := by
  cases packed with
  | gzipBase64 packed =>
    rw [LogBatch.unpack, trim_encode_cut front] at unpacked
    split at unpacked
    · rename_i bytes decoded
      obtain ⟨front, short⟩ := Codec.Base64.decode?_cut front short decoded
      exact absurd (gunzip_eq_ok_iff.mp unpacked) (packed.unpack_cut front short found)
    · cases unpacked
  | gzip packed => exact absurd (gunzip_eq_ok_iff.mp unpacked) (packed.unpack_cut front short found)
  | identity =>
    obtain rfl := Except.ok.inj unpacked
    obtain ⟨⟨members, reads⟩, b, ends, ink⟩ := text rfl
    obtain ⟨more, rfl⟩ := front
    have other : more ≠ [] := fun none => short (by rw [none, List.append_nil])
    rw [List.getLast?_append_of_ne_nil _ other] at ends
    exact Json.Raw.ofBytes?_cut reads ⟨b, List.mem_of_getLast? ends, ink⟩

/-- However content is packed, its payload is unpacked to it, and none that is cut short is
decoded. Plain content counts on being the text of an object. -/
theorem truncation_refused (encoding : Encoding) {content : List UInt8}
    (text : encoding = .identity → IsObjectText content) :
    Packs content encoding (pack encoding content) ∧
      ∀ payload, Packs content encoding payload →
        unpack none encoding payload = .ok content ∧
        ∀ cut, cut <+: payload → cut ≠ payload →
          ∃ detail, decode none encoding cut = .error (.refused (.decode detail)) := by
  refine ⟨packs_pack encoding content, fun payload packed => ⟨packed.unpack, ?_⟩⟩
  intro cut front short
  cases decoded : decode none encoding cut with
  | error failure =>
    obtain ⟨detail, rfl⟩ := decode_error (by simp) decoded
    exact ⟨detail, rfl⟩
  | ok batch =>
    obtain ⟨found, unpacked, read⟩ := unpacked_of_decode decoded
    rw [readContent, packed.cut text front short unpacked] at read
    cases read

/-- An object is told from its first bracket, plain or packed. -/
theorem bare_truncated :
    IsObjectText bare ∧
      (∃ detail, decode none .identity [0x7B] = .error (.refused (.decode detail))) ∧
      ∃ detail, decode none .gzip ((pack .gzip bare).take 20) =
        .error (.refused (.decode detail)) := by
  have text : IsObjectText bare := ⟨⟨[], rfl⟩, 0x7D, rfl, rfl⟩
  have plain := (truncation_refused .identity fun _ => text).2 bare .identity
  have packed := (truncation_refused .gzip fun _ => text).2 _ (packs_pack .gzip bare)
  refine ⟨text, plain.2 [0x7B] ⟨[0x7D], rfl⟩ (by decide), packed.2 _ (List.take_prefix _ _) ?_⟩
  exact fun same => absurd (congrArg List.length same) (by decide)

end LogBatch
end Headroom
