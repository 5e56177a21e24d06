import Headroom.LogBatch.Envelope
import Headroom.Proofs.JsonText
import Mathlib.Data.List.Forall2

/-!
A log envelope that is written as JSON text is read as it was, whatever texts it holds
(`decode_toJson`). Its members may come in any order and among any others, those of its
events as well; what is absent may be null or be left out (`decode_written`). The size of the
text has no bearing.
-/
namespace Headroom

namespace Json

/-- The values that an object has under a key, in order. -/
def valuesOf (key : String) (members : List (String × Json)) : List Json :=
  (members.filter (·.1 = key)).map (·.2)

theorem valuesOf_cons_self (key : String) (value : Json) (rest : List (String × Json)) :
    valuesOf key ((key, value) :: rest) = value :: valuesOf key rest := by
  simp [valuesOf]

theorem valuesOf_cons_other {key other : String} (away : other ≠ key) (value : Json)
    (rest : List (String × Json)) : valuesOf key ((other, value) :: rest) = valuesOf key rest := by
  simp [valuesOf, away]

/-- The known members of an object are collected if each comes at most once, whatever
other members there are. -/
theorem collect_rawMembers {keys : List String} {members : List (String × Json)}
    (once : ∀ key ∈ keys, (valuesOf key members).length ≤ 1) :
    ∃ known, Members.collect keys (rawMembers members) = some known ∧
      ∀ key ∈ keys, known.lookup key = (valuesOf key members).head?.map raw := by
  induction members with
  | nil => exact ⟨[], rfl, fun key _ => rfl⟩
  | cons member rest ih =>
    obtain ⟨name, value⟩ := member
    have later : ∀ key ∈ keys, (valuesOf key rest).length ≤ 1 := by
      intro key member
      have here := once key member
      by_cases same : name = key
      · rw [same, valuesOf_cons_self, List.length_cons] at here
        omega
      · rwa [valuesOf_cons_other same] at here
    obtain ⟨known, collected, found⟩ := ih later
    rw [rawMembers, Members.collect, collected, Option.bind_some]
    by_cases listed : name ∈ keys
    · have none : valuesOf name rest = [] := by
        have here := once name listed
        rw [valuesOf_cons_self, List.length_cons] at here
        exact List.eq_nil_of_length_eq_zero (by omega)
      have fresh : known.any (·.1 == name) = false := by
        have absent := found name listed
        rw [none, List.head?_nil, Option.map_none, List.lookup_eq_none_iff] at absent
        exact List.any_eq_false.mpr fun member inside same =>
          bne_iff_ne.mp (absent member inside) (eq_of_beq same).symm
      refine ⟨(name, value.raw) :: known, by simp [listed, fresh], fun key member => ?_⟩
      by_cases same : name = key
      · subst same
        simp [valuesOf_cons_self]
      · rw [valuesOf_cons_other same, List.lookup_cons, beq_false_of_ne (Ne.symm same)]
        exact found key member
    · refine ⟨known, by simp [listed], fun key member => ?_⟩
      have away : name ≠ key := fun same => listed (by rwa [same])
      rw [valuesOf_cons_other away]
      exact found key member

/-- The known members of an object, found by their keys. -/
theorem members_of?_raw {keys : List String} {members : List (String × Json)}
    (once : ∀ key ∈ keys, (valuesOf key members).length ≤ 1) :
    ∃ m, Members.of? keys (Json.object members).raw = some m ∧ m.keyed = true ∧
      ∀ key ∈ keys, m.find? key = (valuesOf key members).head?.map raw := by
  obtain ⟨known, collected, found⟩ := collect_rawMembers once
  exact ⟨⟨true, known⟩, by rw [raw, Members.of?, collected]; rfl, rfl, found⟩

/-- A member holds a value that may be absent: then it is null or left out. -/
def HoldsOptional (key : String) (members : List (String × Json)) : Option Json → Prop
  | some value => valuesOf key members = [value]
  | none => valuesOf key members = [] ∨ valuesOf key members = [.null]

theorem HoldsOptional.once {key : String} {members : List (String × Json)} {value : Option Json}
    (holds : HoldsOptional key members value) : (valuesOf key members).length ≤ 1 := by
  cases value with
  | some value => exact Nat.le_of_eq (congrArg List.length holds)
  | none =>
    obtain none | null := holds
    · exact Nat.le_succ_of_le (Nat.le_of_eq (congrArg List.length none))
    · exact Nat.le_of_eq (congrArg List.length null)

theorem Reader.optional_eq {α : Type} {read : Reader α} {tree : Raw} (proper : tree ≠ .null) :
    Reader.optional read tree = (read tree).map some := by
  cases tree with
  | null => exact absurd rfl proper
  | _ => rfl

/-- An optional member is read as what it holds. -/
theorem HoldsOptional.read {α : Type} {key : String} {members : List (String × Json)}
    {write : α → Json} {value : Option α} (holds : HoldsOptional key members (value.map write))
    {m : Members} (found : m.find? key = (valuesOf key members).head?.map raw)
    {read : Reader α} (back : ∀ a, read (write a).raw = some a)
    (proper : ∀ a, (write a).raw ≠ .null) :
    m.defaulted key none (.optional read) = some value := by
  cases value with
  | some a =>
    rw [show valuesOf key members = [write a] from holds] at found
    rw [Members.defaulted, found]
    exact (Reader.optional_eq (proper a)).trans (by rw [back]; rfl)
  | none =>
    obtain none | null := holds
    · rw [none] at found
      rw [Members.defaulted, found]
      rfl
    · rw [null] at found
      rw [Members.defaulted, found]
      rfl

/-- The numeral of a whole number of 64 bits stays whole. -/
theorem toNumber?_integer {i : Int} (low : -Nat.pow 2 63 ≤ i) (high : i < UInt64.size) :
    (⟨decide (i < 0), i.natAbs.toUInt64, 0, true⟩ : Numeral).toNumber? = some (.integer i) := by
  have least : Nat.pow 2 63 < UInt64.size := by decide
  have digits : i.natAbs.toUInt64.toNat = i.natAbs := UInt64.toNat_ofNat_of_lt' (by omega)
  have value : (if decide (i < 0) then -(i.natAbs : Int) else i.natAbs) = i := by
    split
    · rename_i below
      have := of_decide_eq_true below
      omega
    · rename_i above
      have := of_decide_eq_false (Bool.not_eq_true _ ▸ above)
      omega
  unfold Numeral.toNumber?
  dsimp only
  rw [digits, value, if_pos]
  refine ⟨rfl, ?_, low⟩
  rintro ⟨below, none⟩
  have below := of_decide_eq_true below
  rw [← UInt64.toNat_inj, digits, UInt64.toNat_zero] at none
  omega

theorem integer_raw {i : Int} (small : i.natAbs < UInt64.size) :
    (Json.integer i).raw = .number ⟨decide (i < 0), i.natAbs.toUInt64, 0, true⟩ := by
  rw [integer, raw, Number.token_integer small]

theorem integer_raw_ne_null (i : Int) : (Json.integer i).raw ≠ .null := by
  obtain ⟨value, read⟩ := (Number.isNumeral_integer i).read
  rw [integer, raw, Number.token, toUTF8_toList, (Number.isNumeral_integer i).word read]
  rintro ⟨⟩

/-- A whole number between the bounds of its reader is read as itself. -/
theorem Reader.integer_raw {low high i : Int} (above : low ≤ i) (below : i < high)
    (least : -Nat.pow 2 63 ≤ low) (most : high ≤ UInt64.size) :
    Reader.integer low high (Json.integer i).raw = some i := by
  have bound : Nat.pow 2 63 < UInt64.size := by decide
  rw [Json.integer_raw (by omega), Reader.integer,
    toNumber?_integer (Int.le_trans least above) (Int.lt_of_lt_of_le below most)]
  exact if_pos ⟨above, below⟩

/-- A whole number of 64 bits with a sign is read as itself. -/
theorem int64_raw (t : Int64) : Reader.int64 (Json.integer t.toInt).raw = some t := by
  have above : -Nat.pow 2 63 ≤ t.toInt := Int64.le_toInt t
  have below : t.toInt < Nat.pow 2 63 := Int64.toInt_lt t
  rw [Reader.int64, Reader.integer_raw above below (by decide) (by decide), Option.map_some,
    Int64.ofInt_toInt]

/-- A whole number of 32 bits is read as itself. -/
theorem uint32_raw (n : UInt32) : Reader.uint32 (Json.count n.toNat).raw = some n := by
  have below : (n.toNat : Int) < UInt32.size := Int.ofNat_lt.mpr n.toNat_lt
  rw [Reader.uint32, count,
    Reader.integer_raw (Int.natCast_nonneg _) below (by decide) (by decide), Option.map_some,
    Int.toNat_natCast, Nat.toUInt32, UInt32.ofNat_toNat]

end Json

namespace LogBatch

open Json (valuesOf HoldsOptional members_of?_raw)

/-- An object holds an event: its message once, its time if it has one, and anything else. -/
structure EventMembers (event : Record) (members : List (String × Json)) : Prop where
  message : valuesOf "message" members = [.string event.message]
  timestamp : HoldsOptional "timestamp" members (event.timestamp.map fun t => .integer t.toInt)

theorem readEvent_written {event : Record} {members : List (String × Json)}
    (holds : EventMembers event members) : readEvent (Json.object members).raw = some event := by
  have once : ∀ key ∈ ["timestamp", "message"], (valuesOf key members).length ≤ 1 := by
    simp [holds.message, holds.timestamp.once]
  obtain ⟨m, known, -, found⟩ := members_of?_raw once
  have timestamp : m.defaulted "timestamp" none (.optional .int64) = some event.timestamp :=
    holds.timestamp.read (found _ (by simp)) Json.int64_raw fun _ => Json.integer_raw_ne_null _
  have message : m.required "message" .string = some event.message := by
    rw [Json.Members.required, found _ (by simp), holds.message]
    rfl
  simp [readEvent, known, timestamp, message]

/-- A value is an object that holds an event. -/
def HoldsEvent (event : Record) (j : Json) : Prop :=
  ∃ members, j = .object members ∧ EventMembers event members

/-- An object holds the events of an envelope as an array; without events it may hold none. -/
def HoldsEvents (members : List (String × Json)) (events : List Record) : Prop :=
  (∃ items, valuesOf "logEvents" members = [.array items] ∧
    List.Forall₂ HoldsEvent events items) ∨
  valuesOf "logEvents" members = [] ∧ events = []

/-- An object holds an envelope, and anything else. -/
structure EnvelopeMembers (e : Envelope) (members : List (String × Json)) : Prop where
  kind : HoldsOptional "messageType" members (e.kind.map .string)
  group : HoldsOptional "logGroup" members (e.group.map .string)
  stream : HoldsOptional "logStream" members (e.stream.map .string)
  events : HoldsEvents members e.events

theorem mapM_readEvent {events : List Record} {items : List Json}
    (written : List.Forall₂ HoldsEvent events items) :
    (Json.rawItems items).mapM readEvent = some events := by
  induction written with
  | nil => rfl
  | cons here _ ih =>
    obtain ⟨members, rfl, holds⟩ := here
    rw [Json.rawItems, List.mapM_cons, readEvent_written holds, ih]
    rfl

theorem HoldsEvents.once {members : List (String × Json)} {events : List Record}
    (holds : HoldsEvents members events) : (valuesOf "logEvents" members).length ≤ 1 := by
  obtain ⟨items, here, -⟩ | ⟨none, -⟩ := holds
  · exact Nat.le_of_eq (congrArg List.length here)
  · exact Nat.le_succ_of_le (Nat.le_of_eq (congrArg List.length none))

theorem HoldsEvents.read {members : List (String × Json)} {events : List Record}
    (holds : HoldsEvents members events) {m : Json.Members}
    (found : m.find? "logEvents" = (valuesOf "logEvents" members).head?.map Json.raw) :
    m.defaulted "logEvents" [] (.list readEvent) = some events := by
  obtain ⟨items, here, written⟩ | ⟨none, rfl⟩ := holds
  · rw [here] at found
    rw [Json.Members.defaulted, found]
    exact mapM_readEvent written
  · rw [none] at found
    rw [Json.Members.defaulted, found]
    rfl

/-- The tree of an object that holds an envelope is read as the envelope. -/
theorem read_written {e : Envelope} {members : List (String × Json)}
    (holds : EnvelopeMembers e members) : Envelope.read (Json.object members).raw = some e := by
  have once : ∀ key ∈ ["messageType", "logGroup", "logStream", "logEvents"],
      (valuesOf key members).length ≤ 1 := by
    simp [holds.kind.once, holds.group.once, holds.stream.once, holds.events.once]
  obtain ⟨m, known, -, found⟩ := members_of?_raw once
  have text {key : String} {value : Option String}
      (holds : HoldsOptional key members (value.map .string))
      (found : m.find? key = (valuesOf key members).head?.map Json.raw) :
      m.defaulted key none (.optional .string) = some value :=
    holds.read found (fun _ => rfl) (fun _ => by rintro ⟨⟩)
  have kind := text holds.kind (found _ (by simp))
  have group := text holds.group (found _ (by simp))
  have stream := text holds.stream (found _ (by simp))
  have events := holds.events.read (found _ (by simp))
  simp [Envelope.read, known, kind, group, stream, events]

theorem holdsEvent_eventToJson (event : Record) : HoldsEvent event (eventToJson event) := by
  refine ⟨_, rfl, by simp [valuesOf], ?_⟩
  cases event.timestamp with
  | none => exact .inr (by simp [valuesOf])
  | some t => simp [HoldsOptional, valuesOf]

/-- The object that an envelope is written as holds it. -/
theorem envelopeMembers_toJson (e : Envelope) :
    ∃ members, e.toJson = .object members ∧ EnvelopeMembers e members := by
  have optional (key : String) (text : Option String) {members : List (String × Json)}
      (here : valuesOf key members = [.optionalString text]) :
      HoldsOptional key members (text.map .string) := by
    cases text with
    | none => exact .inr here
    | some text => exact here
  refine ⟨_, rfl, optional _ e.kind ?_, optional _ e.group ?_, optional _ e.stream ?_, .inl ?_⟩
  · simp [valuesOf]
  · simp [valuesOf]
  · simp [valuesOf]
  · refine ⟨e.events.map eventToJson, by simp [valuesOf], ?_⟩
    rw [List.forall₂_map_right_iff, List.forall₂_same]
    exact fun event _ => holdsEvent_eventToJson event

/-- Text of an object that holds an envelope is decoded to the batch of the envelope. -/
theorem decode_holding {e : Envelope} {members : List (String × Json)}
    (holds : EnvelopeMembers e members) (limit : Option Nat) :
    ∀ text ∈ [(Json.object members).render, (Json.object members).pretty],
      decode limit .identity text.toUTF8.toList = .ok e.batch := by
  intro text form
  have tokens : Json.tokens text.toUTF8.toList = (Json.object members).tokensOf := by
    simp only [List.mem_cons, List.not_mem_nil, or_false] at form
    obtain rfl | rfl := form
    · exact Json.tokens_render _
    · exact Json.tokens_pretty _
  change readContent text.toUTF8.toList = .ok e.batch
  rw [readContent, Json.ofBytes?_of_tokens tokens, Option.bind_some, read_written holds]

/-- An envelope is decoded from the text that it is written as. -/
theorem decode_toJson (e : Envelope) (limit : Option Nat) :
    ∀ text ∈ [e.toJson.render, e.toJson.pretty],
      decode limit .identity text.toUTF8.toList = .ok e.batch := by
  obtain ⟨members, written, holds⟩ := envelopeMembers_toJson e
  rw [written]
  exact decode_holding holds limit

/-- Text that an envelope is written as, on one line or over several and among any other
members, is decoded to what the envelope says. -/
theorem decode_written {e : Envelope} {members : List (String × Json)}
    (holds : EnvelopeMembers e members) (limit : Option Nat) :
    ∀ text ∈ [(Json.object members).render, (Json.object members).pretty],
      decode limit .identity text.toUTF8.toList =
        .ok
          { group := e.group
            stream := e.stream
            control := e.kind = some "CONTROL_MESSAGE"
            records := if e.kind = some "CONTROL_MESSAGE" then [] else e.events } := by
  intro text form
  refine (decode_holding holds limit text form).trans (congrArg Except.ok ?_)
  by_cases control : e.kind = some "CONTROL_MESSAGE"
  · simp [Envelope.batch, controlKind, control]
  · simp [Envelope.batch, controlKind, control]

/-- An envelope with two events, one of them without a time. -/
def mixed : Envelope where
  kind := some "DATA_MESSAGE"
  stream := some "tasks\n\x22π\x22"
  events :=
    [{ message := "\x7b\x22CpuUtilized\x22: 10\x7d \x01\\", timestamp := some (-5) },
      { message := "", timestamp := none }]

/-- The envelope among members that mean nothing, some of them more than once. -/
def mixedMembers : List (String × Json) :=
  [("id", .integer 7),
    ("logEvents", .array
      [.object
        [("message", .string "\x7b\x22CpuUtilized\x22: 10\x7d \x01\\"), ("id", .null),
          ("timestamp", .integer (-5)), ("id", .float 0.5)],
        .object [("timestamp", .null), ("message", .string "")]]),
    ("id", .object [("logGroup", .string "inner")]), ("logGroup", .null),
    ("logStream", .string "tasks\n\x22π\x22"), ("messageType", .string "DATA_MESSAGE")]

theorem mixed_decoded :
    EnvelopeMembers mixed mixedMembers ∧
      decode none .identity (Json.object mixedMembers).render.toUTF8.toList =
        .ok
          { group := none
            stream := mixed.stream
            control := false
            records := mixed.events } := by
  have holds : EnvelopeMembers mixed mixedMembers := by
    refine ⟨rfl, .inr rfl, rfl, .inl ⟨_, rfl, .cons ⟨_, rfl, rfl, rfl⟩ (.cons ?_ .nil)⟩⟩
    exact ⟨_, rfl, rfl, .inr rfl⟩
  exact ⟨holds, decode_written holds none _ (by simp)⟩

end LogBatch
end Headroom
