import Headroom.Proofs.AlarmStates
import Headroom.Proofs.Holdings
import Headroom.Proofs.JsonText

/-!
A message within the envelope of a fan-out topic. The envelope is read as a whole before the
message in it is looked at, so it has to be a value that a program can keep: what it holds beside
the message may be nested only so deep (`Json.Raw.Keepable`). If it is, the message is read as if
it had come by itself, whatever the message says and whatever surrounds it; if it is not, the
message is not looked at (`Notification.ofText_envelope`).
-/
namespace Headroom

namespace Json

/-- A tree with at most `depth` arrays and objects within one another, whose numbers have a value
and whose texts are Unicode. -/
inductive Raw.Keepable : (depth : Nat) → Raw → Prop where
  | null {depth : Nat} : Keepable depth .null
  | bool {depth : Nat} (value : Bool) : Keepable depth (.bool value)
  | number {depth : Nat} {n : Numeral} (valued : n.toNumber?.isSome) : Keepable depth (.number n)
  | string {depth : Nat} (text : String) : Keepable depth (.string (some text))
  | array {depth : Nat} {items : List Raw} (each : ∀ item ∈ items, Keepable depth item) :
    Keepable (depth + 1) (.array items)
  | object {depth : Nat} {members : List (Option String × Raw)}
    (keys : ∀ member ∈ members, member.1.isSome)
    (values : ∀ member ∈ members, Keepable depth member.2) : Keepable (depth + 1) (.object members)

theorem isSome_itemsWithin? {depth : Nat} {items : List Raw} :
    (itemsWithin? depth items).isSome ↔ ∀ item ∈ items, (item.toJsonWithin? depth).isSome := by
  induction items with
  | nil => simp [itemsWithin?]
  | cons item rest ih =>
    rw [itemsWithin?, List.forall_mem_cons, ← ih]
    cases item.toJsonWithin? depth <;> cases itemsWithin? depth rest <;> simp

theorem isSome_membersWithin? {depth : Nat} {members : List (Option String × Raw)} :
    (membersWithin? depth members).isSome ↔
      ∀ member ∈ members, member.1.isSome ∧ (member.2.toJsonWithin? depth).isSome := by
  induction members with
  | nil => simp [membersWithin?]
  | cons member rest ih =>
    obtain ⟨key, value⟩ := member
    rw [membersWithin?, List.forall_mem_cons, ← ih]
    cases key <;> cases value.toJsonWithin? depth <;> cases membersWithin? depth rest <;> simp

section

variable {depth : Nat}

theorem Raw.keepable_number {n : Numeral} : Keepable depth (.number n) ↔ n.toNumber?.isSome := by
  refine ⟨fun keepable => ?_, .number⟩
  cases keepable
  assumption

theorem Raw.keepable_string {text : Option String} :
    Keepable depth (.string text) ↔ text.isSome := by
  constructor
  · intro keepable
    cases keepable
    rfl
  · intro given
    obtain ⟨text, rfl⟩ := Option.isSome_iff_exists.mp given
    exact .string text

theorem Raw.not_keepable_flat_array (items : List Raw) : ¬ Keepable 0 (.array items) := by
  intro keepable
  cases keepable

theorem Raw.not_keepable_flat_object (members : List (Option String × Raw)) :
    ¬ Keepable 0 (.object members) := by
  intro keepable
  cases keepable

theorem Raw.keepable_array {items : List Raw} :
    Keepable (depth + 1) (.array items) ↔ ∀ item ∈ items, item.Keepable depth := by
  refine ⟨fun keepable => ?_, .array⟩
  cases keepable
  assumption

theorem Raw.keepable_object {members : List (Option String × Raw)} :
    Keepable (depth + 1) (.object members) ↔
      ∀ member ∈ members, member.1.isSome ∧ member.2.Keepable depth := by
  constructor
  · intro keepable
    cases keepable with
    | object keys values => exact fun member here => ⟨keys member here, values member here⟩
  · exact fun each => .object (fun member here => (each member here).1)
      fun member here => (each member here).2

end

/-- These are the trees that are kept. -/
theorem Raw.keepable_iff : (depth : Nat) → (tree : Raw) →
    (tree.Keepable depth ↔ (tree.toJsonWithin? depth).isSome)
  | _, .null => iff_of_true .null rfl
  | _, .bool value => iff_of_true (.bool value) rfl
  | _, .number n => by rw [keepable_number, toJsonWithin?, Option.isSome_map]
  | _, .string text => by rw [keepable_string, toJsonWithin?, Option.isSome_map]
  | 0, .array items => iff_of_false (not_keepable_flat_array items) Bool.false_ne_true
  | 0, .object members => iff_of_false (not_keepable_flat_object members) Bool.false_ne_true
  | depth + 1, .array items => by
    rw [keepable_array, toJsonWithin?, if_neg (Nat.succ_ne_zero depth), Option.isSome_map,
      Nat.add_sub_cancel, isSome_itemsWithin?]
    exact forall₂_congr fun item _ => keepable_iff depth item
  | depth + 1, .object members => by
    rw [keepable_object, toJsonWithin?, if_neg (Nat.succ_ne_zero depth), Option.isSome_map,
      Nat.add_sub_cancel, isSome_membersWithin?]
    exact forall₂_congr fun member _ => and_congr_right fun _ => keepable_iff depth member.2

/-- A tree is the last that is written under a key. -/
def Raw.LastMember (members : List (Option String × Raw)) (key : String) (value : Raw) : Prop :=
  ∃ before after, members = before ++ (some key, value) :: after ∧
    ∀ member ∈ after, member.1 ≠ some key

theorem membersWithin?_append {depth : Nat} (front back : List (Option String × Raw)) :
    membersWithin? depth (front ++ back) =
      (membersWithin? depth front).bind fun first =>
        (membersWithin? depth back).map fun last => first ++ last := by
  induction front with
  | nil => simp [membersWithin?]
  | cons member rest ih =>
    obtain ⟨key, value⟩ := member
    rw [List.cons_append, membersWithin?, membersWithin?, ih]
    cases key <;> cases value.toJsonWithin? depth <;> cases membersWithin? depth rest <;>
      cases membersWithin? depth back <;> simp

theorem membersWithin?_cons_eq_some {depth : Nat} {key : Option String} {value : Raw}
    {rest : List (Option String × Raw)} {kept : List (String × Json)} :
    membersWithin? depth ((key, value) :: rest) = some kept ↔
      ∃ name found later, key = some name ∧ value.toJsonWithin? depth = some found ∧
        membersWithin? depth rest = some later ∧ kept = (name, found) :: later := by
  rw [membersWithin?]
  cases key <;> cases value.toJsonWithin? depth <;> cases membersWithin? depth rest <;>
    simp [eq_comm]

/-- What is kept under a key was written under it. -/
theorem mem_of_membersWithin? {depth : Nat} {members : List (Option String × Raw)}
    {kept : List (String × Json)} (read : membersWithin? depth members = some kept) :
    ∀ member ∈ kept, ∃ written ∈ members, written.1 = some member.1 := by
  induction members generalizing kept with
  | nil =>
    cases read
    simp
  | cons written rest ih =>
    obtain ⟨name, found, later, named, -, others, rfl⟩ := membersWithin?_cons_eq_some.mp read
    intro member here
    cases here with
    | head => exact ⟨written, List.mem_cons_self, named⟩
    | tail _ here =>
      obtain ⟨source, here, same⟩ := ih others member here
      exact ⟨source, List.mem_cons_of_mem _ here, same⟩

section

variable {depth : Nat} {j : Json}

/-- The member that is kept is the last that is written. -/
theorem member?_of_lastMember {members : List (Option String × Raw)} {key : String} {value : Raw}
    (kept : (Raw.object members).toJsonWithin? depth = some j)
    (last : Raw.LastMember members key value) :
    ∃ found, value.toJsonWithin? (depth - 1) = some found ∧ j.member? key = some found := by
  rw [Raw.toJsonWithin?] at kept
  split at kept
  · cases kept
  · obtain ⟨pairs, read, rfl⟩ := Option.map_eq_some_iff.mp kept
    obtain ⟨before, after, rfl, free⟩ := last
    rw [membersWithin?_append] at read
    obtain ⟨front, -, read⟩ := Option.bind_eq_some_iff.mp read
    obtain ⟨back, rest, rfl⟩ := Option.map_eq_some_iff.mp read
    obtain ⟨_, found, later, ⟨⟩, here, others, rfl⟩ := membersWithin?_cons_eq_some.mp rest
    refine ⟨found, here, member?_collected.mpr ⟨front, later, rfl, fun member here => ?_⟩⟩
    obtain ⟨written, there, same⟩ := mem_of_membersWithin? others member here
    exact fun key => free written there (by rw [same, key])

theorem item?_zero_of_cons {first : Raw} {more : List Raw}
    (kept : (Raw.array (first :: more)).toJsonWithin? depth = some j) :
    ∃ found, first.toJsonWithin? (depth - 1) = some found ∧ j.item? 0 = some found := by
  rw [Raw.toJsonWithin?] at kept
  split at kept
  · cases kept
  · obtain ⟨items, read, rfl⟩ := Option.map_eq_some_iff.mp kept
    rw [itemsWithin?] at read
    obtain ⟨found, here, read⟩ := Option.bind_eq_some_iff.mp read
    obtain ⟨later, -, read⟩ := Option.bind_eq_some_iff.mp read
    cases read
    exact ⟨found, here, rfl⟩

end

end Json

namespace Notification

open Json (Raw)

/-- The tree of an envelope whose first record has the text as its message. Whatever else the
envelope, its record and the topic's part of it hold is left open. -/
inductive Envelops (text : String) : Raw → Prop where
  | intro {members record topic : List (Option String × Raw)} {more : List Raw}
    (records : Raw.LastMember members "Records" (.array (.object record :: more)))
    (sns : Raw.LastMember record "Sns" (.object topic))
    (message : Raw.LastMember topic "Message" (.string (some text))) :
    Envelops text (.object members)

variable {envelope text : String} {tree : Raw} {message : Json}

theorem Envelops.carries (wraps : Envelops text tree)
    (written : Raw.ofString? envelope = some tree) (keepable : tree.Keepable Json.depthLimit)
    (read : Json.ofString? text = some message) : Carries envelope message := by
  obtain ⟨value, kept⟩ := Option.isSome_iff_exists.mp ((Raw.keepable_iff _ tree).mp keepable)
  have parsed : Json.ofString? envelope = some value := (Json.ofString?_of_raw written).trans kept
  obtain ⟨records, sns, told⟩ := wraps
  obtain ⟨_, kept, held⟩ := Json.member?_of_lastMember kept records
  obtain ⟨_, kept, first⟩ := Json.item?_zero_of_cons kept
  obtain ⟨_, kept, topic⟩ := Json.member?_of_lastMember kept sns
  obtain ⟨_, kept, text⟩ := Json.member?_of_lastMember kept told
  cases kept
  refine ⟨value, parsed, unwrap_of_records held ?_ read⟩
  rw [first, Option.bind_some, topic, Option.bind_some, text]

theorem carries_self (read : Json.ofString? text = some message)
    (alone : message.member? "Records" = none) : Carries text message := by
  refine ⟨message, read, ?_⟩
  rw [unwrap, alone]

/-- What is refused as no JSON. -/
theorem ofText_of_not_keepable (written : Raw.ofString? text = some tree)
    (unkept : ¬ tree.Keepable Json.depthLimit) :
    ofText text = .error (.validation "notification is not valid JSON: malformed text") := by
  have none : Json.ofString? text = none := by
    rw [Json.ofString?_of_raw written, Raw.toJson?, ← Option.not_isSome_iff_eq_none,
      ← Raw.keepable_iff]
    exact unkept
  rw [ofText, none]

/-- A message is read in an envelope as it is by itself, if the envelope can be kept as a value,
and not looked at otherwise. -/
theorem ofText_envelope (written : Raw.ofString? envelope = some tree)
    (wraps : Envelops text tree) (read : Json.ofString? text = some message)
    (alone : message.member? "Records" = none) :
    (tree.Keepable Json.depthLimit → ofText envelope = ofText text) ∧
      (¬ tree.Keepable Json.depthLimit →
        ofText envelope =
          .error (.validation "notification is not valid JSON: malformed text")) := by
  refine ⟨fun keepable => ?_, ofText_of_not_keepable written⟩
  rw [(wraps.carries written keepable read).ofText, (carries_self read alone).ofText]

def alarmText : String := "\x7b\"AlarmName\":\"memory\"\x7d"

theorem alarmText_read :
    Json.ofString? alarmText = some (.object [("AlarmName", .string "memory")]) := by
  with_unfolding_all rfl

/-- The alarm in the first of two records, and another member before them. -/
def parcel (other : Json) : Json :=
  .object [("Other", other), ("Records", .array
    [.object [("Sns", .object [("Subject", .null), ("Message", .string alarmText)])], .null])]

theorem envelops_parcel (other : Json) : Envelops alarmText (parcel other).raw :=
  .intro ⟨[_], [], rfl, by simp⟩ ⟨[], [], rfl, by simp⟩ ⟨[_], [], rfl, by simp⟩

/-- The alarm is read out of the envelope. -/
theorem parcel_read :
    (parcel (.bool true)).raw.Keepable Json.depthLimit ∧
      ofText (parcel (.bool true)).render = .ok { alarm := some "memory" } := by
  have keepable : (parcel (.bool true)).raw.Keepable Json.depthLimit := by
    rw [Raw.keepable_iff]
    rfl
  have same := ofText_envelope (Raw.ofString?_render _) (envelops_parcel (.bool true))
    alarmText_read rfl
  refine ⟨keepable, ?_⟩
  rw [same.1 keepable, ofText, alarmText_read]
  rfl

/-- Arrays within one another. -/
def nested : (depth : Nat) → Json
  | 0 => .array []
  | depth + 1 => .array [nested depth]

theorem not_keepable_nested (depth : Nat) : ¬ (nested depth).raw.Keepable depth := by
  induction depth with
  | zero => exact Raw.not_keepable_flat_array []
  | succ depth ih => exact fun keepable => ih (Raw.keepable_array.mp keepable _ List.mem_cons_self)

theorem not_keepable_parcel {other : Json} {depth : Nat} (deep : ¬ other.raw.Keepable depth) :
    ¬ (parcel other).raw.Keepable (depth + 1) :=
  fun keepable => deep (Raw.keepable_object.mp keepable _ List.mem_cons_self).2

/-- Beside a value that is nested too deep the alarm is not looked at. -/
theorem deep_parcel_refused :
    (Json.ofString? alarmText = some (.object [("AlarmName", .string "memory")]) ∧
      Raw.ofString? (parcel (nested 126)).render = some (parcel (nested 126)).raw ∧
      Envelops alarmText (parcel (nested 126)).raw) ∧
    ofText alarmText = .ok { alarm := some "memory" } ∧
    ofText (parcel (nested 126)).render =
      .error (.validation "notification is not valid JSON: malformed text") := by
  have written := Raw.ofString?_render (parcel (nested 126))
  have unkept : ¬ (parcel (nested 126)).raw.Keepable Json.depthLimit :=
    not_keepable_parcel (not_keepable_nested 126)
  refine ⟨⟨alarmText_read, written, envelops_parcel _⟩, ?_, ofText_of_not_keepable written unkept⟩
  rw [ofText, alarmText_read]
  rfl

end Notification
end Headroom
