import Headroom.Sample
import Mathlib.Data.List.Basic
import Mathlib.Data.List.Induction
import Mathlib.Data.List.TakeWhile

/-!
What a record holds. Its message is an object or not; the members of an object are told as they
are written, where the last one under a key counts (`Json.member?_collected`), and a text is told
apart from the blanks around it (`Text.trim_eq_iff`). So a value that a record holds is seen in
what is written, whatever becomes of the members on the way (`Record.holds_iff`).
-/
namespace Headroom

namespace Json

/-- A value is the last that is written under a key. -/
def LastMember (members : List (String × Json)) (key : String) (value : Json) : Prop :=
  ∃ before after, members = before ++ (key, value) :: after ∧ ∀ member ∈ after, member.1 ≠ key

/-- The members that are kept of those that are written. -/
def collected (members : List (String × Json)) : List (String × Json) :=
  members.foldl (fun kept member => insertMember kept member.1 member.2) []

section

variable {members : List (String × Json)} {key : String} {value : Json}

theorem not_lastMember_nil : ¬ LastMember [] key value := by
  rintro ⟨before, after, split, -⟩
  simp at split

theorem lastMember_concat {last : String × Json} :
    LastMember (members ++ [last]) key value ↔
      last = (key, value) ∨ last.1 ≠ key ∧ LastMember members key value := by
  constructor
  · rintro ⟨before, after, split, free⟩
    obtain rfl | ⟨front, final, rfl⟩ := after.eq_nil_or_concat'
    · left
      simpa using (List.append_inj' split rfl).2
    · right
      rw [← List.cons_append, ← List.append_assoc] at split
      obtain ⟨rest, same⟩ := List.append_inj' split rfl
      obtain rfl := List.head_eq_of_cons_eq same
      exact ⟨free last (by simp), before, front, rest,
        fun member found => free member (List.mem_append_left _ found)⟩
  · rintro (rfl | ⟨apart, before, after, rfl, free⟩)
    · exact ⟨members, [], rfl, by simp⟩
    · refine ⟨before, after ++ [last], by simp, ?_⟩
      intro member found
      rcases List.mem_append.mp found with found | found
      · exact free member found
      · rw [List.mem_singleton.mp found]
        exact apart

theorem member?_isSome : ((Json.object members).member? key).isSome = members.any (·.1 == key) := by
  rw [member?, Option.isSome_map, Bool.eq_iff_iff, List.find?_isSome, List.any_eq_true]

theorem member?_cons (member : String × Json) (k : String) :
    (Json.object (member :: members)).member? k =
      if member.1 = k then some member.2 else (Json.object members).member? k := by
  by_cases here : member.1 = k
  · simp [member?, here]
  · simp [member?, here]

theorem member?_concat (member : String × Json) (k : String) :
    (Json.object (members ++ [member])).member? k =
      ((Json.object members).member? k).or (if member.1 = k then some member.2 else none) := by
  by_cases here : member.1 = k
  · simp [member?, List.find?_append, here]
  · simp [member?, List.find?_append, here]

theorem member?_replaced (members : List (String × Json)) (key : String) (value : Json)
    (k : String) :
    (Json.object (members.map fun member =>
        if member.1 == key then (key, value) else member)).member? k =
      ((Json.object members).member? k).map fun old => if k = key then value else old := by
  induction members with
  | nil => rfl
  | cons member rest ih =>
    rw [List.map_cons, member?_cons, member?_cons, ih]
    by_cases there : member.1 = k
    · subst there
      by_cases same : member.1 = key
      · simp [same]
      · simp [same]
    · by_cases same : member.1 = key
      · subst same
        simp [there]
      · simp [same, there]

theorem member?_insertMember (members : List (String × Json)) (key : String) (value : Json)
    (k : String) :
    (Json.object (insertMember members key value)).member? k =
      if k = key then some value else (Json.object members).member? k := by
  unfold insertMember
  split
  · rename_i present
    obtain ⟨old, found⟩ := Option.isSome_iff_exists.mp (member?_isSome.trans present)
    rw [member?_replaced]
    by_cases same : k = key
    · simp [same, found]
    · simp [same]
  · rename_i absent
    have none : (Json.object members).member? key = none := by
      rw [← Option.not_isSome_iff_eq_none, member?_isSome]
      exact absent
    rw [member?_concat]
    by_cases same : k = key
    · simp [same, none]
    · simp [same, Ne.symm same]

/-- Of the members that are written under a key the last one is kept. -/
theorem member?_collected :
    (Json.object (collected members)).member? key = some value ↔ LastMember members key value := by
  induction members using List.reverseRecOn with
  | nil => exact ⟨by rintro ⟨⟩, fun last => absurd last not_lastMember_nil⟩
  | append_singleton before last ih =>
    rw [collected, List.foldl_append, ← collected, List.foldl_cons, List.foldl_nil,
      member?_insertMember, lastMember_concat, ← ih, Prod.ext_iff]
    by_cases same : key = last.1
    · simp [same]
    · simp [same, Ne.symm same]

end

theorem int64?_eq_some {value : Json} {n : Int64} :
    value.int64? = some n ↔ value = Json.integer n.toInt := by
  constructor
  · intro read
    cases value with
    | number number =>
      cases number with
      | integer m =>
        simp only [int64?, Number.int64?] at read
        split at read
        · rename_i within
          obtain rfl := Option.some.inj read
          rw [Json.integer, Int64.toInt_ofInt_of_le within.1 within.2]
        · cases read
      | float x => cases read
    | null | bool _ | string _ | array _ | object _ => cases read
  · rintro rfl
    have within : -Nat.pow 2 63 ≤ n.toInt ∧ n.toInt < Nat.pow 2 63 :=
      ⟨n.le_toInt, n.toInt_lt⟩
    simp only [Json.integer, int64?, Number.int64?, if_pos within, Int64.ofInt_toInt]

end Json

namespace Text

/-- A text is another one with blanks around it, which neither begins nor ends with a blank. -/
structure Trimmed (text core : String) : Prop where
  around : ∃ before after, text.toList = before ++ core.toList ++ after ∧
    ∀ c ∈ before ++ after, isBlank c = true
  first : ∀ c ∈ core.toList.head?, isBlank c = false
  last : ∀ c ∈ core.toList.getLast?, isBlank c = false

theorem dropWhile_blank {before rest : List Char} (blank : ∀ c ∈ before, isBlank c = true)
    (first : ∀ c ∈ rest.head?, isBlank c = false) :
    (before ++ rest).dropWhile isBlank = rest := by
  rw [List.dropWhile_append_of_pos blank]
  cases rest with
  | nil => rfl
  | cons c rest => rw [List.dropWhile_cons, first c rfl, if_neg Bool.false_ne_true]

theorem exists_dropWhile (text : List Char) :
    ∃ before, text = before ++ text.dropWhile isBlank ∧ (∀ c ∈ before, isBlank c = true) ∧
      ∀ c ∈ (text.dropWhile isBlank).head?, isBlank c = false := by
  refine ⟨text.takeWhile isBlank, List.takeWhile_append_dropWhile.symm,
    fun _ member => List.mem_takeWhile_imp member, ?_⟩
  intro c first
  have stops := List.head?_dropWhile_not isBlank text
  rw [Option.mem_def.mp first] at stops
  exact stops

/-- Trimming takes the blanks at both ends away, and nothing else. -/
theorem trimmed_trim (text : String) : Trimmed text (trim text) := by
  obtain ⟨before, front, blankBefore, first⟩ := exists_dropWhile text.toList
  obtain ⟨after, back, blankAfter, last⟩ :=
    exists_dropWhile (text.toList.dropWhile isBlank).reverse
  have shown : (trim text).toList =
      ((text.toList.dropWhile isBlank).reverse.dropWhile isBlank).reverse := by
    rw [trim, String.toList_ofList]
  have split : text.toList.dropWhile isBlank = (trim text).toList ++ after.reverse := by
    rw [shown, ← List.reverse_append, ← back, List.reverse_reverse]
  refine ⟨⟨before, after.reverse, ?_, ?_⟩, ?_, ?_⟩
  · rw [List.append_assoc, ← split]
    exact front
  · intro c member
    rcases List.mem_append.mp member with member | member
    · exact blankBefore c member
    · exact blankAfter c (List.mem_reverse.mp member)
  · intro c start
    refine first c ?_
    rw [split, Option.mem_def, List.head?_append, Option.mem_def.mp start]
    rfl
  · intro c final
    refine last c ?_
    rwa [shown, List.getLast?_reverse] at final

theorem trim_of_trimmed {text core : String} (trimmed : Trimmed text core) : trim text = core := by
  obtain ⟨⟨before, after, split, blank⟩, first, last⟩ := trimmed
  have blankBefore : ∀ c ∈ before, isBlank c = true :=
    fun c member => blank c (List.mem_append_left _ member)
  have blankAfter : ∀ c ∈ after.reverse, isBlank c = true :=
    fun c member => blank c (List.mem_append_right _ (List.mem_reverse.mp member))
  have dropped : ((text.toList.dropWhile isBlank).reverse.dropWhile isBlank) =
      core.toList.reverse := by
    rw [split, List.append_assoc]
    cases inner : core.toList with
    | nil =>
      have all := @dropWhile_blank (before ++ after) [] blank (by simp)
      rw [List.append_nil] at all
      rw [List.nil_append, all]
      rfl
    | cons c rest =>
      rw [inner] at first last
      rw [dropWhile_blank blankBefore (by simpa using first), List.reverse_append,
        dropWhile_blank blankAfter (by rwa [List.head?_reverse])]
  rw [trim, dropped, List.reverse_reverse, String.ofList_toList]

theorem trim_eq_iff {text core : String} : trim text = core ↔ Trimmed text core :=
  ⟨fun same => same ▸ trimmed_trim text, trim_of_trimmed⟩

end Text

namespace Record

/-- The members of the object that a record's message is, as they are written. -/
def members? (record : Record) : Option (List (String × Json)) :=
  match Json.Raw.ofString? record.message with
  | some (.object written) => Json.membersWithin? (Json.depthLimit - 1) written
  | _ => none

/-- A record holds a value when its object does, last of all under the key. -/
def Holds (record : Record) (key : String) (value : Json) : Prop :=
  ∃ members, record.members? = some members ∧ Json.LastMember members key value

/-- The object that is kept of a message, or null. -/
def kept (record : Record) : Json :=
  match record.members? with
  | some members => .object (Json.collected members)
  | none => .null

variable {record : Record}

theorem holds_iff {key : String} {value : Json} :
    record.Holds key value ↔ record.kept.member? key = some value := by
  unfold Holds kept
  cases record.members? with
  | none => exact ⟨by rintro ⟨_, ⟨⟩, _⟩, by rintro ⟨⟩⟩
  | some members =>
    rw [Json.member?_collected]
    constructor
    · rintro ⟨_, ⟨⟩, last⟩
      exact last
    · exact fun last => ⟨members, rfl, last⟩

theorem ofString?_of_members? {members : List (String × Json)}
    (written : record.members? = some members) :
    Json.ofString? record.message = some (.object (Json.collected members)) := by
  unfold members? at written
  split at written
  · rename_i object
    rw [Json.ofString?_of_raw object, Json.Raw.toJson?, Json.Raw.toJsonWithin?,
      if_neg (by decide), written]
    rfl
  · cases written

theorem ofString?_of_none (none : record.members? = none) (members : List (String × Json)) :
    Json.ofString? record.message ≠ some (.object members) := by
  unfold members? Json.Raw.ofString? at none
  unfold Json.ofString? Json.ofBytes?
  intro read
  obtain ⟨tree, raw, shown⟩ := Option.bind_eq_some_iff.mp read
  rw [raw] at none
  cases tree with
  | object written =>
    rw [Json.Raw.toJson?, Json.Raw.toJsonWithin?, if_neg (by decide)] at shown
    simp only at none
    rw [none] at shown
    cases shown
  | null | bool _ | number _ | string _ | array _ =>
    simp [Json.Raw.toJson?, Json.Raw.toJsonWithin?] at shown

end Record

end Headroom
