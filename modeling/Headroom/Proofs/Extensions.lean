import Headroom.Json.Members
import Mathlib.Data.List.Nodup

/-!
What may be added to a JSON value without any bearing on what is read of it: members under
keys that its structure does not have, and members of its own that were left out, as null where
the structure allows that. `Raw.Extends` is one such addition, at any place of an object or in
the value of one of its members; a structure finds the same in both (`Raw.Extends.of?`), but
for what the readers of its members make nothing of (`Slot.required`, `Slot.defaulted`).
-/
namespace Headroom.Json

/-- What a reader does not see: it reads the same of two values that are so related. -/
def Reader.Ignores {α : Type} (read : Reader α) (more : Raw → Raw → Prop) : Prop :=
  ∀ tree tree', more tree tree' → read tree' = read tree

section

variable {keys omissible : List String} {inside : String → Raw → Raw → Prop}

/-- An object with these keys, some of which may be left out or be null, has one more member
of no account than another, or the value of one member has. -/
inductive Raw.Extends (keys omissible : List String) (inside : String → Raw → Raw → Prop) :
    Raw → Raw → Prop where
  | unknown {before after : List (Option String × Raw)} {key : String} (value : Raw)
      (unlisted : key ∉ keys) :
      Extends keys omissible inside (.object (before ++ after))
        (.object (before ++ (some key, value) :: after))
  | null {before after : List (Option String × Raw)} {key : String} (may : key ∈ omissible)
      (absent : ∀ value, (some key, value) ∉ before ++ after) :
      Extends keys omissible inside (.object (before ++ after))
        (.object (before ++ (some key, .null) :: after))
  | within {before after : List (Option String × Raw)} {key : String} {value value' : Raw}
      (more : inside key value value') :
      Extends keys omissible inside (.object (before ++ (some key, value) :: after))
        (.object (before ++ (some key, value') :: after))

/-- One item of an array has more than another. -/
inductive Raw.ExtendsItem (inside : Raw → Raw → Prop) : Raw → Raw → Prop where
  | within {before after : List Raw} {item item' : Raw} (more : inside item item') :
      ExtendsItem inside (.array (before ++ item :: after)) (.array (before ++ item' :: after))

/-- The members of an object that a structure has. -/
def known (keys : List String) (members : List (Option String × Raw)) : List (String × Raw) :=
  members.filterMap fun member =>
    member.1.bind fun key => if key ∈ keys then some (key, member.2) else none

theorem known_append (keys : List String) (before after : List (Option String × Raw)) :
    known keys (before ++ after) = known keys before ++ known keys after :=
  List.filterMap_append

theorem known_cons_listed {key : String} (listed : key ∈ keys) (value : Raw)
    (rest : List (Option String × Raw)) :
    known keys ((some key, value) :: rest) = (key, value) :: known keys rest := by
  simp [known, listed]

theorem known_cons_unlisted {key : String} (unlisted : key ∉ keys) (value : Raw)
    (rest : List (Option String × Raw)) :
    known keys ((some key, value) :: rest) = known keys rest := by
  simp [known, unlisted]

theorem mem_of_mem_known {members : List (Option String × Raw)} {member : String × Raw}
    (found : member ∈ known keys members) : (some member.1, member.2) ∈ members := by
  obtain ⟨⟨name, value⟩, given, kept⟩ := List.mem_filterMap.mp found
  cases name with
  | none => cases kept
  | some key =>
    simp only [Option.bind_some, Option.ite_none_right_eq_some, Option.some.injEq] at kept
    rwa [← kept.2]

/-- All keys are Unicode, and none of the structure's comes twice. -/
def Collectible (keys : List String) (members : List (Option String × Raw)) : Prop :=
  (∀ member ∈ members, member.1 ≠ none) ∧ ((known keys members).map (·.1)).Nodup

theorem collectible_cons_listed {key : String} (listed : key ∈ keys) (value : Raw)
    (rest : List (Option String × Raw)) :
    Collectible keys ((some key, value) :: rest) ↔
      key ∉ (known keys rest).map (·.1) ∧ Collectible keys rest := by
  rw [Collectible, Collectible, known_cons_listed listed, List.map_cons, List.nodup_cons]
  simp
  tauto

theorem collectible_cons_unlisted {key : String} (unlisted : key ∉ keys) (value : Raw)
    (rest : List (Option String × Raw)) :
    Collectible keys ((some key, value) :: rest) ↔ Collectible keys rest := by
  rw [Collectible, Collectible, known_cons_unlisted unlisted]
  simp

/-- The members that a structure has of an object are collected just if they can be. -/
theorem collect_eq_some_iff {members : List (Option String × Raw)}
    {collected : List (String × Raw)} :
    Members.collect keys members = some collected ↔
      Collectible keys members ∧ known keys members = collected := by
  induction members generalizing collected with
  | nil => simp [Members.collect, Collectible, known]
  | cons member rest ih =>
    obtain ⟨name, value⟩ := member
    cases name with
    | none => simp [Members.collect, Collectible]
    | some key =>
      rw [Members.collect, Option.bind_eq_some_iff]
      by_cases listed : key ∈ keys
      · simp only [if_pos listed, ih, collectible_cons_listed listed, known_cons_listed listed]
        constructor
        · rintro ⟨_, ⟨sound, rfl⟩, kept⟩
          obtain ⟨fresh, same⟩ := Option.ite_none_left_eq_some.mp kept
          exact ⟨⟨by simpa using fresh, sound⟩, Option.some.inj same⟩
        · rintro ⟨⟨fresh, sound⟩, rfl⟩
          exact ⟨_, ⟨sound, rfl⟩, if_neg (by simpa using fresh)⟩
      · simp [listed, ih, collectible_cons_unlisted listed, known_cons_unlisted listed]

/-- How a structure finds a member with an addition and without. -/
inductive Slot (omissible : List String) (inside : String → Raw → Raw → Prop) (key : String) :
    Option Raw → Option Raw → Prop where
  | same (found : Option Raw) : Slot omissible inside key found found
  | null (may : key ∈ omissible) : Slot omissible inside key none (some .null)
  | within {value value' : Raw} (more : inside key value value') :
      Slot omissible inside key (some value) (some value')

/-- A structure is found in both of two objects or in neither, and there its members alike. -/
inductive FoundAlike (omissible : List String) (inside : String → Raw → Raw → Prop) :
    Option Members → Option Members → Prop where
  | none : FoundAlike omissible inside none none
  | some {m m' : Members}
      (slots : ∀ key, Slot omissible inside key (m.find? key) (m'.find? key)) :
      FoundAlike omissible inside (some m) (some m')

theorem foundAlike_object {members members' : List (Option String × Raw)}
    (sound : Collectible keys members' ↔ Collectible keys members)
    (slots : ∀ key, Slot omissible inside key ((known keys members).lookup key)
      ((known keys members').lookup key)) :
    FoundAlike omissible inside (Members.of? keys (.object members))
      (Members.of? keys (.object members')) := by
  rw [Members.of?, Members.of?]
  by_cases collectible : Collectible keys members
  · rw [collect_eq_some_iff.mpr ⟨collectible, rfl⟩,
      collect_eq_some_iff.mpr ⟨sound.mpr collectible, rfl⟩]
    exact .some slots
  · have refused {others : List (Option String × Raw)} (unsound : ¬ Collectible keys others) :
        Members.collect keys others = Option.none :=
      Option.eq_none_iff_forall_ne_some.mpr fun collected given =>
        unsound (collect_eq_some_iff.mp given).1
    rw [refused collectible, refused (mt sound.mp collectible)]
    exact .none

theorem lookup_middle (before after : List (String × Raw)) (key name : String) (value : Raw) :
    (before ++ (name, value) :: after).lookup key =
      (before.lookup key).or (if key = name then some value else after.lookup key) := by
  rw [List.lookup_append, List.lookup_cons]
  split <;> simp_all

theorem lookup_eq_none_of_fresh {members : List (String × Raw)} {key : String}
    (fresh : key ∉ members.map (·.1)) : members.lookup key = none := by
  rw [List.lookup_eq_none_iff]
  intro member given
  exact bne_iff_ne.mpr fun same => fresh (List.mem_map.mpr ⟨member, given, same.symm⟩)

variable {before after : List (Option String × Raw)} {key : String}

theorem known_middle_listed (listed : key ∈ keys) (value : Raw) :
    known keys (before ++ (some key, value) :: after) =
      known keys before ++ (key, value) :: known keys after := by
  rw [known_append, known_cons_listed listed]

theorem known_middle_unlisted (unlisted : key ∉ keys) (value : Raw) :
    known keys (before ++ (some key, value) :: after) = known keys (before ++ after) := by
  rw [known_append, known_cons_unlisted unlisted, known_append]

theorem keyed_middle (value : Raw) :
    (∀ member ∈ before ++ (some key, value) :: after, member.1 ≠ none) ↔
      ∀ member ∈ before ++ after, member.1 ≠ none := by
  simp [or_imp, forall_and]

theorem collectible_middle_unlisted (unlisted : key ∉ keys) (value : Raw) :
    Collectible keys (before ++ (some key, value) :: after) ↔
      Collectible keys (before ++ after) := by
  rw [Collectible, Collectible, keyed_middle, known_middle_unlisted unlisted]

theorem collectible_middle_listed (listed : key ∈ keys) (value : Raw) :
    Collectible keys (before ++ (some key, value) :: after) ↔
      key ∉ (known keys (before ++ after)).map (·.1) ∧ Collectible keys (before ++ after) := by
  rw [Collectible, Collectible, keyed_middle, known_middle_listed listed, List.map_append,
    List.map_cons, List.nodup_middle, List.nodup_cons, ← List.map_append, ← known_append]
  tauto

theorem Raw.Extends.of? {tree tree' : Raw}
    (more : Raw.Extends keys omissible inside tree tree') :
    FoundAlike omissible inside (Members.of? keys tree) (Members.of? keys tree') := by
  cases more with
  | unknown value unlisted =>
    refine foundAlike_object (collectible_middle_unlisted unlisted value) fun name => ?_
    rw [known_middle_unlisted unlisted]
    exact .same _
  | @null before after key may absent =>
    by_cases listed : key ∈ keys
    · have fresh : key ∉ (known keys (before ++ after)).map (·.1) := by
        intro found
        obtain ⟨member, given, rfl⟩ := List.mem_map.mp found
        exact absent _ (mem_of_mem_known given)
      refine foundAlike_object ((collectible_middle_listed listed .null).trans
        (and_iff_right fresh)) fun name => ?_
      rw [known_middle_listed listed, lookup_middle]
      by_cases here : name = key
      · subst here
        have missing := lookup_eq_none_of_fresh fresh
        rw [known_append, List.lookup_append, Option.or_eq_none_iff] at missing
        rw [known_append, List.lookup_append, missing.1, missing.2, if_pos rfl]
        exact .null may
      · rw [if_neg here, known_append, List.lookup_append]
        exact .same _
    · refine foundAlike_object (collectible_middle_unlisted listed .null) fun name => ?_
      rw [known_middle_unlisted listed]
      exact .same _
  | @within before after key value value' more =>
    by_cases listed : key ∈ keys
    · refine foundAlike_object ((collectible_middle_listed listed value').trans
        (collectible_middle_listed listed value).symm) fun name => ?_
      rw [known_middle_listed listed, known_middle_listed listed, lookup_middle, lookup_middle]
      cases (known keys before).lookup name with
      | some earlier => exact .same _
      | none =>
        by_cases here : name = key
        · rw [if_pos here, if_pos here, here]
          exact .within more
        · rw [if_neg here, if_neg here]
          exact .same _
    · refine foundAlike_object ((collectible_middle_unlisted listed value').trans
        (collectible_middle_unlisted listed value).symm) fun name => ?_
      rw [known_middle_unlisted listed, known_middle_unlisted listed]
      exact .same _

/-- What is made of the members of a structure is the same if it is the same of members that
are found alike. -/
theorem Raw.Extends.bind_of? {α : Type} {tree tree' : Raw}
    (more : Raw.Extends keys omissible inside tree tree') {build : Members → Option α}
    (same : ∀ m m' : Members,
      (∀ key, Slot omissible inside key (m.find? key) (m'.find? key)) → build m' = build m) :
    (Members.of? keys tree').bind build = (Members.of? keys tree).bind build := by
  have alike := more.of?
  generalize Members.of? keys tree = found, Members.of? keys tree' = found' at alike
  cases alike with
  | none => rfl
  | some slots => exact same _ _ slots

variable {α : Type} {read : Reader α} {m m' : Members}

theorem Slot.required (slot : Slot omissible inside key (m.find? key) (m'.find? key))
    (kept : key ∉ omissible) (ignores : read.Ignores (inside key)) :
    m'.required key read = m.required key read := by
  rw [Members.required, Members.required]
  generalize m.find? key = found, m'.find? key = found' at slot
  cases slot with
  | same => rfl
  | null may => exact absurd may kept
  | within more => exact ignores _ _ more

theorem Slot.defaulted {value : α} (slot : Slot omissible inside key (m.find? key) (m'.find? key))
    (null : key ∈ omissible → read .null = some value) (ignores : read.Ignores (inside key)) :
    m'.defaulted key value read = m.defaulted key value read := by
  rw [Members.defaulted, Members.defaulted]
  generalize m.find? key = found, m'.find? key = found' at slot
  cases slot with
  | same => rfl
  | null may => exact null may
  | within more => exact ignores _ _ more

theorem Slot.optional (slot : Slot omissible inside key (m.find? key) (m'.find? key))
    (ignores : (Reader.optional read).Ignores (inside key)) :
    m'.defaulted key none (.optional read) = m.defaulted key none (.optional read) :=
  slot.defaulted (fun _ => rfl) ignores

/-- A list is read the same if its items are. -/
theorem Reader.Ignores.list {more : Raw → Raw → Prop} (ignores : read.Ignores more) :
    (Reader.list read).Ignores (Raw.ExtendsItem more) := by
  rintro tree tree' ⟨more⟩
  simp only [Reader.list, List.mapM_append, List.mapM_cons, ignores _ _ more]

theorem Reader.ignores_nothing (read : Reader α) : read.Ignores fun _ _ => False :=
  fun _ _ => False.elim

theorem Reader.ignores_elsewhere (read : Reader α) {name : String} {more : Raw → Raw → Prop}
    (other : key ≠ name) : read.Ignores fun tree tree' => key = name ∧ more tree tree' :=
  fun _ _ inner => absurd inner.1 other

end

end Headroom.Json
