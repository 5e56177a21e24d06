import Headroom.Proofs.Registry
import Headroom.Proofs.SeededRuns
import Mathlib.Data.List.Basic

/-!
What a registry comes to hold when allocations are seeded and registered in any order, of any
families, whether they are accepted or not. As long as no family has used up the numbers, the
histories number their entries from one without a gap, an accepted addition puts one entry at
the end of one history, a refused one does nothing, and what is looked up is found where its
number says (`additions_account`). Seeding checks nothing, so that an entry need not be one
that could be registered.
-/
namespace Headroom.Registry

/-- A registry refuses a candidate for its family, its sizes or its limits, and for nothing
else. -/
theorem refusal?_eq_none_iff {a : Allocation} : refusal? a = none ↔ a.Registrable := by
  refine ⟨fun accepted => ?_, Allocation.Registrable.refusal?⟩
  unfold refusal? at accepted
  split at accepted
  · cases accepted
  rename_i family
  split at accepted
  · cases accepted
  rename_i sizes
  refine ⟨family, fun zero => sizes (.inl zero), fun zero => sizes (.inr zero), ?_⟩
  intro c member limit limited
  have checked := List.findSome?_eq_none_iff.mp accepted c member
  rw [limited] at checked
  simpa using checked

instance : DecidablePred Allocation.Registrable := fun a =>
  decidable_of_iff (refusal? a = none) refusal?_eq_none_iff

/-- A candidate that is refused is told to be invalid. -/
theorem refusal?_eq_some {a : Allocation} {error : Error} (refused : refusal? a = some error) :
    ∃ detail, error = .validation detail := by
  unfold refusal? at refused
  split at refused
  · exact ⟨_, (Option.some.inj refused).symm⟩
  split at refused
  · exact ⟨_, (Option.some.inj refused).symm⟩
  obtain ⟨c, -, found⟩ := List.exists_of_findSome?_eq_some refused
  split at found
  · split at found
    · exact ⟨_, (Option.some.inj found).symm⟩
    · cases found
  · cases found

/-- The two ways of adding agree on what a registry takes. -/
theorem register_eq_seed (r : Registry) {a : Allocation} (fit : a.Registrable) :
    r.register a = (.ok (r.seed a).1, (r.seed a).2) := by
  simp [register, seed, fit.refusal?]

/-- One thing to add to a registry: without a check, or as a candidate. -/
inductive Addition where
  | seed (a : Allocation)
  | register (a : Allocation)
  deriving DecidableEq, Repr

namespace Addition

def allocation : Addition → Allocation
  | seed a => a
  | register a => a

/-- Make an addition: the revision that it has become or why it has not, and the registry
afterwards. -/
def make (r : Registry) : Addition → Except Error Revision × Registry
  | seed a => (.ok (r.seed a).1, (r.seed a).2)
  | register a => r.register a

/-- Whether a registry takes the addition. -/
def IsFit : Addition → Prop
  | seed _ => True
  | register a => a.Registrable

instance : DecidablePred IsFit
  | seed _ => isTrue trivial
  | register a => inferInstanceAs (Decidable a.Registrable)

/-- The entry that the addition becomes. -/
def entry (r : Registry) (x : Addition) : Allocation :=
  { x.allocation with number := r.nextNumber x.allocation.family }

/-- All that an addition can come to. -/
theorem make_cases (r : Registry) (x : Addition) :
    (x.IsFit ∧ x.make r = (.ok (x.entry r).revision, r.append x.allocation)) ∨
      (¬ x.IsFit ∧ ∃ detail, x.make r = (.error (.validation detail), r)) := by
  cases x with
  | seed a => exact .inl ⟨trivial, rfl⟩
  | register a =>
    cases refused : refusal? a with
    | none =>
      have fit := refusal?_eq_none_iff.mp refused
      exact .inl ⟨fit, r.register_eq_seed fit⟩
    | some error =>
      obtain ⟨detail, rfl⟩ := refusal?_eq_some refused
      refine .inr ⟨fun fit => ?_, detail, by simp [make, Registry.register, refused]⟩
      have accepted := Allocation.Registrable.refusal? fit
      rw [refused] at accepted
      cases accepted

/-- What an addition does to a registry: it becomes one entry, equal to what was added but for
the number, at the end of the history of its family and no other, and its revision is the
answer; or it is invalid, and everything stays as it is. -/
structure Does (r : Registry) (x : Addition) : Prop where
  fit : (∃ v, (x.make r).1 = .ok v) ↔ x.IsFit
  accepted : ∀ v, (x.make r).1 = .ok v → ∃ entry : Allocation,
    entry = { x.allocation with number := v.number } ∧ v = entry.revision ∧
      (x.make r).2.history entry.family = r.history entry.family ++ [entry] ∧
      ∀ family, family ≠ entry.family → (x.make r).2.history family = r.history family
  refused : ∀ error, (x.make r).1 = .error error →
    (∃ detail, error = .validation detail) ∧ (x.make r).2 = r

theorem does (r : Registry) (x : Addition) : x.Does r := by
  obtain ⟨fit, made⟩ | ⟨unfit, detail, made⟩ := x.make_cases r
  · constructor
    case fit => simp [made, fit]
    case accepted =>
      intro v answered
      rw [made] at answered ⊢
      obtain rfl := Except.ok.inj answered
      exact ⟨x.entry r, rfl, rfl, append_history_self r x.allocation,
        fun _ other => append_history_other r x.allocation other⟩
    case refused =>
      intro error answered
      rw [made] at answered
      cases answered
  · constructor
    case fit => simp [made, unfit]
    case accepted =>
      intro v answered
      rw [made] at answered
      cases answered
    case refused =>
      intro error answered
      rw [made] at answered ⊢
      exact ⟨⟨detail, (Except.error.inj answered).symm⟩, rfl⟩

/-- Whatever any append keeps, an addition keeps. -/
theorem make_keeps {P : Registry → Prop} {r : Registry} (x : Addition)
    (appends : ∀ a, P r → P (r.append a)) (holds : P r) : P (x.make r).2 := by
  obtain ⟨-, made⟩ | ⟨-, detail, made⟩ := x.make_cases r
  · rw [made]
    exact appends x.allocation holds
  · rw [made]
    exact holds

end Addition

/-- The registry after some additions. -/
def addAll (r : Registry) (additions : List Addition) : Registry :=
  additions.foldl (fun r x => (x.make r).2) r

@[simp] theorem addAll_nil (r : Registry) : r.addAll [] = r := rfl

@[simp] theorem addAll_cons (r : Registry) (x : Addition) (rest : List Addition) :
    r.addAll (x :: rest) = (x.make r).2.addAll rest := rfl

theorem addAll_append (r : Registry) (before later : List Addition) :
    r.addAll (before ++ later) = (r.addAll before).addAll later :=
  List.foldl_append ..

/-- Whatever any append keeps, additions keep. -/
theorem addAll_keeps {P : Registry → Prop} (appends : ∀ r a, P r → P (r.append a))
    {r : Registry} (additions : List Addition) (holds : P r) : P (r.addAll additions) := by
  induction additions generalizing r with
  | nil => exact holds
  | cons x rest ih => exact ih (x.make_keeps (appends r) holds)

theorem Sound.addAll {r : Registry} (sound : r.Sound) (additions : List Addition) :
    (r.addAll additions).Sound :=
  addAll_keeps (fun _ a sound => sound.append a) additions sound

theorem GrowsTo.addAll (r : Registry) (additions : List Addition) :
    r.GrowsTo (r.addAll additions) :=
  addAll_keeps (fun r' a grows => grows.trans (.append r' a)) additions (.refl r)

/-- An addition makes a history longer by one at most. -/
theorem length_addAll_le (r : Registry) (additions : List Addition) (family : String) :
    ((r.addAll additions).history family).length ≤
      (r.history family).length + additions.length := by
  induction additions generalizing r with
  | nil => exact Nat.le_refl _
  | cons x rest ih =>
    have once : ((x.make r).2.history family).length ≤ (r.history family).length + 1 := by
      obtain ⟨-, made⟩ | ⟨-, detail, made⟩ := x.make_cases r
      · rw [made]
        by_cases own : family = x.allocation.family
        · rw [own, append_history_self, List.length_append, List.length_singleton]
        · rw [append_history_other r x.allocation own]
          exact Nat.le_succ _
      · rw [made]
        exact Nat.le_succ _
    have onward := ih (x.make r).2
    simp only [addAll_cons, List.length_cons]
    omega

/-- Numbers do not run out over fewer additions than there are numbers. -/
theorem hasRoom_addAll {additions : List Addition} (few : additions.length < UInt32.size) :
    (({} : Registry).addAll additions).HasRoom := by
  intro family
  have bound := length_addAll_le {} additions family
  simp only [List.length_nil, Nat.zero_add] at bound
  exact Nat.lt_of_le_of_lt bound few

/-- The histories are numbered from one in their order, and looking up finds what the order
and the numbers say. -/
structure Numbered (r : Registry) : Prop where
  numbers : ∀ family, (r.history family).map (·.number.toNat) =
    List.range' 1 (r.history family).length
  family : ∀ family, ∀ a ∈ r.history family, a.family = family
  latest : ∀ family a, r.describe family = .ok a ↔ (r.history family).getLast? = some a
  unknown : ∀ family error, r.describe family = .error error ↔
    r.history family = [] ∧ error = .notFound ("task definition family " ++ family)
  revision : ∀ family number, r.revision? family number =
    if number = 0 then none else (r.history family)[number.toNat - 1]?

namespace Sound

variable {r : Registry} {family : String}

/-- While there is room, the entry at place `i` is the one with number `i + 1`. -/
theorem number_toNat (sound : r.Sound) (room : r.HasRoom) {i : Nat} {a : Allocation}
    (placed : (r.history family)[i]? = some a) : a.number.toNat = i + 1 := by
  obtain ⟨below, -⟩ := List.getElem?_eq_some_iff.mp placed
  have full := room family
  rw [sound.number placed, UInt32.toNat_add, Nat.toUInt32_eq, UInt32.toNat_ofNat']
  simp only [UInt32.size] at full
  simp only [UInt32.toNat_one]
  omega

/-- A number tells the place, so that there is nothing under zero. -/
theorem revision?_eq (sound : r.Sound) (room : r.HasRoom) (number : UInt32) :
    r.revision? family number =
      if number = 0 then none else (r.history family)[number.toNat - 1]? := by
  -- The entry with the number stands at the place before it, if anywhere.
  have places : ∀ {i a}, (r.history family)[i]? = some a → a.number = number →
      number ≠ 0 ∧ i = number.toNat - 1 := by
    rintro i a placed rfl
    have counted := sound.number_toNat room placed
    refine ⟨fun zero => ?_, by omega⟩
    rw [zero] at counted
    cases counted
  cases found : r.revision? family number with
  | some a =>
    have same : a.number = number := by simpa using List.find?_some found
    obtain ⟨i, placed⟩ := List.mem_iff_getElem?.mp (List.mem_of_find?_eq_some found)
    obtain ⟨positive, rfl⟩ := places placed same
    rw [if_neg positive, placed]
  | none =>
    by_cases zero : number = 0
    · rw [if_pos zero]
    rw [if_neg zero]
    cases placed : (r.history family)[number.toNat - 1]? with
    | none => rfl
    | some a =>
      have positive : number.toNat ≠ 0 := fun none => zero (UInt32.toNat_inj.mp none)
      have counted := sound.number_toNat room placed
      have same : a.number = number := UInt32.toNat_inj.mp (by omega)
      have missing := List.find?_eq_none.mp found a (List.mem_of_getElem? placed)
      simp [same] at missing

theorem numbered (sound : r.Sound) (room : r.HasRoom) : r.Numbered where
  numbers family := by
    apply List.ext_getElem?
    intro i
    rw [List.getElem?_map]
    cases placed : (r.history family)[i]? with
    | none =>
      have beyond := List.getElem?_eq_none_iff.mp placed
      exact (List.getElem?_eq_none_iff.mpr (by simpa using beyond)).symm
    | some a =>
      obtain ⟨below, -⟩ := List.getElem?_eq_some_iff.mp placed
      rw [List.getElem?_range' below, Option.map_some, sound.number_toNat room placed]
      simp [Nat.add_comm]
  family _ _ filed := sound.family filed
  latest family a := by
    refine ⟨describe_eq_ok, fun last => ?_⟩
    simp [describe, last]
  unknown family error := by
    unfold describe
    cases last : (r.history family).getLast? with
    | none =>
      have empty := List.getLast?_eq_none_iff.mp last
      simp [empty, eq_comm]
    | some a =>
      have filled : r.history family ≠ [] := by
        intro empty
        rw [empty] at last
        cases last
      simp [filled]
  revision _ number := sound.revision?_eq room number

end Sound

/-- What holds of the additions to an empty registry: at every moment the histories are
numbered, every addition does what it should, and what was filed before stays as it is. -/
structure Account (additions : List Addition) : Prop where
  numbered : ∀ before later, additions = before ++ later → (({} : Registry).addAll before).Numbered
  does : ∀ before x later, additions = before ++ x :: later →
    x.Does (({} : Registry).addAll before)
  kept : ∀ before later, additions = before ++ later →
    (({} : Registry).addAll before).GrowsTo (({} : Registry).addAll additions)

/-- Whatever is seeded and registered in an empty registry, in whatever order: as long as no
family has used up the numbers, the additions are accounted for. -/
theorem additions_account (additions : List Addition)
    (room : (({} : Registry).addAll additions).HasRoom) : Account additions := by
  have kept : ∀ before later, additions = before ++ later →
      (({} : Registry).addAll before).GrowsTo (({} : Registry).addAll additions) := by
    rintro before later rfl
    rw [addAll_append]
    exact .addAll _ later
  constructor
  case numbered =>
    intro before later split
    exact (Sound.empty.addAll before).numbered (room.anti (kept before later split))
  case does => exact fun before x _ _ => x.does _
  case kept => exact kept

/-- Allocations of two families, seeded and registered. Three candidates are refused, one of
them for the limit of its container; the entry that was seeded with no memory is not. -/
def mixedAdditions : List Addition :=
  let web : Allocation := { family := "web", number := 9, cpu := 256, memory := 512 }
  let jobs : Allocation := { family := "jobs", number := 0, cpu := 512, memory := 1024 }
  [.seed { web with memory := 0 }, .register { web with family := "" }, .register jobs,
    .register web, .register { web with cpu := 0 },
    .register { web with containers := [{ name := "app", memory := some 513 }] },
    .register web, .seed jobs]

/-- These additions are accounted for: three revisions of one family and two of the other. -/
theorem mixedAdditions_account :
    (({} : Registry).addAll mixedAdditions).HasRoom ∧ Account mixedAdditions ∧
      mixedAdditions.map (fun x => decide x.IsFit) =
        [true, false, true, true, false, false, true, true] ∧
      ((({} : Registry).addAll mixedAdditions).history "web").map
          (fun a => (a.number, a.memory)) = [(1, 0), (2, 512), (3, 512)] ∧
      ((({} : Registry).addAll mixedAdditions).history "jobs").map (·.number) = [1, 2] ∧
      (({} : Registry).addAll mixedAdditions).history "" = [] := by
  have room : (({} : Registry).addAll mixedAdditions).HasRoom := hasRoom_addAll (by decide)
  exact ⟨room, additions_account mixedAdditions room, by decide, by decide, by decide, by decide⟩

end Headroom.Registry
