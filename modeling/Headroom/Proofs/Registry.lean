import Headroom.Stores.Registry

/-!
A registry only grows. As long as its numbers are not used up, a registered
revision names one allocation, for good, and the next number is a new one.
-/
namespace Headroom.Registry

/-- Allocations are filed under their own family, and each has its place in the
history as its number. This holds of the empty registry and is kept by whatever
adds to it, also where the numbers start over. -/
structure Sound (r : Registry) : Prop where
  family : ∀ {family : String} {a : Allocation}, a ∈ r.history family → a.family = family
  number : ∀ {family : String} {i : Nat} {a : Allocation},
    (r.history family)[i]? = some a → a.number = i.toUInt32 + 1

/-- A revision has been registered. -/
def Holds (r : Registry) (v : Revision) : Prop := ∃ a ∈ r.history v.family, a.number = v.number

/-- No family has used up the numbers. -/
def HasRoom (r : Registry) : Prop := ∀ family, (r.history family).length < UInt32.size

/-- Nothing registered in `r` is missing or changed in `later`. -/
def GrowsTo (r later : Registry) : Prop := ∀ family, r.history family <+: later.history family

namespace GrowsTo

theorem refl (r : Registry) : r.GrowsTo r := fun _ => List.prefix_rfl

theorem trans {r later last : Registry} (grows : r.GrowsTo later) (onward : later.GrowsTo last) :
    r.GrowsTo last := fun family => (grows family).trans (onward family)

theorem append (r : Registry) (a : Allocation) : r.GrowsTo (r.append a) := by
  intro family
  simp only [Registry.append]
  split
  · exact List.prefix_append _ _
  · exact List.prefix_rfl

end GrowsTo

/-- A revision stays what it is. -/
theorem GrowsTo.revision? {r later : Registry} (grows : r.GrowsTo later) {family : String}
    {number : UInt32} {a : Allocation} (found : r.revision? family number = some a) :
    later.revision? family number = some a :=
  (grows family).find?_eq_some found

theorem Holds.mono {r later : Registry} {v : Revision} (held : r.Holds v)
    (grows : r.GrowsTo later) : later.Holds v := by
  obtain ⟨a, member, number⟩ := held
  exact ⟨a, (grows v.family).subset member, number⟩

theorem HasRoom.anti {r later : Registry} (room : later.HasRoom) (grows : r.GrowsTo later) :
    r.HasRoom :=
  fun family => Nat.lt_of_le_of_lt (grows family).length_le (room family)

theorem append_history_self (r : Registry) (a : Allocation) :
    (r.append a).history a.family =
      r.history a.family ++ [{ a with number := r.nextNumber a.family }] := by
  simp [append]

theorem append_history_other (r : Registry) (a : Allocation) {family : String}
    (other : family ≠ a.family) : (r.append a).history family = r.history family := by
  simp [append, other]

theorem holds_append (r : Registry) (a : Allocation) :
    (r.append a).Holds ⟨a.family, r.nextNumber a.family⟩ :=
  ⟨{ a with number := r.nextNumber a.family }, by simp [append_history_self], rfl⟩

/-- What registering comes to: a refusal that changes nothing, or a new revision. -/
theorem register_cases (r : Registry) (candidate : Allocation) :
    (∃ error, r.register candidate = (.error error, r)) ∨
      r.register candidate =
        (.ok ⟨candidate.family, r.nextNumber candidate.family⟩, r.append candidate) := by
  unfold register
  split
  · exact .inl ⟨_, rfl⟩
  · exact .inr rfl

theorem describe_eq_ok {r : Registry} {family : String} {a : Allocation}
    (described : r.describe family = .ok a) : (r.history family).getLast? = some a := by
  unfold describe at described
  split at described
  · rename_i latest found
    rw [found, Except.ok.inj described]
  · cases described

/-- Places that fit into a number are told apart by it. -/
theorem toUInt32_inj {i j : Nat} (fits : i < UInt32.size) (fits' : j < UInt32.size)
    (same : i.toUInt32 = j.toUInt32) : i = j := by
  have equal := congrArg UInt32.toNat same
  simp only [Nat.toUInt32_eq, UInt32.toNat_ofNat', UInt32.size] at equal fits fits'
  omega

namespace Sound

theorem empty : Sound {} := ⟨by simp, by simp⟩

theorem append {r : Registry} (sound : r.Sound) (a : Allocation) : (r.append a).Sound where
  family {family b} member := by
    by_cases own : family = a.family
    · subst own
      rw [append_history_self, List.mem_append, List.mem_singleton] at member
      obtain old | rfl := member
      · exact sound.family old
      · rfl
    · rw [append_history_other r a own] at member
      exact sound.family member
  number {family i b} found := by
    by_cases own : family = a.family
    · subst own
      rw [append_history_self] at found
      obtain earlier | new := Nat.lt_or_ge i (r.history a.family).length
      · rw [List.getElem?_append_left earlier] at found
        exact sound.number found
      · rw [List.getElem?_append_right new] at found
        simp only [List.getElem?_singleton, Option.ite_none_right_eq_some,
          Option.some.injEq] at found
        obtain ⟨at_end, rfl⟩ := found
        have last : i = (r.history a.family).length := by omega
        simp [last, nextNumber]
    · rw [append_history_other r a own] at found
      exact sound.number found

/-- A number names one allocation. -/
theorem number_inj {r : Registry} (sound : r.Sound) {family : String}
    (room : (r.history family).length < UInt32.size) {a b : Allocation}
    (first : a ∈ r.history family) (second : b ∈ r.history family)
    (same : a.number = b.number) : a = b := by
  obtain ⟨i, below, at_i⟩ := List.getElem_of_mem first
  obtain ⟨j, below', at_j⟩ := List.getElem_of_mem second
  have numbers : i.toUInt32 = j.toUInt32 := by
    have placed := sound.number (List.getElem?_eq_some_iff.mpr ⟨below, at_i⟩)
    have placed' := sound.number (List.getElem?_eq_some_iff.mpr ⟨below', at_j⟩)
    simpa [placed, placed'] using same
  obtain rfl := toUInt32_inj (by omega) (by omega) numbers
  exact at_i.symm.trans at_j

/-- A registered allocation is found under its number. -/
theorem revision?_of_mem {r : Registry} (sound : r.Sound) {family : String}
    (room : (r.history family).length < UInt32.size) {a : Allocation}
    (filed : a ∈ r.history family) :
    r.revision? family a.number = some a := by
  cases found : r.revision? family a.number with
  | none =>
    have different := List.find?_eq_none.mp found a filed
    simp at different
  | some b =>
    have same := List.find?_some found
    have filed' := List.mem_of_find?_eq_some found
    rw [sound.number_inj room filed' filed (by simpa using same)]

/-- The next number is not in use. -/
theorem fresh {r : Registry} (sound : r.Sound) (room : r.HasRoom) (family : String) :
    ¬ r.Holds ⟨family, r.nextNumber family⟩ := by
  rintro ⟨a, member, number⟩
  obtain ⟨i, bound, at_i⟩ := List.getElem_of_mem member
  have placed := sound.number (List.getElem?_eq_some_iff.mpr ⟨bound, at_i⟩)
  have full := room family
  have same : i.toUInt32 = (r.history family).length.toUInt32 := by
    have numbers := placed.symm.trans number
    simpa [nextNumber] using numbers
  dsimp only at bound
  have last := toUInt32_inj (by omega) full same
  omega

end Sound
end Headroom.Registry
