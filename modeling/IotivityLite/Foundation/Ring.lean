import Mathlib.Tactic

/-!
# Circular buffers

A fixed number of slots and the index of the slot written last.  A push moves
the index on by one, wrapping around, and overwrites the slot it reaches.  A
buffer mirrors a history when its slots, read backwards from the index, are
the most recent entries of that history; slots that were never written hold
the default value.
-/

namespace IotivityLite

structure Ring (size : Nat) (α : Type) where
  slots : Fin size → α
  index : Fin size

namespace Ring

variable {size : Nat} {α : Type} [NeZero size] [Inhabited α]

def initial : Ring size α := ⟨fun _ => default, 0⟩

def push (ring : Ring size α) (value : α) : Ring size α where
  slots := Function.update ring.slots (ring.index + 1) value
  index := ring.index + 1

/-- `history` lists the pushed values, the latest first. -/
def Mirrors (ring : Ring size α) (history : List α) : Prop :=
  ∀ age : Fin size, ring.slots (ring.index - age) = history.getD age default

variable {ring : Ring size α}

omit [NeZero size] in
theorem mirrors_nil (unwritten : ∀ slot, ring.slots slot = default) :
    ring.Mirrors [] := by
  intro age
  rw [unwritten]
  rfl

theorem mirrors_initial : (initial : Ring size α).Mirrors [] :=
  mirrors_nil fun _ => rfl

theorem Mirrors.push {ring : Ring size α} {history : List α}
    (mirrors : ring.Mirrors history) (value : α) :
    (ring.push value).Mirrors (value :: history) := by
  intro age
  by_cases newest : age = 0
  · subst newest
    simp [Ring.push]
  · have other : ring.index + 1 - age ≠ ring.index + 1 := by
      intro same
      exact newest (sub_eq_self.mp same)
    have back : ring.index + 1 - age = ring.index - (age - 1) := by
      abel
    have positive : 0 < age.val := Fin.pos_iff_ne_zero.mpr newest
    have older : age.val = (age - 1).val + 1 := by
      rw [Fin.val_sub_one_of_ne_zero newest]
      omega
    simp only [Ring.push, Function.update_of_ne other]
    rw [back, mirrors (age - 1), older, List.getD_cons_succ]

variable {history : List α}

theorem Mirrors.exists_slot_iff (mirrors : ring.Mirrors history) {value : α} :
    (∃ slot, ring.slots slot = value) ↔
      ∃ age : Fin size, history.getD age default = value := by
  constructor
  · rintro ⟨slot, rfl⟩
    refine ⟨ring.index - slot, ?_⟩
    rw [← mirrors (ring.index - slot), sub_sub_cancel]
  · rintro ⟨age, rfl⟩
    exact ⟨ring.index - age, mirrors age⟩

theorem Mirrors.exists_slot_of_mem (mirrors : ring.Mirrors history) {value : α}
    (recent : value ∈ history.take size) : ∃ slot, ring.slots slot = value := by
  obtain ⟨age, bound, found⟩ := List.mem_iff_getElem.mp recent
  rw [List.length_take] at bound
  rw [List.getElem_take] at found
  refine mirrors.exists_slot_iff.mpr ⟨⟨age, by omega⟩, ?_⟩
  have inside : age < history.length := by omega
  simp [List.getD, List.getElem?_eq_getElem inside, found]

theorem Mirrors.exists_slot_iff_mem {history : List α}
    (mirrors : ring.Mirrors history) {value : α} :
    (∃ slot, ring.slots slot = value) ↔
      value ∈ history.take size ∨
        history.length < size ∧ value = default := by
  constructor
  · intro found
    obtain ⟨age, rfl⟩ := mirrors.exists_slot_iff.mp found
    by_cases inside : age.val < history.length
    · left
      simp only [List.getD, List.getElem?_eq_getElem inside,
        Option.getD_some]
      exact List.mem_take_iff_getElem.mpr ⟨age, by omega, rfl⟩
    · right
      refine ⟨by omega, ?_⟩
      rw [List.getD, List.getElem?_eq_none (Nat.le_of_not_lt inside)]
      rfl
  · rintro (recent | ⟨few, rfl⟩)
    · exact mirrors.exists_slot_of_mem recent
    · refine mirrors.exists_slot_iff.mpr ⟨⟨history.length, few⟩, ?_⟩
      rw [List.getD, List.getElem?_eq_none (Nat.le_refl _)]
      rfl

theorem Mirrors.mem_of_slot (mirrors : ring.Mirrors history)
    (filled : size ≤ history.length) {value : α}
    (found : ∃ slot, ring.slots slot = value) : value ∈ history.take size := by
  have slots := mirrors.exists_slot_iff_mem.mp found
  exact slots.resolve_right fun few => Nat.not_lt.mpr filled few.1

end Ring

end IotivityLite
