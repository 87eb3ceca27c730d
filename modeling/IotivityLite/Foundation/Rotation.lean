import Mathlib.Data.List.Rotate
import Mathlib.Logic.Function.Iterate

/-!
# Going around a list

The item behind a given one, where the first item comes behind the last one.
Going around a list of distinct items visits the list in one of its
rotations, so after as many steps as there are items every item was visited
once and the walk is back at its start.
-/

namespace IotivityLite.Around

variable {α : Type} [DecidableEq α]

/-- The items behind the first occurrence of an item. -/
def behind (items : List α) (item : α) : List α :=
  (items.dropWhile (· != item)).tail

/-- The item behind a given one, or else the first one. -/
def next (items : List α) (item : α) : Option α :=
  (behind items item).head?.or items.head?

variable {item : α}

theorem behind_append {before after : List α} (first : item ∉ before) :
    behind (before ++ item :: after) item = after := by
  have skipped : ∀ other ∈ before, (other != item) = true := by
    intro other member
    rw [bne_iff_ne]
    rintro rfl
    exact first member
  unfold behind
  rw [List.dropWhile_append_of_pos skipped,
    List.dropWhile_cons_of_neg (by simp), List.tail_cons]

/-- What is selected when an item is taken out of the list. -/
def replacement (items : List α) (item : α) : Option α :=
  (behind items item).head?.or (items.erase item).head?

variable {items : List α}

theorem replacement_eq_none_iff (member : item ∈ items) :
    replacement items item = none ↔ items.erase item = [] := by
  obtain ⟨before, after, rfl, first⟩ := List.eq_append_cons_of_mem member
  unfold replacement
  rw [behind_append first, List.erase_append_right _ first,
    List.erase_cons_head]
  cases before <;> cases after <;> simp

theorem mem_erase_of_replacement {item other : α} (member : item ∈ items)
    (replaced : replacement items item = some other) :
    other ∈ items.erase item := by
  obtain ⟨before, after, rfl, first⟩ := List.eq_append_cons_of_mem member
  unfold replacement at replaced
  rw [behind_append first] at replaced
  rcases Option.or_eq_some_iff.mp replaced with later | ⟨-, earlier⟩
  · rw [List.erase_append_right _ first, List.erase_cons_head]
    exact List.mem_append_right before (List.mem_of_mem_head? later)
  · exact List.mem_of_mem_head? earlier

theorem next_append {before after : List α} (first : item ∉ before) :
    next (before ++ item :: after) item =
      (after ++ (before ++ [item])).head? := by
  unfold next
  rw [behind_append first]
  cases after with
  | nil => cases before <;> rfl
  | cons other after => rfl

theorem exists_next (member : item ∈ items) :
    ∃ other ∈ items, next items item = some other := by
  obtain ⟨before, after, rfl, first⟩ := List.eq_append_cons_of_mem member
  rw [next_append first]
  cases after with
  | nil => cases before <;> simp
  | cons other after => simp

theorem next_of_head?_rotate (distinct : items.Nodup) {turns : Nat}
    (here : (items.rotate turns).head? = some item) :
    next items item = (items.rotate (turns + 1)).head? := by
  rw [← List.rotate_mod] at here
  have nonempty : items ≠ [] := by
    rintro rfl
    simp at here
  have inside : turns % items.length < items.length :=
    Nat.mod_lt _ (List.length_pos_iff.mpr nonempty)
  rw [List.head?_rotate inside] at here
  obtain ⟨_, read⟩ := List.getElem?_eq_some_iff.mp here
  have split : items = items.take (turns % items.length) ++
      item :: items.drop (turns % items.length + 1) := by
    rw [← read, List.cons_getElem_drop_succ, List.take_append_drop]
  have first : item ∉ items.take (turns % items.length) := by
    rw [split] at distinct
    exact fun member =>
      (List.nodup_append.mp distinct).2.2 item member item
        List.mem_cons_self rfl
  have turned : items.rotate (turns + 1) =
      items.drop (turns % items.length + 1) ++
        (items.take (turns % items.length) ++ [item]) := by
    calc items.rotate (turns + 1)
        = items.rotate (turns % items.length + 1) := by
          rw [← List.rotate_rotate, ← List.rotate_rotate, List.rotate_mod]
      _ = ((items.take (turns % items.length) ++ [item]) ++
            items.drop (turns % items.length + 1)).rotate
              (items.take (turns % items.length) ++ [item]).length := by
          rw [List.append_assoc, List.singleton_append, ← split,
            List.length_append, List.length_take_of_le (Nat.le_of_lt inside),
            List.length_singleton]
      _ = _ := List.rotate_append_length_eq _ _
  rw [turned, ← next_append first, ← split]

/-- A step of the walk; without an item there is none. -/
def step (items : List α) (item : Option α) : Option α :=
  item.bind (next items)

theorem iterate_step_head?_rotate (distinct : items.Nodup) (turns count : Nat) :
    (step items)^[count] (items.rotate turns).head? =
      (items.rotate (turns + count)).head? := by
  induction count with
  | zero => rfl
  | succ count ih =>
      rw [Function.iterate_succ_apply', ih]
      cases here : (items.rotate (turns + count)).head? with
      | none =>
          have empty := List.head?_eq_none_iff.mp here
          rw [List.rotate_eq_nil_iff] at empty
          subst empty
          simp [step]
      | some item => exact next_of_head?_rotate distinct here

omit [DecidableEq α] in
theorem exists_head?_rotate (member : item ∈ items) :
    ∃ turns, (items.rotate turns).head? = some item := by
  obtain ⟨index, inside, rfl⟩ := List.mem_iff_getElem.mp member
  refine ⟨index, ?_⟩
  rw [List.head?_rotate inside, List.getElem?_eq_getElem inside]

theorem iterate_step_length (distinct : items.Nodup) (member : item ∈ items) :
    (step items)^[items.length] (some item) = some item := by
  obtain ⟨turns, here⟩ := exists_head?_rotate member
  rw [← here, iterate_step_head?_rotate distinct, ← List.rotate_rotate]
  have full := List.rotate_length (items.rotate turns)
  rw [List.length_rotate] at full
  rw [full]

theorem perm_visited {items : List α} (distinct : items.Nodup)
    (member : item ∈ items) :
    ((List.range items.length).map fun count =>
        (step items)^[count] (some item)).Perm (items.map some) := by
  obtain ⟨turns, here⟩ := exists_head?_rotate member
  have visited : ((List.range items.length).map fun count =>
      (step items)^[count] (some item)) = (items.rotate turns).map some := by
    refine List.ext_getElem (by simp) fun count inside _ => ?_
    have bound : count < (items.rotate turns).length := by
      simpa using inside
    rw [List.getElem_map, List.getElem_range, List.getElem_map, ← here,
      iterate_step_head?_rotate distinct, ← List.rotate_rotate,
      List.head?_rotate bound, List.getElem?_eq_getElem bound]
  rw [visited]
  exact (List.rotate_perm items turns).map some

end IotivityLite.Around
