import Mathlib.Data.List.Basic
import Mathlib.Order.Basic

/-!
# Queues in circular arrays

An array, the index of the first element and the number of elements.  The
elements stand one after the other from the first index on and go on at the
start of the array.  The lemmas say what taking the first element, appending
one, closing a gap and moving to a larger array do to the list of elements.
-/

namespace IotivityLite

section Blocks

variable {α : Type}

def storeSlot (slots : Nat → α) (index : Nat) (value : α) : Nat → α :=
  fun candidate => if candidate = index then value else slots candidate

/-- `memmove` -/
def moveSlots (slots : Nat → α) (target source length : Nat) : Nat → α :=
  fun candidate =>
    if target ≤ candidate ∧ candidate < target + length then
      slots (source + (candidate - target))
    else slots candidate

variable {slots : Nat → α} {target source length candidate index : Nat}

theorem storeSlot_same (value : α) :
    storeSlot slots index value index = value := if_pos rfl

theorem storeSlot_of_ne (value : α) (other : candidate ≠ index) :
    storeSlot slots index value candidate = slots candidate := if_neg other

theorem moveSlots_outside
    (outside : candidate < target ∨ target + length ≤ candidate) :
    moveSlots slots target source length candidate = slots candidate :=
  if_neg (by omega)

theorem moveSlots_inside (after : target ≤ candidate)
    (before : candidate < target + length) :
    moveSlots slots target source length candidate =
      slots (source + (candidate - target)) :=
  if_pos ⟨after, before⟩

end Blocks

structure Circular (α : Type) where
  slots : Nat → α
  first : Nat
  count : Nat
  capacity : Nat

namespace Circular

variable {α : Type} (queue : Circular α)

/-- The first index is inside the array, and the array is large enough. -/
structure Fits : Prop where
  inside : queue.first < queue.capacity
  enough : queue.count ≤ queue.capacity

def index (place : Nat) : Nat := (queue.first + place) % queue.capacity

def contents : List α :=
  (List.range queue.count).map fun place => queue.slots (queue.index place)

@[simp] theorem length_contents : queue.contents.length = queue.count := by
  simp [contents]

variable {place : Nat}

@[simp] theorem getElem_contents (bound : place < queue.contents.length) :
    queue.contents[place] = queue.slots (queue.index place) := by
  simp [contents]

variable {queue}

theorem Fits.index_eq (fits : queue.Fits) (small : place < queue.capacity) :
    queue.index place =
      if queue.first + place < queue.capacity then queue.first + place
      else queue.first + place - queue.capacity := by
  have inside := fits.inside
  unfold index
  split
  · next early => exact Nat.mod_eq_of_lt early
  · next late =>
      rw [Nat.mod_eq_sub_mod (Nat.not_lt.mp late)]
      exact Nat.mod_eq_of_lt (by omega)

theorem Fits.index_lt (fits : queue.Fits) (place : Nat) :
    queue.index place < queue.capacity :=
  Nat.mod_lt _ (Nat.lt_of_le_of_lt (Nat.zero_le _) fits.inside)

theorem contents_congr {other : Circular α} (count : other.count = queue.count)
    (same : ∀ place < queue.count,
      other.slots (other.index place) = queue.slots (queue.index place)) :
    other.contents = queue.contents := by
  unfold contents
  rw [count]
  apply List.map_congr_left
  intro place member
  exact same place (List.mem_range.mp member)

section Operations

variable (queue)

def pop : Circular α :=
  { queue with
    first := (queue.first + 1) % queue.capacity
    count := queue.count - 1 }

def push (value : α) : Circular α :=
  { queue with
    slots := storeSlot queue.slots (queue.index queue.count) value
    count := queue.count + 1 }

/-- The elements after a place move up by one. -/
def closeGap (place : Nat) : Circular α :=
  let index := queue.index place
  let last := (queue.first + queue.count - 1) % queue.capacity
  let slots :=
    if queue.count > 1 then
      if last ≥ index then
        moveSlots queue.slots index (index + 1) (last - index)
      else
        let slots := moveSlots queue.slots index (index + 1)
          (queue.capacity - 1 - index)
        let slots := storeSlot slots (queue.capacity - 1) (slots 0)
        moveSlots slots 0 1 last
    else queue.slots
  { queue with slots, count := queue.count - 1 }

end Operations

theorem Fits.pop (fits : queue.Fits) : queue.pop.Fits where
  inside := fits.index_lt 1
  enough := Nat.le_trans (Nat.sub_le _ _) fits.enough

theorem contents_pop (fits : queue.Fits) (some : 0 < queue.count) :
    queue.contents = queue.slots queue.first :: queue.pop.contents := by
  obtain ⟨count, counted⟩ : ∃ count, queue.count = count + 1 :=
    ⟨queue.count - 1, by omega⟩
  have head : queue.index 0 = queue.first :=
    Nat.mod_eq_of_lt (by simpa using fits.inside)
  have shifted : ∀ place, queue.pop.index place = queue.index (place + 1) := by
    intro place
    change ((queue.first + 1) % queue.capacity + place) % queue.capacity = _
    rw [Nat.mod_add_mod, index]
    congr 1
    omega
  have rest : queue.pop.count = count := by
    change queue.count - 1 = count
    omega
  rw [contents, counted, List.range_succ_eq_map, List.map_cons, head,
    List.map_map, contents, rest]
  congr 1
  apply List.map_congr_left
  intro place _
  rw [shifted]
  rfl

theorem Fits.push (fits : queue.Fits) (room : queue.count < queue.capacity)
    (value : α) : (queue.push value).Fits :=
  ⟨fits.inside, room⟩

theorem contents_push (fits : queue.Fits) (room : queue.count < queue.capacity)
    (value : α) : (queue.push value).contents = queue.contents ++ [value] := by
  have apart : ∀ place < queue.count,
      queue.index place ≠ queue.index queue.count := by
    intro place before
    have inside := fits.inside
    rw [fits.index_eq (by omega), fits.index_eq room]
    split <;> split <;> omega
  have slots : ∀ place, (queue.push value).slots
      ((queue.push value).index place) =
        if queue.index place = queue.index queue.count then value
        else queue.slots (queue.index place) := fun _ => rfl
  have counted : (queue.push value).count = queue.count + 1 := rfl
  rw [contents, counted, List.range_succ, List.map_append, List.map_singleton,
    slots, if_pos rfl]
  congr 1
  apply List.map_congr_left
  intro place member
  rw [slots, if_neg (apart place (List.mem_range.mp member))]

theorem Fits.closeGap (fits : queue.Fits) (place : Nat) :
    (queue.closeGap place).Fits where
  inside := fits.inside
  enough := Nat.le_trans (Nat.sub_le _ _) fits.enough

theorem slots_closeGap (fits : queue.Fits) {place other : Nat}
    (inside : place < queue.count) (counted : other + 1 < queue.count) :
    (queue.closeGap place).slots (queue.index other) =
      queue.slots
        (queue.index (if other < place then other else other + 1)) := by
  have first := fits.inside
  have enough := fits.enough
  have several : queue.count > 1 := by omega
  have last : (queue.first + queue.count - 1) % queue.capacity =
      queue.index (queue.count - 1) := by
    unfold index
    congr 1
    omega
  have here := fits.index_eq (show place < queue.capacity by omega)
  have there := fits.index_eq (show other < queue.capacity by omega)
  have next := fits.index_eq (show other + 1 < queue.capacity by omega)
  have ending := fits.index_eq (show queue.count - 1 < queue.capacity by omega)
  simp only [Circular.closeGap, if_pos several, last]
  by_cases order : queue.index (queue.count - 1) ≥ queue.index place
  · rw [if_pos order]
    by_cases early : other < place
    · rw [if_pos early, moveSlots_outside]
      split_ifs at here there ending <;> omega
    · rw [if_neg early, moveSlots_inside]
      · congr 1
        split_ifs at here there next ending <;> omega
      · split_ifs at here there ending <;> omega
      · split_ifs at here there ending <;> omega
  · -- the elements after the place go on at the start of the array
    rw [if_neg order]
    have wrapped : ¬ queue.first + (queue.count - 1) < queue.capacity := by
      intro straight
      split_ifs at here ending <;> omega
    have straight : queue.first + place < queue.capacity := by
      by_contra late
      split_ifs at here ending <;> omega
    rw [if_pos straight] at here
    rw [if_neg wrapped] at ending
    by_cases front : queue.first + other < queue.capacity
    · rw [if_pos front] at there
      rw [moveSlots_outside (by omega)]
      by_cases edge : queue.first + other = queue.capacity - 1
      · have late : ¬ other < place := by omega
        rw [if_neg (by omega)] at next
        rw [if_neg late, there, edge, storeSlot_same,
          moveSlots_outside (by omega), next]
        congr 1
        omega
      · rw [storeSlot_of_ne _ (by omega)]
        by_cases early : other < place
        · rw [if_pos early, moveSlots_outside (by omega)]
        · rw [if_pos (by omega)] at next
          rw [if_neg early, moveSlots_inside (by omega) (by omega)]
          congr 1
          omega
    · rw [if_neg front] at there
      have late : ¬ other < place := by omega
      rw [if_neg (by omega)] at next
      rw [if_neg late, moveSlots_inside (by omega) (by omega),
        storeSlot_of_ne _ (by omega), moveSlots_outside (by omega)]
      congr 1
      omega

theorem contents_closeGap (fits : queue.Fits) (inside : place < queue.count) :
    (queue.closeGap place).contents = queue.contents.eraseIdx place := by
  have counted : (queue.closeGap place).count = queue.count - 1 := rfl
  apply List.ext_getElem
  · rw [length_contents, counted, List.length_eraseIdx, length_contents,
      if_pos inside]
  · intro other here there
    rw [length_contents, counted] at here
    have indexed : (queue.closeGap place).index other = queue.index other := rfl
    rw [getElem_contents, indexed, slots_closeGap fits inside (by omega),
      List.getElem_eraseIdx]
    split
    · rw [getElem_contents]
    · rw [getElem_contents]

theorem contents_grown {grown : Circular α} (fits : queue.Fits)
    (count : grown.count = queue.count)
    (capacity : grown.capacity = 2 * queue.capacity)
    (first : grown.first = queue.capacity + queue.first)
    (moved : ∀ index, queue.first ≤ index → index < queue.capacity →
      grown.slots (queue.capacity + index) = queue.slots index)
    (kept : ∀ index < queue.first, grown.slots index = queue.slots index) :
    grown.Fits ∧ grown.contents = queue.contents := by
  have inside := fits.inside
  have enough := fits.enough
  have grownFits : grown.Fits := ⟨by omega, by omega⟩
  refine ⟨grownFits, contents_congr count ?_⟩
  intro place counted
  rw [grownFits.index_eq (by omega), fits.index_eq (by omega), first, capacity]
  by_cases front : queue.first + place < queue.capacity
  · rw [if_pos (by omega), if_pos front, Nat.add_assoc]
    exact moved _ (by omega) front
  · rw [if_neg (by omega), if_neg front, ← kept _ (by omega)]
    congr 1
    omega

end Circular

end IotivityLite
