import Mathlib.Data.List.Basic

/-!
# The least value, or zero for none

A loop over some items keeps the least value so far and lets 0 stand for no
value.  An item may also replace what was kept by its own value.  The result
is the least value exactly if no replacement loses a smaller one.
-/

namespace IotivityLite

/-- `least` is the least of the values, and 0 if there is none. -/
structure LeastOrZero (values : List Nat) (least : Nat) : Prop where
  zero_iff : least = 0 ↔ values = []
  le : ∀ value ∈ values, least ≤ value
  mem : values ≠ [] → least ∈ values

/-- What an item does to the least value so far. -/
inductive Reading where
  | absent
  | lower (value : Nat)
  | replace (value : Nat)
  deriving DecidableEq, Repr

def Reading.value? : Reading → Option Nat
  | absent => none
  | lower value => some value
  | replace value => some value

def Reading.apply (least : Nat) : Reading → Nat
  | absent => least
  | lower value => if least = 0 ∨ value < least then value else least
  | replace value => value

variable {value : Nat}

section

variable {α : Type} (reading : α → Reading)

def leastRead (least : Nat) (items : List α) : Nat :=
  items.foldl (fun least item => (reading item).apply least) least

/-- The values of the items that have one. -/
def readValues (items : List α) : List Nat :=
  items.filterMap fun item => (reading item).value?

theorem readValues_append (before after : List α) :
    readValues reading (before ++ after) =
      readValues reading before ++ readValues reading after :=
  List.filterMap_append

theorem readValues_cons_of_replace {item : α}
    (replaces : reading item = .replace value) (items : List α) :
    readValues reading (item :: items) =
      value :: readValues reading items :=
  List.filterMap_cons_some (by rw [replaces]; rfl)

end

theorem LeastOrZero.nil : LeastOrZero [] 0 where
  zero_iff := by simp
  le := by simp
  mem := by simp

theorem LeastOrZero.singleton (positive : 0 < value) :
    LeastOrZero [value] value where
  zero_iff := by
    simp only [List.cons_ne_nil, iff_false]
    omega
  le := by simp
  mem := by simp

theorem LeastOrZero.lower {values : List Nat} {least value : Nat}
    (known : LeastOrZero values least) (positive : 0 < value) :
    LeastOrZero (values ++ [value])
      (if least = 0 ∨ value < least then value else least) := by
  by_cases smaller : least = 0 ∨ value < least
  · rw [if_pos smaller]
    refine ⟨?_, ?_, fun _ => by simp⟩
    · refine iff_of_false (by omega) (by simp)
    · intro other member
      rcases List.mem_append.mp member with earlier | here
      · rcases smaller with zero | less
        · rw [known.zero_iff.mp zero] at earlier
          simp at earlier
        · exact Nat.le_of_lt (Nat.lt_of_lt_of_le less (known.le _ earlier))
      · exact Nat.le_of_eq (List.mem_singleton.mp here).symm
  · rw [if_neg smaller]
    have some : values ≠ [] := fun none =>
      smaller (.inl (known.zero_iff.mpr none))
    refine ⟨?_, ?_, fun _ => List.mem_append_left _ (known.mem some)⟩
    · exact iff_of_false (by omega) (by simp)
    · intro other member
      rcases List.mem_append.mp member with earlier | here
      · exact known.le _ earlier
      · rw [List.mem_singleton.mp here]
        omega

variable {α : Type} {reading : α → Reading} {items : List α}

theorem LeastOrZero.leastRead {known : List Nat} {least : Nat}
    (start : LeastOrZero known least)
    (positive : ∀ item ∈ items, ∀ value, reading item = .lower value →
      0 < value)
    (kept : ∀ item ∈ items, ∀ value, reading item ≠ .replace value) :
    LeastOrZero (known ++ readValues reading items)
      (leastRead reading least items) := by
  induction items generalizing known least with
  | nil =>
      rw [show readValues reading [] = [] from rfl, List.append_nil]
      exact start
  | cons item items ih =>
      rw [List.forall_mem_cons] at positive kept
      show LeastOrZero _
        (IotivityLite.leastRead reading ((reading item).apply least) items)
      cases read : reading item with
      | absent =>
          have skipped : readValues reading (item :: items) =
              readValues reading items :=
            List.filterMap_cons_none (by rw [read]; rfl)
          rw [skipped]
          exact ih start positive.2 kept.2
      | lower value =>
          have here : readValues reading (item :: items) =
              value :: readValues reading items :=
            List.filterMap_cons_some (by rw [read]; rfl)
          rw [here, List.append_cons]
          exact ih (start.lower (positive.1 value read)) positive.2 kept.2
      | replace value => exact (kept.1 value read).elim

theorem exists_last_replacement (reading : α → Reading) (items : List α) :
    (∀ item ∈ items, ∀ value, reading item ≠ .replace value) ∨
      ∃ before item after value, items = before ++ item :: after ∧
        reading item = .replace value ∧
        ∀ other ∈ after, ∀ value, reading other ≠ .replace value := by
  induction items with
  | nil => exact .inl (by simp)
  | cons item items ih =>
      rcases ih with none | ⟨before, last, after, value, rfl, here, none⟩
      · cases read : reading item with
        | replace value =>
            exact .inr ⟨[], item, items, value, rfl, read, none⟩
        | absent | lower =>
            refine .inl (List.forall_mem_cons.mpr ⟨?_, none⟩)
            intro value replaces
            rw [read] at replaces
            contradiction
      · exact .inr ⟨item :: before, last, after, value, rfl, here, none⟩

theorem leastRead_mem (reading : α → Reading) (least : Nat)
    (items : List α) :
    leastRead reading least items ∈ least :: readValues reading items := by
  induction items generalizing least with
  | nil => exact List.mem_singleton_self _
  | cons item items ih =>
      have later := ih ((reading item).apply least)
      show leastRead reading ((reading item).apply least) items ∈ _
      have values : readValues reading (item :: items) =
          (reading item).value?.toList ++ readValues reading items := by
        unfold readValues
        rw [List.filterMap_cons]
        cases (reading item).value? <;> rfl
      rw [values]
      rcases List.mem_cons.mp later with start | member
      · rw [start]
        cases reading item with
        | absent => exact List.mem_cons_self
        | lower value =>
            by_cases smaller : least = 0 ∨ value < least
            · simp [Reading.apply, Reading.value?, smaller]
            · simp [Reading.apply, smaller]
        | replace value => simp [Reading.apply, Reading.value?]
      · exact List.mem_cons_of_mem _ (List.mem_append_right _ member)

theorem leastRead_append_replace {before after : List α} {item : α}
    (replaces : reading item = .replace value) (least : Nat) :
    leastRead reading least (before ++ item :: after) =
      leastRead reading value after := by
  unfold leastRead
  rw [List.foldl_append, List.foldl_cons, replaces]
  rfl

theorem readValues_append_replace {before after : List α} {item : α}
    (replaces : reading item = .replace value) :
    readValues reading (before ++ item :: after) =
      readValues reading before ++ value :: readValues reading after := by
  rw [readValues_append, readValues_cons_of_replace reading replaces]

/-- No replacement loses a smaller value: what is smaller than its own value
comes again behind it, or something smaller still. -/
def LosesNothing (reading : α → Reading) (items : List α) : Prop :=
  ∀ before item after, items = before ++ item :: after →
    ∀ value, reading item = .replace value →
      0 < value ∧ ∀ other ∈ readValues reading before,
        value ≤ other ∨ ∃ later ∈ readValues reading after, later ≤ other

theorem leastOrZero_leastRead_iff
    (positive : ∀ item ∈ items, ∀ value, reading item = .lower value →
      0 < value) :
    LeastOrZero (readValues reading items) (leastRead reading 0 items) ↔
      LosesNothing reading items := by
  constructor
  · rintro known before item after rfl value replaces
    rw [leastRead_append_replace replaces,
      readValues_append_replace replaces] at known
    have positive : 0 < leastRead reading value after :=
      Nat.pos_of_ne_zero fun zero => by
        have none := known.zero_iff.mp zero
        simp at none
    refine ⟨Nat.lt_of_lt_of_le positive (known.le value (by simp)), ?_⟩
    intro other member
    have least := known.le other (List.mem_append_left _ member)
    rcases List.mem_cons.mp (leastRead_mem reading value after) with
      same | later
    · exact .inl (same ▸ least)
    · exact .inr ⟨_, later, least⟩
  · intro keeps
    rcases exists_last_replacement reading items with
      none | ⟨before, item, after, value, rfl, replaces, none⟩
    · exact LeastOrZero.nil.leastRead positive none
    obtain ⟨nonzero, kept⟩ := keeps before item after rfl value replaces
    rw [leastRead_append_replace replaces, readValues_append_replace replaces]
    have behind : LeastOrZero (value :: readValues reading after)
        (IotivityLite.leastRead reading value after) :=
      (LeastOrZero.singleton nonzero).leastRead
        (fun other member => positive other (by simp [member])) none
    refine ⟨?_, ?_, ?_⟩
    · exact iff_of_false
        (fun zero => List.cons_ne_nil _ _ (behind.zero_iff.mp zero))
        (by simp)
    · intro other member
      rcases List.mem_append.mp member with earlier | later
      · rcases kept other earlier with larger | ⟨later, member, smaller⟩
        · exact Nat.le_trans (behind.le value List.mem_cons_self) larger
        · exact Nat.le_trans
            (behind.le later (List.mem_cons_of_mem _ member)) smaller
      · exact behind.le other later
    · exact fun _ => List.mem_append_right _
        (behind.mem (List.cons_ne_nil _ _))

end IotivityLite
