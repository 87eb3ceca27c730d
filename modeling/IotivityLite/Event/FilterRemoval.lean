import IotivityLite.Event.CallbackLifetime

/-!
# What a removal by a filter removes

A call of `oc_ri_remove_timed_event_callback_by_filter` should remove the
callbacks that it selects, or the first of them, and no others.  The one that
is being processed is only marked, and removed when its callback returns; a
removal that selects another callback after it forgets the mark.
-/

namespace IotivityLite

/-- Lists of records at different addresses. -/
structure DistinctCallbacks extends EventCallbacks where
  distinct : (timed.map (·.ref)).Nodup

/-- The records that a call is to remove. -/
def TimedRemoval.asked (removal : TimedRemoval) (records : List EventRecord) :
    List EventRecord :=
  if removal.matchAll then records.filter removal.selects
  else (records.find? removal.selects).toList

/-- The list is left with the records that are not to be removed and the one
that is being processed.  This one is removed, if it is to be, when its
callback returns, whatever it does before that, and otherwise not marked. -/
structure RemovesAsked (state : EventCallbacks) (removal : TimedRemoval) :
    Prop where
  timed : (ocRiRemoveTimedEventCallbackByFilter removal state).timed =
    state.timed.filter fun record =>
      !(removal.asked state.timed).contains record ||
        state.current == some record.ref
  running : ∀ record ∈ removal.asked state.timed,
    state.current = some record.ref → ∀ actions done,
      record ∉ (endTurn .timed record.ref done (runFrom callbackAct
        (ocRiRemoveTimedEventCallbackByFilter removal state) actions)).timed
  unmarked : (∀ record ∈ removal.asked state.timed,
      state.current ≠ some record.ref) →
    (ocRiRemoveTimedEventCallbackByFilter removal state).delete = state.delete

/-- If all are to be removed, none is selected after the record that is being
processed, unless this one is marked already. -/
def RemovalFits (state : EventCallbacks) (removal : TimedRemoval) : Prop :=
  removal.matchAll = true → state.delete = false →
    ∀ before record after, state.timed = before ++ record :: after →
      state.current = some record.ref → removal.selects record = true →
        ∀ other ∈ after, removal.selects other = false

section Loop

variable {removal : TimedRemoval} {state : EventCallbacks}

theorem current_note (entry : CallbackLog) :
    (state.note entry).current = state.current := rfl

theorem timed_release (hook : Option Nat) (ref : Nat) :
    (state.release .timed hook ref).timed =
      state.timed.filter fun other => other.ref != ref := by
  cases hook <;> rfl

theorem delete_release (hook : Option Nat) (ref : Nat) :
    (state.release .timed hook ref).delete = state.delete := by
  cases hook <;> rfl

theorem current_release (hook : Option Nat) (ref : Nat) :
    (state.release .timed hook ref).current = state.current := by
  cases hook <;> rfl

theorem delete_removeTimedFrom (rest : List EventRecord) (wanted : Bool)
    (state : EventCallbacks) :
    (removeTimedFrom removal rest wanted state).2.delete = state.delete := by
  induction rest generalizing wanted state with
  | nil => rfl
  | cons record rest ih =>
      rw [removeTimedFrom]
      dsimp only
      split
      · split
        · split
          · exact ih true _
          · rfl
        · split
          · exact (ih false _).trans (delete_release _ _)
          · exact delete_release _ _
      · exact ih wanted _

/-- If a record is selected that is not being processed. -/
def freedNow (removal : TimedRemoval) (current : Option Nat)
    (record : EventRecord) : Bool :=
  removal.selects record && !current == some record.ref

/-- The last selected record decides about the mark. -/
def markAfter (removal : TimedRemoval) (current : Option Nat) (wanted : Bool)
    (rest : List EventRecord) : Bool :=
  rest.foldl (fun wanted record =>
    if removal.selects record then current == some record.ref else wanted)
    wanted

theorem removeTimedFrom_all (all : removal.matchAll = true)
    (rest : List EventRecord) (wanted : Bool) (state : EventCallbacks) :
    (removeTimedFrom removal rest wanted state).2.timed =
        (state.timed.filter fun other => !rest.any fun record =>
          freedNow removal state.current record && record.ref == other.ref) ∧
      (removeTimedFrom removal rest wanted state).1 =
        markAfter removal state.current wanted rest := by
  induction rest generalizing wanted state with
  | nil =>
      refine ⟨(List.filter_eq_self.mpr ?_).symm, rfl⟩
      exact fun _ _ => rfl
  | cons record rest ih =>
      rw [removeTimedFrom, markAfter, List.foldl_cons]
      dsimp only
      by_cases selected : removal.selects record = true
      · rw [if_pos selected, if_pos selected, if_pos all, if_pos all]
        by_cases own : state.current = some record.ref
        · have kept : freedNow removal state.current record = false := by
            simp [freedNow, own]
          have marked : (state.current == some record.ref) = true := by
            simp [own]
          obtain ⟨timed, mark⟩ := ih true
            ((state.note (.touch record.ref)).note
              (.request record.ref removal.onDelete))
          simp only [List.any_cons, kept, Bool.false_and, Bool.false_or,
            marked]
          rw [current_note, current_note, if_pos own]
          exact ⟨timed, mark⟩
        · have freed : freedNow removal state.current record = true := by
            simp [freedNow, own, selected]
          have unmarked : (state.current == some record.ref) = false := by
            simp [own]
          obtain ⟨timed, mark⟩ := ih false
            (((state.note (.touch record.ref)).note
              (.request record.ref removal.onDelete)).release .timed
                removal.onDelete record.ref)
          rw [timed_release, current_release, List.filter_filter] at timed
          rw [current_release] at mark
          simp only [List.any_cons, freed, Bool.true_and, unmarked]
          rw [current_note, current_note, if_neg own]
          refine ⟨timed.trans ?_, mark⟩
          apply List.filter_congr
          intro other _
          rw [Bool.not_or, Bool.and_comm, bne_comm]
          rfl
      · have kept : freedNow removal state.current record = false := by
          simp [freedNow, selected]
        rw [if_neg selected, if_neg selected]
        simp only [List.any_cons, kept, Bool.false_and, Bool.false_or]
        exact ih wanted (state.note (.touch record.ref))

theorem removeTimedFrom_first (first : removal.matchAll = false)
    (rest : List EventRecord) (state : EventCallbacks) :
    (removeTimedFrom removal rest false state).2.timed =
        (state.timed.filter fun other =>
          !(rest.find? removal.selects).any fun record =>
            !state.current == some record.ref && record.ref == other.ref) ∧
      (removeTimedFrom removal rest false state).1 =
        (rest.find? removal.selects).any fun record =>
          state.current == some record.ref := by
  have other : ¬ removal.matchAll = true := by simp [first]
  induction rest generalizing state with
  | nil =>
      refine ⟨(List.filter_eq_self.mpr ?_).symm, rfl⟩
      exact fun _ _ => rfl
  | cons record rest ih =>
      rw [removeTimedFrom]
      dsimp only
      by_cases selected : removal.selects record = true
      · rw [if_pos selected, if_neg other, if_neg other,
          List.find?_cons_of_pos selected]
        by_cases own : state.current = some record.ref
        · rw [current_note, current_note, if_pos own]
          have marked : (state.current == some record.ref) = true := by
            simp [own]
          simp only [Option.any_some, marked, Bool.not_true, Bool.false_and,
            Bool.not_false]
          exact ⟨(List.filter_eq_self.mpr fun _ _ => rfl).symm, trivial⟩
        · rw [current_note, current_note, if_neg own]
          have unmarked : (state.current == some record.ref) = false := by
            simp [own]
          simp only [Option.any_some, unmarked, Bool.not_false, Bool.true_and]
          refine ⟨(timed_release _ _).trans ?_, trivial⟩
          apply List.filter_congr
          intro other _
          rw [bne_comm]
          rfl
      · rw [if_neg selected, List.find?_cons_of_neg selected]
        exact ih (state.note (.touch record.ref))

theorem markAfter_append {current : Option Nat} {wanted : Bool}
    (before rest : List EventRecord) :
    markAfter removal current wanted (before ++ rest) =
      markAfter removal current (markAfter removal current wanted before)
        rest :=
  List.foldl_append

theorem markAfter_of_none {current : Option Nat} {wanted : Bool}
    {rest : List EventRecord}
    (none : ∀ record ∈ rest, removal.selects record = false) :
    markAfter removal current wanted rest = wanted := by
  induction rest with
  | nil => rfl
  | cons record rest ih =>
      rw [List.forall_mem_cons] at none
      rw [markAfter, List.foldl_cons, if_neg (by simp [none.1])]
      exact ih none.2

theorem markAfter_of_apart {current : Option Nat} {wanted : Bool}
    {rest : List EventRecord}
    (apart : ∀ record ∈ rest, removal.selects record = true →
      current ≠ some record.ref)
    (selects : wanted = false ∨
      ∃ record ∈ rest, removal.selects record = true) :
    markAfter removal current wanted rest = false := by
  induction rest generalizing wanted with
  | nil =>
      rcases selects with unwanted | ⟨_, absent, -⟩
      · exact unwanted
      · cases absent
  | cons record rest ih =>
      rw [List.forall_mem_cons] at apart
      rw [markAfter, List.foldl_cons]
      by_cases selected : removal.selects record = true
      · have other := apart.1 selected
        rw [if_pos selected]
        exact ih apart.2 (Or.inl (by simp [other]))
      · rw [if_neg selected]
        apply ih apart.2
        rcases selects with unwanted | ⟨found, member, yes⟩
        · exact Or.inl unwanted
        · rcases List.mem_cons.mp member with rfl | later
          · exact absurd yes selected
          · exact Or.inr ⟨found, later, yes⟩

end Loop

section Call

variable {removal : TimedRemoval} {state : EventCallbacks}

theorem timed_remove :
    (ocRiRemoveTimedEventCallbackByFilter removal state).timed =
      (removeTimedFrom removal state.timed false state).2.timed := by
  rw [ocRiRemoveTimedEventCallbackByFilter]
  rcases removeTimedFrom removal state.timed false state with ⟨- | -, after⟩
  · rfl
  · rfl

theorem delete_remove :
    (ocRiRemoveTimedEventCallbackByFilter removal state).delete =
      (state.delete ||
        (removeTimedFrom removal state.timed false state).1) := by
  have same := @delete_removeTimedFrom removal state.timed false state
  rw [ocRiRemoveTimedEventCallbackByFilter]
  revert same
  rcases removeTimedFrom removal state.timed false state with ⟨- | -, after⟩
  · intro same
    rw [Bool.or_false]
    exact same
  · intro _
    rw [Bool.or_true]

theorem delete_callbackAct (marked : state.delete = true)
    (action : CallbackAction) : (callbackAct state action).delete = true := by
  cases action with
  | add callback data memory =>
      rw [callbackAct, ocRiAddTimedEventCallback]
      split
      · exact marked
      · exact marked
  | remove removal =>
      rw [callbackAct, delete_remove, marked, Bool.true_or]
  | addPeriodic resource memory =>
      rw [callbackAct, ocPeriodicCallbackAdd]
      split
      · exact marked
      · split
        · exact marked
        · exact marked
  | removePeriodic resource =>
      rw [callbackAct, ocPeriodicCallbackRemove]
      split
      · exact marked
      · exact marked

theorem not_mem_endTurn {record : EventRecord} (marked : state.delete = true)
    (actions : List CallbackAction) (done : Bool) :
    record ∉ (endTurn .timed record.ref done
      (runFrom callbackAct state actions)).timed := by
  have still : (runFrom callbackAct state actions).delete = true := by
    apply @invariant_runFrom _ _ callbackAct state
      (fun state : EventCallbacks => state.delete = true) actions marked
    exact fun before action marked => delete_callbackAct marked action
  revert still
  generalize runFrom callbackAct state actions = after
  intro still
  have ends : (done || (after.note (.touch record.ref)).delete) = true := by
    change (done || after.delete) = true
    rw [still, Bool.or_true]
  rw [endTurn, if_pos ends, timed_release]
  intro member
  have other := (List.mem_filter.mp member).2
  simp at other

theorem timed_endTurn_of_unmarked {ref : Nat}
    (unmarked : state.delete = false) :
    (endTurn .timed ref false state).timed = state.timed := by
  have stays : ¬ (false || (state.note (.touch ref)).delete) = true := by
    change ¬ (false || state.delete) = true
    rw [unmarked]
    exact Bool.false_ne_true
  rw [endTurn, if_neg stays]
  rfl

end Call

section Left

variable {removal : TimedRemoval} {state : DistinctCallbacks}

theorem DistinctCallbacks.eq_of_ref {record other : EventRecord}
    (member : record ∈ state.timed) (present : other ∈ state.timed)
    (same : record.ref = other.ref) : record = other :=
  List.inj_on_of_nodup_map state.distinct member present same

theorem timed_remove_all (all : removal.matchAll = true) :
    (ocRiRemoveTimedEventCallbackByFilter removal
        state.toEventCallbacks).timed =
      state.timed.filter fun record =>
        !(removal.asked state.timed).contains record ||
          state.current == some record.ref := by
  rw [timed_remove, (removeTimedFrom_all all state.timed false _).1]
  apply List.filter_congr
  intro other member
  have freed : (state.timed.any fun record =>
      freedNow removal state.current record && record.ref == other.ref) =
        freedNow removal state.current other := by
    rw [Bool.eq_iff_iff, List.any_eq_true]
    constructor
    · rintro ⟨record, present, both⟩
      rw [Bool.and_eq_true, beq_iff_eq] at both
      exact DistinctCallbacks.eq_of_ref present member both.2 ▸ both.1
    · intro yes
      exact ⟨other, member, by simp [yes]⟩
  have selected : (removal.asked state.timed).contains other =
      removal.selects other := by
    rw [Bool.eq_iff_iff, List.contains_iff_mem, TimedRemoval.asked,
      if_pos all, List.mem_filter]
    exact and_iff_right member
  rw [freed, selected, freedNow, Bool.not_and, Bool.not_not]

theorem timed_remove_first (first : removal.matchAll = false) :
    (ocRiRemoveTimedEventCallbackByFilter removal
        state.toEventCallbacks).timed =
      state.timed.filter fun record =>
        !(removal.asked state.timed).contains record ||
          state.current == some record.ref := by
  have other : ¬ removal.matchAll = true := by simp [first]
  rw [timed_remove, (removeTimedFrom_first first state.timed _).1,
    TimedRemoval.asked, if_neg other]
  apply List.filter_congr
  intro other member
  cases found : state.timed.find? removal.selects with
  | none => rfl
  | some record =>
      have present := List.mem_of_find?_eq_some found
      rw [Option.any_some, Option.toList_some, List.contains_cons,
        List.contains_nil, Bool.or_false]
      by_cases same : record = other
      · subst same
        simp
      · have apart : (record.ref == other.ref) = false := by
          rw [beq_eq_false_iff_ne]
          exact fun refs =>
            same (DistinctCallbacks.eq_of_ref present member refs)
        have different : (other == record) = false :=
          beq_eq_false_iff_ne.mpr (Ne.symm same)
        rw [apart, different, Bool.and_false]
        rfl

theorem timed_remove_asked :
    (ocRiRemoveTimedEventCallbackByFilter removal
        state.toEventCallbacks).timed =
      state.timed.filter fun record =>
        !(removal.asked state.timed).contains record ||
          state.current == some record.ref := by
  cases all : removal.matchAll with
  | true => exact timed_remove_all all
  | false => exact timed_remove_first all

theorem mark_of_apart
    (apart : ∀ record ∈ removal.asked state.timed,
      state.current ≠ some record.ref) :
    (removeTimedFrom removal state.timed false
      state.toEventCallbacks).1 = false := by
  cases all : removal.matchAll with
  | true =>
      rw [(removeTimedFrom_all all state.timed false _).2]
      apply markAfter_of_apart
      · intro record member selected
        apply apart record
        rw [TimedRemoval.asked, if_pos all]
        exact List.mem_filter.mpr ⟨member, selected⟩
      · exact Or.inl rfl
  | false =>
      rw [(removeTimedFrom_first all state.timed _).2]
      have first : ¬ removal.matchAll = true := by simp [all]
      rw [TimedRemoval.asked, if_neg first] at apart
      cases found : state.timed.find? removal.selects with
      | none => rfl
      | some record =>
          rw [found] at apart
          have other := apart record (List.mem_singleton_self record)
          rw [Option.any_some]
          exact beq_eq_false_iff_ne.mpr other

theorem mark_all_iff (all : removal.matchAll = true)
    {before after : List EventRecord} {record : EventRecord}
    (split : state.timed = before ++ record :: after)
    (own : state.current = some record.ref)
    (selected : removal.selects record = true) :
    (removeTimedFrom removal state.timed false
        state.toEventCallbacks).1 = true ↔
      ∀ other ∈ after, removal.selects other = false := by
  have step : markAfter removal state.current false state.timed =
      markAfter removal state.current true after := by
    have marked : (state.current == some record.ref) = true := by simp [own]
    rw [split, markAfter_append, markAfter, List.foldl_cons, if_pos selected,
      marked]
    rfl
  rw [(removeTimedFrom_all all state.timed false _).2, step]
  constructor
  · intro marked other member
    by_contra yes
    rw [Bool.not_eq_false] at yes
    have distinct := state.distinct
    rw [split, List.map_append, List.map_cons, List.nodup_append,
      List.nodup_cons] at distinct
    have lost := @markAfter_of_apart removal state.current true after
      (by
        intro other member _ same
        have equal := Option.some.inj (own.symm.trans same)
        exact distinct.2.1.1 (equal ▸ List.mem_map_of_mem member))
      (Or.inr ⟨other, member, yes⟩)
    rw [lost] at marked
    cases marked
  · exact fun none => markAfter_of_none none

end Left

/-- A call removes what it is asked to remove exactly if it fits. -/
theorem removesAsked_iff (state : DistinctCallbacks) (removal : TimedRemoval) :
    RemovesAsked state.toEventCallbacks removal ↔
      RemovalFits state.toEventCallbacks removal := by
  constructor
  · intro removes all unmarked before record after split own selected
    have member : record ∈ state.timed := by
      rw [split]
      exact List.mem_append_right _ List.mem_cons_self
    have asked : record ∈ removal.asked state.timed := by
      rw [TimedRemoval.asked, if_pos all]
      exact List.mem_filter.mpr ⟨member, selected⟩
    apply (mark_all_iff all split own selected).mp
    by_contra lost
    rw [Bool.not_eq_true] at lost
    have free : (ocRiRemoveTimedEventCallbackByFilter removal
        state.toEventCallbacks).delete = false := by
      rw [delete_remove, unmarked, lost]
      rfl
    -- the callback does nothing more and asks to be called again
    have gone := removes.running record asked own [] false
    rw [runFrom_nil, timed_endTurn_of_unmarked free, removes.timed] at gone
    apply gone
    apply List.mem_filter.mpr
    exact ⟨member, by simp [own]⟩
  · intro fits
    refine ⟨timed_remove_asked, ?_, ?_⟩
    · intro record asked own actions done
      apply not_mem_endTurn
      rw [delete_remove]
      cases marked : state.delete with
      | true => rfl
      | false =>
          rw [Bool.false_or]
          cases all : removal.matchAll with
          | true =>
              rw [TimedRemoval.asked, if_pos all] at asked
              obtain ⟨member, selected⟩ := List.mem_filter.mp asked
              obtain ⟨before, after, split⟩ := List.append_of_mem member
              apply (mark_all_iff all split own selected).mpr
              exact fits all marked before record after split own selected
          | false =>
              have first : ¬ removal.matchAll = true := by simp [all]
              rw [TimedRemoval.asked, if_neg first, Option.mem_toList]
                at asked
              rw [(removeTimedFrom_first all state.timed _).2, asked,
                Option.any_some, own, beq_self_eq_true]
    · intro apart
      rw [delete_remove, mark_of_apart apart, Bool.or_false]

namespace SelfAndNext

/-- The first of two records is being processed. -/
def state : DistinctCallbacks where
  toEventCallbacks := ⟨[⟨0, 1, 7⟩, ⟨1, 1, 8⟩], [], some 0, false, none, 2, []⟩
  distinct := by decide

/-- All records with the callback are to be removed. -/
def removal : TimedRemoval := ⟨1, fun _ => true, true, none⟩

end SelfAndNext

open SelfAndNext in
/-- The first record stays in the list when its callback returns. -/
theorem not_removesAsked : ¬ RemovesAsked state.toEventCallbacks removal := by
  intro removes
  have gone := removes.running ⟨0, 1, 7⟩ (by decide) rfl [] false
  exact gone (by decide)

end IotivityLite
