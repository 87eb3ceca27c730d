import IotivityLite.Event.TimedCallbacks
import Mathlib.Data.List.Nodup

/-!
# The life of a callback record

A record should not be used after it was freed, and a record whose removal was
requested should be freed, and the hook of the request called, exactly once.
The record that is being processed is in danger in three ways: it is freed when
its periodic observation is removed; a removal that goes on after it has marked
it and removes another record forgets the mark; a second removal replaces the
hook of the first one.
-/

namespace IotivityLite

/-- A record that was freed is neither used nor freed. -/
def SafeLog (log : List CallbackLog) : Prop :=
  log.Pairwise fun later earlier => ∀ ref, earlier = .free ref →
    later ≠ .touch ref ∧ later ≠ .free ref

/-- The record was freed, and the hook called once. -/
def Removed (log : List CallbackLog) (ref : Nat) (hook : Option Nat) : Prop :=
  .free ref ∈ log ∧ ∀ called, hook = some called →
    log.count (.hook called ref) = 1

def CompleteLog (log : List CallbackLog) : Prop :=
  ∀ ref hook, .request ref hook ∈ log → Removed log ref hook

/-- If the removal gets to the record that is being processed, it removes no
other record after it, and a hook that is waiting is called anyway.  The
periodic observation that is being processed is not removed. -/
def ActionFits (state : EventCallbacks) : CallbackAction → Prop
  | .remove removal =>
      ∀ before record after, state.timed = before ++ record :: after →
        state.current = some record.ref → removal.selects record = true →
          (removal.matchAll = true ∨
            ∀ other ∈ before, removal.selects other = false) →
          (removal.matchAll = true →
              ∀ other ∈ after, removal.selects other = false) ∧
            (state.onDelete = none ∨ state.onDelete = removal.onDelete)
  | .removePeriodic resource =>
      ∀ record, state.observe.find? (fun record => record.data == resource) =
        some record → state.current ≠ some record.ref
  | _ => True

def TurnFits (list : EventList) (state : EventCallbacks)
    (turn : CallbackTurn) : Prop :=
  Along callbackAct ActionFits (beginTurn list turn.ref state) turn.actions

def StepFits (state : EventCallbacks) : EventStep → Prop
  | .act _ => True
  | .check observe timed =>
      Along (pollTurn .observe) (TurnFits .observe) state observe ∧
        Along (pollTurn .timed) (TurnFits .timed)
          (eventCallbacksPollTimers .observe observe state) timed

namespace EventCallbacks

/-- Records have different addresses, and what was freed or had a hook called
is no longer in the lists. -/
structure Sound (state : EventCallbacks) : Prop where
  distinct : (state.timed.map (·.ref)).Nodup
  apart : ∀ record ∈ state.timed, ∀ other ∈ state.observe,
    record.ref ≠ other.ref
  fresh : ∀ list, ∀ record ∈ state.records list, record.ref < state.next
  past : ∀ ref, (.free ref ∈ state.log ∨ ∃ hook, .hook hook ref ∈ state.log) →
    ref < state.next ∧ ∀ list, ∀ record ∈ state.records list,
      record.ref ≠ ref
  safe : SafeLog state.log

/-- A removal that is not complete waits for the end of the turn; inside of the
loop it may be wanted only. -/
def Waiting (state : EventCallbacks) (wanted : Bool) (onDelete : Option Nat) :
    Prop :=
  ∀ ref hook, .request ref hook ∈ state.log →
    Removed state.log ref hook ∨
      state.current = some ref ∧
        (state.delete = true ∧ (∀ called, hook = some called →
            state.onDelete = some called) ∨
          wanted = true ∧ hook = onDelete)

/-- The record that is being processed is in its list. -/
def Processed (state : EventCallbacks) (list : EventList) : Prop :=
  ∀ ref, state.current = some ref →
    ∃ record ∈ state.records list, record.ref = ref

end EventCallbacks

namespace EventCallbacks

section Steps

variable {state : EventCallbacks} {ref : Nat} {list : EventList}
  {record : EventRecord}

theorem Sound.not_freed (sound : state.Sound)
    (member : record ∈ state.records list) : .free record.ref ∉ state.log :=
  fun freed => (sound.past record.ref (Or.inl freed)).2 list record member rfl

theorem Sound.no_hook (sound : state.Sound)
    (member : record ∈ state.records list) (hook : Nat) :
    .hook hook record.ref ∉ state.log :=
  fun called => (sound.past record.ref (Or.inr ⟨hook, called⟩)).2 list record
    member rfl

variable {entry : CallbackLog}

theorem safeLog_cons {log : List CallbackLog} :
    SafeLog (entry :: log) ↔ (∀ ref, .free ref ∈ log →
      entry ≠ .touch ref ∧ entry ≠ .free ref) ∧ SafeLog log := by
  rw [SafeLog, List.pairwise_cons]
  apply and_congr_left
  intro _
  constructor
  · intro each ref member
    exact each _ member ref rfl
  · intro each earlier member ref same
    exact each ref (same ▸ member)

theorem Sound.note (sound : state.Sound)
    (plain : ∀ ref, entry ≠ .free ref ∧ ∀ hook, entry ≠ .hook hook ref)
    (live : ∀ ref, entry = .touch ref → .free ref ∉ state.log) :
    (state.note entry).Sound where
  distinct := sound.distinct
  apart := sound.apart
  fresh := sound.fresh
  past := by
    rintro ref (freed | ⟨hook, called⟩)
    · rcases List.mem_cons.mp freed with same | old
      · exact absurd same.symm (plain ref).1
      · exact sound.past ref (Or.inl old)
    · rcases List.mem_cons.mp called with same | old
      · exact absurd same.symm ((plain ref).2 hook)
      · exact sound.past ref (Or.inr ⟨hook, old⟩)
  safe := by
    refine safeLog_cons.mpr ⟨?_, sound.safe⟩
    intro ref freed
    exact ⟨fun touched => live ref touched freed, (plain ref).1⟩

theorem Sound.touch (sound : state.Sound) {record : EventRecord}
    (member : record ∈ state.records list) :
    (state.note (.touch record.ref)).Sound := by
  apply sound.note
  · exact fun _ => ⟨nofun, nofun⟩
  · intro ref same
    cases same
    exact sound.not_freed member

theorem removed_cons {log : List CallbackLog} {hook : Option Nat}
    (removed : Removed log ref hook)
    (other : ∀ called, entry ≠ .hook called ref) :
    Removed (entry :: log) ref hook := by
  refine ⟨List.mem_cons_of_mem _ removed.1, ?_⟩
  intro called same
  rw [List.count_cons_of_ne (other called)]
  exact removed.2 called same

theorem Waiting.note {wanted : Bool} {onDelete : Option Nat}
    (waiting : state.Waiting wanted onDelete)
    (plain : (∀ hook ref, entry ≠ .hook hook ref) ∧
      ∀ ref hook, entry ≠ .request ref hook) :
    (state.note entry).Waiting wanted onDelete := by
  intro ref hook member
  rcases List.mem_cons.mp member with same | old
  · exact absurd same.symm (plain.2 ref hook)
  · rcases waiting ref hook old with removed | waits
    · exact Or.inl (removed_cons removed fun called => plain.1 called ref)
    · exact Or.inr waits

theorem mem_records_release {hook : Option Nat} {kind : EventList}
    {record : EventRecord}
    (member : record ∈ (state.release list hook ref).records kind) :
    record ∈ state.records kind ∧ (kind = list → record.ref ≠ ref) := by
  have same : (state.release list hook ref).records kind =
      (state.removeFrom list ref).records kind := by
    cases hook <;> cases kind <;> rfl
  rw [same] at member
  cases list with
  | timed =>
      cases kind with
      | timed =>
          obtain ⟨old, different⟩ := List.mem_filter.mp member
          exact ⟨old, fun _ => bne_iff_ne.mp different⟩
      | observe => exact ⟨member, nofun⟩
  | observe =>
      cases kind with
      | timed => exact ⟨member, nofun⟩
      | observe =>
          obtain ⟨old, different⟩ := List.mem_filter.mp member
          exact ⟨old, fun _ => bne_iff_ne.mp different⟩

theorem records_subset_release {hook : Option Nat} {kind : EventList}
    {record : EventRecord} (member : record ∈ state.records kind)
    (different : record.ref ≠ ref) :
    record ∈ (state.release list hook ref).records kind := by
  have same : (state.release list hook ref).records kind =
      (state.removeFrom list ref).records kind := by
    cases hook <;> cases kind <;> rfl
  rw [same]
  cases list with
  | timed =>
      cases kind with
      | timed => exact List.mem_filter.mpr ⟨member, bne_iff_ne.mpr different⟩
      | observe => exact member
  | observe =>
      cases kind with
      | timed => exact member
      | observe => exact List.mem_filter.mpr ⟨member, bne_iff_ne.mpr different⟩

theorem log_release (hook : Option Nat) :
    (state.release list hook ref).log =
      .free ref :: (hook.toList.map fun called => .hook called ref) ++
        state.log := by
  cases hook <;> cases list <;> rfl

theorem Sound.ref_ne (sound : state.Sound) {record other : EventRecord}
    {kind : EventList} (member : record ∈ state.records list)
    (present : other ∈ state.records kind) (different : kind ≠ list) :
    other.ref ≠ record.ref := by
  cases list with
  | timed =>
      cases kind with
      | timed => exact absurd rfl different
      | observe => exact (sound.apart record member other present).symm
  | observe =>
      cases kind with
      | timed => exact sound.apart other present record member
      | observe => exact absurd rfl different

theorem Sound.release (sound : state.Sound) {record : EventRecord}
    (member : record ∈ state.records list) (hook : Option Nat) :
    (state.release list hook record.ref).Sound where
  distinct := by
    have sublist : (state.release list hook record.ref).timed.Sublist
        state.timed := by
      cases list with
      | timed => cases hook <;> exact List.filter_sublist
      | observe => cases hook <;> exact List.Sublist.refl _
    exact sound.distinct.sublist (sublist.map _)
  apart := by
    intro one present other inside
    exact sound.apart one (@mem_records_release _ _ list _ .timed _ present).1
      other (@mem_records_release _ _ list _ .observe _ inside).1
  fresh := by
    intro kind other present
    have same : (state.release list hook record.ref).next = state.next := by
      cases hook <;> cases list <;> rfl
    rw [same]
    exact sound.fresh kind other (mem_records_release present).1
  past := by
    intro ref gone
    have next : (state.release list hook record.ref).next = state.next := by
      cases hook <;> cases list <;> rfl
    rw [log_release] at gone
    rw [next]
    have own : record.ref < state.next ∧ ∀ kind, ∀ other ∈
        (state.release list hook record.ref).records kind,
          other.ref ≠ record.ref := by
      refine ⟨sound.fresh list record member, ?_⟩
      intro kind other present
      obtain ⟨old, different⟩ := mem_records_release present
      by_cases same : kind = list
      · exact different same
      · exact sound.ref_ne member old same
    have earlier : (.free ref ∈ state.log ∨
        ∃ hook, .hook hook ref ∈ state.log) → ref < state.next ∧
          ∀ kind, ∀ other ∈
            (state.release list hook record.ref).records kind,
              other.ref ≠ ref := by
      intro before
      obtain ⟨older, absent⟩ := sound.past ref before
      refine ⟨older, fun kind other present => ?_⟩
      exact absent kind other (mem_records_release present).1
    rcases gone with freed | ⟨called, hooked⟩
    · rcases List.mem_cons.mp freed with same | later
      · cases same
        exact own
      · rcases List.mem_append.mp later with new | old
        · obtain ⟨_, -, impossible⟩ := List.mem_map.mp new
          cases impossible
        · exact earlier (Or.inl old)
    · rcases List.mem_cons.mp hooked with same | later
      · cases same
      · rcases List.mem_append.mp later with new | old
        · obtain ⟨_, -, same⟩ := List.mem_map.mp new
          cases same
          exact own
        · exact earlier (Or.inr ⟨called, old⟩)
  safe := by
    rw [log_release, List.cons_append, safeLog_cons]
    have unfreed := sound.not_freed member
    constructor
    · intro ref freed
      refine ⟨nofun, fun same => ?_⟩
      cases same
      rcases List.mem_append.mp freed with new | old
      · obtain ⟨_, -, impossible⟩ := List.mem_map.mp new
        cases impossible
      · exact unfreed old
    · cases hook with
      | none => exact sound.safe
      | some called =>
          exact safeLog_cons.mpr ⟨fun _ _ => ⟨nofun, nofun⟩, sound.safe⟩

theorem Sound.removed_release (sound : state.Sound)
    (member : record ∈ state.records list) {hook wanted : Option Nat}
    (covers : ∀ called, wanted = some called → hook = some called) :
    Removed (state.release list hook record.ref).log record.ref wanted := by
  rw [log_release]
  refine ⟨List.mem_cons_self, ?_⟩
  intro called same
  have other : CallbackLog.free record.ref ≠ .hook called record.ref := nofun
  rw [covers called same, List.cons_append, List.count_cons_of_ne other]
  change List.count _ (.hook called record.ref :: state.log) = 1
  rw [List.count_cons_self, List.count_eq_zero_of_not_mem
    (sound.no_hook member called)]

theorem removed_of_release {hook wanted : Option Nat} {other : Nat}
    (removed : Removed state.log other wanted) (different : other ≠ ref) :
    Removed (state.release list hook ref).log other wanted := by
  rw [log_release]
  have hooked : Removed ((hook.toList.map fun called =>
      CallbackLog.hook called ref) ++ state.log) other wanted := by
    cases hook with
    | none => exact removed
    | some called =>
        apply removed_cons removed
        intro _ same
        cases same
        exact different rfl
  exact removed_cons hooked nofun

/-- What holds while a callback runs, or user code outside of callbacks. -/
structure Running (state : EventCallbacks) (list : EventList) (wanted : Bool)
    (onDelete : Option Nat) : Prop where
  sound : state.Sound
  waiting : state.Waiting wanted onDelete
  processed : state.Processed list

theorem Running.touch {wanted : Bool} {onDelete : Option Nat}
    (running : state.Running list wanted onDelete) {kind : EventList}
    {record : EventRecord} (member : record ∈ state.records kind) :
    (state.note (.touch record.ref)).Running list wanted onDelete where
  sound := running.sound.touch member
  waiting := running.waiting.note ⟨nofun, nofun⟩
  processed := running.processed

theorem Running.request {onDelete : Option Nat} {ref : Nat}
    (running : state.Running list false onDelete)
    (own : state.current = some ref) :
    (state.note (.request ref onDelete)).Running list true onDelete where
  sound := running.sound.note (fun _ => ⟨nofun, nofun⟩) nofun
  waiting := by
    intro other hook requested
    rcases List.mem_cons.mp requested with same | old
    · cases same
      exact Or.inr ⟨own, Or.inr ⟨rfl, rfl⟩⟩
    · rcases running.waiting other hook old with removed | ⟨here, waits⟩
      · exact Or.inl (removed_cons removed nofun)
      · refine Or.inr ⟨here, ?_⟩
        rcases waits with marked | ⟨yes, -⟩
        · exact Or.inl marked
        · cases yes
  processed := running.processed

theorem Running.release {wanted : Bool} {onDelete hook : Option Nat}
    (running : state.Running list wanted onDelete) {kind : EventList}
    {record : EventRecord} (member : record ∈ state.records kind)
    (idle : state.current ≠ some record.ref) :
    ((state.note (.request record.ref hook)).release kind hook
      record.ref).Running list wanted onDelete := by
  have noted : (state.note (.request record.ref hook)).Sound :=
    running.sound.note (fun _ => ⟨nofun, nofun⟩) nofun
  have current : ((state.note (.request record.ref hook)).release kind hook
      record.ref).current = state.current := by
    cases hook <;> cases kind <;> rfl
  have flags : ((state.note (.request record.ref hook)).release kind hook
      record.ref).delete = state.delete ∧
        ((state.note (.request record.ref hook)).release kind hook
          record.ref).onDelete = state.onDelete := by
    cases hook <;> cases kind <;> exact ⟨rfl, rfl⟩
  refine ⟨noted.release member hook, ?_, ?_⟩
  · intro ref request requested
    rw [current, flags.1, flags.2]
    by_cases own : ref = record.ref
    · -- there was no earlier request for the record
      rw [own, log_release] at requested
      rcases List.mem_append.mp (List.mem_cons.mp requested |>.resolve_left
        nofun) with new | later
      · obtain ⟨_, -, impossible⟩ := List.mem_map.mp new
        cases impossible
      · rcases List.mem_cons.mp later with same | old
        · cases same
          rw [own]
          exact Or.inl (noted.removed_release member fun _ same => same)
        · rcases running.waiting record.ref request old with removed | waits
          · exact absurd removed.1 (running.sound.not_freed member)
          · exact absurd waits.1 idle
    · rw [log_release] at requested
      rcases List.mem_append.mp (List.mem_cons.mp requested |>.resolve_left
        nofun) with new | later
      · obtain ⟨_, -, impossible⟩ := List.mem_map.mp new
        cases impossible
      · rcases List.mem_cons.mp later with same | old
        · cases same
          exact absurd rfl own
        · rcases running.waiting ref request old with removed | waits
          · exact Or.inl (removed_of_release (removed_cons removed nofun) own)
          · exact Or.inr waits
  · intro ref same
    rw [current] at same
    obtain ⟨found, present, equal⟩ := running.processed ref same
    have different : found.ref ≠ record.ref := by
      rw [equal]
      intro own
      exact idle (own ▸ same)
    exact ⟨found, @records_subset_release (state.note
      (.request record.ref hook)) _ kind hook _ _ present different, equal⟩

end Steps

section Loop

variable {removal : TimedRemoval} {list : EventList}

theorem removeTimedFrom_current (rest : List EventRecord) (wanted : Bool)
    (state : EventCallbacks) :
    (removeTimedFrom removal rest wanted state).2.current = state.current ∧
      (removeTimedFrom removal rest wanted state).2.onDelete =
        state.onDelete := by
  induction rest generalizing wanted state with
  | nil => exact ⟨rfl, rfl⟩
  | cons record rest ih =>
      have same : ∀ hook, ((((state.note (.touch record.ref)).note
          (.request record.ref removal.onDelete)).release .timed hook
            record.ref).current = state.current) ∧
          ((((state.note (.touch record.ref)).note
            (.request record.ref removal.onDelete)).release .timed hook
              record.ref).onDelete = state.onDelete) := by
        intro hook
        cases hook <;> exact ⟨rfl, rfl⟩
      rw [removeTimedFrom]
      dsimp only
      split
      · split
        · split
          · exact ih true _
          · exact ⟨rfl, rfl⟩
        · split
          · obtain ⟨current, onDelete⟩ := ih false (((state.note
              (.touch record.ref)).note (.request record.ref
                removal.onDelete)).release .timed removal.onDelete
                  record.ref)
            exact ⟨current.trans (same _).1, onDelete.trans (same _).2⟩
          · exact same _
      · exact ih wanted _

theorem removeTimedFrom_running (rest : List EventRecord) (wanted : Bool)
    (state : EventCallbacks)
    (running : state.Running list wanted removal.onDelete)
    (members : ∀ record ∈ rest, record ∈ state.timed)
    (distinct : (rest.map (·.ref)).Nodup)
    (settled : wanted = true →
      ∀ record ∈ rest, removal.selects record = false)
    (fits : ∀ before record after, rest = before ++ record :: after →
      state.current = some record.ref → removal.selects record = true →
        (removal.matchAll = true ∨
          ∀ other ∈ before, removal.selects other = false) →
        removal.matchAll = true →
          ∀ other ∈ after, removal.selects other = false) :
    (removeTimedFrom removal rest wanted state).2.Running list
      (removeTimedFrom removal rest wanted state).1 removal.onDelete := by
  induction rest generalizing wanted state with
  | nil => exact running
  | cons record rest ih =>
      have member : record ∈ state.records .timed :=
        members record List.mem_cons_self
      have touched := running.touch member
      rw [List.map_cons, List.nodup_cons] at distinct
      have later : ∀ other ∈ rest, other ∈ state.timed := fun other inside =>
        members other (List.mem_cons_of_mem _ inside)
      rw [removeTimedFrom]
      dsimp only
      by_cases selected : removal.selects record = true
      · rw [if_pos selected]
        have unwanted : wanted = false := by
          by_contra yes
          rw [Bool.not_eq_false] at yes
          have no := settled yes record List.mem_cons_self
          rw [selected] at no
          cases no
        by_cases own : ((state.note (.touch record.ref)).note (.request
            record.ref removal.onDelete)).current = some record.ref
        · rw [unwanted] at touched
          have noted := touched.request own
          rw [if_pos own]
          by_cases all : removal.matchAll = true
          · rw [if_pos all]
            have none := fits [] record rest rfl own selected (Or.inl all) all
            refine ih true _ noted later distinct.2 (fun _ => none) ?_
            intro before other after split _ yes
            have no := none other (split ▸
              List.mem_append_right _ List.mem_cons_self)
            rw [yes] at no
            cases no
          · rw [if_neg all]
            exact noted
        · rw [if_neg own]
          have released := @Running.release _ _ _ _ removal.onDelete touched
            .timed _ member own
          rw [unwanted] at released
          by_cases all : removal.matchAll = true
          · rw [if_pos all]
            refine ih false _ released ?_ distinct.2 nofun ?_
            · intro other inside
              have different : other.ref ≠ record.ref := fun same =>
                distinct.1 (same ▸ List.mem_map_of_mem inside)
              exact @records_subset_release _ _ .timed _ .timed _
                (later other inside) different
            · intro before other after split here
              have current : (((state.note (.touch record.ref)).note
                  (.request record.ref removal.onDelete)).release .timed
                    removal.onDelete record.ref).current = state.current := by
                cases removal.onDelete <;> rfl
              rw [current] at here
              intro yes _ _
              exact fits (record :: before) other after
                (congrArg (record :: ·) split) here yes (Or.inl all) all
          · rw [if_neg all]
            exact released
      · rw [if_neg selected]
        refine ih wanted _ touched later distinct.2 ?_ ?_
        · intro yes other inside
          exact settled yes other (List.mem_cons_of_mem _ inside)
        · intro before other after split here yes reached all
          exact fits (record :: before) other after
            (congrArg (record :: ·) split) here yes (Or.inl all) all

end Loop

section Actions

variable {state : EventCallbacks} {list : EventList}

theorem removeTimedFrom_wanted {removal : TimedRemoval}
    (rest : List EventRecord) (state : EventCallbacks)
    (wanted : (removeTimedFrom removal rest false state).1 = true) :
    ∃ before record after, rest = before ++ record :: after ∧
      state.current = some record.ref ∧ removal.selects record = true ∧
      (removal.matchAll = true ∨
        ∀ other ∈ before, removal.selects other = false) := by
  induction rest generalizing state with
  | nil => cases wanted
  | cons record rest ih =>
      rw [removeTimedFrom] at wanted
      dsimp only at wanted
      by_cases selected : removal.selects record = true
      · rw [if_pos selected] at wanted
        by_cases own : ((state.note (.touch record.ref)).note (.request
            record.ref removal.onDelete)).current = some record.ref
        · exact ⟨[], record, rest, rfl, own, selected, Or.inr nofun⟩
        · rw [if_neg own] at wanted
          by_cases all : removal.matchAll = true
          · rw [if_pos all] at wanted
            obtain ⟨before, other, after, split, here, yes, -⟩ :=
              ih _ wanted
            have current : (((state.note (.touch record.ref)).note
                (.request record.ref removal.onDelete)).release .timed
                  removal.onDelete record.ref).current = state.current := by
              cases removal.onDelete <;> rfl
            exact ⟨record :: before, other, after,
              congrArg (record :: ·) split, current ▸ here, yes, Or.inl all⟩
          · rw [if_neg all] at wanted
            cases wanted
      · rw [if_neg selected] at wanted
        obtain ⟨before, other, after, split, here, yes, reached⟩ :=
          ih _ wanted
        refine ⟨record :: before, other, after, congrArg (record :: ·) split,
          here, yes, ?_⟩
        rcases reached with all | none
        · exact Or.inl all
        · refine Or.inr (List.forall_mem_cons.mpr ⟨?_, none⟩)
          exact Bool.not_eq_true _ ▸ selected

theorem Running.unwanted {onDelete other : Option Nat}
    (running : state.Running list false onDelete) :
    state.Running list false other where
  sound := running.sound
  waiting := by
    intro ref hook requested
    rcases running.waiting ref hook requested with removed | ⟨here, waits⟩
    · exact Or.inl removed
    · refine Or.inr ⟨here, ?_⟩
      rcases waits with marked | ⟨no, -⟩
      · exact Or.inl marked
      · cases no
  processed := running.processed

theorem remove_running (running : state.Running list false none)
    {removal : TimedRemoval} (fits : ActionFits state (.remove removal)) :
    (callbackAct state (.remove removal)).Running list false none := by
  have unwanted : state.Running list false removal.onDelete :=
    running.unwanted
  have loop := removeTimedFrom_running state.timed false state unwanted
    (fun _ member => member)
    running.sound.distinct nofun
    (fun before record after split here yes reached =>
      (fits before record after split here yes reached).1)
  have hook : (removeTimedFrom removal state.timed false state).1 = true →
      state.onDelete = none ∨ state.onDelete = removal.onDelete := by
    intro wanted
    obtain ⟨before, record, after, split, here, yes, reached⟩ :=
      removeTimedFrom_wanted state.timed state wanted
    exact (fits before record after split here yes reached).2
  have same := @removeTimedFrom_current removal state.timed false state
  rw [callbackAct, ocRiRemoveTimedEventCallbackByFilter]
  revert loop hook same
  generalize removeTimedFrom removal state.timed false state = result
  obtain ⟨wanted, after⟩ := result
  intro loop hook same
  cases wanted with
  | false => exact loop.unwanted
  | true =>
      refine ⟨⟨loop.sound.distinct, loop.sound.apart, loop.sound.fresh,
        loop.sound.past, loop.sound.safe⟩, ?_, loop.processed⟩
      intro ref request requested
      rcases loop.waiting ref request requested with removed | ⟨here, waits⟩
      · exact Or.inl removed
      · refine Or.inr ⟨here, Or.inl ⟨rfl, ?_⟩⟩
        intro called asked
        rcases waits with ⟨-, covers⟩ | ⟨-, equal⟩
        · have before := covers called asked
          dsimp only at same
          rw [same.2] at before
          rcases hook rfl with empty | kept
          · rw [empty] at before
            cases before
          · exact kept ▸ before
        · exact equal ▸ asked

theorem Sound.push (sound : state.Sound) {after : EventCallbacks}
    (kind : EventList) {record : EventRecord}
    (ref : record.ref = state.next)
    (own : after.records kind = state.records kind ++ [record])
    (other : ∀ list, list ≠ kind → after.records list = state.records list)
    (next : after.next = state.next + 1) (log : after.log = state.log) :
    after.Sound := by
  have split : ∀ list, ∀ found ∈ after.records list,
      found ∈ state.records list ∨ list = kind ∧ found = record := by
    intro list found member
    by_cases same : list = kind
    · subst same
      rw [own] at member
      rcases List.mem_append.mp member with old | new
      · exact Or.inl old
      · exact Or.inr ⟨rfl, List.mem_singleton.mp new⟩
    · rw [other list same] at member
      exact Or.inl member
  have older : ∀ list, ∀ found ∈ state.records list, found.ref ≠ record.ref :=
    fun list found member => by
      have fresh := sound.fresh list found member
      omega
  refine ⟨?_, ?_, ?_, ?_, log ▸ sound.safe⟩
  · change ((after.records .timed).map (·.ref)).Nodup
    by_cases same : EventList.timed = kind
    · subst same
      rw [own, List.map_append, List.nodup_append]
      refine ⟨sound.distinct, List.nodup_singleton _, ?_⟩
      intro one member last new equal
      obtain ⟨found, present, rfl⟩ := List.mem_map.mp member
      exact older .timed found present (equal.trans (List.mem_singleton.mp new))
    · rw [other .timed same]
      exact sound.distinct
  · intro one member found present
    rcases split .timed one member with old | ⟨here, rfl⟩
    · rcases split .observe found present with kept | ⟨-, rfl⟩
      · exact sound.apart one old found kept
      · exact older .timed one old
    · rcases split .observe found present with kept | ⟨there, rfl⟩
      · exact (older .observe found kept).symm
      · rw [← here] at there
        cases there
  · intro list found member
    rw [next]
    rcases split list found member with old | ⟨-, rfl⟩
    · exact Nat.lt_succ_of_lt (sound.fresh list found old)
    · rw [ref]
      exact Nat.lt_succ_self _
  · intro gone past
    rw [log] at past
    obtain ⟨before, absent⟩ := sound.past gone past
    rw [next]
    refine ⟨Nat.lt_succ_of_lt before, fun list found member => ?_⟩
    rcases split list found member with old | ⟨-, rfl⟩
    · exact absent list found old
    · omega

theorem callbackAct_running (running : state.Running list false none)
    {action : CallbackAction} (fits : ActionFits state action) :
    (callbackAct state action).Running list false none := by
  cases action with
  | add callback data memory =>
      rw [callbackAct, ocRiAddTimedEventCallback]
      cases memory with
      | false => exact running
      | true =>
          rw [if_pos rfl]
          refine ⟨?_, running.waiting, ?_⟩
          · refine @Sound.push state running.sound _ .timed
              ⟨state.next, callback, data⟩ rfl rfl ?_ rfl rfl
            intro list different
            cases list with
            | timed => exact absurd rfl different
            | observe => rfl
          · intro ref here
            obtain ⟨record, member, same⟩ := running.processed ref here
            refine ⟨record, ?_, same⟩
            cases list with
            | timed => exact List.mem_append_left _ member
            | observe => exact member
  | remove removal => exact remove_running running fits
  | addPeriodic resource memory =>
      rw [callbackAct, ocPeriodicCallbackAdd]
      split
      · exact running
      · cases memory with
        | false => exact running
        | true =>
            rw [if_pos rfl]
            refine ⟨?_, running.waiting, ?_⟩
            · refine @Sound.push state running.sound _ .observe
                ⟨state.next, 0, resource⟩ rfl rfl ?_ rfl rfl
              intro list different
              cases list with
              | timed => rfl
              | observe => exact absurd rfl different
            · intro ref here
              obtain ⟨record, member, same⟩ := running.processed ref here
              refine ⟨record, ?_, same⟩
              cases list with
              | timed => exact member
              | observe => exact List.mem_append_left _ member
  | removePeriodic resource =>
      rw [callbackAct, ocPeriodicCallbackRemove]
      cases found : state.observe.find? fun record =>
          record.data == resource with
      | none => exact running
      | some record =>
          exact @Running.release _ _ _ _ none running .observe _
            (List.mem_of_find?_eq_some found) (fits record found)

theorem current_callbackAct (action : CallbackAction) :
    (callbackAct state action).current = state.current := by
  cases action with
  | add callback data memory =>
      rw [callbackAct, ocRiAddTimedEventCallback]
      split <;> rfl
  | remove removal =>
      have same := (@removeTimedFrom_current removal state.timed false state).1
      rw [callbackAct, ocRiRemoveTimedEventCallbackByFilter]
      revert same
      generalize removeTimedFrom removal state.timed false state = result
      obtain ⟨wanted, after⟩ := result
      intro same
      cases wanted <;> exact same
  | addPeriodic resource memory =>
      rw [callbackAct, ocPeriodicCallbackAdd]
      split
      · rfl
      · split <;> rfl
  | removePeriodic resource =>
      rw [callbackAct, ocPeriodicCallbackRemove]
      split <;> rfl

end Actions

section Turns

variable {state : EventCallbacks} {list : EventList}

/-- What holds between turns. -/
structure Idle (state : EventCallbacks) : Prop where
  sound : state.Sound
  complete : CompleteLog state.log

theorem Idle.scan (idle : state.Idle) (records : List EventRecord)
    (members : ∀ record ∈ records, record ∈ state.records list) :
    Idle { state with
      log := (records.map fun record => .touch record.ref) ++ state.log } := by
  induction records with
  | nil => exact idle
  | cons record records ih =>
      obtain ⟨sound, complete⟩ := ih fun other inside =>
        members other (List.mem_cons_of_mem _ inside)
      have live : record ∈ state.records list :=
        members record List.mem_cons_self
      refine ⟨@Sound.touch _ list sound _ (by cases list <;> exact live), ?_⟩
      intro ref hook requested
      rcases List.mem_cons.mp requested with same | old
      · cases same
      · exact removed_cons (complete ref hook old) nofun

theorem beginTurn_running (idle : state.Idle) {ref : Nat}
    (present : (state.records list).any (fun record => record.ref == ref) =
      true) : (beginTurn list ref state).Running list false none := by
  obtain ⟨sound, complete⟩ := idle.scan (state.records list) fun _ member =>
    member
  refine ⟨⟨sound.distinct, sound.apart, sound.fresh, sound.past,
    sound.safe⟩, ?_, ?_⟩
  · intro other hook requested
    exact Or.inl (complete other hook requested)
  · intro other here
    cases here
    obtain ⟨record, member, same⟩ := List.any_eq_true.mp present
    refine ⟨record, ?_, beq_iff_eq.mp same⟩
    cases list <;> exact member

theorem endTurn_idle (running : state.Running list false none) {ref : Nat}
    (current : state.current = some ref) (done : Bool) :
    (endTurn list ref done state).Idle := by
  obtain ⟨record, member, rfl⟩ := running.processed ref current
  have touched := running.touch member
  rw [endTurn]
  by_cases ends : (done || (state.note (.touch record.ref)).delete) = true
  · rw [if_pos ends]
    refine ⟨touched.sound.release member _, ?_⟩
    intro other hook requested
    rw [log_release] at requested
    have old : .request other hook ∈ (state.note (.touch record.ref)).log := by
      rcases List.mem_append.mp (List.mem_cons.mp requested |>.resolve_left
        nofun) with new | later
      · obtain ⟨_, -, impossible⟩ := List.mem_map.mp new
        cases impossible
      · exact later
    rcases touched.waiting other hook old with removed | ⟨here, waits⟩
    · refine removed_of_release removed ?_
      rintro rfl
      exact touched.sound.not_freed member removed.1
    · have own : other = record.ref := by
        have both := here.symm.trans current
        exact Option.some.inj both
      subst own
      refine touched.sound.removed_release member ?_
      rcases waits with ⟨-, covers⟩ | ⟨no, -⟩
      · exact covers
      · cases no
  · rw [if_neg ends]
    rw [Bool.or_eq_true, not_or] at ends
    refine ⟨touched.sound, ?_⟩
    intro other hook requested
    rcases touched.waiting other hook requested with removed | ⟨-, waits⟩
    · exact removed
    · rcases waits with ⟨marked, -⟩ | ⟨no, -⟩
      · exact absurd marked ends.2
      · cases no

theorem pollTurn_idle (idle : state.Idle) {turn : CallbackTurn}
    (fits : TurnFits list state turn) : (pollTurn list state turn).Idle := by
  rw [pollTurn]
  by_cases present : ((state.records list).any fun record =>
      record.ref == turn.ref) = true
  · rw [if_pos present]
    have running := @Along.invariant _ _ _ _ _
      (fun after => after.Running list false none ∧
        after.current = some turn.ref) _ fits
      ⟨beginTurn_running idle present, rfl⟩
      fun before action now here => ⟨callbackAct_running now.1 here,
        (current_callbackAct action).trans now.2⟩
    exact endTurn_idle running.1 running.2 turn.done
  · rw [if_neg present]
    exact idle

theorem eventCallbacksPollTimers_idle (idle : state.Idle)
    {turns : List CallbackTurn}
    (fits : Along (pollTurn list) (TurnFits list) state turns) :
    (eventCallbacksPollTimers list turns state).Idle := by
  have after := fits.invariant idle fun _ _ before here =>
    pollTurn_idle before here
  exact ⟨⟨after.sound.distinct, after.sound.apart, after.sound.fresh,
    after.sound.past, after.sound.safe⟩, after.complete⟩

theorem act_idle (idle : state.Idle) (current : state.current = none)
    (action : CallbackAction) : (callbackAct state action).Idle := by
  have running : state.Running .timed false none := by
    refine ⟨idle.sound, fun ref hook requested =>
      Or.inl (idle.complete ref hook requested), ?_⟩
    intro ref here
    rw [current] at here
    cases here
  have fits : ActionFits state action := by
    cases action with
    | add callback data memory => trivial
    | addPeriodic resource memory => trivial
    | remove removal =>
        intro before record after _ here
        rw [current] at here
        cases here
    | removePeriodic resource =>
        intro record _ here
        rw [current] at here
        cases here
  have after := callbackAct_running running fits
  refine ⟨after.sound, ?_⟩
  intro ref hook requested
  rcases after.waiting ref hook requested with removed | ⟨here, -⟩
  · exact removed
  · rw [current_callbackAct, current] at here
    cases here

theorem eventStep_idle (idle : state.Idle) (current : state.current = none)
    {event : EventStep} (fits : StepFits state event) :
    (eventStep state event).Idle ∧ (eventStep state event).current = none := by
  cases event with
  | act action =>
      exact ⟨act_idle idle current action,
        (current_callbackAct action).trans current⟩
  | check observe timed =>
      have first := eventCallbacksPollTimers_idle idle fits.1
      exact ⟨eventCallbacksPollTimers_idle first fits.2, rfl⟩

end Turns

end EventCallbacks

/-- In every run whose steps fit, no record is used after it was freed, and a
record whose removal was requested is freed, and the hook called, once. -/
theorem callbacks_freed_once {events : List EventStep}
    (fits : Along eventStep StepFits .initial events) :
    SafeLog (runFrom eventStep .initial events).log ∧
      CompleteLog (runFrom eventStep .initial events).log := by
  have start : EventCallbacks.initial.Idle := by
    refine ⟨⟨List.nodup_nil, nofun, ?_, ?_, List.Pairwise.nil⟩, nofun⟩
    · intro list record member
      cases list <;> cases member
    · rintro ref (freed | ⟨hook, called⟩)
      · cases freed
      · cases called
  have reached := @Along.invariant _ _ _ _ _
    (fun state : EventCallbacks => state.Idle ∧ state.current = none) _ fits
    ⟨start, rfl⟩ fun before event now here =>
      EventCallbacks.eventStep_idle now.1 now.2 here
  exact ⟨reached.1.sound.safe, reached.1.complete⟩

namespace SelfRemoval

/-- A callback removes all records with its callback, with a hook. -/
def filtered : List EventStep :=
  [.act (.add 1 7 true),
    .check [] [⟨0, [.remove ⟨1, fun _ => true, true, some 5⟩], false⟩]]

/-- A periodic callback ends its own observation. -/
def periodic : List EventStep :=
  [.act (.addPeriodic 7 true), .check [⟨0, [.removePeriodic 7], true⟩] []]

end SelfRemoval

open SelfRemoval in
theorem callbacks_freed_once_filtered :
    (CallbackLog.hook 5 0 ∈ (runFrom eventStep .initial filtered).log ∧
      CallbackLog.free 0 ∈ (runFrom eventStep .initial filtered).log) ∧
    SafeLog (runFrom eventStep .initial filtered).log ∧
      CompleteLog (runFrom eventStep .initial filtered).log := by
  refine ⟨by decide, callbacks_freed_once ⟨trivial, ⟨trivial, ?_⟩, trivial⟩⟩
  refine ⟨⟨?_, trivial⟩, trivial⟩
  intro before record after split here yes reached
  have single : [(⟨0, 1, 7⟩ : EventRecord)] = before ++ record :: after := split
  cases before with
  | nil =>
      cases single
      exact ⟨fun _ => nofun, Or.inl rfl⟩
  | cons first before =>
      have length := congrArg List.length single
      simp at length

open SelfRemoval in
/-- The record is freed by the callback and used again after it. -/
theorem not_safeLog_periodic :
    ¬ SafeLog (runFrom eventStep .initial periodic).log := by
  intro safe
  have log : (runFrom eventStep .initial periodic).log =
      [.free 0, .touch 0, .free 0, .request 0 none, .touch 0] := by
    decide
  rw [log, EventCallbacks.safeLog_cons] at safe
  exact (safe.1 0 (by decide)).2 rfl

end IotivityLite
