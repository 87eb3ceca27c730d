import IotivityLite.Observe.DiscoveryBatch
import Mathlib.Data.List.TakeWhile

/-!
# No update is lost

What is owed should be in the queue.  As long as this is so, the queue holds
nothing else, and it can be said of every event if it keeps it so: a dispatch
loses entries when one has no representation, when a payload cannot be
written, when a message cannot be serialised, and when sending fails for an
observer with several entries.
-/

namespace IotivityLite

namespace BatchQueue

/-- Every update that was recorded and not sent is still in the queue. -/
def NoLoss (state : BatchQueue) : Prop :=
  ∀ entry ∈ state.owed, entry ∈ state.queue

/-- What is owed is what is in the queue. -/
def Exact (state : BatchQueue) : Prop :=
  ∀ entry, entry ∈ state.owed ↔ entry ∈ state.queue

end BatchQueue

/-- For every observer whose turn comes all entries have representations, the
payload is written, and the message is sent, or its sending fails while the
observer has one entry only. -/
def DispatchFits (env : BatchDispatch) : List BatchEntry → Prop
  | [] => True
  | entry :: rest =>
      if env.busy entry.observer = true then DispatchFits env rest
      else
        (∀ other ∈ entry.included rest, env.represented other = true) ∧
          env.encoded entry.observer = true ∧
          (env.notify entry.observer = .sent ∧
              DispatchFits env (entry.others rest) ∨
            env.notify entry.observer = .failed ∧
              ∀ other ∈ rest, other.observer = entry.observer →
                other = entry)
termination_by queue => queue.length
decreasing_by
  · exact Nat.lt_succ_self _
  · exact Nat.lt_succ_of_le (List.length_filter_le _ _)

/-- The observer is concerned by the removal, and up to it there is memory for
every new entry. -/
def TellsRemoval (resource : DiscoveredResource)
    (observers : List BatchObserver) (memory : Nat → Bool)
    (queue : List BatchEntry) (ref : Nat) : Prop :=
  ∃ before observer later, observers = before ++ observer :: later ∧
    observer.ref = ref ∧ observer.concerns resource true = true ∧
    ∀ other ∈ before ++ [observer], other.concerns resource true = true →
      ⟨other.ref, .removed resource.uri⟩ ∈ queue ∨ memory other.ref = true

/-- An observer to whom a change of a removed resource is owed is told of the
removal. -/
def BatchFits (state : BatchQueue) : BatchEvent → Prop
  | .removed resource observers memory =>
      ∀ ref, ⟨ref, .changed resource.ref⟩ ∈ state.queue →
        ⟨ref, .removed resource.uri⟩ ∈ state.queue ∨
          resource.discovery = false ∧
            TellsRemoval resource observers memory state.queue ref
  | .dispatch env => env.buffer = true → DispatchFits env state.queue
  | _ => True

section Record

variable {resource : DiscoveredResource} {removed : Bool}
  {memory : Nat → Bool} {observers : List BatchObserver}

theorem addBatchEntries_spec (state : BatchAdded) :
    (∀ entry ∈ state.queue, entry ∈
        (addBatchEntries resource removed memory observers state).queue) ∧
      (∀ entry ∈
          (addBatchEntries resource removed memory observers state).recorded,
        entry ∈ state.recorded ∨ entry ∈
          (addBatchEntries resource removed memory observers state).queue) ∧
      (∀ entry ∈ state.recorded, entry ∈
        (addBatchEntries resource removed memory observers
          state).recorded) ∧
      ∀ entry ∈
          (addBatchEntries resource removed memory observers state).queue,
        entry ∈ state.queue ∨ entry ∈
          (addBatchEntries resource removed memory observers
            state).recorded := by
  induction observers generalizing state with
  | nil =>
      exact ⟨fun _ member => member, fun _ member => Or.inl member,
        fun _ member => member, fun _ member => Or.inl member⟩
  | cons observer rest ih =>
      rw [addBatchEntries]
      by_cases concerned : observer.concerns resource removed = true
      · rw [if_pos concerned]
        cases search : state.queue.find? fun entry =>
            cmpAddBatchObserverResource entry observer.ref resource removed with
        | some found =>
            dsimp only
            obtain ⟨kept, sound, recorded, complete⟩ :=
              ih { state with recorded := found :: state.recorded }
            refine ⟨kept, ?_, ?_, complete⟩
            · intro entry member
              rcases sound entry member with before | inQueue
              · rcases List.mem_cons.mp before with rfl | old
                · exact Or.inr (kept _ (List.mem_of_find?_eq_some search))
                · exact Or.inl old
              · exact Or.inr inQueue
            · intro entry member
              exact recorded entry (List.mem_cons_of_mem _ member)
        | none =>
            dsimp only
            by_cases enough : memory observer.ref = true
            · rw [if_pos enough]
              obtain ⟨kept, sound, recorded, complete⟩ :=
                ih ⟨state.queue ++ [⟨observer.ref, resource.item removed⟩],
                  ⟨observer.ref, resource.item removed⟩ :: state.recorded,
                  true⟩
              refine ⟨?_, ?_, ?_, ?_⟩
              · intro entry member
                exact kept entry (List.mem_append_left _ member)
              · intro entry member
                rcases sound entry member with before | inQueue
                · rcases List.mem_cons.mp before with rfl | old
                  · exact Or.inr (kept _ (List.mem_append_right _
                      (List.mem_singleton_self _)))
                  · exact Or.inl old
                · exact Or.inr inQueue
              · intro entry member
                exact recorded entry (List.mem_cons_of_mem _ member)
              · intro entry member
                rcases complete entry member with before | new
                · rcases List.mem_append.mp before with old | last
                  · exact Or.inl old
                  · rw [List.mem_singleton.mp last]
                    exact Or.inr (recorded _ List.mem_cons_self)
                · exact Or.inr new
            · rw [if_neg enough]
              exact ⟨fun _ member => member, fun _ member => Or.inl member,
                fun _ member => member, fun _ member => Or.inl member⟩
      · rw [if_neg concerned]
        exact ih state

theorem coapAddDiscoveryBatchObserver_spec (queue : List BatchEntry) :
    let result := coapAddDiscoveryBatchObserver resource removed observers
      memory queue
    (∀ entry ∈ queue, entry ∈ result.queue) ∧
      (∀ entry ∈ result.recorded, entry ∈ result.queue) ∧
      ∀ entry ∈ result.queue, entry ∈ queue ∨ entry ∈ result.recorded := by
  intro result
  by_cases discovery : resource.discovery = true
  · have same : result = ⟨queue, [], false⟩ := if_pos discovery
    rw [same]
    exact ⟨fun _ member => member, nofun, fun _ member => Or.inl member⟩
  · have same : result = addBatchEntries resource removed memory observers
        ⟨queue, [], false⟩ := if_neg discovery
    rw [same]
    obtain ⟨kept, sound, -, complete⟩ :=
      @addBatchEntries_spec resource removed memory observers
        ⟨queue, [], false⟩
    refine ⟨kept, ?_, complete⟩
    intro entry member
    rcases sound entry member with nothing | inQueue
    · cases nothing
    · exact inQueue

end Record

section Dispatch

variable {env : BatchDispatch} {skipped rest owed : List BatchEntry}
  {entry : BatchEntry} {other : BatchEntry}

theorem mem_included_iff :
    other ∈ entry.included rest ↔
      other = entry ∨ other ∈ rest ∧ other.observer = entry.observer := by
  simp [BatchEntry.included]

theorem mem_others_iff :
    other ∈ entry.others rest ↔
      other ∈ rest ∧ other.observer ≠ entry.observer := by
  simp [BatchEntry.others]

theorem mem_told_iff :
    other ∈ owed.filter (fun other =>
        !((entry.included rest).contains other && env.represented other)) ↔
      other ∈ owed ∧
        ¬ (other ∈ entry.included rest ∧ env.represented other = true) := by
  rw [List.mem_filter, Bool.not_eq_true', Bool.eq_false_iff, Ne,
    Bool.and_eq_true, List.contains_iff_mem]

theorem processBatchObservers_idle
    (busy : ∀ other ∈ skipped, env.busy other.observer = true) :
    processBatchObservers env ⟨skipped, owed⟩ = ⟨skipped, owed⟩ := by
  have none : skipped.dropWhile (fun entry => env.busy entry.observer) = [] :=
    List.dropWhile_eq_nil_iff.mpr busy
  rw [processBatchObservers]
  split
  · rfl
  · rename_i found
    dsimp only at found
    rw [none] at found
    cases found

theorem processBatchObservers_turn
    (busy : ∀ other ∈ skipped, env.busy other.observer = true)
    (ready : ¬ env.busy entry.observer = true) :
    processBatchObservers env ⟨skipped ++ entry :: rest, owed⟩ =
      if (entry.included rest).any env.represented then
        if env.encoded entry.observer then
          match env.notify entry.observer with
          | .failed => ⟨skipped ++ entry :: entry.others rest, owed⟩
          | .unsent => processBatchObservers env
              ⟨skipped ++ entry.others rest, owed⟩
          | .sent => processBatchObservers env
              ⟨skipped ++ entry.others rest, owed.filter fun other =>
                !((entry.included rest).contains other &&
                  env.represented other)⟩
        else processBatchObservers env ⟨skipped ++ entry.others rest, owed⟩
      else processBatchObservers env ⟨skipped ++ entry.others rest, owed⟩ := by
  have dropped : (skipped ++ entry :: rest).dropWhile
      (fun entry => env.busy entry.observer) = entry :: rest := by
    rw [List.dropWhile_append_of_pos busy]
    exact List.dropWhile_cons_of_neg ready
  have taken : (skipped ++ entry :: rest).takeWhile
      (fun entry => env.busy entry.observer) = skipped := by
    have none : (entry :: rest).takeWhile
        (fun entry => env.busy entry.observer) = [] :=
      List.takeWhile_cons_of_neg ready
    rw [List.takeWhile_append_of_pos busy, none, List.append_nil]
  rw [processBatchObservers]
  split
  · rename_i none
    dsimp only at none
    rw [dropped] at none
    cases none
  · rename_i found
    dsimp only at found
    rw [dropped] at found
    cases found
    dsimp only
    generalize (skipped ++ entry :: rest).takeWhile
      (fun entry => env.busy entry.observer) = before at taken ⊢
    subst taken
    rfl

theorem lost_processBatchObservers {other : BatchEntry}
    (queue : List BatchEntry) (lost : other ∉ skipped ++ queue)
    (due : other ∈ owed)
    (busy : ∀ other ∈ skipped, env.busy other.observer = true) :
    ¬ (processBatchObservers env ⟨skipped ++ queue, owed⟩).NoLoss := by
  induction length : queue.length using Nat.strong_induction_on
    generalizing queue skipped owed with
  | _ size ih =>
      cases queue with
      | nil =>
          rw [List.append_nil] at lost ⊢
          rw [processBatchObservers_idle busy]
          exact fun whole => lost (whole other due)
      | cons entry rest =>
          have inRest : rest.length < size := by
            rw [← length]
            exact Nat.lt_succ_self _
          have inOthers : (entry.others rest).length < size :=
            lt_of_le_of_lt (List.length_filter_le _ _) inRest
          by_cases waits : env.busy entry.observer = true
          · have shifted : skipped ++ entry :: rest =
                (skipped ++ [entry]) ++ rest := by
              rw [List.append_assoc, List.singleton_append]
            rw [shifted] at lost ⊢
            refine ih _ inRest rest lost due ?_ rfl
            intro earlier member
            rcases List.mem_append.mp member with old | last
            · exact busy earlier old
            · rw [List.mem_singleton.mp last]
              exact waits
          · have stillLost : other ∉ skipped ++ entry.others rest := by
              intro member
              apply lost
              rcases List.mem_append.mp member with old | later
              · exact List.mem_append_left _ old
              · exact List.mem_append_right _ (List.mem_cons_of_mem _
                  (mem_others_iff.mp later).1)
            have stillDue : other ∈ owed.filter (fun other =>
                !((entry.included rest).contains other &&
                  env.represented other)) := by
              refine mem_told_iff.mpr ⟨due, ?_⟩
              rintro ⟨member, -⟩
              apply lost
              apply List.mem_append_right
              rcases mem_included_iff.mp member with rfl | ⟨inside, -⟩
              · exact List.mem_cons_self
              · exact List.mem_cons_of_mem _ inside
            rw [processBatchObservers_turn busy waits]
            split
            · split
              · split
                · intro whole
                  have member := whole other due
                  apply lost
                  rcases List.mem_append.mp member with old | later
                  · exact List.mem_append_left _ old
                  · rcases List.mem_cons.mp later with rfl | inside
                    · exact List.mem_append_right _ List.mem_cons_self
                    · exact absurd (List.mem_append_right _ inside) stillLost
                · exact ih _ inOthers _ stillLost due busy rfl
                · exact ih _ inOthers _ stillLost stillDue busy rfl
              · exact ih _ inOthers _ stillLost due busy rfl
            · exact ih _ inOthers _ stillLost due busy rfl

/-- When all entries of the observer are told, what is owed is the rest of the
queue. -/
theorem exact_told (exactly : BatchQueue.Exact ⟨skipped ++ entry :: rest, owed⟩)
    (busy : ∀ other ∈ skipped, env.busy other.observer = true)
    (ready : ¬ env.busy entry.observer = true)
    (all : ∀ other ∈ entry.included rest, env.represented other = true) :
    BatchQueue.Exact ⟨skipped ++ entry.others rest, owed.filter fun other =>
      !((entry.included rest).contains other &&
        env.represented other)⟩ := by
  intro other
  change other ∈ owed.filter _ ↔ other ∈ skipped ++ entry.others rest
  rw [mem_told_iff, and_iff_left_of_imp (all other), exactly other]
  change other ∈ skipped ++ entry :: rest ∧ _ ↔ _
  rw [List.mem_append, List.mem_cons, List.mem_append, mem_others_iff,
    mem_included_iff]
  constructor
  · rintro ⟨old | same | later, apart⟩
    · exact Or.inl old
    · exact absurd (Or.inl same) apart
    · refine Or.inr ⟨later, fun own => apart (Or.inr ⟨later, own⟩)⟩
  · rintro (old | ⟨later, different⟩)
    · refine ⟨Or.inl old, ?_⟩
      have waits := busy other old
      rintro (rfl | ⟨-, own⟩)
      · exact ready waits
      · exact ready (own ▸ waits)
    · refine ⟨Or.inr (Or.inr later), ?_⟩
      rintro (rfl | ⟨-, own⟩)
      · exact different rfl
      · exact different own

/-- An entry of the observer that is owed after its turn is lost. -/
theorem lost_untold {other : BatchEntry}
    (inside : other ∈ entry.included rest) (due : other ∈ owed)
    (busy : ∀ other ∈ skipped, env.busy other.observer = true)
    (ready : ¬ env.busy entry.observer = true) :
    ¬ (processBatchObservers env
      ⟨skipped ++ entry.others rest, owed⟩).NoLoss := by
  have own : other.observer = entry.observer := by
    rcases mem_included_iff.mp inside with rfl | ⟨-, own⟩
    · rfl
    · exact own
  apply @lost_processBatchObservers env skipped owed other _ _ due busy
  intro member
  rcases List.mem_append.mp member with old | later
  · exact ready (own ▸ busy other old)
  · exact (mem_others_iff.mp later).2 own

theorem noLoss_of_exact {state : BatchQueue} (exactly : state.Exact) :
    state.NoLoss :=
  fun entry member => (exactly entry).mp member

theorem failed_iff (exactly : BatchQueue.Exact ⟨skipped ++ entry :: rest, owed⟩)
    (busy : ∀ other ∈ skipped, env.busy other.observer = true)
    (ready : ¬ env.busy entry.observer = true) :
    (BatchQueue.NoLoss ⟨skipped ++ entry :: entry.others rest, owed⟩ ↔
        ∀ other ∈ rest, other.observer = entry.observer → other = entry) ∧
      ((∀ other ∈ rest, other.observer = entry.observer → other = entry) →
        BatchQueue.Exact ⟨skipped ++ entry :: entry.others rest, owed⟩) := by
  have smaller : ∀ other ∈ skipped ++ entry :: entry.others rest,
      other ∈ owed := by
    intro other member
    apply (exactly other).mpr
    rcases List.mem_append.mp member with old | later
    · exact List.mem_append_left _ old
    · apply List.mem_append_right
      rcases List.mem_cons.mp later with rfl | inside
      · exact List.mem_cons_self
      · exact List.mem_cons_of_mem _ (mem_others_iff.mp inside).1
  have stays : (∀ other ∈ rest, other.observer = entry.observer →
      other = entry) → BatchQueue.Exact
        ⟨skipped ++ entry :: entry.others rest, owed⟩ := by
    intro single other
    refine ⟨fun due => ?_, smaller other⟩
    rcases List.mem_append.mp ((exactly other).mp due) with old | later
    · exact List.mem_append_left _ old
    · apply List.mem_append_right
      rcases List.mem_cons.mp later with rfl | inside
      · exact List.mem_cons_self
      · by_cases own : other.observer = entry.observer
        · rw [single other inside own]
          exact List.mem_cons_self
        · exact List.mem_cons_of_mem _ (mem_others_iff.mpr ⟨inside, own⟩)
  refine ⟨⟨?_, fun single => noLoss_of_exact (stays single)⟩, stays⟩
  intro whole other inside own
  have due : other ∈ owed := (exactly other).mpr
    (List.mem_append_right _ (List.mem_cons_of_mem _ inside))
  rcases List.mem_append.mp (whole other due) with old | later
  · exact absurd (own ▸ busy other old) ready
  · rcases List.mem_cons.mp later with same | elsewhere
    · exact same
    · exact absurd own (mem_others_iff.mp elsewhere).2

/-- An entry without a representation is lost in its observer's turn, unless
it is the first one and sending fails; then a later one is. -/
theorem lost_of_unrepresented
    (exactly : BatchQueue.Exact ⟨skipped ++ entry :: rest, owed⟩)
    (busy : ∀ other ∈ skipped, env.busy other.observer = true)
    (ready : ¬ env.busy entry.observer = true)
    (some : ¬ ∀ other ∈ entry.included rest, env.represented other = true)
    (due : ∀ other ∈ entry.included rest, other ∈ owed) :
    ¬ (if (entry.included rest).any env.represented then
      if env.encoded entry.observer then
        match env.notify entry.observer with
        | .failed => ⟨skipped ++ entry :: entry.others rest, owed⟩
        | .unsent => processBatchObservers env
            ⟨skipped ++ entry.others rest, owed⟩
        | .sent => processBatchObservers env
            ⟨skipped ++ entry.others rest, owed.filter fun other =>
              !((entry.included rest).contains other &&
                env.represented other)⟩
      else processBatchObservers env ⟨skipped ++ entry.others rest, owed⟩
    else processBatchObservers env
      ⟨skipped ++ entry.others rest, owed⟩).NoLoss := by
  have first : entry ∈ entry.included rest := List.mem_cons_self
  have untold := @lost_untold env skipped rest owed entry entry first
    (due entry first) busy ready
  push Not at some
  obtain ⟨other, inside, silent⟩ := some
  split_ifs with news encoded
  · cases env.notify entry.observer with
    | sent =>
        refine lost_untold inside (mem_told_iff.mpr ⟨due other inside, ?_⟩)
          busy ready
        exact fun told => silent told.2
    | unsent => exact untold
    | failed =>
        intro whole
        have single := (failed_iff exactly busy ready).1.mp whole
        have same : ∀ later ∈ entry.included rest, later = entry := by
          intro later member
          rcases mem_included_iff.mp member with same | ⟨present, own⟩
          · exact same
          · exact single later present own
        obtain ⟨told, member, said⟩ := List.any_eq_true.mp news
        rw [same told member] at said
        rw [same other inside] at silent
        exact silent said
  · exact untold
  · exact untold

theorem processBatchObservers_fits_iff (queue : List BatchEntry)
    (exactly : BatchQueue.Exact ⟨skipped ++ queue, owed⟩)
    (busy : ∀ other ∈ skipped, env.busy other.observer = true) :
    ((processBatchObservers env ⟨skipped ++ queue, owed⟩).NoLoss ↔
        DispatchFits env queue) ∧
      (DispatchFits env queue →
        (processBatchObservers env ⟨skipped ++ queue, owed⟩).Exact) := by
  induction length : queue.length using Nat.strong_induction_on
    generalizing queue skipped owed with
  | _ size ih =>
      cases queue with
      | nil =>
          rw [List.append_nil] at exactly ⊢
          rw [processBatchObservers_idle busy, DispatchFits]
          exact ⟨iff_true_intro (noLoss_of_exact exactly), fun _ => exactly⟩
      | cons entry rest =>
          have inRest : rest.length < size := by
            rw [← length]
            exact Nat.lt_succ_self _
          have inOthers : (entry.others rest).length < size :=
            lt_of_le_of_lt (List.length_filter_le _ _) inRest
          rw [DispatchFits]
          by_cases waits : env.busy entry.observer = true
          · have shifted : skipped ++ entry :: rest =
                (skipped ++ [entry]) ++ rest := by
              rw [List.append_assoc, List.singleton_append]
            rw [if_pos waits]
            rw [shifted] at exactly ⊢
            refine ih _ inRest rest exactly ?_ rfl
            intro earlier member
            rcases List.mem_append.mp member with old | last
            · exact busy earlier old
            · rw [List.mem_singleton.mp last]
              exact waits
          · rw [if_neg waits, processBatchObservers_turn busy waits]
            have due : ∀ other ∈ entry.included rest, other ∈ owed := by
              intro other inside
              apply (exactly other).mpr
              apply List.mem_append_right
              rcases mem_included_iff.mp inside with rfl | ⟨later, -⟩
              · exact List.mem_cons_self
              · exact List.mem_cons_of_mem _ later
            have first : entry ∈ entry.included rest := List.mem_cons_self
            have untold := @lost_untold env skipped rest owed entry entry first
              (due entry first) busy waits
            by_cases all : ∀ other ∈ entry.included rest,
              env.represented other = true
            · have news : (entry.included rest).any env.represented = true :=
                List.any_eq_true.mpr ⟨entry, first, all entry first⟩
              rw [if_pos news, and_iff_right all]
              by_cases encoded : env.encoded entry.observer = true
              · rw [if_pos encoded]
                cases outcome : env.notify entry.observer with
                | sent =>
                    simp only [encoded, true_and, reduceCtorEq, false_and,
                      or_false]
                    exact ih _ inOthers _ (exact_told exactly busy waits all)
                      busy rfl
                | unsent =>
                    simp only [reduceCtorEq, false_and, or_false, and_false,
                      iff_false, false_imp_iff, and_true]
                    exact untold
                | failed =>
                    simp only [encoded, true_and, reduceCtorEq, false_and,
                      false_or]
                    exact failed_iff exactly busy waits
              · rw [if_neg encoded]
                simp only [encoded, Bool.false_eq_true, false_and, iff_false,
                  false_imp_iff, and_true]
                exact untold
            · simp only [all, false_and, iff_false, false_imp_iff, and_true]
              exact lost_of_unrepresented exactly busy waits all due

end Dispatch

section Remove

variable {resource : DiscoveredResource} {memory : Nat → Bool}
  {observers : List BatchObserver}

theorem cmp_removed_iff {entry : BatchEntry} {observer : Nat}
    (unchanged : entry.item ≠ .changed resource.ref) :
    cmpAddBatchObserverResource entry observer resource true = true ↔
      entry = ⟨observer, .removed resource.uri⟩ := by
  obtain ⟨own, item⟩ := entry
  simp [cmpAddBatchObserverResource, unchanged]

variable {queue : List BatchEntry}

theorem tellsRemoval_cons_of_room {first : BatchObserver} {ref : Nat}
    (room : first.concerns resource true = true →
      ⟨first.ref, .removed resource.uri⟩ ∈ queue ∨ memory first.ref = true) :
    TellsRemoval resource (first :: observers) memory queue ref ↔
      (first.ref = ref ∧ first.concerns resource true = true) ∨
        TellsRemoval resource observers memory queue ref := by
  constructor
  · rintro ⟨before, observer, later, split, own, concerned, each⟩
    cases before with
    | nil =>
        cases split
        exact Or.inl ⟨own, concerned⟩
    | cons other before =>
        cases split
        refine Or.inr ⟨before, observer, later, rfl, own, concerned, ?_⟩
        intro other member
        exact each other (List.mem_cons_of_mem _ member)
  · rintro (⟨own, concerned⟩ | ⟨before, observer, later, split, own,
      concerned, each⟩)
    · refine ⟨[], first, observers, rfl, own, concerned, ?_⟩
      intro other member
      rw [List.mem_singleton.mp member]
      exact room
    · refine ⟨first :: before, observer, later, by rw [split]; rfl, own,
        concerned, ?_⟩
      intro other member
      rcases List.mem_cons.mp member with rfl | inside
      · exact room
      · exact each other inside

theorem tellsRemoval_head {first : BatchObserver} {ref : Nat}
    (concerned : first.concerns resource true = true)
    (tells : TellsRemoval resource (first :: observers) memory queue ref) :
    ⟨first.ref, .removed resource.uri⟩ ∈ queue ∨ memory first.ref = true := by
  obtain ⟨before, observer, later, split, -, -, each⟩ := tells
  apply each first _ concerned
  cases before with
  | nil =>
      cases split
      exact List.mem_singleton_self _
  | cons other before =>
      cases split
      exact List.mem_cons_self

theorem tellsRemoval_append {added ref : Nat} (enough : memory added = true) :
    TellsRemoval resource observers memory
        (queue ++ [⟨added, .removed resource.uri⟩]) ref ↔
      TellsRemoval resource observers memory queue ref := by
  constructor
  · rintro ⟨before, observer, later, split, own, concerned, each⟩
    refine ⟨before, observer, later, split, own, concerned, ?_⟩
    intro other member yes
    rcases each other member yes with inside | room
    · rcases List.mem_append.mp inside with old | new
      · exact Or.inl old
      · cases List.mem_singleton.mp new
        exact Or.inr enough
    · exact Or.inr room
  · rintro ⟨before, observer, later, split, own, concerned, each⟩
    refine ⟨before, observer, later, split, own, concerned, ?_⟩
    intro other member yes
    rcases each other member yes with inside | room
    · exact Or.inl (List.mem_append_left _ inside)
    · exact Or.inr room

theorem mem_addBatchEntries_iff (state : BatchAdded)
    (unchanged : ∀ entry ∈ state.queue, entry.item ≠ .changed resource.ref)
    (ref : Nat) :
    ⟨ref, .removed resource.uri⟩ ∈
        (addBatchEntries resource true memory observers state).queue ↔
      ⟨ref, .removed resource.uri⟩ ∈ state.queue ∨
        TellsRemoval resource observers memory state.queue ref := by
  induction observers generalizing state with
  | nil =>
      refine ⟨Or.inl, ?_⟩
      rintro (old | ⟨before, _, _, split, -⟩)
      · exact old
      · cases before <;> cases split
  | cons first rest ih =>
      rw [addBatchEntries]
      by_cases concerned : first.concerns resource true = true
      · rw [if_pos concerned]
        cases search : state.queue.find? fun entry =>
            cmpAddBatchObserverResource entry first.ref resource true with
        | some found =>
            have member := List.mem_of_find?_eq_some search
            have matched : cmpAddBatchObserverResource found first.ref resource
                true = true := by
              have held := List.find?_some search
              exact held
            have same := (cmp_removed_iff (unchanged found member)).mp matched
            rw [same] at member
            dsimp only
            rw [ih { state with recorded := found :: state.recorded }
              unchanged, tellsRemoval_cons_of_room (fun _ => Or.inl member)]
            constructor
            · rintro (old | later)
              · exact Or.inl old
              · exact Or.inr (Or.inr later)
            · rintro (old | ⟨own, -⟩ | later)
              · exact Or.inl old
              · exact Or.inl (own ▸ member)
              · exact Or.inr later
        | none =>
            have absent : ⟨first.ref, .removed resource.uri⟩ ∉ state.queue := by
              intro member
              have none := List.find?_eq_none.mp search _ member
              exact none ((cmp_removed_iff BatchItem.noConfusion).mpr rfl)
            dsimp only
            by_cases enough : memory first.ref = true
            · rw [if_pos enough]
              have appended : ∀ entry ∈ state.queue ++
                  [⟨first.ref, resource.item true⟩],
                    entry.item ≠ .changed resource.ref := by
                intro entry member
                rcases List.mem_append.mp member with old | new
                · exact unchanged entry old
                · rw [List.mem_singleton.mp new]
                  nofun
              rw [ih _ appended, tellsRemoval_cons_of_room
                (fun _ => Or.inr enough)]
              change ⟨ref, .removed resource.uri⟩ ∈ state.queue ++
                [⟨first.ref, .removed resource.uri⟩] ∨ TellsRemoval resource
                  rest memory (state.queue ++
                    [⟨first.ref, .removed resource.uri⟩]) ref ↔ _
              rw [tellsRemoval_append enough, List.mem_append,
                List.mem_singleton]
              constructor
              · rintro ((old | new) | later)
                · exact Or.inl old
                · cases new
                  exact Or.inr (Or.inl ⟨rfl, concerned⟩)
                · exact Or.inr (Or.inr later)
              · rintro (old | ⟨own, -⟩ | later)
                · exact Or.inl (Or.inl old)
                · exact Or.inl (Or.inr (by rw [own]))
                · exact Or.inr later
            · rw [if_neg enough]
              refine ⟨Or.inl, ?_⟩
              rintro (old | tells)
              · exact old
              · exact absurd (tellsRemoval_head concerned tells)
                  (not_or.mpr ⟨absent, enough⟩)
      · rw [if_neg concerned, ih state unchanged, tellsRemoval_cons_of_room
          (fun yes => absurd yes concerned)]
        constructor
        · rintro (old | later)
          · exact Or.inl old
          · exact Or.inr (Or.inr later)
        · rintro (old | ⟨-, yes⟩ | later)
          · exact Or.inl old
          · exact absurd yes concerned
          · exact Or.inr later

end Remove

section Runs

variable {state : BatchQueue}

theorem exact_changed (exactly : state.Exact) (resource : DiscoveredResource)
    (observers : List BatchObserver) (memory : Nat → Bool) :
    (batchStep state (.changed resource observers memory)).Exact := by
  obtain ⟨kept, sound, complete⟩ :=
    @coapAddDiscoveryBatchObserver_spec resource false memory observers
      state.queue
  intro entry
  rw [batchStep]
  dsimp only
  rw [List.mem_append]
  constructor
  · rintro (recorded | old)
    · exact sound entry recorded
    · exact kept entry ((exactly entry).mp old)
  · intro member
    rcases complete entry member with old | recorded
    · exact Or.inr ((exactly entry).mpr old)
    · exact Or.inl recorded

theorem exact_gone (exactly : state.Exact) (observer : Nat) :
    (batchStep state (.gone observer)).Exact := by
  intro entry
  rw [batchStep]
  dsimp only
  rw [List.mem_filter, List.mem_filter, exactly entry]

theorem supersede_of_ne {resource : DiscoveredResource} {entry : BatchEntry}
    (different : entry.item ≠ .changed resource.ref) :
    entry.supersede resource = entry :=
  if_neg different

theorem mem_removed_iff {resource : DiscoveredResource} {entry : BatchEntry} :
    entry ∈ coapRemoveDiscoveryBatchObservers resource state.queue ↔
      entry ∈ state.queue ∧ entry.item ≠ .changed resource.ref := by
  rw [coapRemoveDiscoveryBatchObservers, List.mem_filter, bne_iff_ne]

theorem removed_fits_iff (exactly : state.Exact)
    (resource : DiscoveredResource) (observers : List BatchObserver)
    (memory : Nat → Bool) :
    ((batchStep state (.removed resource observers memory)).NoLoss ↔
        BatchFits state (.removed resource observers memory)) ∧
      (BatchFits state (.removed resource observers memory) →
        (batchStep state (.removed resource observers memory)).Exact) := by
  obtain ⟨kept, sound, complete⟩ :=
    @coapAddDiscoveryBatchObserver_spec resource true memory observers
      (coapRemoveDiscoveryBatchObservers resource state.queue)
  have told : ∀ ref, ⟨ref, .removed resource.uri⟩ ∈
      (batchStep state (.removed resource observers memory)).queue ↔
        ⟨ref, .removed resource.uri⟩ ∈ state.queue ∨
          resource.discovery = false ∧
            TellsRemoval resource observers memory state.queue ref := by
    intro ref
    have removed : ∀ other : Nat, (⟨other, .removed resource.uri⟩ : BatchEntry)
        ∈ coapRemoveDiscoveryBatchObservers resource state.queue ↔
          ⟨other, .removed resource.uri⟩ ∈ state.queue := by
      intro other
      rw [mem_removed_iff]
      exact and_iff_left BatchItem.noConfusion
    rw [batchStep, coapAddDiscoveryBatchObserver]
    by_cases discovery : resource.discovery = true
    · rw [if_pos discovery]
      dsimp only
      rw [removed]
      refine (or_iff_left ?_).symm
      rintro ⟨no, -⟩
      rw [discovery] at no
      cases no
    · rw [if_neg discovery]
      dsimp only
      rw [mem_addBatchEntries_iff _ fun entry member =>
        (mem_removed_iff.mp member).2]
      dsimp only
      rw [removed]
      refine or_congr_right ?_
      unfold TellsRemoval
      simp only [removed, discovery, true_and]
  have noLoss : (batchStep state (.removed resource observers memory)).NoLoss ↔
      BatchFits state (.removed resource observers memory) := by
    constructor
    · intro whole ref member
      rw [← told]
      apply whole
      apply List.mem_append_right
      refine List.mem_map.mpr ⟨_, (exactly _).mpr member, ?_⟩
      exact if_pos rfl
    · intro fits entry member
      rcases List.mem_append.mp member with recorded | old
      · exact sound entry recorded
      · obtain ⟨before, due, rfl⟩ := List.mem_map.mp old
        have inside := (exactly before).mp due
        by_cases changed : before.item = .changed resource.ref
        · obtain ⟨ref, item⟩ := before
          cases changed
          have news := (told ref).mpr (fits ref inside)
          have same : BatchEntry.supersede resource
              ⟨ref, .changed resource.ref⟩ =
                ⟨ref, .removed resource.uri⟩ := if_pos rfl
          rw [same]
          exact news
        · rw [supersede_of_ne changed]
          exact kept before (mem_removed_iff.mpr ⟨inside, changed⟩)
  refine ⟨noLoss, fun fits entry => ⟨noLoss.mpr fits entry, ?_⟩⟩
  intro member
  rcases complete entry member with old | recorded
  · obtain ⟨inside, different⟩ := mem_removed_iff.mp old
    apply List.mem_append_right
    exact List.mem_map.mpr ⟨entry, (exactly entry).mpr inside,
      supersede_of_ne different⟩
  · exact List.mem_append_left _ recorded

/-- One event loses nothing exactly under the condition. -/
theorem batchStep_fits_iff (exactly : state.Exact) (event : BatchEvent) :
    ((batchStep state event).NoLoss ↔ BatchFits state event) ∧
      (BatchFits state event → (batchStep state event).Exact) := by
  cases event with
  | changed resource observers memory =>
      have after := exact_changed exactly resource observers memory
      exact ⟨iff_true_intro (noLoss_of_exact after), fun _ => after⟩
  | removed resource observers memory =>
      exact removed_fits_iff exactly resource observers memory
  | gone observer =>
      have after := exact_gone exactly observer
      exact ⟨iff_true_intro (noLoss_of_exact after), fun _ => after⟩
  | dispatch env =>
      rw [batchStep, coapProcessDiscoveryBatchObservers, BatchFits]
      by_cases buffer : env.buffer = true
      · rw [if_pos buffer, forall_prop_of_true buffer]
        exact @processBatchObservers_fits_iff env [] state.owed state.queue
          exactly nofun
      · rw [if_neg buffer]
        exact ⟨⟨fun _ yes => absurd yes buffer,
          fun _ => noLoss_of_exact exactly⟩, fun _ => exactly⟩

end Runs

/-- No update is lost in any state of a run if and only if every step of the
run fits. -/
theorem noLoss_run_iff (events : List BatchEvent) :
    Along batchStep (fun before event => (batchStep before event).NoLoss)
        .initial events ↔
      Along batchStep BatchFits .initial events := by
  apply @Along.congr_iff_of_invariant _ _ _ _ _ _ BatchQueue.Exact
  · exact fun _ => Iff.rfl
  · exact fun before event exactly => (batchStep_fits_iff exactly event).1
  · exact fun before event exactly => (batchStep_fits_iff exactly event).2

namespace TwoChanges

/-- The message for the observer cannot be sent. -/
def failure : BatchDispatch where
  buffer := true
  busy := fun _ => false
  represented := fun _ => true
  encoded := fun _ => true
  notify := fun _ => .failed

/-- Both resources change before the dispatch. -/
def events : List BatchEvent :=
  [.changed ⟨1, [47, 97], false⟩ [⟨0, true, true⟩] fun _ => true,
    .changed ⟨2, [47, 98], false⟩ [⟨0, true, true⟩] fun _ => true,
    .dispatch failure]

end TwoChanges

open TwoChanges in
/-- The second change has left the queue and is not sent. -/
theorem not_noLoss_of_failure :
    ¬ Along batchStep (fun before event => (batchStep before event).NoLoss)
      .initial events := by
  rintro ⟨-, -, whole, -⟩
  have turn := @processBatchObservers_turn failure [] [⟨0, .changed 2⟩]
    [⟨0, .changed 2⟩, ⟨0, .changed 1⟩] ⟨0, .changed 1⟩ nofun nofun
  change (processBatchObservers failure
    ⟨[] ++ ⟨0, .changed 1⟩ :: [⟨0, .changed 2⟩],
      [⟨0, .changed 2⟩, ⟨0, .changed 1⟩]⟩).NoLoss at whole
  rw [turn] at whole
  have kept := whole ⟨0, .changed 2⟩ List.mem_cons_self
  exact absurd kept (by decide)

end IotivityLite
