import IotivityLite.Event.ProcessQueue
import Mathlib.Data.List.Nodup

/-!
# The queue is a list

In every run the circular array holds what the plain list holds, whatever
place it has reached when it grows or when events are dropped.  The events
that were posted and not dropped are delivered or pending, each once and in
the order of the posts.
-/

namespace IotivityLite

namespace EventQueue

theorem moveTail_eq {capacity nevents tail rounds i j : Nat}
    {events : Nat → EventData} (twice : capacity = 2 * nevents)
    (short : tail ≤ nevents) (ends : i + rounds = capacity - tail)
    (place : i < nevents → i + tail = nevents + j)
    (past : nevents ≤ i → j = tail) (index : Nat) :
    moveTail capacity nevents tail rounds i j events index =
      if capacity - tail + j ≤ index ∧ index < capacity then
        events (index - nevents)
      else if i ≤ index ∧ index < capacity - tail then .zero
      else events index := by
  induction rounds generalizing i j events with
  | zero =>
      rw [moveTail]
      split
      · have := past (by omega)
        omega
      · rw [if_neg (by omega)]
  | succ rounds ih =>
      rw [moveTail]
      split
      · next inside =>
          have here := place inside
          rw [ih (by omega) (by omega) (by omega)]
          unfold storeSlot
          by_cases cleared : index = i
          · rw [if_neg (by omega), if_neg (by omega), if_pos cleared,
              if_neg (by omega), if_pos (by omega)]
          · by_cases copied : index = capacity - tail + j
            · rw [if_neg (by omega), if_neg (by omega), if_neg cleared,
                if_pos copied, if_pos (by omega)]
              congr 1
              omega
            · split_ifs <;> first | rfl | omega
      · next outside =>
          have done := past (by omega)
          rw [ih (by omega) (by omega) (by omega)]
          unfold storeSlot
          split_ifs <;> first | rfl | omega

variable {queue : EventQueue}

theorem contents_grow (fits : queue.Fits) (full : queue.count = queue.capacity)
    (fresh : Nat → EventData) :
    (grow queue fresh).Fits ∧
      (grow queue fresh).contents = queue.contents := by
  have inside := fits.inside
  have twice : queue.capacity <<< 1 = 2 * queue.capacity := by
    rw [Nat.shiftLeft_eq, Nat.pow_one, Nat.mul_comm]
  have slots : ∀ index, (grow queue fresh).slots index = _ := fun index =>
    @moveTail_eq (queue.capacity <<< 1) queue.count
      (queue.count - queue.first)
      (queue.capacity <<< 1 - (queue.count - queue.first) - queue.first)
      queue.first 0 _ (by omega) (by omega) (by omega) (by omega) (by omega)
      index
  apply Circular.contents_grown fits
  · rfl
  · exact twice
  · change queue.capacity <<< 1 - (queue.count - queue.first) = _
    omega
  · intro index low high
    rw [slots, if_pos (by omega), full, Nat.add_sub_cancel_left, if_pos high]
  · intro index low
    rw [slots, if_neg (by omega), if_neg (by omega), if_pos (by omega)]

theorem contents_past {place : Nat} (past : queue.count ≤ place)
    (drops : EventData → Bool) :
    queue.contents = queue.contents.take place ++
      (queue.contents.drop place).filter fun event => !drops event := by
  have length := queue.length_contents
  rw [List.take_of_length_le (by omega), List.drop_of_length_le (by omega),
    List.filter_nil, List.append_nil]

theorem contents_dropFrom (drops : EventData → Bool) (rounds i : Nat)
    (queue : EventQueue) (fits : queue.Fits)
    (enough : queue.count ≤ i + rounds) :
    (dropFrom drops rounds i queue).1.Fits ∧
      (dropFrom drops rounds i queue).1.contents =
        queue.contents.take i ++
          (queue.contents.drop i).filter fun event => !drops event := by
  induction rounds generalizing i queue with
  | zero => exact ⟨fits, contents_past enough drops⟩
  | succ rounds ih =>
      rw [dropFrom]
      split
      · next inside =>
          have length : i < queue.contents.length := by
            rw [queue.length_contents]
            exact inside
          have here : queue.contents.drop i =
              queue.slots (queue.index i) :: queue.contents.drop (i + 1) := by
            rw [List.drop_eq_getElem_cons length, queue.getElem_contents]
          split
          · next dropped =>
              have counted : (queue.closeGap i).count = queue.count - 1 := rfl
              have gap := Circular.contents_closeGap fits inside
              rw [List.eraseIdx_eq_take_drop_succ] at gap
              obtain ⟨laterFits, later⟩ := ih i (queue.closeGap i)
                (fits.closeGap i) (by omega)
              refine ⟨laterFits, later.trans ?_⟩
              rw [gap, here, List.filter_cons_of_neg (by simpa using dropped),
                List.take_left' (List.length_take_of_le (by omega)),
                List.drop_left' (List.length_take_of_le (by omega))]
          · next kept =>
              obtain ⟨laterFits, later⟩ := ih (i + 1) queue fits (by omega)
              refine ⟨laterFits, later.trans ?_⟩
              rw [here, List.filter_cons_of_pos (by simpa using kept),
                List.take_succ_eq_append_getElem length,
                queue.getElem_contents, List.append_assoc,
                List.singleton_append]
      · next past => exact ⟨fits, contents_past (Nat.not_lt.mp past) drops⟩

theorem contents_ocProcessDrop (p : Nat) (dropEvent : UInt8 → Nat → Bool)
    (fits : queue.Fits) :
    (ocProcessDrop p dropEvent queue).1.Fits ∧
      (ocProcessDrop p dropEvent queue).1.contents =
        queue.contents.filter fun event =>
          !(event.p == some p && dropEvent event.ev event.data) :=
  contents_dropFrom _ queue.count 0 queue fits (by omega)

end EventQueue

namespace PostedEvents

/-- Posts are numbered in order, and what was posted and not dropped was
delivered or is pending. -/
structure Sound (list : PostedEvents) : Prop where
  numbered : list.posted.map (·.1) = List.range list.posted.length
  kept : list.delivered ++ list.pending =
    list.posted.filter fun event => !list.dropped.contains event.1
  old : ∀ number ∈ list.dropped, number < list.posted.length

variable {list : PostedEvents}

theorem sound_initial : initial.Sound where
  numbered := rfl
  kept := rfl
  old := by
    intro number member
    cases member

theorem Sound.post (sound : list.Sound) (event : EventData) :
    (list.post event).Sound where
  numbered := by
    simp only [PostedEvents.post, List.map_append, List.length_append,
      List.length_singleton, List.range_succ, sound.numbered]
    rfl
  kept := by
    have new : list.posted.length ∉ list.dropped := fun member =>
      Nat.lt_irrefl _ (sound.old _ member)
    have stays : [(list.posted.length, event)].filter (fun event =>
        !list.dropped.contains event.1) = [(list.posted.length, event)] := by
      simp [new]
    simp only [PostedEvents.post]
    rw [List.filter_append, ← List.append_assoc, sound.kept, stays]
  old := by
    intro number member
    have before := sound.old number member
    simp only [PostedEvents.post, List.length_append]
    omega

theorem Sound.deliver (sound : list.Sound) : list.deliver.Sound := by
  unfold PostedEvents.deliver
  cases pending : list.pending with
  | nil => exact sound
  | cons event rest =>
      refine ⟨sound.numbered, ?_, sound.old⟩
      have kept := sound.kept
      rw [pending] at kept
      rw [← kept, List.append_assoc]
      rfl

theorem Sound.distinct (sound : list.Sound) :
    ((list.delivered ++ list.pending).map (·.1)).Nodup := by
  rw [sound.kept]
  apply List.Nodup.sublist (List.filter_sublist.map _)
  rw [sound.numbered]
  exact List.nodup_range

theorem Sound.mem_doomed_iff (sound : list.Sound) {drops : EventData → Bool}
    {event : NumberedEvent} (pending : event ∈ list.pending) :
    event.1 ∈ list.doomed drops ↔ drops event.2 = true := by
  have distinct := sound.distinct
  rw [List.map_append, List.nodup_append] at distinct
  constructor
  · intro member
    obtain ⟨other, matching, same⟩ := List.mem_map.mp member
    obtain ⟨present, dropped⟩ := List.mem_filter.mp matching
    have equal := List.inj_on_of_nodup_map distinct.2.1 present pending same
    rw [← equal]
    exact dropped
  · intro dropped
    exact List.mem_map_of_mem (List.mem_filter.mpr ⟨pending, dropped⟩)

theorem Sound.not_mem_doomed (sound : list.Sound) {drops : EventData → Bool}
    {event : NumberedEvent} (delivered : event ∈ list.delivered) :
    event.1 ∉ list.doomed drops := by
  have distinct := sound.distinct
  rw [List.map_append, List.nodup_append] at distinct
  intro member
  obtain ⟨other, matching, same⟩ := List.mem_map.mp member
  exact distinct.2.2 event.1 (List.mem_map_of_mem delivered) other.1
    (List.mem_map_of_mem (List.mem_of_mem_filter matching)) same.symm

theorem Sound.drop (sound : list.Sound) (drops : EventData → Bool) :
    (list.drop drops).Sound where
  numbered := sound.numbered
  kept := by
    have split : (fun event : NumberedEvent =>
        !(list.dropped ++ list.doomed drops).contains event.1) =
          fun event => !(list.doomed drops).contains event.1 &&
            !list.dropped.contains event.1 := by
      funext event
      rw [List.contains_eq_any_beq, List.any_append, Bool.not_or,
        Bool.and_comm, ← List.contains_eq_any_beq, ← List.contains_eq_any_beq]
    have stay : list.delivered.filter (fun event =>
        !(list.doomed drops).contains event.1) = list.delivered := by
      rw [List.filter_eq_self]
      intro event delivered
      simpa using sound.not_mem_doomed delivered
    have go : list.pending.filter (fun event =>
        !(list.doomed drops).contains event.1) =
          list.pending.filter fun event => !drops event.2 := by
      apply List.filter_congr
      intro event pending
      have doomed := @Sound.mem_doomed_iff list sound drops event pending
      cases dropped : drops event.2 with
      | true =>
          have gone := doomed.mpr dropped
          simpa using gone
      | false =>
          have stays : event.1 ∉ list.doomed drops := by
            rw [doomed, dropped]
            exact Bool.false_ne_true
          simpa using stays
    simp only [PostedEvents.drop]
    rw [split, ← List.filter_filter, ← sound.kept, List.filter_append, stay,
      go]
  old := by
    intro number member
    rcases List.mem_append.mp member with before | now
    · exact sound.old number before
    · obtain ⟨event, matching, rfl⟩ := List.mem_map.mp now
      have pending := List.mem_of_mem_filter matching
      have posted : event ∈ list.posted := by
        have listed := List.mem_append_right list.delivered pending
        rw [sound.kept] at listed
        exact List.mem_of_mem_filter listed
      have number := List.mem_map_of_mem posted (f := (·.1))
      rw [sound.numbered] at number
      exact List.mem_range.mp number

end PostedEvents

namespace ProcessRun

/-- The array and the list agree. -/
structure Agrees (run : ProcessRun) : Prop where
  fits : run.state.queue.Fits
  contents : run.state.queue.contents = run.list.pending.map (·.2)
  delivered : run.state.delivered = run.list.delivered.map (·.2)
  sound : run.list.Sound

theorem agrees_initial : initial.Agrees where
  fits := ⟨by decide, by decide⟩
  contents := rfl
  delivered := rfl
  sound := PostedEvents.sound_initial

variable {run : ProcessRun}

theorem Agrees.post (agrees : run.Agrees) {queue : EventQueue}
    (fits : queue.Fits) (room : queue.count < queue.capacity)
    (same : queue.contents = run.state.queue.contents) (event : EventData) :
    Agrees ⟨{ run.state with queue := queue.push event },
      run.list.post event⟩ where
  fits := fits.push room event
  contents := by
    change (queue.push event).contents = (run.list.pending ++ [_]).map _
    rw [Circular.contents_push fits room, same, agrees.contents,
      List.map_append]
    rfl
  delivered := agrees.delivered
  sound := agrees.sound.post event

theorem Agrees.deliver (agrees : run.Agrees) :
    Agrees ⟨run.state.doEvent, run.list.deliver⟩ := by
  have contents := agrees.contents
  have sound := agrees.sound.deliver
  unfold ProcessState.doEvent
  unfold PostedEvents.deliver at sound ⊢
  cases pending : run.list.pending with
  | nil =>
      have empty : run.state.queue.count = 0 := by
        rw [← Circular.length_contents, contents, pending]
        rfl
      rw [if_pos empty]
      exact agrees
  | cons event rest =>
      rw [pending] at contents sound
      rw [List.map_cons] at contents
      have counted := congrArg List.length contents
      rw [Circular.length_contents, List.length_cons] at counted
      rw [Circular.contents_pop agrees.fits (by omega)] at contents
      obtain ⟨front, later⟩ := List.cons.inj contents
      rw [if_neg (by omega)]
      refine ⟨agrees.fits.pop, later, ?_, sound⟩
      change run.state.delivered ++ [_] = (run.list.delivered ++ [event]).map _
      rw [List.map_append, ← agrees.delivered, front]
      rfl

theorem Agrees.drop (agrees : run.Agrees) (p : Nat)
    (dropEvent : UInt8 → Nat → Bool) :
    Agrees ⟨(run.state.ocProcessDrop (some p) (some dropEvent)).1,
      run.list.drop fun event =>
        event.p == some p && dropEvent event.ev event.data⟩ := by
  obtain ⟨fits, contents⟩ :=
    EventQueue.contents_ocProcessDrop p dropEvent agrees.fits
  have sound := agrees.sound.drop fun event =>
    event.p == some p && dropEvent event.ev event.data
  refine ⟨fits, contents.trans ?_, agrees.delivered, sound⟩
  rw [agrees.contents, List.filter_map]
  rfl

/-- Every call keeps the ring in agreement with the queue. -/
theorem Agrees.step (agrees : run.Agrees) (dynamic : Bool)
    (call : ProcessCall) : (run.step dynamic call).Agrees := by
  unfold ProcessRun.step
  split
  · exact agrees
  cases call with
  | post event realloc =>
      have enough := agrees.fits.enough
      simp only [ProcessState.call, ProcessState.ocProcessPost]
      split
      · next full =>
          split
          · cases realloc with
            | none => exact ⟨agrees.fits, agrees.contents, agrees.delivered,
                agrees.sound⟩
            | some fresh =>
                obtain ⟨fits, same⟩ :=
                  EventQueue.contents_grow agrees.fits full fresh
                refine agrees.post fits ?_ same event
                have inside := agrees.fits.inside
                change run.state.queue.count < run.state.queue.capacity <<< 1
                rw [Nat.shiftLeft_eq, Nat.pow_one]
                omega
          · exact agrees
      · next room => exact agrees.post agrees.fits (by omega) rfl event
  | run => exact agrees.deliver
  | drop p dropEvent =>
      cases p with
      | none => exact agrees
      | some p =>
          cases dropEvent with
          | none => exact agrees
          | some dropEvent => exact agrees.drop p dropEvent

/-- A static array never grows, and only a reallocation that fails aborts the
program. -/
structure Bounded (dynamic : Bool) (run : ProcessRun) : Prop where
  capacity : dynamic = false → run.state.queue.capacity = 10
  aborted : run.state.aborted = true → dynamic = true

theorem bounded_initial (dynamic : Bool) : Bounded dynamic initial where
  capacity _ := rfl
  aborted := by
    intro aborted
    cases aborted

theorem capacity_dropFrom (drops : EventData → Bool) (rounds i : Nat)
    (queue : EventQueue) :
    (EventQueue.dropFrom drops rounds i queue).1.capacity =
      queue.capacity := by
  induction rounds generalizing i queue with
  | zero => rfl
  | succ rounds ih =>
      rw [EventQueue.dropFrom]
      split
      · split
        · exact ih i (queue.closeGap i)
        · exact ih (i + 1) queue
      · rfl

theorem Bounded.step {dynamic : Bool} (bounded : run.Bounded dynamic)
    (call : ProcessCall) : (run.step dynamic call).Bounded dynamic := by
  unfold ProcessRun.step
  split
  · exact bounded
  cases call with
  | post event realloc =>
      simp only [ProcessState.call, ProcessState.ocProcessPost]
      split
      · cases dynamic with
        | false => exact bounded
        | true =>
            cases realloc with
            | none => exact ⟨fun fixed => (by cases fixed), fun _ => rfl⟩
            | some fresh => exact ⟨fun fixed => (by cases fixed), fun _ => rfl⟩
      · exact ⟨bounded.capacity, bounded.aborted⟩
  | run =>
      simp only [ProcessState.call, ProcessState.doEvent]
      split
      · exact ⟨bounded.capacity, bounded.aborted⟩
      · exact ⟨bounded.capacity, bounded.aborted⟩
  | drop p dropEvent =>
      cases p with
      | none => exact bounded
      | some p =>
          cases dropEvent with
          | none => exact bounded
          | some dropEvent =>
              refine ⟨fun fixed => ?_, bounded.aborted⟩
              exact (capacity_dropFrom _ _ _ _).trans (bounded.capacity fixed)

/-- A post is refused exactly when the array is full and does not grow. -/
theorem Agrees.refused_iff (agrees : run.Agrees) {dynamic : Bool}
    (event : EventData) (realloc : ReallocResult) :
    (run.state.ocProcessPost dynamic event realloc).2 = .full ↔
      run.list.pending.length = run.state.queue.capacity ∧
        (dynamic = true → realloc = none) := by
  have length := run.state.queue.length_contents
  rw [agrees.contents, List.length_map] at length
  rw [length]
  unfold ProcessState.ocProcessPost
  split
  · next full =>
      cases dynamic with
      | false => simp [full]
      | true => cases realloc <;> simp [full]
  · next room => simp [room]

end ProcessRun

/-- In every run the array holds the pending events, and the events delivered
and pending are those posted and not dropped, each once and in the order of
the posts.  A post is refused exactly when ten events are pending in a static
array, or when an array that is full cannot be enlarged. -/
theorem processQueue_fifo (dynamic : Bool) (calls : List ProcessCall) :
    let run := runFrom (ProcessRun.step dynamic) .initial calls
    run.state.queue.contents = run.list.pending.map (·.2) ∧
      run.state.delivered = run.list.delivered.map (·.2) ∧
      run.list.posted.map (·.1) = List.range run.list.posted.length ∧
      (run.list.delivered ++ run.list.pending =
        run.list.posted.filter fun event =>
          !run.list.dropped.contains event.1) ∧
      (∀ event realloc,
        (run.state.ocProcessPost dynamic event realloc).2 = .full ↔
          run.list.pending.length = run.state.queue.capacity ∧
            (dynamic = true → realloc = none)) ∧
      (dynamic = false →
        run.state.queue.capacity = 10 ∧ run.state.aborted = false) := by
  intro run
  have agrees := invariant_runFrom calls ProcessRun.agrees_initial
    fun run call (agrees : run.Agrees) => agrees.step dynamic call
  have bounded := invariant_runFrom calls (ProcessRun.bounded_initial dynamic)
    fun run call (bounded : run.Bounded dynamic) => bounded.step call
  refine ⟨agrees.contents, agrees.delivered, agrees.sound.numbered,
    agrees.sound.kept, agrees.refused_iff, ?_⟩
  intro fixed
  refine ⟨bounded.capacity fixed, ?_⟩
  rw [← Bool.not_eq_true]
  intro aborted
  have grows := bounded.aborted aborted
  rw [fixed] at grows
  cases grows

end IotivityLite
