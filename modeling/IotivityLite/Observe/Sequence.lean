import IotivityLite.Observe.ObserverCount

/-!
# Sequence numbers of notifications

Every counted notification takes its number from the counter of its observer
and advances this counter and the one of the server.  The counter of an
observer is therefore never ahead of the server's, and an observer that
registers again starts behind everything that it was sent before.  An error
carries the number 1, by which observers are told that they are no longer
registered.
-/

namespace IotivityLite

namespace ObserveCounter

/-- How many numbers a counter has left behind, and two. -/
def place (counter : ObserveCounter) : Nat :=
  counter.wraps * (observeMaxValue - 1) + counter.value

theorem place_startOver (wraps : Nat) {greatest : Nat}
    (positive : 2 ≤ greatest) :
    (wraps + 1) * (greatest - 1) + 2 =
      wraps * (greatest - 1) + greatest + 1 := by
  rw [Nat.succ_mul]
  omega

theorem place_increment (counter : ObserveCounter) :
    counter.increment.place = counter.place + 1 := by
  obtain ⟨value, wraps, lower, upper⟩ := counter
  by_cases last : value = observeMaxValue
  · subst last
    exact (congrArg place (dif_pos rfl)).trans (place_startOver wraps lower)
  · exact (congrArg place (dif_neg last)).trans (Nat.add_assoc _ _ 1).symm

theorem lt_of_place_lt {first second : ObserveCounter}
    (before : first.place < second.place) :
    first.wraps < second.wraps ∨
      first.wraps = second.wraps ∧ first.value < second.value := by
  rcases Nat.lt_trichotomy first.wraps second.wraps with less | same | more
  · exact Or.inl less
  · unfold place at before
    rw [same] at before
    exact Or.inr ⟨same, by omega⟩
  · have step : (second.wraps + 1) * (observeMaxValue - 1) ≤
        first.wraps * (observeMaxValue - 1) := Nat.mul_le_mul_right _ more
    rw [Nat.succ_mul] at step
    have lower := first.lower
    have upper := second.upper
    unfold place at before
    omega

end ObserveCounter

namespace Notified

/-- A client that registers again for the same path and interface is the same
observer. -/
def sameObserver (first second : Notified) : Bool :=
  ocEndpointCompare first.endpoint second.endpoint &&
    first.url == second.url && first.ifaceMask == second.ifaceMask

/-- Numbers grow until the counter starts over. -/
def Before (older newer : Notified) : Prop :=
  older.wraps < newer.wraps ∨
    older.wraps = newer.wraps ∧ older.value < newer.value

/-- Numbers of notifications are no values of requests; errors carry 1. -/
def Numbered (notified : Notified) : Prop :=
  (notified.counted = true →
      2 ≤ notified.value ∧ notified.value ≤ observeMaxValue) ∧
    (notified.success = false → notified.value = 1)

/-- The notification has a number of the sequence, that of the counter. -/
def Carries (notified : Notified) (counter : ObserveCounter) : Prop :=
  notified.value = counter.value ∧ notified.wraps = counter.wraps

theorem before_of_place_lt {older newer : Notified}
    {first second : ObserveCounter} (one : older.Carries first)
    (two : newer.Carries second) (less : first.place < second.place) :
    older.Before newer := by
  unfold Before
  rw [one.1, one.2, two.1, two.2]
  exact ObserveCounter.lt_of_place_lt less

end Notified

theorem ocEndpointCompare_comm (first second : OcEndpoint) :
    ocEndpointCompare first second = ocEndpointCompare second first := by
  rw [Bool.eq_iff_iff]
  simp only [ocEndpointCompare, Bool.and_eq_true, Bool.or_eq_true, beq_iff_eq]
  constructor
  · rintro ⟨⟨⟨secured, device⟩, route⟩, sessions⟩
    exact ⟨⟨⟨secured.symm, device.symm⟩, route.symm⟩, by tauto⟩
  · rintro ⟨⟨⟨secured, device⟩, route⟩, sessions⟩
    exact ⟨⟨⟨secured.symm, device.symm⟩, route.symm⟩, by tauto⟩

namespace ObserverRecord

/-- What the observer is notified with next. -/
def upcoming (obs : ObserverRecord) : Notified where
  endpoint := obs.endpoint
  url := obs.url
  ifaceMask := obs.ifaceMask
  success := true
  counted := true
  value := obs.obsCounter.value
  wraps := obs.obsCounter.wraps

end ObserverRecord

/-- `behind` says that no observer is ahead of the server, `past` that what was
sent is behind both the server and the observer it was sent to. -/
structure ObserveState.Sequenced (state : ObserveState) : Prop where
  refs : (state.observers.map (·.ref)).Nodup
  fresh : ∀ obs ∈ state.observers, obs.ref < state.next
  apart : state.observers.Pairwise fun one other =>
    one.upcoming.sameObserver other.upcoming = false
  behind : ∀ obs ∈ state.observers,
    obs.obsCounter.place ≤ state.observeCounter.place
  past : ∀ notified ∈ state.notified, notified.counted = true →
    ∃ counter : ObserveCounter, notified.Carries counter ∧
      counter.place < state.observeCounter.place ∧
      ∀ obs ∈ state.observers,
        notified.sameObserver obs.upcoming = true →
          counter.place < obs.obsCounter.place
  numbered : ∀ notified ∈ state.notified, notified.Numbered
  ordered : state.notified.Pairwise fun newer older =>
    newer.counted = true → older.counted = true →
      older.sameObserver newer = true → older.Before newer

section Steps

variable {state after : ObserveState}

theorem ObserveState.Sequenced.initial : ObserveState.initial.Sequenced :=
  ⟨List.nodup_nil, nofun, List.Pairwise.nil, nofun, nofun, nofun,
    List.Pairwise.nil⟩

theorem Removes.sequenced (removes : Removes state after)
    (sequenced : state.Sequenced) : after.Sequenced where
  refs := sequenced.refs.sublist (removes.sublist.map _)
  fresh := by
    intro obs member
    rw [removes.next]
    exact sequenced.fresh obs (removes.sublist.subset member)
  apart := sequenced.apart.sublist removes.sublist
  behind := by
    intro obs member
    rw [removes.observeCounter]
    exact sequenced.behind obs (removes.sublist.subset member)
  past := by
    intro notified member counted
    rw [removes.notified] at member
    obtain ⟨counter, carries, server, own⟩ :=
      sequenced.past notified member counted
    rw [removes.observeCounter]
    refine ⟨counter, carries, server, ?_⟩
    intro obs present
    exact own obs (removes.sublist.subset present)
  numbered := by
    rw [removes.notified]
    exact sequenced.numbered
  ordered := by
    rw [removes.notified]
    exact sequenced.ordered

theorem coapAddObserver_sequenced (sequenced : state.Sequenced)
    (request : ObserveRequest) (memory : Bool) :
    (coapAddObserver request memory state).1.Sequenced := by
  have removes := coapRemoveObserversByFilter_removes sequenced.refs
    request.duplicates true
  have left := observers_removeAll sequenced.refs request.duplicates
  have kept := removes.sequenced sequenced
  have distinct := coapAddObserver_distinct request memory sequenced.refs
    sequenced.fresh
  unfold coapAddObserver at distinct ⊢
  revert left kept distinct
  generalize coapRemoveObserversByFilter request.duplicates true state = middle
  intro left kept distinct
  cases memory with
  | false => exact kept
  | true =>
      refine ⟨distinct.1, distinct.2, ?_, ?_, ?_, kept.numbered,
        kept.ordered⟩
      · change List.Pairwise _ (middle.observers ++ _)
        rw [List.pairwise_append]
        refine ⟨kept.apart, List.pairwise_singleton _ _, ?_⟩
        intro obs old other new
        rw [List.mem_singleton.mp new]
        rw [left, List.mem_filter] at old
        exact Bool.not_eq_true' _ |>.mp old.2
      · intro obs member
        rcases List.mem_append.mp member with old | new
        · exact kept.behind obs old
        · rw [List.mem_singleton.mp new]
          exact Nat.le_refl _
      · intro notified member counted
        obtain ⟨counter, carries, server, own⟩ :=
          kept.past notified member counted
        refine ⟨counter, carries, server, ?_⟩
        intro obs present same
        rcases List.mem_append.mp present with old | new
        · exact own obs old same
        · rw [List.mem_singleton.mp new]
          exact server

theorem sameObserver_comm (first second : Notified) :
    first.sameObserver second = second.sameObserver first := by
  unfold Notified.sameObserver
  rw [ocEndpointCompare_comm, Bool.beq_comm (a := first.url),
    Bool.beq_comm (a := first.ifaceMask)]

theorem ObserveState.Sequenced.different (sequenced : state.Sequenced)
    {one other : ObserverRecord} (member : one ∈ state.observers)
    (present : other ∈ state.observers) (different : other ≠ one) :
    one.upcoming.sameObserver other.upcoming = false := by
  have symmetric : Std.Symm fun one other : ObserverRecord =>
      one.upcoming.sameObserver other.upcoming = false :=
    ⟨fun _ _ apart => (sameObserver_comm _ _).trans apart⟩
  exact sequenced.apart.forall member present different.symm

/-- If the notification takes a number of the sequence. -/
def ObserveState.counts (state : ObserveState) (notification : Notification)
    (obs : ObserverRecord) : Bool :=
  notification.code < 128 && state.numObservers obs.resource != 0

variable {notification : Notification}

theorem mem_observers_sendNotification {obs other : ObserverRecord}
    (sequenced : state.Sequenced) (member : obs ∈ state.observers)
    (present : other ∈ (sendNotification notification obs state).observers) :
    ∃ old ∈ state.observers, other.ref = old.ref ∧
      (∀ notified : Notified, notified.sameObserver other.upcoming =
        notified.sameObserver old.upcoming) ∧
      (old = obs ∧ other.obsCounter.place = obs.obsCounter.place +
          (state.counts notification obs).toNat ∨
        old ≠ obs ∧ other.obsCounter = old.obsCounter) := by
  obtain ⟨old, oldMember, rfl⟩ := List.mem_map.mp present
  refine ⟨old, oldMember, ?_⟩
  by_cases same : old.ref = obs.ref
  · have own : old = obs :=
      List.inj_on_of_nodup_map sequenced.refs oldMember member same
    rw [if_pos (beq_iff_eq.mpr same)]
    refine ⟨rfl, fun _ => rfl, Or.inl ⟨own, ?_⟩⟩
    change ObserveCounter.place (if state.counts notification obs = true then
      obs.obsCounter.increment else obs.obsCounter) = _
    cases state.counts notification obs with
    | true => exact obs.obsCounter.place_increment
    | false => exact (Nat.add_zero _).symm
  · rw [if_neg (fun equal => same (beq_iff_eq.mp equal))]
    refine ⟨rfl, fun _ => rfl, Or.inr ⟨?_, rfl⟩⟩
    intro own
    exact same (congrArg ObserverRecord.ref own)

variable {obs : ObserverRecord}

theorem place_observeCounter_sendNotification :
    (sendNotification notification obs state).observeCounter.place =
      state.observeCounter.place +
        (state.counts notification obs).toNat := by
  change ObserveCounter.place (if state.counts notification obs = true then
    state.observeCounter.increment else state.observeCounter) = _
  cases state.counts notification obs with
  | true => exact state.observeCounter.place_increment
  | false => exact (Nat.add_zero _).symm

/-- The notification of an observer. -/
def ObserveState.carried (state : ObserveState) (notification : Notification)
    (obs : ObserverRecord) : Notified where
  endpoint := obs.endpoint
  url := obs.url
  ifaceMask := obs.ifaceMask
  success := notification.code < 128
  counted := state.counts notification obs
  value := if state.counts notification obs then obs.obsCounter.value else 1
  wraps := obs.obsCounter.wraps

theorem notified_sendNotification (notification : Notification)
    (obs : ObserverRecord) :
    (sendNotification notification obs state).notified =
      if notification.transaction && notification.sent then
        state.carried notification obs :: state.notified
      else state.notified := rfl

theorem carried_numbered (notification : Notification)
    (obs : ObserverRecord) : (state.carried notification obs).Numbered := by
  constructor
  · intro counted
    change state.counts notification obs = true at counted
    rw [ObserveState.carried]
    dsimp only
    rw [if_pos counted]
    exact ⟨obs.obsCounter.lower, obs.obsCounter.upper⟩
  · intro error
    have uncounted : state.counts notification obs = false := by
      unfold ObserveState.counts
      rw [Bool.and_eq_false_iff]
      exact Or.inl error
    rw [ObserveState.carried]
    dsimp only
    rw [if_neg (Bool.not_eq_true _ ▸ uncounted)]

theorem carried_carries
    (counted : (state.carried notification obs).counted = true) :
    (state.carried notification obs).Carries obs.obsCounter :=
  ⟨if_pos counted, rfl⟩

section

variable (sequenced : state.Sequenced)

include sequenced

theorem past_sendNotification (notification : Notification)
    (member : obs ∈ state.observers) {older : Notified}
    (olderMember : older ∈ state.notified) (counted : older.counted = true) :
    ∃ counter : ObserveCounter, older.Carries counter ∧
      counter.place <
        (sendNotification notification obs state).observeCounter.place ∧
      ∀ other ∈ (sendNotification notification obs state).observers,
        older.sameObserver other.upcoming = true →
          counter.place < other.obsCounter.place := by
  obtain ⟨counter, carries, server, each⟩ :=
    sequenced.past older olderMember counted
  refine ⟨counter, carries, ?_, ?_⟩
  · rw [place_observeCounter_sendNotification]
    omega
  · intro other otherMember same
    obtain ⟨old, oldMember, -, keys, own | kept⟩ :=
      mem_observers_sendNotification sequenced member otherMember
    · have before := each old oldMember (keys older ▸ same)
      rw [own.1] at before
      omega
    · rw [kept.2]
      exact each old oldMember (keys older ▸ same)

theorem past_carried (notification : Notification)
    (member : obs ∈ state.observers)
    (takes : state.counts notification obs = true) :
    obs.obsCounter.place <
        (sendNotification notification obs state).observeCounter.place ∧
      ∀ other ∈ (sendNotification notification obs state).observers,
        (state.carried notification obs).sameObserver other.upcoming = true →
          obs.obsCounter.place < other.obsCounter.place := by
  constructor
  · have before := sequenced.behind obs member
    rw [place_observeCounter_sendNotification, takes]
    exact Nat.lt_succ_of_le before
  · intro other otherMember same
    obtain ⟨old, oldMember, -, keys, own | kept⟩ :=
      mem_observers_sendNotification sequenced member otherMember
    · rw [own.2, takes]
      exact Nat.lt_succ_self _
    · -- another observer is not the one that was notified
      have apart := sequenced.different member oldMember kept.1
      rw [keys] at same
      exact absurd (same.symm.trans apart) (by decide)

theorem sendNotification_sequenced (notification : Notification)
    (member : obs ∈ state.observers) :
    (sendNotification notification obs state).Sequenced where
  refs := by
    rw [refs_sendNotification]
    exact sequenced.refs
  fresh := by
    intro other present
    obtain ⟨old, oldMember, same, -, -⟩ :=
      mem_observers_sendNotification sequenced member present
    rw [same]
    exact sequenced.fresh old oldMember
  apart := by
    change List.Pairwise _ (state.observers.map _)
    rw [List.pairwise_map]
    apply sequenced.apart.imp
    intro one other apart
    by_cases first : (one.ref == obs.ref) = true
    · by_cases second : (other.ref == obs.ref) = true
      · rw [if_pos first, if_pos second]
        exact apart
      · rw [if_pos first, if_neg second]
        exact apart
    · by_cases second : (other.ref == obs.ref) = true
      · rw [if_neg first, if_pos second]
        exact apart
      · rw [if_neg first, if_neg second]
        exact apart
  behind := by
    intro other present
    obtain ⟨old, oldMember, -, -, own | kept⟩ :=
      mem_observers_sendNotification sequenced member present
    · have before := sequenced.behind obs member
      rw [own.2, place_observeCounter_sendNotification]
      omega
    · have before := sequenced.behind old oldMember
      rw [kept.2, place_observeCounter_sendNotification]
      omega
  past := by
    intro notified present counted
    rw [notified_sendNotification] at present
    by_cases sent : (notification.transaction && notification.sent) = true
    · rw [if_pos sent, List.mem_cons] at present
      rcases present with rfl | old
      · exact ⟨obs.obsCounter, carried_carries counted,
          past_carried sequenced notification member counted⟩
      · exact past_sendNotification sequenced notification member old counted
    · rw [if_neg sent] at present
      exact past_sendNotification sequenced notification member present counted
  numbered := by
    rw [notified_sendNotification]
    split
    · rw [List.forall_mem_cons]
      exact ⟨carried_numbered notification obs, sequenced.numbered⟩
    · exact sequenced.numbered
  ordered := by
    rw [notified_sendNotification]
    split
    · rw [List.pairwise_cons]
      refine ⟨?_, sequenced.ordered⟩
      intro older olderMember counted olderCounted same
      obtain ⟨counter, carries, -, each⟩ :=
        sequenced.past older olderMember olderCounted
      exact Notified.before_of_place_lt carries (carried_carries counted)
        (each obs member same)
    · exact sequenced.ordered

theorem observeStep_sequenced (event : ObserveEvent) :
    (observeStep state event).Sequenced := by
  cases event with
  | create resource =>
      rw [observeStep]
      split
      · exact sequenced
      · exact ⟨sequenced.refs, sequenced.fresh, sequenced.apart,
          sequenced.behind, sequenced.past, sequenced.numbered,
          sequenced.ordered⟩
  | delete ref =>
      rw [observeStep]
      cases state.resources.find? fun other => other.ref == ref with
      | none => exact sequenced
      | some resource =>
          have removed :
              (if state.numObservers resource.ref ≠ 0 then
                (Removal.resource resource).apply state
              else state).Sequenced := by
            split
            · exact (coapRemoveObserversByFilter_removes sequenced.refs _
                _).sequenced sequenced
            · exact sequenced
          exact ⟨removed.refs, removed.fresh, removed.apart, removed.behind,
            removed.past, removed.numbered, removed.ordered⟩
  | add request memory =>
      rw [observeStep]
      split
      · exact coapAddObserver_sequenced sequenced request memory
      · exact sequenced
  | remove removal =>
      exact (coapRemoveObserversByFilter_removes sequenced.refs _
        _).sequenced sequenced
  | notify ref notification =>
      rw [observeStep]
      cases found : state.observers.find? fun other => other.ref == ref with
      | none => exact sequenced
      | some obs =>
          exact sendNotification_sequenced sequenced notification
            (List.mem_of_find?_eq_some found)

end

theorem ObserveState.Settled.numObservers_ne_zero (settled : state.Settled)
    (member : obs ∈ state.observers) : state.numObservers obs.resource ≠ 0 := by
  intro zero
  obtain ⟨resource, present, own, -⟩ := settled.attached obs member
  have agree := settled.countsAgree resource present
  rw [own, zero] at agree
  have none := List.countP_eq_zero.mp agree.symm obs member
  exact none (beq_self_eq_true obs.resource)

theorem observeStep_success_counted {event : ObserveEvent}
    (settled : state.Settled)
    (before : ∀ notified ∈ state.notified,
      notified.success = true → notified.counted = true) :
    ∀ notified ∈ (observeStep state event).notified,
      notified.success = true → notified.counted = true := by
  have removed : ∀ (filter : ObserverRecord → Bool) (matchAll : Bool),
      (coapRemoveObserversByFilter filter matchAll state).notified =
        state.notified := fun filter matchAll =>
    (coapRemoveObserversByFilter_removes settled.counted.refs filter
      matchAll).notified
  cases event with
  | create resource =>
      rw [observeStep]
      split <;> exact before
  | delete ref =>
      rw [observeStep]
      cases state.resources.find? fun other => other.ref == ref with
      | none => exact before
      | some resource =>
          change ∀ notified ∈ (if state.numObservers resource.ref ≠ 0 then
            (Removal.resource resource).apply state else state).notified, _
          split
          · rw [Removal.apply, removed]
            exact before
          · exact before
  | add request memory =>
      rw [observeStep]
      split
      · cases memory with
        | true =>
            change ∀ notified ∈ (coapRemoveObserversByFilter
              request.duplicates true state).notified, _
            rw [removed]
            exact before
        | false =>
            change ∀ notified ∈ (coapRemoveObserversByFilter
              request.duplicates true state).notified, _
            rw [removed]
            exact before
      · exact before
  | remove removal =>
      change ∀ notified ∈ (coapRemoveObserversByFilter
        removal.filter removal.matchAll state).notified, _
      rw [removed]
      exact before
  | notify ref notification =>
      rw [observeStep]
      cases found : state.observers.find? fun other => other.ref == ref with
      | none => exact before
      | some obs =>
          rw [notified_sendNotification]
          split
          · rw [List.forall_mem_cons]
            refine ⟨?_, before⟩
            intro success
            have observed := settled.numObservers_ne_zero
              (List.mem_of_find?_eq_some found)
            change (_ && _) = true
            rw [Bool.and_eq_true, bne_iff_ne]
            exact ⟨success, observed⟩
          · exact before

end Steps

/-- The numbers of the notifications of an observer grow until the counter
starts over, and are no values of requests; errors carry 1.  Every success has
a number of the sequence as long as no number of observers wraps. -/
theorem notified_sequence (events : List ObserveEvent) :
    let state := runFrom observeStep .initial events
    (∀ notified ∈ state.notified, notified.Numbered) ∧
      (state.notified.Pairwise fun newer older =>
        newer.counted = true → older.counted = true →
          older.sameObserver newer = true → older.Before newer) ∧
      (Along observeStep ObserveState.CountFits .initial events →
        ∀ notified ∈ state.notified,
          notified.success = true → notified.counted = true) := by
  have sequenced : (runFrom observeStep .initial events).Sequenced :=
    invariant_runFrom events ObserveState.Sequenced.initial
      fun _ event before => observeStep_sequenced before event
  refine ⟨sequenced.numbered, sequenced.ordered, ?_⟩
  intro fits
  have reached := @Along.invariant _ _ _ _ _
    (fun state => state.Settled ∧ ∀ notified ∈ state.notified,
      notified.success = true → notified.counted = true)
    _ fits ⟨ObserveState.Settled.initial, nofun⟩
    fun _ _ before fits => ⟨observeStep_settled before.1 fits,
      observeStep_success_counted before.1 before.2⟩
  exact reached.2

/-- A notification with an error code carries the value that ends an
observation. -/
theorem not_sequence_of_error :
    ¬ ∀ notified ∈ (runFrom observeStep .initial
        (Crowd.events 1 ++ [.notify 0 ⟨132, 7, true, true⟩])).notified,
      notified.value ≠ 0 ∧ notified.value ≠ 1 := by
  decide +kernel

end IotivityLite
