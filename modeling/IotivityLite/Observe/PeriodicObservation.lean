import IotivityLite.Observe.ObserveOption

/-!
# Polling a resource for its observers

A resource that changes on its own is polled by one callback, which all its
observers share.  A registration adds the callback and a cancellation removes
it, whoever else observes the resource; observers that are removed in another
way leave it.  The conditions below say which steps keep the callback for as
long as there is an observer, and no longer.
-/

namespace IotivityLite

/-- A request for this resource, which is polled, and not behind a link of its
own. -/
structure ObserveGet.On (get : ObserveGet) (resource : Nat) : Prop where
  ref : get.target.ref = resource
  periodic : get.target.periodic = true
  apart : ∀ links linked, get.target.links = some links →
    some linked ∈ links → linked.ref ≠ resource

/-- Clients register and cancel with requests for the resource, or are removed
in other ways: they reject a notification or are gone. -/
inductive PeriodicEvent (resource : Nat) where
  | get (get : ObserveGet) (on : get.On resource)
  | remove (removal : Removal)

def periodicStep {resource : Nat} (state : Observations) :
    PeriodicEvent resource → Observations
  | .get get _ => (observeGet get state).state
  | .remove removal =>
      { state with registry := removal.apply state.registry }

def Observations.initial : Observations := ⟨.initial, []⟩

/-- The resource is polled exactly as long as it has an observer. -/
def Observations.Polled (state : Observations) (resource : Nat) : Prop :=
  resource ∈ state.callbacks ↔
    ∃ obs ∈ state.registry.observers, obs.resource = resource

/-- The observers that a removal leaves. -/
def Removal.left (removal : Removal) (observers : List ObserverRecord) :
    List ObserverRecord :=
  if removal.matchAll = true then
    observers.filter fun obs => !removal.filter obs
  else observers.eraseP removal.filter

/-- The last observer goes, and only then, with a cancellation.  A registration
without memory replaces no last observer, and one that the links refuse is not
the only one. -/
def PollingFits {resource : Nat} (state : Observations) :
    PeriodicEvent resource → Prop
  | .get get _ =>
      get.handled = true → get.target.observable = true →
        (get.observe = 1 →
          state.registry.observers.any get.matching = true →
            state.registry.observers.eraseP get.matching = []) ∧
        (get.observe = 0 → get.memory = true →
          get.LinksDenied ∨ get.LinkFails state → get.kept state = [] →
            get.OwnNew state ∧
              get.callbackMemory get.target.ref = false) ∧
        (get.observe = 0 → get.memory = false →
          get.LinksDenied ∨ get.LinkFails state →
            (get.kept state).eraseP get.matching = [] →
              state.registry.observers = []) ∧
        (get.observe = 0 → get.memory = false →
          ¬ (get.LinksDenied ∨ get.LinkFails state) →
            get.kept state = [] → state.registry.observers = [])
  | .remove removal =>
      removal.left state.registry.observers = [] →
        state.registry.observers = []

section Callbacks

variable {memory : Nat → Bool} {links : List (Option LinkedResource)}
  {callbacks : List Nat} {resource : Nat}

theorem nodup_callbackAdd (distinct : callbacks.Nodup) :
    (ocPeriodicObserveCallbackAdd memory resource callbacks).1.Nodup := by
  rw [ocPeriodicObserveCallbackAdd]
  split
  · exact distinct
  · rename_i absent
    split
    · rw [List.nodup_append]
      refine ⟨distinct, List.nodup_singleton _, ?_⟩
      intro other member last new same
      rw [List.mem_singleton.mp new] at same
      exact absent (same ▸ member)
    · exact distinct

theorem addLinkCallbacks_frame (distinct : callbacks.Nodup)
    (apart : ∀ linked, some linked ∈ links → linked.ref ≠ resource) :
    (addLinkCallbacks memory links callbacks).1.Nodup ∧
      (resource ∈ (addLinkCallbacks memory links callbacks).1 ↔
        resource ∈ callbacks) := by
  induction links generalizing callbacks with
  | nil => exact ⟨distinct, Iff.rfl⟩
  | cons link links ih =>
      have later : ∀ linked, some linked ∈ links → linked.ref ≠ resource :=
        fun linked member => apart linked (List.mem_cons_of_mem _ member)
      cases link with
      | none => exact ih distinct later
      | some first =>
          rw [addLinkCallbacks]
          by_cases periodic : first.periodic = true
          · rw [if_pos periodic]
            have added := @nodup_callbackAdd memory _ first.ref distinct
            have same : resource ∈ (ocPeriodicObserveCallbackAdd memory
                first.ref callbacks).1 ↔ resource ∈ callbacks := by
              rw [ocPeriodicObserveCallbackAdd]
              split
              · exact Iff.rfl
              · split
                · rw [List.mem_append, List.mem_singleton]
                  exact or_iff_left
                    (apart first List.mem_cons_self).symm
                · exact Iff.rfl
            revert added same
            generalize ocPeriodicObserveCallbackAdd memory first.ref
              callbacks = result
            obtain ⟨next, ok⟩ := result
            intro added same
            cases ok with
            | true =>
                obtain ⟨nodup, frame⟩ := ih added later
                exact ⟨nodup, frame.trans same⟩
            | false => exact ⟨added, same⟩
          · rw [if_neg periodic]
            exact ih distinct later

theorem removeLinkCallbacks_frame (distinct : callbacks.Nodup)
    (apart : ∀ linked, some linked ∈ links → linked.ref ≠ resource) :
    (removeLinkCallbacks links callbacks).Nodup ∧
      (resource ∈ removeLinkCallbacks links callbacks ↔
        resource ∈ callbacks) := by
  induction links generalizing callbacks with
  | nil => exact ⟨distinct, Iff.rfl⟩
  | cons link links ih =>
      have later : ∀ linked, some linked ∈ links → linked.ref ≠ resource :=
        fun linked member => apart linked (List.mem_cons_of_mem _ member)
      cases link with
      | none => exact ih distinct later
      | some first =>
          rw [removeLinkCallbacks, List.foldl_cons]
          dsimp only
          by_cases periodic : first.periodic = true
          · rw [if_pos periodic]
            obtain ⟨nodup, frame⟩ := ih (distinct.erase first.ref) later
            refine ⟨nodup, frame.trans ?_⟩
            exact List.mem_erase_of_ne (apart first List.mem_cons_self).symm
          · rw [if_neg periodic]
            exact ih distinct later

end Callbacks

theorem ne_nil_iff_of_sublist {left all : List ObserverRecord}
    (sublist : left.Sublist all) :
    (all ≠ [] ↔ left ≠ []) ↔ (left = [] → all = []) := by
  constructor
  · intro same none
    by_contra some
    exact same.mp some none
  · intro condition
    refine ⟨fun some none => some (condition none), fun some none => ?_⟩
    rw [none] at sublist
    exact some (List.sublist_nil.mp sublist)

/-- The list has only observers of the resource, and no resource has two
callbacks. -/
structure Observations.Shared (state : Observations) (resource : Nat) :
    Prop where
  distinct : (state.registry.observers.map (·.ref)).Nodup
  fresh : ∀ obs ∈ state.registry.observers, obs.ref < state.registry.next
  own : ∀ obs ∈ state.registry.observers, obs.resource = resource
  callbacks : state.callbacks.Nodup

section Requests

variable {resource : Nat} {get : ObserveGet} {state after : Observations}

def Observations.Shared.sound (shared : state.Shared resource) :
    SoundObservations :=
  ⟨state, shared.distinct, shared.fresh⟩

theorem Observations.Shared.polled_iff (shared : state.Shared resource) :
    state.Polled resource ↔
      (resource ∈ state.callbacks ↔ state.registry.observers ≠ []) := by
  have observed : (∃ obs ∈ state.registry.observers,
      obs.resource = resource) ↔ state.registry.observers ≠ [] := by
    constructor
    · rintro ⟨obs, member, -⟩
      exact List.ne_nil_of_mem member
    · intro some
      obtain ⟨obs, member⟩ := List.exists_mem_of_ne_nil _ some
      exact ⟨obs, member, shared.own obs member⟩
  rw [Observations.Polled, observed]

theorem Removes.shared {registry : ObserveState}
    (removes : Removes state.registry registry)
    (shared : state.Shared resource) :
    Observations.Shared ⟨registry, state.callbacks⟩ resource where
  distinct := shared.distinct.sublist (removes.sublist.map _)
  fresh := by
    intro obs member
    change obs.ref < registry.next
    rw [removes.next]
    exact shared.fresh obs (removes.sublist.subset member)
  own := fun obs member => shared.own obs (removes.sublist.subset member)
  callbacks := shared.callbacks

theorem Observations.Shared.observers_left (shared : state.Shared resource)
    (removal : Removal) :
    (removal.apply state.registry).observers =
      removal.left state.registry.observers := by
  rw [Removal.apply, Removal.left]
  cases removal.matchAll with
  | true => exact observers_removeAll shared.distinct _
  | false => exact observers_removeFirst shared.distinct _

theorem riRemoveObservation_shared (on : get.On resource)
    (shared : state.Shared resource) (cancels : get.observe = 1) :
    (riRemoveObservation get state).Shared resource ∧
      (riRemoveObservation get state).registry.observers =
        state.registry.observers.eraseP get.matching ∧
      (resource ∈ (riRemoveObservation get state).callbacks ↔
        resource ∈ state.callbacks ∧
          ¬ state.registry.observers.any get.matching = true) := by
  have removes := coapRemoveObserversByFilter_removes shared.distinct
    get.removal.filter get.removal.matchAll
  rw [riRemoveObservation, riObserveHandler, if_neg (by omega),
    if_pos cancels]
  by_cases found : state.registry.observers.any get.removal.filter = true
  · have erased : resource ∉ ocPeriodicObserveCallbackRemove resource
        state.callbacks := shared.callbacks.not_mem_erase
    have nodup : (ocPeriodicObserveCallbackRemove resource
        state.callbacks).Nodup := shared.callbacks.erase resource
    have gone : ¬ (resource ∈ state.callbacks ∧
        ¬ state.registry.observers.any get.matching = true) :=
      fun both => both.2 found
    rw [if_pos found]
    dsimp only
    rw [if_neg (by decide), if_pos on.periodic, on.ref]
    cases collection : get.target.links with
    | none =>
        refine ⟨⟨(removes.shared shared).distinct,
          (removes.shared shared).fresh, (removes.shared shared).own, nodup⟩,
          observers_removeFirst shared.distinct _, ?_⟩
        exact ⟨fun member => absurd member erased,
          fun both => absurd both gone⟩
    | some links =>
        obtain ⟨linksNodup, frame⟩ := removeLinkCallbacks_frame nodup
          fun linked member => on.apart links linked collection member
        refine ⟨⟨(removes.shared shared).distinct,
          (removes.shared shared).fresh, (removes.shared shared).own,
          linksNodup⟩, observers_removeFirst shared.distinct _, ?_⟩
        exact ⟨fun member => absurd (frame.mp member) erased,
          fun both => absurd both gone⟩
  · rw [if_neg found]
    dsimp only
    rw [if_pos (Int.le_refl 0)]
    have unmatched : ∀ obs ∈ state.registry.observers,
        ¬ get.matching obs = true := fun obs member matched =>
      found (List.any_eq_true.mpr ⟨obs, member, matched⟩)
    refine ⟨shared, (List.eraseP_of_forall_not unmatched).symm, ?_⟩
    exact (and_iff_left found).symm

theorem riAddObservation_callbacks (on : get.On resource)
    (callbacks : state.callbacks.Nodup) (registers : get.observe = 0) :
    (riAddObservation get state).1.callbacks.Nodup ∧
      (resource ∈ (riAddObservation get state).1.callbacks ↔
        resource ∈ state.callbacks ∨ get.OwnNew state ∧
          get.callbackMemory get.target.ref = true) := by
  have links : ∀ before : List Nat, before.Nodup →
      (addCollectionCallbacks get before).1.Nodup ∧
        (resource ∈ (addCollectionCallbacks get before).1 ↔
          resource ∈ before) := by
    intro before nodup
    unfold addCollectionCallbacks
    cases collection : get.target.links with
    | none => exact ⟨nodup, Iff.rfl⟩
    | some links =>
        dsimp only
        rw [riAddCollectionObservation]
        split
        · exact ⟨nodup, Iff.rfl⟩
        · split
          · exact addLinkCallbacks_frame nodup fun linked member =>
              on.apart links linked collection member
          · exact ⟨nodup, Iff.rfl⟩
  rw [riAddObservation_eq registers]
  by_cases new : get.OwnNew state
  · rw [addOwnCallback_of_new new]
    by_cases enough : get.callbackMemory get.target.ref = true
    · rw [if_pos enough]
      have nodup : (state.callbacks ++ [get.target.ref]).Nodup := by
        rw [List.nodup_append]
        refine ⟨callbacks, List.nodup_singleton _, ?_⟩
        intro other member last same equal
        rw [List.mem_singleton.mp same] at equal
        exact new.2.2 (equal ▸ member)
      obtain ⟨after, frame⟩ := links _ nodup
      refine ⟨after, frame.trans ?_⟩
      rw [List.mem_append, List.mem_singleton, on.ref]
      exact or_congr_right ⟨fun _ => ⟨new, on.ref ▸ enough⟩, fun _ => rfl⟩
    · rw [if_neg enough]
      exact ⟨callbacks, (or_iff_left fun both => enough both.2).symm⟩
  · rw [addOwnCallback_of_not_new new]
    obtain ⟨after, frame⟩ := links _ callbacks
    exact ⟨after, frame.trans (or_iff_left fun both => new both.1).symm⟩

/-- The observer that a registration adds, if there is memory. -/
def ObserveGet.added (get : ObserveGet) (state : Observations) :
    List ObserverRecord :=
  if get.memory = true then
    [get.request.observer state.registry.next state.registry.observeCounter]
  else []

theorem observeGet_register_refused (registers : get.Registers)
    (shared : state.Shared resource) (refused : get.Refused state) :
    (observeGet get state).state =
        ⟨get.removal.apply (coapAddObserver get.request get.memory
          state.registry).1, (riAddObservation get state).1.callbacks⟩ ∧
      (observeGet get state).state.registry.observers =
        (get.kept state ++ get.added state).eraseP get.matching := by
  rw [observeGet_of_refused registers refused]
  exact ⟨rfl, @observers_takenBack get shared.sound⟩

theorem observeGet_register_granted (registers : get.Registers)
    (shared : state.Shared resource) (granted : ¬ get.Refused state) :
    (observeGet get state).state =
        ⟨(coapAddObserver get.request get.memory state.registry).1,
          (riAddObservation get state).1.callbacks⟩ ∧
      (observeGet get state).state.registry.observers =
        get.kept state ++ get.added state := by
  rw [observeGet_of_granted registers granted]
  exact ⟨rfl, @observers_coapAddObserver get shared.sound⟩

theorem coapAddObserver_shared (on : get.On resource)
    (shared : state.Shared resource) :
    Observations.Shared ⟨(coapAddObserver get.request get.memory
      state.registry).1, state.callbacks⟩ resource where
  distinct := (coapAddObserver_distinct _ _ shared.distinct shared.fresh).1
  fresh := (coapAddObserver_distinct _ _ shared.distinct shared.fresh).2
  own := by
    have listed : (coapAddObserver get.request get.memory
        state.registry).1.observers = get.kept state ++ get.added state :=
      @observers_coapAddObserver get shared.sound
    intro obs member
    change obs ∈ (coapAddObserver get.request get.memory
      state.registry).1.observers at member
    rw [listed] at member
    rcases List.mem_append.mp member with old | new
    · exact shared.own obs (List.mem_of_mem_filter old)
    · unfold ObserveGet.added at new
      split at new
      · rw [List.mem_singleton.mp new]
        exact on.ref
      · cases new
  callbacks := shared.callbacks

theorem observeGet_shared (on : get.On resource)
    (shared : state.Shared resource) :
    (observeGet get state).state.Shared resource := by
  by_cases handled : get.handled = true
  · by_cases observable : get.target.observable = true
    · by_cases zero : get.observe = 0
      · have registers : get.Registers := ⟨handled, observable, zero⟩
        have polled := (riAddObservation_callbacks on shared.callbacks zero).1
        have added := coapAddObserver_shared on shared
        by_cases refused : get.Refused state
        · rw [(observeGet_register_refused registers shared refused).1]
          have removed := Removes.shared (coapRemoveObserversByFilter_removes
            added.distinct get.removal.filter get.removal.matchAll) added
          exact ⟨removed.distinct, removed.fresh, removed.own, polled⟩
        · rw [(observeGet_register_granted registers shared refused).1]
          exact ⟨added.distinct, added.fresh, added.own, polled⟩
      · rw [observeGet, if_pos handled, riHandleObservation,
          if_neg (by simp [observable]), if_neg zero]
        split
        · rename_i cancels
          exact (riRemoveObservation_shared on shared cancels).1
        · exact shared
    · rw [observeGet, if_pos handled, riHandleObservation,
        if_pos (Bool.not_eq_true _ ▸ observable)]
      exact shared
  · rw [observeGet, if_neg handled]
    exact shared

theorem Observations.Shared.kept_eq_nil
    (observers : state.registry.observers = []) : get.kept state = [] := by
  rw [ObserveGet.kept, observers]
  rfl

theorem length_takenBack (enough : get.memory = true) :
    ((get.kept state ++ get.added state).eraseP get.matching).length =
      (get.kept state).length := by
  have member : get.request.observer state.registry.next
      state.registry.observeCounter ∈ get.kept state ++ get.added state := by
    apply List.mem_append_right
    rw [ObserveGet.added, if_pos enough]
    exact List.mem_singleton_self _
  rw [List.length_eraseP_of_mem member (matching_of_own (own_observer _ _)),
    List.length_append, ObserveGet.added, if_pos enough]
  rfl

theorem register_polled_iff_of_memory (on : get.On resource)
    (shared : state.Shared resource) (polled : state.Polled resource)
    (registers : get.Registers) (enough : get.memory = true) :
    (observeGet get state).state.Polled resource ↔
      (get.LinksDenied ∨ get.LinkFails state → get.kept state = [] →
        get.OwnNew state ∧ get.callbackMemory get.target.ref = false) := by
  have callbacks := (riAddObservation_callbacks on shared.callbacks
    registers.2.2).2
  rw [shared.polled_iff] at polled
  rw [(observeGet_shared on shared).polled_iff]
  by_cases refused : get.Refused state
  · obtain ⟨result, observers⟩ :=
      observeGet_register_refused registers shared refused
    have nonempty : (observeGet get state).state.registry.observers ≠ [] ↔
        get.kept state ≠ [] := by
      rw [observers, ← List.length_pos_iff, length_takenBack enough,
        List.length_pos_iff]
    rw [nonempty, result, callbacks]
    by_cases new : get.OwnNew state
    · have unpolled : resource ∉ state.callbacks := on.ref ▸ new.2.2
      have none : get.kept state = [] := by
        apply Observations.Shared.kept_eq_nil
        by_contra some
        exact unpolled (polled.mpr some)
      by_cases room : get.callbackMemory get.target.ref = true
      · have links := refused.resolve_left fun short => by
          rw [room] at short
          exact nomatch short.2
        constructor
        · intro same
          exact absurd none (same.mp (Or.inr ⟨new, room⟩))
        · intro condition
          have short := (condition links none).2
          rw [room] at short
          cases short
      · refine ⟨fun _ _ _ => ⟨new, Bool.not_eq_true _ ▸ room⟩, fun _ => ?_⟩
        constructor
        · rintro (old | both)
          · exact absurd old unpolled
          · exact absurd both.2 room
        · exact fun some => absurd none some
    · have old : resource ∈ state.callbacks := by
        by_contra absent
        exact new ⟨enough, on.periodic, on.ref ▸ absent⟩
      have links := refused.resolve_left fun short => new short.1
      constructor
      · intro same _ none
        exact absurd none (same.mp (Or.inl old))
      · intro condition
        refine ⟨fun _ none => new (condition links none).1, fun _ => Or.inl old⟩
  · obtain ⟨result, observers⟩ :=
      observeGet_register_granted registers shared refused
    have polls : resource ∈ (riAddObservation get state).1.callbacks := by
      rw [callbacks]
      by_cases new : get.OwnNew state
      · refine Or.inr ⟨new, ?_⟩
        by_contra room
        exact refused (Or.inl ⟨new, Bool.not_eq_true _ ▸ room⟩)
      · left
        by_contra absent
        exact new ⟨enough, on.periodic, on.ref ▸ absent⟩
    have some : (observeGet get state).state.registry.observers ≠ [] := by
      rw [observers, ObserveGet.added, if_pos enough]
      exact List.append_ne_nil_of_right_ne_nil _ (List.cons_ne_nil _ _)
    constructor
    · exact fun _ links => absurd (Or.inr links) refused
    · intro _
      rw [result] at some ⊢
      exact ⟨fun _ => some, fun _ => polls⟩

theorem register_polled_iff_of_short (on : get.On resource)
    (shared : state.Shared resource) (polled : state.Polled resource)
    (registers : get.Registers) (short : get.memory = false) :
    (observeGet get state).state.Polled resource ↔
      (get.LinksDenied ∨ get.LinkFails state →
          (get.kept state).eraseP get.matching = [] →
            state.registry.observers = []) ∧
        (¬ (get.LinksDenied ∨ get.LinkFails state) →
          get.kept state = [] → state.registry.observers = []) := by
  have old : ¬ get.OwnNew state := by
    rintro ⟨enough, -⟩
    rw [short] at enough
    cases enough
  have callbacks := (riAddObservation_callbacks on shared.callbacks
    registers.2.2).2
  rw [or_iff_left fun both => old both.1] at callbacks
  have added : get.added state = [] := by
    rw [ObserveGet.added, if_neg (by simp [short])]
  have refusedIff : get.Refused state ↔
      get.LinksDenied ∨ get.LinkFails state :=
    or_iff_right fun both => old both.1
  have kept : (get.kept state).Sublist state.registry.observers :=
    List.filter_sublist
  rw [shared.polled_iff] at polled
  rw [(observeGet_shared on shared).polled_iff]
  by_cases refused : get.Refused state
  · obtain ⟨result, observers⟩ :=
      observeGet_register_refused registers shared refused
    rw [added, List.append_nil] at observers
    rw [observers, result, callbacks, polled,
      ne_nil_iff_of_sublist (List.eraseP_sublist.trans kept)]
    have links := refusedIff.mp refused
    exact ⟨fun condition => ⟨fun _ => condition, fun no => absurd links no⟩,
      fun conditions => conditions.1 links⟩
  · obtain ⟨result, observers⟩ :=
      observeGet_register_granted registers shared refused
    rw [added, List.append_nil] at observers
    rw [observers, result, callbacks, polled, ne_nil_iff_of_sublist kept]
    have links : ¬ (get.LinksDenied ∨ get.LinkFails state) := fun links =>
      refused (refusedIff.mpr links)
    exact ⟨fun condition => ⟨fun yes => absurd yes links,
      fun _ => condition⟩, fun conditions => conditions.2 links⟩

theorem cancel_polled_iff (on : get.On resource)
    (shared : state.Shared resource) (polled : state.Polled resource)
    (handled : get.handled = true)
    (observable : get.target.observable = true) (cancels : get.observe = 1) :
    (observeGet get state).state.Polled resource ↔
      (state.registry.observers.any get.matching = true →
        state.registry.observers.eraseP get.matching = []) := by
  obtain ⟨after, observers, callbacks⟩ :=
    riRemoveObservation_shared on shared cancels
  have result : (observeGet get state).state =
      riRemoveObservation get state := by
    rw [observeGet, if_pos handled, riHandleObservation,
      if_neg (by simp [observable]), if_neg (by omega), if_pos cancels]
  rw [shared.polled_iff] at polled
  rw [result, after.polled_iff, observers, callbacks]
  by_cases found : state.registry.observers.any get.matching = true
  · constructor
    · intro same _
      by_contra some
      exact (same.mpr some).2 found
    · intro condition
      exact ⟨fun both => absurd found both.2,
        fun some => absurd (condition found) some⟩
  · have unmatched : ∀ obs ∈ state.registry.observers,
        ¬ get.matching obs = true := fun obs member matched =>
      found (List.any_eq_true.mpr ⟨obs, member, matched⟩)
    rw [List.eraseP_of_forall_not unmatched, and_iff_left found]
    exact ⟨fun _ any => absurd any found, fun _ => polled⟩

end Requests

section Runs

variable {resource : Nat} {state : Observations}

theorem periodicStep_shared (shared : state.Shared resource)
    (event : PeriodicEvent resource) :
    (periodicStep state event).Shared resource := by
  cases event with
  | get get on => exact observeGet_shared on shared
  | remove removal =>
      exact Removes.shared (coapRemoveObserversByFilter_removes
        shared.distinct removal.filter removal.matchAll) shared

/-- One event keeps the polling right exactly under the condition. -/
theorem periodicStep_polled_iff (shared : state.Shared resource)
    (polled : state.Polled resource) (event : PeriodicEvent resource) :
    (periodicStep state event).Polled resource ↔ PollingFits state event := by
  cases event with
  | get get on =>
      change (observeGet get state).state.Polled resource ↔ _
      rw [PollingFits]
      by_cases handled : get.handled = true
      · by_cases observable : get.target.observable = true
        · rw [forall_prop_of_true handled, forall_prop_of_true observable]
          rcases Nat.lt_trichotomy get.observe 1 with less | one | more
          · have zero : get.observe = 0 := by omega
            have registers : get.Registers := ⟨handled, observable, zero⟩
            simp only [zero, Nat.zero_ne_one, false_imp_iff, true_and,
              forall_true_left]
            by_cases enough : get.memory = true
            · rw [register_polled_iff_of_memory on shared polled registers
                enough]
              simp only [enough, Bool.true_eq_false, false_imp_iff, and_true,
                forall_true_left]
            · rw [Bool.not_eq_true] at enough
              rw [register_polled_iff_of_short on shared polled registers
                enough]
              simp only [enough, Bool.false_eq_true, false_imp_iff, true_and,
                forall_true_left]
          · rw [cancel_polled_iff on shared polled handled observable one]
            simp only [one, Nat.one_ne_zero, false_imp_iff, and_true,
              forall_true_left]
          · have result : (observeGet get state).state = state := by
              rw [observeGet, if_pos handled, riHandleObservation,
                if_neg (by simp [observable]), if_neg (by omega),
                if_neg (by omega)]
            rw [result]
            have notZero : get.observe ≠ 0 := by omega
            have notOne : get.observe ≠ 1 := by omega
            simp only [notZero, notOne, false_imp_iff, and_true, iff_true]
            exact polled
        · have result : (observeGet get state).state = state := by
            rw [observeGet, if_pos handled, riHandleObservation,
              if_pos (Bool.not_eq_true _ ▸ observable)]
          rw [result]
          exact ⟨fun _ _ yes => absurd yes observable, fun _ => polled⟩
      · have result : (observeGet get state).state = state := by
          rw [observeGet, if_neg handled]
        rw [result]
        exact ⟨fun _ yes => absurd yes handled, fun _ => polled⟩
  | remove removal =>
      have sublist : (removal.left state.registry.observers).Sublist
          state.registry.observers := by
        rw [← shared.observers_left]
        exact (coapRemoveObserversByFilter_removes shared.distinct _
          _).sublist
      have after := periodicStep_shared shared (.remove removal)
      rw [shared.polled_iff] at polled
      rw [after.polled_iff, PollingFits]
      change (resource ∈ state.callbacks ↔
        (removal.apply state.registry).observers ≠ []) ↔ _
      rw [shared.observers_left, polled]
      exact ne_nil_iff_of_sublist sublist

end Runs

/-- The resource is polled exactly as long as it has an observer, in all states
of a run, if and only if every step of the run fits. -/
theorem polled_run_iff (resource : Nat)
    (events : List (PeriodicEvent resource)) :
    Along periodicStep (fun before event =>
        (periodicStep before event).Polled resource) .initial events ↔
      Along periodicStep PollingFits .initial events := by
  apply @Along.congr_iff_of_invariant _ _ _ _ _ _
    (fun state => state.Shared resource ∧ state.Polled resource)
  · exact ⟨⟨List.nodup_nil, nofun, nofun, List.nodup_nil⟩,
      ⟨nofun, fun observed => nomatch observed⟩⟩
  · rintro before event ⟨shared, polled⟩
    exact periodicStep_polled_iff shared polled event
  · rintro before event ⟨shared, polled⟩ fits
    exact ⟨periodicStep_shared shared event,
      (periodicStep_polled_iff shared polled event).mpr fits⟩

namespace TwoClients

def get (client observe : Nat) : ObserveGet where
  target := ⟨0, true, true, none⟩
  handled := true
  observe := observe
  endpoint := ⟨0, true, client, 0, Uuid.nil⟩
  token := .ofByte 1
  uriPath := [114]
  ifaceQuery := 0
  block2Size := 0
  memory := true
  callbackMemory := fun _ => true

theorem on (client observe : Nat) : (get client observe).On 0 :=
  ⟨rfl, rfl, nofun⟩

/-- Two clients register, and the first one cancels. -/
def events : List (PeriodicEvent 0) :=
  [.get (get 1 0) (on 1 0), .get (get 2 0) (on 2 0), .get (get 1 1) (on 1 1)]

end TwoClients

open TwoClients in
/-- The second client still observes the resource, but it is no longer
polled. -/
theorem not_polled_of_cancel :
    ¬ Along periodicStep (fun before event =>
        (periodicStep before event).Polled 0) .initial events := by
  rintro ⟨-, -, polled, -⟩
  have observed : ∃ obs ∈ (runFrom periodicStep Observations.initial
      events).registry.observers, obs.resource = 0 :=
    ⟨(get 2 0).request.observer 1 .start, by
      exact List.mem_singleton_self _, rfl⟩
  exact absurd (polled.mpr observed) (by decide +kernel)

end IotivityLite
