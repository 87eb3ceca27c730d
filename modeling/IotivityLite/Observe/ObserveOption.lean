import IotivityLite.Observe.Registration

/-!
# The Observe option of a response

A response should carry the Observe option exactly when the client is in the
list of observers afterwards, and a registration that fails should leave
nothing behind.  The conditions below say for which requests this is so, branch
by branch.
-/

namespace IotivityLite

/-- The records of the list are different, and older than the next one. -/
structure SoundObservations extends Observations where
  distinct : (registry.observers.map (·.ref)).Nodup
  fresh : ∀ obs ∈ registry.observers, obs.ref < registry.next

namespace ObserveGet

variable (get : ObserveGet)

/-- An observer of the client with the token. -/
def matching (obs : ObserverRecord) : Bool := get.removal.filter obs

/-- An observer of the client with the token, for this resource. -/
def own (obs : ObserverRecord) : Bool :=
  get.matching obs && obs.resource == get.target.ref

def Observed (registry : ObserveState) : Prop :=
  ∃ obs ∈ registry.observers, get.own obs = true

def Registers : Prop :=
  get.handled = true ∧ get.target.observable = true ∧ get.observe = 0

/-- The observer or the observation could not be added. -/
def Fails (state : Observations) : Prop :=
  (riObserveHandler get state.registry).2 < 0 ∨
    (riAddObservation get state).2 = false

/-- The option is there exactly if the client is an observer; after a
registration that fails it is not, and no resource is polled because of it. -/
def OptionAgrees (state : Observations) : Prop :=
  ((observeGet get state).option = some observeRegister ↔
      get.Observed (observeGet get state).state.registry) ∧
    (get.Registers → get.Fails state →
      (observeGet get state).option = none ∧
        ∀ resource ∈ (observeGet get state).state.callbacks,
          resource ∈ state.callbacks)

/-- The observers that the registration does not replace. -/
def kept (state : Observations) : List ObserverRecord :=
  state.registry.observers.filter fun obs => !get.request.duplicates obs

/-- The resource is polled from now on, if there is memory. -/
def OwnNew (state : Observations) : Prop :=
  get.memory = true ∧ get.target.periodic = true ∧
    get.target.ref ∉ state.callbacks

def LinksDenied : Prop :=
  ∃ links, get.target.links = some links ∧ links.any linkDenied = true

/-- A link of the collection has no callback and gets none. -/
def LinkFails (state : Observations) : Prop :=
  ∃ links, get.target.links = some links ∧ get.ifaceQuery = OcInterface.b ∧
    ∃ linked, some linked ∈ links ∧ linked.periodic = true ∧
      linked.ref ∉ state.callbacks ∧ get.callbackMemory linked.ref = false

def Refused (state : Observations) : Prop :=
  (get.OwnNew state ∧ get.callbackMemory get.target.ref = false) ∨
    get.LinksDenied ∨ get.LinkFails state

def linkUnscheduled (callbacks : List Nat) : Option LinkedResource → Bool
  | none => false
  | some linked => linked.periodic && !callbacks.contains linked.ref

/-- The first link that would get a callback gets none. -/
def FirstLinkFails (state : Observations) : Prop :=
  ∀ links linked, get.target.links = some links →
    links.find? (linkUnscheduled state.callbacks) = some (some linked) →
      get.callbackMemory linked.ref = false

/-- A refused registration takes the right observer back: no other observer of
the client has the token. -/
def TakesBack (state : Observations) : Prop :=
  if get.memory = true then
    ∀ obs ∈ get.kept state, get.matching obs = false
  else ∀ obs ∈ (get.kept state).eraseP get.matching, get.own obs = false

/-- It has not begun to poll a resource before it was refused. -/
def PollsNothing (state : Observations) : Prop :=
  (get.OwnNew state → get.callbackMemory get.target.ref = false) ∧
    (get.OwnNew state ∨ get.LinksDenied ∨ get.FirstLinkFails state)

/-- A request that is not handled, or neither registers nor cancels, should
find no observer; a cancellation should leave none; a registration should have
memory for the observer, or be refused without a trace. -/
def LeavesNothing (state : Observations) : Prop :=
  if get.handled = true ∧ get.target.observable = true ∧ get.observe ≤ 1 then
    if get.observe = 1 then
      ∀ obs ∈ state.registry.observers.eraseP get.matching,
        get.own obs = false
    else
      (¬ get.Refused state → get.memory = true) ∧
        (get.Refused state → get.TakesBack state ∧ get.PollsNothing state)
  else ∀ obs ∈ state.registry.observers, get.own obs = false

end ObserveGet

section Links

variable {memory : Nat → Bool} {links : List (Option LinkedResource)}
  {callbacks : List Nat}

theorem addLinkCallbacks_succeeds_iff :
    (addLinkCallbacks memory links callbacks).2 = true ↔
      ∀ linked, some linked ∈ links → linked.periodic = true →
        linked.ref ∈ callbacks ∨ memory linked.ref = true := by
  induction links generalizing callbacks with
  | nil => exact ⟨nofun, fun _ => rfl⟩
  | cons link links ih =>
      cases link with
      | none =>
          rw [addLinkCallbacks, ih]
          simp only [List.mem_cons, reduceCtorEq, false_or]
      | some first =>
          rw [addLinkCallbacks]
          by_cases periodic : first.periodic = true
          · rw [if_pos periodic, ocPeriodicObserveCallbackAdd]
            by_cases scheduled : first.ref ∈ callbacks
            · rw [if_pos scheduled]
              dsimp only
              rw [ih]
              constructor
              · intro each linked member
                rcases List.mem_cons.mp member with same | later
                · cases same
                  exact fun _ => Or.inl scheduled
                · exact each linked later
              · intro each linked member
                exact each linked (List.mem_cons_of_mem _ member)
            · rw [if_neg scheduled]
              by_cases enough : memory first.ref = true
              · rw [if_pos enough]
                dsimp only
                rw [ih]
                constructor
                · intro each linked member polled
                  rcases List.mem_cons.mp member with same | later
                  · cases same
                    exact Or.inr enough
                  · rcases each linked later polled with present | room
                    · rcases List.mem_append.mp present with old | new
                      · exact Or.inl old
                      · rw [List.mem_singleton.mp new]
                        exact Or.inr enough
                    · exact Or.inr room
                · intro each linked member polled
                  rcases each linked (List.mem_cons_of_mem _ member) polled
                    with old | room
                  · exact Or.inl (List.mem_append_left _ old)
                  · exact Or.inr room
              · rw [if_neg enough]
                constructor
                · nofun
                · intro each
                  rcases each first List.mem_cons_self periodic with old | room
                  · exact absurd old scheduled
                  · exact absurd room enough
          · rw [if_neg periodic, ih]
            constructor
            · intro each linked member polled
              rcases List.mem_cons.mp member with same | later
              · cases same
                exact absurd polled periodic
              · exact each linked later polled
            · intro each linked member
              exact each linked (List.mem_cons_of_mem _ member)

theorem subset_addLinkCallbacks {resource : Nat}
    (member : resource ∈ callbacks) :
    resource ∈ (addLinkCallbacks memory links callbacks).1 := by
  induction links generalizing callbacks with
  | nil => exact member
  | cons link links ih =>
      cases link with
      | none => exact ih member
      | some first =>
          rw [addLinkCallbacks]
          by_cases periodic : first.periodic = true
          · rw [if_pos periodic, ocPeriodicObserveCallbackAdd]
            by_cases scheduled : first.ref ∈ callbacks
            · rw [if_pos scheduled]
              exact ih member
            · rw [if_neg scheduled]
              by_cases enough : memory first.ref = true
              · rw [if_pos enough]
                exact ih (List.mem_append_left _ member)
              · rw [if_neg enough]
                exact member
          · rw [if_neg periodic]
            exact ih member

theorem addLinkCallbacks_adds_nothing_iff :
    (∀ resource ∈ (addLinkCallbacks memory links callbacks).1,
        resource ∈ callbacks) ↔
      ∀ linked, links.find? (ObserveGet.linkUnscheduled callbacks) =
          some (some linked) → memory linked.ref = false := by
  induction links with
  | nil => exact ⟨fun _ => nofun, fun _ _ member => member⟩
  | cons link links ih =>
      cases link with
      | none =>
          rw [addLinkCallbacks, ih, List.find?_cons_of_neg Bool.false_ne_true]
      | some first =>
          rw [addLinkCallbacks]
          by_cases periodic : first.periodic = true
          · rw [if_pos periodic, ocPeriodicObserveCallbackAdd]
            by_cases scheduled : first.ref ∈ callbacks
            · rw [if_pos scheduled, List.find?_cons_of_neg (by
                simp [ObserveGet.linkUnscheduled, scheduled])]
              exact ih
            · rw [if_neg scheduled, List.find?_cons_of_pos (by
                simp [ObserveGet.linkUnscheduled, periodic, scheduled])]
              by_cases enough : memory first.ref = true
              · rw [if_pos enough]
                constructor
                · intro nothing
                  have added := @subset_addLinkCallbacks memory links _ _
                    (List.mem_append_right callbacks
                      (List.mem_singleton_self first.ref))
                  exact absurd (nothing _ added) scheduled
                · intro short
                  exact absurd (short first rfl) (by simp [enough])
              · rw [if_neg enough]
                constructor
                · intro _ linked same
                  cases same
                  exact Bool.not_eq_true _ ▸ enough
                · exact fun _ _ member => member
          · rw [if_neg periodic, List.find?_cons_of_neg (by
              simp [ObserveGet.linkUnscheduled, periodic])]
            exact ih

end Links

section Register

variable {get : ObserveGet} {state : Observations}

theorem riObserveHandler_register (registers : get.observe = 0)
    (registry : ObserveState) :
    riObserveHandler get registry =
      ((coapAddObserver get.request get.memory registry).1,
        if get.memory = true then 0 else -1) := by
  rw [riObserveHandler, if_pos registers, coapAddObserver]
  cases get.memory with
  | true => rfl
  | false => rfl

theorem addOwnCallback_of_new (new : get.OwnNew state) :
    addOwnCallback get (if get.memory = true then 0 else -1) state.callbacks =
      if get.callbackMemory get.target.ref = true then
        (state.callbacks ++ [get.target.ref], true)
      else (state.callbacks, false) := by
  obtain ⟨memory, periodic, unscheduled⟩ := new
  rw [addOwnCallback, if_pos memory, if_pos ⟨Int.le_refl 0, periodic⟩,
    ocPeriodicObserveCallbackAdd, if_neg unscheduled]

theorem addOwnCallback_of_not_new (old : ¬ get.OwnNew state) :
    addOwnCallback get (if get.memory = true then 0 else -1) state.callbacks =
      (state.callbacks, true) := by
  rw [addOwnCallback]
  by_cases polls : (0 : Int) ≤ (if get.memory = true then 0 else -1) ∧
      get.target.periodic = true
  · have memory : get.memory = true := by
      by_contra short
      rw [if_neg short] at polls
      exact absurd polls.1 (by decide)
    have scheduled : get.target.ref ∈ state.callbacks := by
      by_contra unscheduled
      exact old ⟨memory, polls.2, unscheduled⟩
    rw [if_pos polls, ocPeriodicObserveCallbackAdd, if_pos scheduled]
  · rw [if_neg polls]

/-- The part of `ri_add_observation` for collections. -/
def addCollectionCallbacks (get : ObserveGet) (callbacks : List Nat) :
    List Nat × Bool :=
  match get.target.links with
  | none => (callbacks, true)
  | some links =>
      riAddCollectionObservation get.callbackMemory links
        (get.ifaceQuery == OcInterface.b) callbacks

theorem addCollectionCallbacks_fails_iff (registry : ObserveState)
    (callbacks : List Nat) :
    (addCollectionCallbacks get callbacks).2 = false ↔
      get.LinksDenied ∨ get.LinkFails ⟨registry, callbacks⟩ := by
  unfold addCollectionCallbacks ObserveGet.LinksDenied ObserveGet.LinkFails
  cases get.target.links with
  | none =>
      constructor
      · nofun
      · rintro (⟨_, same, -⟩ | ⟨_, same, -⟩) <;> cases same
  | some links =>
      dsimp only
      rw [riAddCollectionObservation]
      by_cases denied : links.any linkDenied = true
      · rw [if_pos denied]
        exact ⟨fun _ => Or.inl ⟨links, rfl, denied⟩, fun _ => rfl⟩
      · rw [if_neg denied]
        by_cases batch : get.ifaceQuery = OcInterface.b
        · rw [if_pos (beq_iff_eq.mpr batch), ← Bool.not_eq_true,
            addLinkCallbacks_succeeds_iff]
          constructor
          · intro short
            simp only [not_forall, not_or, Bool.not_eq_true] at short
            obtain ⟨linked, member, periodic, unscheduled, room⟩ := short
            exact Or.inr ⟨links, rfl, batch, linked, member, periodic,
              unscheduled, room⟩
          · rintro (⟨_, same, link⟩ | ⟨_, same, -, linked, member, periodic,
              unscheduled, room⟩) each
            · cases same
              exact denied link
            · cases same
              rcases each linked member periodic with old | enough
              · exact unscheduled old
              · rw [room] at enough
                cases enough
        · rw [if_neg (fun same => batch (beq_iff_eq.mp same))]
          constructor
          · nofun
          · rintro (⟨_, same, link⟩ | ⟨_, -, same, -⟩)
            · cases same
              exact absurd link denied
            · exact absurd same batch

theorem addCollectionCallbacks_adds_nothing_iff
    (fails : (addCollectionCallbacks get state.callbacks).2 = false) :
    (∀ resource ∈ (addCollectionCallbacks get state.callbacks).1,
        resource ∈ state.callbacks) ↔
      get.LinksDenied ∨ get.FirstLinkFails state := by
  unfold addCollectionCallbacks at fails ⊢
  unfold ObserveGet.LinksDenied ObserveGet.FirstLinkFails
  cases collection : get.target.links with
  | none =>
      rw [collection] at fails
      cases fails
  | some links =>
      rw [collection] at fails
      dsimp only at fails ⊢
      rw [riAddCollectionObservation] at fails ⊢
      by_cases denied : links.any linkDenied = true
      · rw [if_pos denied]
        exact ⟨fun _ => Or.inl ⟨links, rfl, denied⟩,
          fun _ _ member => member⟩
      · rw [if_neg denied] at fails ⊢
        have allowed : ¬ ∃ others, some links = some others ∧
            others.any linkDenied = true := by
          rintro ⟨_, same, link⟩
          cases same
          exact denied link
        rw [or_iff_right allowed]
        by_cases batch : (get.ifaceQuery == OcInterface.b) = true
        · rw [if_pos batch, addLinkCallbacks_adds_nothing_iff]
          constructor
          · intro each others linked same found
            cases same
            exact each linked found
          · intro each linked found
            exact each links linked rfl found
        · rw [if_neg batch] at fails
          cases fails

theorem linkFails_append (enough : get.callbackMemory get.target.ref = true) :
    get.LinkFails ⟨state.registry, state.callbacks ++ [get.target.ref]⟩ ↔
      get.LinkFails state := by
  constructor
  · rintro ⟨links, collection, batch, linked, member, periodic, unscheduled,
      short⟩
    exact ⟨links, collection, batch, linked, member, periodic,
      fun old => unscheduled (List.mem_append_left _ old), short⟩
  · rintro ⟨links, collection, batch, linked, member, periodic, unscheduled,
      short⟩
    refine ⟨links, collection, batch, linked, member, periodic, ?_, short⟩
    intro present
    rcases List.mem_append.mp present with old | new
    · exact unscheduled old
    · rw [List.mem_singleton.mp new, enough] at short
      cases short

section

variable (registers : get.observe = 0)

include registers

theorem riAddObservation_eq :
    riAddObservation get state =
      match addOwnCallback get (if get.memory = true then 0 else -1)
          state.callbacks with
      | (callbacks, false) =>
          (⟨(coapAddObserver get.request get.memory state.registry).1,
            callbacks⟩, false)
      | (callbacks, true) =>
          (⟨(coapAddObserver get.request get.memory state.registry).1,
            (addCollectionCallbacks get callbacks).1⟩,
            (addCollectionCallbacks get callbacks).2) := by
  rw [riAddObservation, riObserveHandler_register registers]
  dsimp only
  generalize addOwnCallback get (if get.memory = true then 0 else -1)
    state.callbacks = result
  obtain ⟨callbacks, added⟩ := result
  cases added with
  | false => rfl
  | true =>
      unfold addCollectionCallbacks
      cases get.target.links <;> rfl

theorem registry_riAddObservation :
    (riAddObservation get state).1.registry =
      (coapAddObserver get.request get.memory state.registry).1 := by
  rw [riAddObservation_eq registers]
  split <;> rfl

theorem riAddObservation_fails_iff :
    (riAddObservation get state).2 = false ↔ get.Refused state := by
  rw [riAddObservation_eq registers]
  by_cases new : get.OwnNew state
  · rw [addOwnCallback_of_new new]
    by_cases enough : get.callbackMemory get.target.ref = true
    · rw [if_pos enough]
      dsimp only
      rw [addCollectionCallbacks_fails_iff state.registry,
        linkFails_append enough]
      constructor
      · exact Or.inr
      · rintro (⟨-, short⟩ | links)
        · rw [enough] at short
          cases short
        · exact links
    · rw [if_neg enough]
      exact ⟨fun _ => Or.inl ⟨new, Bool.not_eq_true _ ▸ enough⟩,
        fun _ => rfl⟩
  · rw [addOwnCallback_of_not_new new]
    dsimp only
    rw [addCollectionCallbacks_fails_iff state.registry]
    exact ⟨Or.inr, fun refused => refused.resolve_left fun own => new own.1⟩

theorem riAddObservation_adds_nothing_iff (refused : get.Refused state) :
    (∀ resource ∈ (riAddObservation get state).1.callbacks,
        resource ∈ state.callbacks) ↔ get.PollsNothing state := by
  have fails := (riAddObservation_fails_iff registers).mpr refused
  rw [riAddObservation_eq registers] at fails ⊢
  by_cases new : get.OwnNew state
  · rw [addOwnCallback_of_new new] at fails ⊢
    by_cases enough : get.callbackMemory get.target.ref = true
    · rw [if_pos enough]
      -- the resource itself is polled, although the links fail
      have polled : get.target.ref ∈ (addCollectionCallbacks get
          (state.callbacks ++ [get.target.ref])).1 := by
        have member : get.target.ref ∈
            state.callbacks ++ [get.target.ref] :=
          List.mem_append_right _ (List.mem_singleton_self _)
        unfold addCollectionCallbacks
        cases get.target.links with
        | none => exact member
        | some links =>
            dsimp only
            rw [riAddCollectionObservation]
            split
            · exact member
            · split
              · exact subset_addLinkCallbacks member
              · exact member
      constructor
      · intro nothing
        exact absurd (nothing _ polled) new.2.2
      · intro nothing
        have short := nothing.1 new
        rw [enough] at short
        cases short
    · rw [if_neg enough]
      exact ⟨fun _ => ⟨fun _ => Bool.not_eq_true _ ▸ enough, Or.inl new⟩,
        fun _ _ member => member⟩
  · rw [addOwnCallback_of_not_new new] at fails ⊢
    dsimp only at fails ⊢
    rw [addCollectionCallbacks_adds_nothing_iff fails]
    constructor
    · exact fun links => ⟨fun own => absurd own new, Or.inr links⟩
    · exact fun nothing => nothing.2.resolve_left new

end

theorem observeGet_of_refused (registers : get.Registers)
    (refused : get.Refused state) :
    observeGet get state =
      ⟨⟨get.removal.apply
          (coapAddObserver get.request get.memory state.registry).1,
        (riAddObservation get state).1.callbacks⟩, observeNotSet, none⟩ := by
  obtain ⟨handled, observable, zero⟩ := registers
  have fails := (riAddObservation_fails_iff zero).mpr refused
  rw [observeGet, if_pos handled, riHandleObservation,
    if_neg (by simp [observable]), if_pos zero,
    ← registry_riAddObservation zero]
  revert fails
  generalize riAddObservation get state = added
  obtain ⟨after, granted⟩ := added
  rintro rfl
  rfl

theorem observeGet_of_granted (registers : get.Registers)
    (granted : ¬ get.Refused state) :
    observeGet get state =
      ⟨⟨(coapAddObserver get.request get.memory state.registry).1,
        (riAddObservation get state).1.callbacks⟩, observeRegister,
        some observeRegister⟩ := by
  obtain ⟨handled, observable, zero⟩ := registers
  have succeeds : (riAddObservation get state).2 = true := by
    rw [← Bool.not_eq_false, riAddObservation_fails_iff zero]
    exact granted
  rw [observeGet, if_pos handled, riHandleObservation,
    if_neg (by simp [observable]), if_pos zero,
    ← registry_riAddObservation zero]
  revert succeeds
  generalize riAddObservation get state = added
  obtain ⟨after, granted⟩ := added
  rintro rfl
  rfl

end Register

section Observers

variable {get : ObserveGet} {state : SoundObservations}

theorem own_observer (ref : Nat) (counter : ObserveCounter) :
    get.own (get.request.observer ref counter) = true := by
  simp [ObserveGet.own, ObserveGet.matching, ObserveGet.removal,
    Removal.filter, ObserveRequest.observer, ObserveGet.request,
    ocEndpointCompare]

theorem matching_of_own {obs : ObserverRecord} (own : get.own obs = true) :
    get.matching obs = true :=
  (Bool.and_eq_true_iff.mp own).1

theorem observers_coapAddObserver :
    (coapAddObserver get.request get.memory state.registry).1.observers =
      get.kept state.toObservations ++
        if get.memory = true then
          [get.request.observer state.registry.next
            state.registry.observeCounter]
        else [] := by
  have removes := coapRemoveObserversByFilter_removes state.distinct
    get.request.duplicates true
  have left := observers_removeAll state.distinct get.request.duplicates
  rw [coapAddObserver]
  cases get.memory with
  | true =>
      rw [if_pos rfl]
      dsimp only
      rw [left, removes.next, removes.observeCounter]
      rfl
  | false =>
      rw [if_neg (by decide)]
      dsimp only
      rw [left]
      exact (List.append_nil _).symm

theorem observers_takenBack :
    (get.removal.apply
        (coapAddObserver get.request get.memory state.registry).1).observers =
      (get.kept state.toObservations ++
        if get.memory = true then
          [get.request.observer state.registry.next
            state.registry.observeCounter]
        else []).eraseP get.matching := by
  rw [← observers_coapAddObserver]
  exact observers_removeFirst (coapAddObserver_distinct get.request get.memory
    state.distinct state.fresh).1 get.removal.filter

theorem not_observed_takenBack_iff :
    ¬ get.Observed (get.removal.apply
        (coapAddObserver get.request get.memory state.registry).1) ↔
      get.TakesBack state.toObservations := by
  unfold ObserveGet.Observed
  rw [observers_takenBack, ObserveGet.TakesBack]
  by_cases enough : get.memory = true
  · rw [if_pos enough, if_pos enough]
    constructor
    · intro unobserved obs member
      by_contra found
      rw [Bool.not_eq_false] at found
      -- the new observer stays behind the one that is removed
      rw [List.eraseP_append_left found _ member] at unobserved
      exact unobserved ⟨_, List.mem_append_right _
        (List.mem_singleton_self _), own_observer _ _⟩
    · rintro none ⟨obs, member, own⟩
      have unmatched : ∀ other ∈ get.kept state.toObservations,
          ¬ get.matching other = true := by
        intro other present
        exact Bool.not_eq_true _ ▸ none other present
      rw [List.eraseP_append_right _ unmatched, List.eraseP_cons_of_pos
        (matching_of_own (own_observer _ _)), List.append_nil] at member
      exact unmatched obs member (matching_of_own own)
  · rw [if_neg enough, if_neg enough, List.append_nil]
    simp only [not_exists, not_and, Bool.not_eq_true]

end Observers

section Agree

variable {get : ObserveGet} {state : SoundObservations}

theorem optionAgrees_unchanged_iff
    (idle : ¬ (get.handled = true ∧ get.target.observable = true ∧
      get.observe ≤ 1)) :
    get.OptionAgrees state.toObservations ↔
      ∀ obs ∈ state.registry.observers, get.own obs = false := by
  have result : (observeGet get state.toObservations).option = none ∧
      (observeGet get state.toObservations).state = state.toObservations := by
    rw [observeGet]
    split
    · rename_i handled
      rw [riHandleObservation]
      split
      · exact ⟨rfl, rfl⟩
      · rename_i observable
        rw [Bool.not_eq_false] at observable
        have later : ¬ get.observe ≤ 1 := fun small =>
          idle ⟨handled, observable, small⟩
        rw [if_neg (by omega), if_neg (by omega)]
        exact ⟨rfl, rfl⟩
    · exact ⟨rfl, rfl⟩
  have registers : ¬ get.Registers := by
    rintro ⟨handled, observable, zero⟩
    exact idle ⟨handled, observable, by omega⟩
  rw [ObserveGet.OptionAgrees, result.1, result.2]
  unfold ObserveGet.Observed
  simp [registers]

theorem optionAgrees_cancel_iff (handled : get.handled = true)
    (observable : get.target.observable = true) (cancels : get.observe = 1) :
    get.OptionAgrees state.toObservations ↔
      ∀ obs ∈ state.registry.observers.eraseP get.matching,
        get.own obs = false := by
  have result : (observeGet get state.toObservations).option = none := by
    rw [observeGet, if_pos handled, riHandleObservation,
      if_neg (by simp [observable]), if_neg (by omega), if_pos cancels]
  have left : (observeGet get state.toObservations).state.registry.observers =
      state.registry.observers.eraseP get.matching := by
    rw [observeGet, if_pos handled, riHandleObservation,
      if_neg (by simp [observable]), if_neg (by omega), if_pos cancels,
      riRemoveObservation, riObserveHandler, if_neg (by omega),
      if_pos cancels]
    by_cases found :
        state.registry.observers.any get.removal.filter = true
    · rw [if_pos found]
      exact observers_removeFirst state.distinct get.removal.filter
    · rw [if_neg found]
      rw [List.any_eq_true] at found
      exact (List.eraseP_of_forall_not fun obs member own =>
        found ⟨obs, member, own⟩).symm
  have registers : ¬ get.Registers := by
    rintro ⟨-, -, zero⟩
    omega
  rw [ObserveGet.OptionAgrees, result]
  unfold ObserveGet.Observed
  rw [left]
  simp [registers]

theorem fails_iff (registers : get.Registers) :
    get.Fails state.toObservations ↔
      ¬ get.memory = true ∨ get.Refused state.toObservations := by
  have zero := registers.2.2
  rw [ObserveGet.Fails, riAddObservation_fails_iff zero,
    riObserveHandler_register zero]
  dsimp only
  cases get.memory with
  | true => simp
  | false => simp

theorem optionAgrees_refused_iff (registers : get.Registers)
    (refused : get.Refused state.toObservations) :
    get.OptionAgrees state.toObservations ↔
      get.TakesBack state.toObservations ∧
        get.PollsNothing state.toObservations := by
  rw [ObserveGet.OptionAgrees, observeGet_of_refused registers refused,
    ← riAddObservation_adds_nothing_iff registers.2.2 refused,
    ← not_observed_takenBack_iff]
  have absent : none ≠ some observeRegister := (Option.some_ne_none _).symm
  constructor
  · rintro ⟨agree, silent⟩
    refine ⟨fun observed => absent (agree.mpr observed), ?_⟩
    exact (silent registers ((fails_iff registers).mpr (.inr refused))).2
  · rintro ⟨unobserved, polls⟩
    refine ⟨⟨fun option => absurd option absent, ?_⟩, fun _ _ => ⟨rfl, polls⟩⟩
    exact fun observed => absurd observed unobserved

theorem optionAgrees_granted_iff (registers : get.Registers)
    (granted : ¬ get.Refused state.toObservations) :
    get.OptionAgrees state.toObservations ↔ get.memory = true := by
  rw [ObserveGet.OptionAgrees, observeGet_of_granted registers granted,
    fails_iff registers]
  constructor
  · rintro ⟨-, silent⟩
    by_contra short
    exact Option.some_ne_none _ (silent registers (.inl short)).1
  · intro enough
    refine ⟨⟨fun _ => ?_, fun _ => rfl⟩, ?_⟩
    · unfold ObserveGet.Observed
      rw [observers_coapAddObserver, if_pos enough]
      exact ⟨_, List.mem_append_right _ (List.mem_singleton_self _),
        own_observer _ _⟩
    · rintro - (short | refused)
      · exact absurd enough short
      · exact absurd refused granted

theorem optionAgrees_register_iff (registers : get.Registers) :
    get.OptionAgrees state.toObservations ↔
      (¬ get.Refused state.toObservations → get.memory = true) ∧
        (get.Refused state.toObservations →
          get.TakesBack state.toObservations ∧
            get.PollsNothing state.toObservations) := by
  by_cases refused : get.Refused state.toObservations
  · rw [optionAgrees_refused_iff registers refused]
    exact ⟨fun agrees => ⟨fun granted => absurd refused granted,
      fun _ => agrees⟩, fun conditions => conditions.2 refused⟩
  · rw [optionAgrees_granted_iff registers refused]
    exact ⟨fun enough => ⟨fun _ => enough, fun denied =>
      absurd denied refused⟩, fun conditions => conditions.1 refused⟩

end Agree

/-- The Observe option of the response agrees with the list of observers, and
a failed registration leaves nothing behind, exactly for these requests. -/
theorem optionAgrees_iff (get : ObserveGet) (state : SoundObservations) :
    get.OptionAgrees state.toObservations ↔
      get.LeavesNothing state.toObservations := by
  rw [ObserveGet.LeavesNothing]
  by_cases busy : get.handled = true ∧ get.target.observable = true ∧
      get.observe ≤ 1
  · rw [if_pos busy]
    obtain ⟨handled, observable, small⟩ := busy
    by_cases cancels : get.observe = 1
    · rw [if_pos cancels]
      exact optionAgrees_cancel_iff handled observable cancels
    · rw [if_neg cancels]
      exact optionAgrees_register_iff ⟨handled, observable, by omega⟩
  · rw [if_neg busy]
    exact optionAgrees_unchanged_iff busy

namespace ShortOfMemory

def get : ObserveGet where
  target := ⟨0, true, false, none⟩
  handled := true
  observe := 0
  endpoint := ⟨0, true, 1, 0, Uuid.nil⟩
  token := .ofByte 1
  uriPath := [114]
  ifaceQuery := 0
  block2Size := 0
  memory := false
  callbackMemory := fun _ => false

def state : Observations := ⟨.initial, []⟩

end ShortOfMemory

open ShortOfMemory in
/-- Without memory for the observer the response says that it is
registered. -/
theorem not_optionAgrees : ¬ get.OptionAgrees state := by
  rintro ⟨agree, -⟩
  obtain ⟨obs, member, -⟩ := agree.mp rfl
  cases member

end IotivityLite
