import IotivityLite.Observe.Sequence

/-!
# One observer for a client, a resource and an interface

Before it adds an observer, `coap_add_observer` removes those with the same
endpoint, path and interface, so that the new one replaces the one before it.
A resource is found by its path with or without the leading slash, and the
observers of the two spellings are not found for each other.
-/

namespace IotivityLite

/-- A request with the endpoint it was received from.  The messages of a
connection have the number of its session, others have 0; `connected` tells
which endpoints belong to connections. -/
structure ReceivedRequest (connected : Nat → Bool) extends ObserveRequest where
  session_iff : endpoint.session = 0 ↔ connected endpoint.route = false

/-- `memory` says that there is memory for the observer; for its path there
is, or the device stops. -/
inductive RegistrationEvent (connected : Nat → Bool) where
  | add (request : ReceivedRequest connected) (memory : Bool)
  | remove (removal : Removal)

def registrationStep {connected : Nat → Bool} (state : ObserveState) :
    RegistrationEvent connected → ObserveState
  | .add request memory =>
      (coapAddObserver request.toObserveRequest memory state).1
  | .remove removal => removal.apply state

/-- The observers have the same endpoint, resource and interface. -/
def ObserverRecord.sameKey (first second : ObserverRecord) : Bool :=
  ocEndpointCompare first.endpoint second.endpoint &&
    first.resource == second.resource && first.ifaceMask == second.ifaceMask

/-- The observer has the endpoint, the resource and the interface of the
request. -/
def ObserveRequest.registered (request : ObserveRequest)
    (obs : ObserverRecord) : Bool :=
  ocEndpointCompare obs.endpoint request.endpoint &&
    obs.resource == request.resource && obs.ifaceMask == request.ifaceMask

/-- There are no two observers with the same endpoint, resource and
interface. -/
def ObserveState.Unique (state : ObserveState) : Prop :=
  state.observers.Pairwise fun first second => first.sameKey second = false

/-- The new observer takes the place of at most one, the others stay as they
are. -/
structure ReplacesPrevious (before : ObserveState) (request : ObserveRequest)
    (memory : Bool) (after : ObserveState) : Prop where
  previous : (before.observers.filter request.registered).length ≤ 1
  observers : after.observers =
    (before.observers.filter fun obs => !request.registered obs) ++
      if memory then [request.observer before.next before.observeCounter]
      else []

/-- After the event no two observers have the same key, and one that is added
takes the place of the one before it. -/
def KeepsUnique {connected : Nat → Bool} (state : ObserveState)
    (event : RegistrationEvent connected) : Prop :=
  (registrationStep state event).Unique ∧
    match event with
    | .add request memory =>
        ReplacesPrevious state request.toObserveRequest memory
          (registrationStep state event)
    | .remove _ => True

/-- Among the observers that the client has for the interface, those of the
resource are those with the path as it is spelled in the request. -/
def SpellsAlike {connected : Nat → Bool} (state : ObserveState) :
    RegistrationEvent connected → Prop
  | .add request _ =>
      ∀ obs ∈ state.observers,
        ocEndpointCompare obs.endpoint request.endpoint = true →
          obs.ifaceMask = request.ifaceMask →
            (obs.url = request.uri ↔ obs.resource = request.resource)
  | .remove _ => True

/-- Moreover records have numbers of their own, and endpoints sessions as they
are received with. -/
structure ObserveState.Registered (state : ObserveState)
    (connected : Nat → Bool) : Prop where
  refs : (state.observers.map (·.ref)).Nodup
  fresh : ∀ obs ∈ state.observers, obs.ref < state.next
  sessions : ∀ obs ∈ state.observers,
    obs.endpoint.session = 0 ↔ connected obs.endpoint.route = false
  unique : state.Unique

section Keys

variable {connected : Nat → Bool} {first second : ObserverRecord}
  {request : ReceivedRequest connected}

theorem ocEndpointCompare_iff {one other : OcEndpoint} :
    ocEndpointCompare one other = true ↔ one.secured = other.secured ∧
      one.device = other.device ∧ one.route = other.route ∧
        (one.session = 0 ∨ other.session = 0 ∨
          one.session = other.session) := by
  simp only [ocEndpointCompare, Bool.and_eq_true, Bool.or_eq_true, beq_iff_eq,
    and_assoc, or_assoc]

theorem ocEndpointCompare_trans {one middle other : OcEndpoint}
    (left : one.session = 0 ↔ connected one.route = false)
    (mid : middle.session = 0 ↔ connected middle.route = false)
    (right : other.session = 0 ↔ connected other.route = false)
    (before : ocEndpointCompare one middle = true)
    (after : ocEndpointCompare other middle = true) :
    ocEndpointCompare one other = true := by
  rw [ocEndpointCompare_iff] at before after ⊢
  obtain ⟨secured, device, route, sessions⟩ := before
  obtain ⟨secured', device', route', sessions'⟩ := after
  refine ⟨secured.trans secured'.symm, device.trans device'.symm,
    route.trans route'.symm, ?_⟩
  rw [route] at left
  rw [route'] at right
  cases connection : connected middle.route with
  | false => exact Or.inl (left.mpr connection)
  | true =>
      rw [connection] at left mid right
      have one := mt left.mp (by simp)
      have common := mt mid.mp (by simp)
      have two := mt right.mp (by simp)
      have same := (sessions.resolve_left one).resolve_left common
      have same' := (sessions'.resolve_left two).resolve_left common
      exact Or.inr (Or.inr (same.trans same'.symm))

variable {wanted : ObserveRequest}

theorem registered_iff :
    wanted.registered first = true ↔
      ocEndpointCompare first.endpoint wanted.endpoint = true ∧
        first.resource = wanted.resource ∧
          first.ifaceMask = wanted.ifaceMask := by
  simp only [ObserveRequest.registered, Bool.and_eq_true, beq_iff_eq,
    and_assoc]

theorem duplicates_eq_registered_iff :
    wanted.duplicates first = wanted.registered first ↔
      (ocEndpointCompare first.endpoint wanted.endpoint = true →
        first.ifaceMask = wanted.ifaceMask →
          (first.url = wanted.uri ↔ first.resource = wanted.resource)) := by
  rw [Bool.eq_iff_iff, registered_iff]
  simp only [ObserveRequest.duplicates, Bool.and_eq_true, beq_iff_eq]
  tauto

theorem sameKey_observer_iff (ref : Nat) (counter : ObserveCounter) :
    first.sameKey (wanted.observer ref counter) = wanted.registered first :=
  rfl

theorem sameKey_of_registered
    (left : first.endpoint.session = 0 ↔ connected first.endpoint.route = false)
    (right : second.endpoint.session = 0 ↔
      connected second.endpoint.route = false)
    (one : request.registered first = true)
    (two : request.registered second = true) : first.sameKey second = true := by
  rw [registered_iff] at one two
  simp only [ObserverRecord.sameKey, Bool.and_eq_true, beq_iff_eq]
  exact ⟨⟨ocEndpointCompare_trans left request.session_iff right one.1 two.1,
    one.2.1.trans two.2.1.symm⟩, one.2.2.trans two.2.2.symm⟩

end Keys

section Steps

variable {connected : Nat → Bool} {state : ObserveState}

theorem removes_registered {after : ObserveState}
    (registered : state.Registered connected) (removes : Removes state after) :
    after.Registered connected where
  refs := registered.refs.sublist (removes.sublist.map _)
  fresh := by
    intro obs member
    rw [removes.next]
    exact registered.fresh obs (removes.sublist.subset member)
  sessions := fun obs member =>
    registered.sessions obs (removes.sublist.subset member)
  unique := registered.unique.sublist removes.sublist

theorem registered_length_le_one (registered : state.Registered connected)
    (request : ReceivedRequest connected) :
    (state.observers.filter request.registered).length ≤ 1 := by
  have apart : (state.observers.filter request.registered).Pairwise
      fun first second => first.sameKey second = false :=
    registered.unique.sublist List.filter_sublist
  have found : ∀ obs ∈ state.observers.filter request.registered,
      obs ∈ state.observers ∧ request.registered obs = true :=
    fun obs member => List.mem_filter.mp member
  revert apart found
  generalize state.observers.filter request.registered = previous
  intro apart found
  rcases previous with - | ⟨first, - | ⟨second, rest⟩⟩
  · exact Nat.zero_le 1
  · exact Nat.le_refl 1
  · rw [List.forall_mem_cons, List.forall_mem_cons] at found
    obtain ⟨one, two, -⟩ := found
    have same := sameKey_of_registered
      (registered.sessions first one.1) (registered.sessions second two.1)
      one.2 two.2
    have different := (List.pairwise_cons.mp apart).1 second
      List.mem_cons_self
    rw [different] at same
    cases same

theorem observers_registrationStep_add
    (registered : state.Registered connected)
    (request : ReceivedRequest connected) (memory : Bool) :
    (registrationStep state (.add request memory)).observers =
      (state.observers.filter fun obs => !request.duplicates obs) ++
        if memory then [request.observer state.next state.observeCounter]
        else [] := by
  have left := observers_removeAll registered.refs request.duplicates
  have removes := coapRemoveObserversByFilter_removes registered.refs
    request.duplicates true
  rw [registrationStep, coapAddObserver]
  cases memory with
  | false =>
      rw [if_neg Bool.false_ne_true, if_neg Bool.false_ne_true,
        List.append_nil]
      exact left
  | true =>
      rw [if_pos rfl, if_pos rfl]
      dsimp only
      rw [left, removes.next, removes.observeCounter]

/-- The code removes the previous observers of the key exactly if the path is
spelled alike. -/
theorem filter_duplicates_iff (request : ReceivedRequest connected)
    (memory : Bool) :
    (state.observers.filter fun obs => !request.duplicates obs) =
        (state.observers.filter fun obs => !request.registered obs) ↔
      SpellsAlike state (.add request memory) := by
  have alike : SpellsAlike state (.add request memory) ↔
      ∀ obs ∈ state.observers,
        request.duplicates obs = request.registered obs :=
    forall₂_congr fun _ _ => duplicates_eq_registered_iff.symm
  rw [alike]
  constructor
  · intro same obs member
    rw [Bool.eq_iff_iff, ← not_iff_not, Bool.not_eq_true, Bool.not_eq_true]
    have kept := congrArg (fun left => obs ∈ left) same
    simpa [member] using kept
  · intro same
    apply List.filter_congr
    intro obs member
    rw [same obs member]

theorem add_registered (registered : state.Registered connected)
    {request : ReceivedRequest connected} {memory : Bool}
    (alike : SpellsAlike state (.add request memory)) :
    (registrationStep state (.add request memory)).Registered connected := by
  have observers := observers_registrationStep_add registered request memory
  have distinct := coapAddObserver_distinct request.toObserveRequest memory
    registered.refs registered.fresh
  rw [(filter_duplicates_iff request memory).mpr alike] at observers
  have added : ∀ obs, (obs ∈ if memory then
      [request.observer state.next state.observeCounter] else []) →
        obs = request.observer state.next state.observeCounter := by
    intro obs member
    cases memory with
    | false => cases member
    | true => exact List.mem_singleton.mp member
  refine ⟨distinct.1, distinct.2, ?_, ?_⟩
  · rw [observers]
    intro obs member
    rcases List.mem_append.mp member with old | new
    · exact registered.sessions obs (List.mem_of_mem_filter old)
    · rw [added obs new]
      exact request.session_iff
  · unfold ObserveState.Unique
    rw [observers, List.pairwise_append]
    refine ⟨registered.unique.sublist List.filter_sublist, ?_, ?_⟩
    · cases memory with
      | false => exact List.Pairwise.nil
      | true => exact List.pairwise_singleton _ _
    · intro obs old other new
      have kept := (List.mem_filter.mp old).2
      rw [added other new, sameKey_observer_iff]
      simpa using kept

/-- One event keeps observers unique exactly under the condition. -/
theorem registrationStep_keeps_iff (registered : state.Registered connected)
    (event : RegistrationEvent connected) :
    (KeepsUnique state event ↔ SpellsAlike state event) ∧
      (SpellsAlike state event →
        (registrationStep state event).Registered connected) := by
  cases event with
  | remove removal =>
      have after := removes_registered registered
        (coapRemoveObserversByFilter_removes registered.refs removal.filter
          removal.matchAll)
      exact ⟨⟨fun _ => trivial, fun _ => ⟨after.unique, trivial⟩⟩,
        fun _ => after⟩
  | add request memory =>
      have observers := observers_registrationStep_add registered request
        memory
      refine ⟨⟨?_, ?_⟩, add_registered registered⟩
      · rintro ⟨-, replaces⟩
        apply (filter_duplicates_iff request memory).mp
        exact List.append_cancel_right
          (observers.symm.trans replaces.observers)
      · intro alike
        refine ⟨(add_registered registered alike).unique,
          registered_length_le_one registered request, ?_⟩
        rw [observers, (filter_duplicates_iff request memory).mpr alike]

end Steps

/-- In the states of a run there is one observer for an endpoint, a resource
and an interface, and a registration replaces the one before it and no other,
if and only if no client registers for a resource under two spellings of its
path. -/
theorem uniqueObservers_run_iff {connected : Nat → Bool}
    (events : List (RegistrationEvent connected)) :
    Along registrationStep KeepsUnique .initial events ↔
      Along registrationStep SpellsAlike .initial events := by
  have start : ObserveState.initial.Registered connected :=
    ⟨List.nodup_nil, nofun, nofun, List.Pairwise.nil⟩
  apply @Along.congr_iff_of_invariant _ _ _ _ _ _
    (fun state => state.Registered connected) _ start
  · exact fun before event registered =>
      (registrationStep_keeps_iff registered event).1
  · exact fun before event registered =>
      (registrationStep_keeps_iff registered event).2

namespace TwoSpellings

def request (uri : Bytes) : ReceivedRequest fun _ => false where
  resource := 0
  block2Size := 1024
  endpoint := ⟨0, false, 1, 0, Uuid.nil⟩
  token := .ofByte 1
  uri := uri
  ifaceMask := 2
  session_iff := ⟨fun _ => rfl, fun _ => rfl⟩

def events : List (RegistrationEvent fun _ => false) :=
  [.add (request (ascii "r")) true, .add (request (ascii "/r")) true]

end TwoSpellings

open TwoSpellings in
/-- A client that registers for `r` and for `/r` is in the list twice. -/
theorem not_uniqueObservers_run :
    ¬ Along registrationStep KeepsUnique .initial events ∧
      ¬ (runFrom registrationStep .initial events).Unique := by
  have twice : ¬ (runFrom registrationStep .initial events).Unique := by
    intro unique
    have apart := (List.pairwise_cons.mp unique).1 _ List.mem_cons_self
    exact absurd apart (by decide)
  exact ⟨fun keeps => twice keeps.2.1.1, twice⟩

end IotivityLite
