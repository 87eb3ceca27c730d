import IotivityLite.Observe.CollectionNotify
import IotivityLite.Observe.ObserverCount

/-!
# Registering and cancelling observations

`ri_handle_observation` of `oc_ri.c`, which a GET request with an Observe
option goes through after its handler, with the callbacks by which resources
are polled that change on their own.  A collection also has the resources
behind its links polled.  The response still has its first code, 2.05, here.
-/

namespace IotivityLite

/-- The resource behind a link.  `permitted` tells if `oc_sec_check_acl` lets
the client read it. -/
structure LinkedResource where
  ref : Nat
  observable : Bool
  periodic : Bool
  permitted : Bool

/-- The requested resource; only collections have `links`, and a link may have
no resource. -/
structure ObservationTarget where
  ref : Nat
  observable : Bool
  periodic : Bool
  links : Option (List (Option LinkedResource))

/-- A GET request with an Observe option.  `handled` says that its handler was
successful with a code below 4.00.  There is memory for the observer, and for
the callback of a resource, as `memory` and `callbackMemory` tell. -/
structure ObserveGet where
  target : ObservationTarget
  handled : Bool
  observe : Nat
  endpoint : OcEndpoint
  token : CoapToken
  uriPath : Bytes
  ifaceQuery : Nat
  block2Size : UInt16
  memory : Bool
  callbackMemory : Nat → Bool

def ObserveGet.request (get : ObserveGet) : ObserveRequest where
  resource := get.target.ref
  block2Size := get.block2Size
  endpoint := get.endpoint
  token := get.token
  uri := get.uriPath
  ifaceMask := get.ifaceQuery

def ObserveGet.removal (get : ObserveGet) : Removal :=
  .token get.endpoint get.token

/-- `callbacks` has the resources that are polled, in `g_observe_callbacks`. -/
structure Observations where
  registry : ObserveState
  callbacks : List Nat

def ocPeriodicObserveCallbackAdd (memory : Nat → Bool) (resource : Nat)
    (callbacks : List Nat) : List Nat × Bool :=
  if resource ∈ callbacks then (callbacks, true)
  else if memory resource then (callbacks ++ [resource], true)
  else (callbacks, false)

def ocPeriodicObserveCallbackRemove (resource : Nat) (callbacks : List Nat) :
    List Nat :=
  callbacks.erase resource

/-- If the resource behind the link must not be read although it could be
observed. -/
def linkDenied : Option LinkedResource → Bool
  | none => false
  | some linked => linked.observable && !linked.permitted

/-- The second loop of `ri_add_collection_observation`. -/
def addLinkCallbacks (memory : Nat → Bool) :
    List (Option LinkedResource) → List Nat → List Nat × Bool
  | [], callbacks => (callbacks, true)
  | none :: links, callbacks => addLinkCallbacks memory links callbacks
  | some linked :: links, callbacks =>
      if linked.periodic then
        match ocPeriodicObserveCallbackAdd memory linked.ref callbacks with
        | (callbacks, true) => addLinkCallbacks memory links callbacks
        | (callbacks, false) => (callbacks, false)
      else addLinkCallbacks memory links callbacks

def riAddCollectionObservation (memory : Nat → Bool)
    (links : List (Option LinkedResource)) (isBatch : Bool)
    (callbacks : List Nat) : List Nat × Bool :=
  if links.any linkDenied then (callbacks, false)
  else if isBatch then addLinkCallbacks memory links callbacks
  else (callbacks, true)

def removeLinkCallbacks (links : List (Option LinkedResource))
    (callbacks : List Nat) : List Nat :=
  links.foldl (fun callbacks link =>
    match link with
    | none => callbacks
    | some linked =>
        if linked.periodic then
          ocPeriodicObserveCallbackRemove linked.ref callbacks
        else callbacks) callbacks

section Requests

variable (get : ObserveGet)

def riObserveHandler (registry : ObserveState) : ObserveState × Int :=
  if get.observe = 0 then
    match coapAddObserver get.request get.memory registry with
    | (registry, true) => (registry, 0)
    | (registry, false) => (registry, -1)
  else if get.observe = 1 then
    if registry.observers.any get.removal.filter then
      (get.removal.apply registry, 1)
    else (registry, 0)
  else (registry, -1)

/-- The callback of the resource itself. -/
def addOwnCallback (code : Int) (callbacks : List Nat) : List Nat × Bool :=
  if 0 ≤ code ∧ get.target.periodic = true then
    ocPeriodicObserveCallbackAdd get.callbackMemory get.target.ref callbacks
  else (callbacks, true)

/-- A request that could not add an observer goes on. -/
def riAddObservation (state : Observations) : Observations × Bool :=
  let (registry, code) := riObserveHandler get state.registry
  match addOwnCallback get code state.callbacks with
  | (callbacks, false) => (⟨registry, callbacks⟩, false)
  | (callbacks, true) =>
      match get.target.links with
      | none => (⟨registry, callbacks⟩, true)
      | some links =>
          let (callbacks, added) := riAddCollectionObservation
            get.callbackMemory links (get.ifaceQuery == OcInterface.b)
            callbacks
          (⟨registry, callbacks⟩, added)

def riRemoveObservation (state : Observations) : Observations :=
  let (registry, code) := riObserveHandler get state.registry
  if code ≤ 0 then { state with registry := registry }
  else
    let callbacks :=
      if get.target.periodic then
        ocPeriodicObserveCallbackRemove get.target.ref state.callbacks
      else state.callbacks
    ⟨registry,
      match get.target.links with
      | none => callbacks
      | some links => removeLinkCallbacks links callbacks⟩

/-- The value that is returned, and the Observe option of the response. -/
structure ObservationResult where
  state : Observations
  observe : Int
  option : Option Int

def riHandleObservation (state : Observations) : ObservationResult :=
  if get.target.observable = false then
    ⟨state, observeNotSet, none⟩
  else if get.observe = 0 then
    match riAddObservation get state with
    | (state, false) =>
        ⟨{ state with registry := get.removal.apply state.registry },
          observeNotSet, none⟩
    | (state, true) => ⟨state, observeRegister, some observeRegister⟩
  else if get.observe = 1 then
    ⟨riRemoveObservation get state, observeUnregister, none⟩
  else ⟨state, get.observe, none⟩

/-- The part of `ri_invoke_coap_entity_handler` after the handler. -/
def observeGet (state : Observations) : ObservationResult :=
  if get.handled then riHandleObservation get state
  else ⟨state, observeNotSet, none⟩

end Requests

end IotivityLite
