import IotivityLite.Server.SeparateResponse

/-!
# Observers

The list of observers of `observe.c`, the 8-bit number of observers of each
resource, and the counters from which notifications take their sequence
numbers.  A counter runs from 2 to the greatest number of 24 bits and starts
over; how often it did is kept beside it.
-/

namespace IotivityLite

/-- `OC_COAP_OPTION_OBSERVE_MAX_VALUE` -/
def observeMaxValue : Nat := 2 ^ 24 - 1

/-- A counter, with the number of times it has started over. -/
structure ObserveCounter where
  value : Nat
  wraps : Nat
  lower : 2 ≤ value
  upper : value ≤ observeMaxValue

namespace ObserveCounter

/-- `OC_COAP_OPTION_OBSERVE_SEQUENCE_START_VALUE` -/
def start : ObserveCounter := ⟨2, 0, by decide, by decide⟩

/-- `observe_increment_observe_counter` -/
def increment (counter : ObserveCounter) : ObserveCounter :=
  if last : counter.value = observeMaxValue then
    ⟨2, counter.wraps + 1, by decide, by decide⟩
  else
    ⟨counter.value + 1, counter.wraps, Nat.le_succ_of_le counter.lower,
      Nat.lt_of_le_of_ne counter.upper last⟩

end ObserveCounter

namespace CoapToken

theorem short_singleton (byte : UInt8) : [byte].length ≤ coapTokenLen := by
  rw [List.length_singleton]
  decide

/-- A token of one byte. -/
def ofByte (byte : UInt8) : CoapToken := ⟨[byte], short_singleton byte⟩

end CoapToken

/-- `coap_observer_t`; `ref` tells records apart, `resource` is the address of
the resource. -/
structure ObserverRecord where
  ref : Nat
  resource : Nat
  url : Bytes
  endpoint : OcEndpoint
  token : CoapToken
  lastMid : UInt16
  block2Size : UInt16
  obsCounter : ObserveCounter
  ifaceMask : Nat

structure ObservedResource where
  ref : Nat
  uri : Bytes

/-- What a notification carried in its Observe option.  `success` is set for
codes below 4.00, `counted` if the resource also had observers. -/
structure Notified where
  endpoint : OcEndpoint
  url : Bytes
  ifaceMask : Nat
  success : Bool
  counted : Bool
  value : Nat
  wraps : Nat

/-- `resources` are those that exist, `notified` the notifications that were
sent, the latest first. -/
structure ObserveState where
  resources : List ObservedResource
  observers : List ObserverRecord
  numObservers : Nat → UInt8
  observeCounter : ObserveCounter
  notified : List Notified
  next : Nat

def ObserveState.initial : ObserveState :=
  ⟨[], [], fun _ => 0, .start, [], 0⟩

/-- The blockwise buffer that the observer leaves is not followed. -/
def coapRemoveObserver (state : ObserveState) (obs : ObserverRecord) :
    ObserveState :=
  { state with
    observers := state.observers.eraseP fun other => other.ref == obs.ref
    numObservers := Function.update state.numObservers obs.resource
      (state.numObservers obs.resource - 1) }

/-- The loop of `coap_remove_observers_by_filter`. -/
def removeMatching (filter : ObserverRecord → Bool) (matchAll : Bool) :
    List ObserverRecord → ObserveState → ObserveState
  | [], state => state
  | obs :: rest, state =>
      if filter obs then
        if matchAll then
          removeMatching filter matchAll rest (coapRemoveObserver state obs)
        else coapRemoveObserver state obs
      else removeMatching filter matchAll rest state

def coapRemoveObserversByFilter (filter : ObserverRecord → Bool)
    (matchAll : Bool) (state : ObserveState) : ObserveState :=
  removeMatching filter matchAll state.observers state

/-- A path without its leading `/`, if it has one. -/
def withoutSlash (path : Bytes) : Bytes :=
  if path.head? = some 47 then path.drop 1 else path

/-- The ways to remove observers: when a client is gone, when it cancels with
a token or rejects a message, when a resource is deleted, when the state of a
device changes (`permitted` tells who may still read), and at the shutdown. -/
inductive Removal where
  | client (endpoint : OcEndpoint)
  | token (endpoint : OcEndpoint) (token : CoapToken)
  | mid (endpoint : OcEndpoint) (mid : UInt16)
  | resource (resource : ObservedResource)
  | dosChange (device : Nat) (reset : Bool) (permitted : ObserverRecord → Bool)
  | all

namespace Removal

def filter (removal : Removal) (obs : ObserverRecord) : Bool :=
  match removal with
  | client endpoint => ocEndpointCompare obs.endpoint endpoint
  | token endpoint wanted =>
      ocEndpointCompare obs.endpoint endpoint && obs.token == wanted
  | mid endpoint wanted =>
      ocEndpointCompare obs.endpoint endpoint && obs.lastMid == wanted
  | resource wanted =>
      obs.resource == wanted.ref &&
        withoutSlash wanted.uri == withoutSlash obs.url
  | dosChange device reset permitted =>
      obs.endpoint.device == device && (reset || !permitted obs)
  | all => true

def matchAll : Removal → Bool
  | token _ _ => false
  | mid _ _ => false
  | _ => true

def apply (removal : Removal) (state : ObserveState) : ObserveState :=
  coapRemoveObserversByFilter removal.filter removal.matchAll state

end Removal

/-- The arguments of `coap_add_observer`. -/
structure ObserveRequest where
  resource : Nat
  block2Size : UInt16
  endpoint : OcEndpoint
  token : CoapToken
  uri : Bytes
  ifaceMask : Nat

/-- `coap_observer_has_matching_data` -/
def ObserveRequest.duplicates (request : ObserveRequest)
    (obs : ObserverRecord) : Bool :=
  ocEndpointCompare obs.endpoint request.endpoint && obs.url == request.uri &&
    obs.ifaceMask == request.ifaceMask

def ObserveRequest.observer (request : ObserveRequest) (ref : Nat)
    (counter : ObserveCounter) : ObserverRecord where
  ref := ref
  resource := request.resource
  url := request.uri
  endpoint := request.endpoint
  token := request.token
  lastMid := 0
  block2Size := request.block2Size
  obsCounter := counter
  ifaceMask := request.ifaceMask

/-- The second result tells if there was memory for the observer; the
duplicates are gone in any case. -/
def coapAddObserver (request : ObserveRequest) (memory : Bool)
    (state : ObserveState) : ObserveState × Bool :=
  let state := coapRemoveObserversByFilter request.duplicates true state
  if memory then
    ({ state with
      observers := state.observers ++
        [request.observer state.next state.observeCounter]
      numObservers := Function.update state.numObservers request.resource
        (state.numObservers request.resource + 1)
      next := state.next + 1 }, true)
  else (state, false)

/-- The code of a notification, the message id of its transaction, and whether
there is a transaction and its message is sent. -/
structure Notification where
  code : UInt8
  mid : UInt16
  transaction : Bool
  sent : Bool

/-- The end of `coap_send_notification_internal`, for one observer. -/
def sendNotification (notification : Notification) (obs : ObserverRecord)
    (state : ObserveState) : ObserveState :=
  let success := notification.code < 128
  let counted := success && state.numObservers obs.resource != 0
  let counter := if counted then obs.obsCounter.increment else obs.obsCounter
  let carried : Notified :=
    { endpoint := obs.endpoint
      url := obs.url
      ifaceMask := obs.ifaceMask
      success := success
      counted := counted
      value := if counted then obs.obsCounter.value else 1
      wraps := obs.obsCounter.wraps }
  { state with
    observers := state.observers.map fun other =>
      if other.ref == obs.ref then
        { other with
          obsCounter := counter
          lastMid :=
            if notification.transaction then notification.mid
            else other.lastMid }
      else other
    observeCounter :=
      if counted then state.observeCounter.increment
      else state.observeCounter
    notified :=
      if notification.transaction && notification.sent then
        carried :: state.notified
      else state.notified }

/-- A resource that is created is zeroed; its address may have been that of a
resource that was deleted. -/
inductive ObserveEvent where
  | create (resource : ObservedResource)
  | delete (ref : Nat)
  | add (request : ObserveRequest) (memory : Bool)
  | remove (removal : Removal)
  | notify (ref : Nat) (notification : Notification)

/-- `ri_delete_resource`: the observers are removed if there are any. -/
def deleteResource (resource : ObservedResource) (state : ObserveState) :
    ObserveState :=
  let state :=
    if state.numObservers resource.ref ≠ 0 then
      (Removal.resource resource).apply state
    else state
  { state with
    resources := state.resources.filter fun other =>
      other.ref != resource.ref }

/-- A request is for the resource that has its path, as
`oc_ri_get_app_resource_by_uri` compares them. -/
def ObserveState.serves (state : ObserveState) (request : ObserveRequest) :
    Bool :=
  state.resources.any fun resource =>
    resource.ref == request.resource &&
      withoutSlash resource.uri == withoutSlash request.uri

/-- Only existing resources are deleted or observed. -/
def observeStep (state : ObserveState) : ObserveEvent → ObserveState
  | .create resource =>
      if resource.ref ∈ state.resources.map (·.ref) then state
      else
        { state with
          resources := resource :: state.resources
          numObservers := Function.update state.numObservers resource.ref 0 }
  | .delete ref =>
      match state.resources.find? fun other => other.ref == ref with
      | none => state
      | some resource => deleteResource resource state
  | .add request memory =>
      if state.serves request then (coapAddObserver request memory state).1
      else state
  | .remove removal => removal.apply state
  | .notify ref notification =>
      match state.observers.find? fun other => other.ref == ref with
      | none => state
      | some obs => sendNotification notification obs state

end IotivityLite
