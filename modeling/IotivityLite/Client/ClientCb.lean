import IotivityLite.Foundation.Ledger
import IotivityLite.Security.AccessCheck

/-!
# Client callbacks

The records of `oc_client_cb.c`: one for each request that waits for a
response.  A record is reached by responses, by the timed callbacks that were
set for it, and by the routines that free all records of a message or of an
endpoint.  The handlers they call may issue requests and cancel others, so the
calls in progress are kept on a stack: `resume` lets the handler on top return,
or a loop go on.  A request that could not be dispatched leaves no record.
-/

namespace IotivityLite

/-- The requests of `oc_client_api.c`; an ordinary one is sent to one endpoint,
with a timeout or without. -/
inductive RequestKind where
  | ordinary (timeout : Bool)
  | observe
  | ping
  | discovery
  | multicast
  deriving DecidableEq

/-- The timed callbacks with a record as data: `oc_client_cb_remove_async`,
`oc_client_cb_remove_with_notify_timeout_async` and
`oc_remove_ping_handler_async`. -/
inductive ClientTimer where
  | lifetime
  | timeout
  | ping
  deriving DecidableEq

namespace RequestKind

/-- A unicast request that does not observe. -/
def plain : RequestKind → Bool
  | ordinary _ => true
  | ping => true
  | _ => false

def timers : RequestKind → List ClientTimer
  | ordinary true => [.lifetime, .timeout]
  | ordinary false => [.lifetime]
  | observe => []
  | ping => [.ping]
  | discovery => [.lifetime]
  | multicast => [.lifetime]

end RequestKind

def observeNotSet : Int := -1

def observeRegister : Int := 0

def observeUnregister : Int := 1

def observeSequenceStartValue : Int := 2

structure ClientRequest where
  kind : RequestKind
  uri : Bytes
  endpoint : OcEndpoint
  method : UInt8
  token : Bytes
  mid : UInt16

/-- `oc_client_cb_t` -/
structure ClientCb extends ClientRequest where
  ref : Handle
  observeSeq : Int
  notificationNum : Nat
  stopMulticastReceive : Bool
  refCount : Nat

/-- The record of a new request. -/
def ClientRequest.cb (request : ClientRequest) (ref : Handle) : ClientCb :=
  { request with
    ref := ref
    observeSeq :=
      if request.kind = .observe then observeRegister else observeNotSet
    notificationNum := 0
    stopMulticastReceive := false
    refCount := 0 }

namespace ClientCb

def discovery (cb : ClientCb) : Bool := cb.kind = .discovery

def multicast (cb : ClientCb) : Bool := cb.kind = .multicast

/-- `client_cb_is_ping_response` -/
def isPingResponse (cb : ClientCb) : Bool := cb.uri = ascii "/ping"

end ClientCb

/-- What `oc_client_cb_invoke` reads of a response: the payload is that of the
response buffer, and the number is the one in the sender's partial IV. -/
structure ClientResponse where
  endpoint : OcEndpoint
  ack : Bool
  code : UInt8
  contentFormat : Nat
  payload : Bytes
  observe : Int
  notificationNum : Nat

namespace ClientResponse

def cbor (response : ClientResponse) : Bool :=
  response.contentFormat = 60 || response.contentFormat = 10000

/-- The acknowledgement of a request that is answered later. -/
def emptyAck (response : ClientResponse) : Bool :=
  response.ack && response.code == 0

end ClientResponse

/-- How the engine finds the record of a response: by the token, or through a
blockwise buffer, which points to it. -/
inductive Delivery where
  | token (token : Bytes)
  | buffer (address : Nat)

def Delivery.finds (delivery : Delivery) (cb : ClientCb) : Bool :=
  match delivery with
  | .token wanted => cb.token = wanted
  | .buffer address => cb.ref.address == address

/-- `oc_ri_free_client_cbs_by_mid_v1` and
`oc_ri_free_client_cbs_by_endpoint_v1` -/
inductive CbFilter where
  | mid (mid : UInt16)
  | endpoint (endpoint : OcEndpoint)

def CbFilter.selects (filter : CbFilter) (cb : ClientCb) : Bool :=
  !cb.multicast && !cb.discovery && cb.refCount == 0 &&
    match filter with
    | .mid wanted => cb.mid == wanted
    | .endpoint wanted => ocEndpointCompare cb.endpoint wanted

/-- A call in progress.  The first four have called a handler: for a response,
for a link of a discovery payload with more links to come, for a record that
is out of the list, and for a ping that timed out. -/
inductive ClientFrame where
  | responding (cb : Handle) (delivery : Delivery) (response : ClientResponse)
  | discovering (cb : Handle) (delivery : Delivery)
      (response : ClientResponse) (left : Nat)
  | notifying (cb : ClientCb)
  | pinging (cb : Handle)
  | freeing (filter : CbFilter)

namespace ClientFrame

/-- The record in the list whose handler runs. -/
def busy : ClientFrame → Option Handle
  | responding cb _ _ => some cb
  | discovering cb _ _ _ => some cb
  | pinging cb => some cb
  | _ => none

/-- The record that is out of the list and not yet freed. -/
def detached : ClientFrame → Option ClientCb
  | notifying cb => some cb
  | _ => none

def callsHandler : ClientFrame → Bool
  | freeing _ => false
  | _ => true

end ClientFrame

/-- `invoked` lists the handler calls and `freed` the freed records, both by
their number.  `plain` has the numbers of the unicast requests that do not
observe, `stopped` of the discovery and multicast requests that were
stopped. -/
structure ClientState where
  cbs : List ClientCb
  timers : List (ClientTimer × Handle)
  stack : List ClientFrame
  invoked : List Nat
  freed : List Nat
  plain : List Nat
  stopped : List Nat
  next : Nat

/-- The outcome of sending for an existing record. -/
inductive SendResult where
  | notPrepared
  | notDispatched
  | sent
  deriving DecidableEq

/-- Responses, timed callbacks and the shutdown come when no handler runs; the
other calls may also be made by a handler. -/
inductive ClientInput where
  | request (request : ClientRequest) (address : Nat)
  | response (delivery : Delivery) (response : ClientResponse)
  | nextBlock (delivery : Delivery) (mid : UInt16)
  | free (filter : CbFilter)
  | stopObserve (uri : Bytes) (endpoint : OcEndpoint) (mid : UInt16)
      (result : SendResult)
  | stopMulticast
  | timer (timer : ClientTimer) (cb : Handle)
  | resume (stop : Bool)
  | shutdown

/-- `decodes` tells if `oc_rep_parse_payload` succeeds, `links` how many links
of a payload are passed to a discovery handler. -/
structure ClientEnv where
  oscore : Bool
  tcp : Bool
  decodes : Bytes → Bool
  links : Bytes → Nat

namespace ClientState

def initial : ClientState := ⟨[], [], [], [], [], [], [], 0⟩

/-- The records in use. -/
def allocated (state : ClientState) : List ClientCb :=
  state.cbs ++ state.stack.filterMap ClientFrame.detached

def busy (state : ClientState) : List Handle :=
  state.stack.filterMap ClientFrame.busy

/-- The record at an address; `oc_ri_is_client_cb_valid` asks for one. -/
def at? (state : ClientState) (cb : Handle) : Option ClientCb :=
  state.cbs.find? (·.ref.address == cb.address)

def update (state : ClientState) (cb : Handle) (change : ClientCb → ClientCb) :
    ClientState :=
  { state with
    cbs := state.cbs.map fun other =>
      if other.ref.address == cb.address then change other else other }

def push (state : ClientState) (frame : ClientFrame) : ClientState :=
  { state with stack := frame :: state.stack }

/-- A call of the handler. -/
def invoke (state : ClientState) (cb : Handle) : ClientState :=
  { state with invoked := cb.id :: state.invoked }

/-- `oc_ri_alloc_client_cb` and the timed callbacks of the request. -/
def ocRiAllocClientCb (state : ClientState) (request : ClientRequest)
    (address : Nat) : ClientState :=
  if state.allocated.any (·.ref.address == address) then state
  else
    { state with
      cbs := state.cbs ++ [request.cb ⟨state.next, address⟩]
      timers := state.timers ++
        request.kind.timers.map (·, ⟨state.next, address⟩)
      plain := if request.kind.plain then state.next :: state.plain
        else state.plain
      next := state.next + 1 }

def clientCbRemoveFromLists (state : ClientState) (cb : Handle) :
    ClientState :=
  { state with
    timers := state.timers.filter (·.2.address != cb.address)
    cbs := state.cbs.eraseP (·.ref.address == cb.address) }

def removePingTimer (state : ClientState) (cb : Handle) : ClientState :=
  { state with
    timers := state.timers.filter fun timer =>
      !(timer.1 = .ping && timer.2.address == cb.address) }

/-- The record at the address is freed, or one that was freed before. -/
def ocClientCbFree (state : ClientState) (cb : Handle) : ClientState :=
  { state.clientCbRemoveFromLists cb with
    freed := ((state.at? cb).elim cb.id (·.ref.id)) :: state.freed }

/-- `client_cb_notify_with_code`, up to the handler.  After it the callback of
a ping is removed once more, when there is none. -/
def clientCbNotifyWithCode (state : ClientState) (cb : ClientCb) :
    ClientState :=
  ((state.clientCbRemoveFromLists cb.ref).invoke cb.ref).push (.notifying cb)

/-- `ri_client_cb_set_observe_seq`: a new observation drops an old one with
its token. -/
def riClientCbSetObserveSeq (state : ClientState) (cb : ClientCb)
    (observeSeq : Int) (endpoint : OcEndpoint) : ClientState :=
  let state := state.update cb.ref ({ · with observeSeq := observeSeq })
  if observeSeq = observeRegister then
    match state.cbs.find? fun other =>
        other.ref.address != cb.ref.address &&
          other.observeSeq != observeNotSet && other.token = cb.token &&
          other.uri = cb.uri && ocEndpointCompare other.endpoint endpoint with
    | none => state
    | some other => state.ocClientCbFree other.ref
  else state

/-- The request does not want more responses. -/
def noteStop (state : ClientState) (cb : ClientCb) (stops : Bool) :
    ClientState :=
  { state with
    stopped := if stops then cb.ref.id :: state.stopped else state.stopped }

/-- What `oc_client_cb_invoke` does with a record that is still valid after
the handler. -/
def finishRecord (state : ClientState) (cb : Handle)
    (response : ClientResponse) (separate : Bool) : ClientState :=
  match state.at? cb with
  | none => state
  | some record =>
      let state := (state.update cb ({ · with refCount := 0 })).noteStop record
        (record.multicast && record.stopMulticastReceive && !separate)
      if response.observe = observeNotSet ∧ separate = false ∧
          record.discovery = false then
        if record.multicast then
          if record.stopMulticastReceive then
            state.push (.freeing (.mid record.mid))
          else state
        else state.ocClientCbFree cb
      else
        state.riClientCbSetObserveSeq record response.observe
          response.endpoint

section Env

variable (env : ClientEnv)

/-- The end of `oc_client_cb_invoke`, after the handler. -/
def finishInvoke (state : ClientState) (cb : Handle)
    (response : ClientResponse) (separate : Bool) : ClientState :=
  if env.tcp && (response.code == 227 ||
      (state.at? cb).any ClientCb.isPingResponse) then
    (state.removePingTimer cb).finishRecord cb response separate
  else state.finishRecord cb response separate

/-- An old notification is dropped; the flag of the record stays set. -/
def staleNotification (cb : ClientCb) (response : ClientResponse) : Bool :=
  env.oscore && decide (response.observe ≥ observeSequenceStartValue) &&
    decide (response.notificationNum < cb.notificationNum)

def readNotificationNum (state : ClientState) (cb : Handle)
    (response : ClientResponse) : ClientState :=
  if env.oscore ∧ response.observe ≥ observeSequenceStartValue then
    state.update cb ({ · with notificationNum := response.notificationNum })
  else state

/-- `oc_client_cb_invoke`, up to the handler if there is one to call. -/
def ocClientCbInvoke (state : ClientState) (cb : ClientCb)
    (delivery : Delivery) (response : ClientResponse) : ClientState :=
  let state := state.update cb.ref ({ · with refCount := 1 })
  if staleNotification env cb response then state
  else
    let state := state.readNotificationNum env cb.ref response
    if response.payload ≠ [] then
      if cb.discovery then
        match env.links response.payload with
        | 0 => state.finishInvoke env cb.ref response false
        | left + 1 =>
            (state.invoke cb.ref).push
              (.discovering cb.ref delivery response left)
      else if response.cbor ∧ env.decodes response.payload = false then
        state.finishInvoke env cb.ref response false
      else
        (state.invoke cb.ref).push (.responding cb.ref delivery response)
    else if response.emptyAck then
      state.finishInvoke env cb.ref response true
    else if cb.discovery then
      state.finishInvoke env cb.ref response false
    else
      (state.invoke cb.ref).push (.responding cb.ref delivery response)

/-- The handler of a discovery asked to stop. -/
def stopDiscovery (state : ClientState) (cb : Handle) : ClientState :=
  match state.at? cb with
  | none => state
  | some record =>
      ((state.update cb ({ · with refCount := 0 })).noteStop record
        record.discovery).push (.freeing (.mid record.mid))

/-- The loop starts at the head of the list again after every record that it
frees, so it goes on with the first one that it selects. -/
def resume (state : ClientState) (stop : Bool) : ClientState :=
  match state.stack with
  | [] => state
  | .responding cb _ response :: rest =>
      ({ state with stack := rest }).finishInvoke env cb response false
  | .discovering cb delivery response left :: rest =>
      if stop then ({ state with stack := rest }).stopDiscovery cb
      else match left with
        | 0 => ({ state with stack := rest }).finishInvoke env cb response false
        | left + 1 =>
            ({ state with stack := rest }.invoke cb).push
              (.discovering cb delivery response left)
  | .notifying cb :: rest =>
      { state with
        freed := cb.ref.id :: state.freed
        stack := rest }
  | .pinging cb :: rest => ({ state with stack := rest }).ocClientCbFree cb
  | .freeing filter :: rest =>
      match state.cbs.find? filter.selects with
      | none => { state with stack := rest }
      | some cb => state.clientCbNotifyWithCode cb

def runTimer (state : ClientState) (timer : ClientTimer) (cb : Handle) :
    ClientState :=
  if (timer, cb) ∈ state.timers then
    match state.at? cb with
    | none => state
    | some record =>
        match timer with
        | .lifetime => state.ocClientCbFree cb
        | .timeout => state.clientCbNotifyWithCode record
        | .ping =>
            (({ state with
              timers := state.timers.erase (timer, cb) }).invoke cb).push
                (.pinging cb)
  else state

/-- `oc_stop_observe` takes the first GET request for the resource, whatever
it is. -/
def ocRiGetClientCb (state : ClientState) (uri : Bytes)
    (endpoint : OcEndpoint) : Option ClientCb :=
  state.cbs.find? fun cb =>
    cb.uri = uri && ocEndpointCompare cb.endpoint endpoint && cb.method == 1

def ocStopObserve (state : ClientState) (uri : Bytes) (endpoint : OcEndpoint)
    (mid : UInt16) (result : SendResult) : ClientState :=
  match state.ocRiGetClientCb uri endpoint with
  | none => state
  | some cb =>
      let state := state.update cb.ref
        ({ · with mid := mid, observeSeq := observeUnregister })
      if result = .notDispatched then state.ocClientCbFree cb.ref else state

/-- `oc_stop_multicast` of the response that a handler was given. -/
def ocStopMulticast (state : ClientState) : ClientState :=
  match state.stack with
  | .responding cb _ _ :: _ =>
      state.update cb ({ · with stopMulticastReceive := true })
  | _ => state

/-- `oc_ri_reset` stops the timed callbacks first. -/
def ocClientCbsShutdown (state : ClientState) : ClientState :=
  { state with
    timers := []
    cbs := []
    freed := (state.cbs.map (·.ref.id)).reverse ++ state.freed }

def handlerRuns (state : ClientState) : Bool :=
  state.stack.head?.all ClientFrame.callsHandler

def step (state : ClientState) : ClientInput → ClientState
  | .request request address =>
      if state.handlerRuns then state.ocRiAllocClientCb request address
      else state
  | .response delivery response =>
      if state.stack.isEmpty then
        match state.cbs.find? delivery.finds with
        | none => state
        | some cb => state.ocClientCbInvoke env cb delivery response
      else state
  | .nextBlock delivery mid =>
      if state.stack.isEmpty then
        match state.cbs.find? delivery.finds with
        | none => state
        | some cb => state.update cb.ref ({ · with mid := mid })
      else state
  | .free filter =>
      if state.handlerRuns then state.push (.freeing filter) else state
  | .stopObserve uri endpoint mid result =>
      if state.handlerRuns then state.ocStopObserve uri endpoint mid result
      else state
  | .stopMulticast => state.ocStopMulticast
  | .timer timer cb =>
      if state.stack.isEmpty then state.runTimer timer cb else state
  | .resume stop => state.resume env stop
  | .shutdown =>
      if state.stack.isEmpty then state.ocClientCbsShutdown else state

def run (inputs : List ClientInput) : ClientState :=
  runFrom (step env) initial inputs

end Env

end ClientState

end IotivityLite
