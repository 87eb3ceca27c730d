import IotivityLite.Client.ClientCb
import IotivityLite.Coap.Block2

/-!
# Separate responses

`coap_separate_accept` of `separate.c` and `oc_send_separate_response` of
`oc_server_api.c`.  A resource that cannot answer at once puts requests into a
handle and answers all of them later; requests that stand for observers are
answered by `coap_notify_observers`.  What a call finds elsewhere in the server
comes with the call: the resources and their observers, the response buffers,
and whether there is memory.  The observers of collections that link to the
resource are notified for their own sake and are left out.
-/

namespace IotivityLite

/-- A token of a parsed packet. -/
structure CoapToken where
  bytes : Bytes
  short : bytes.length ≤ coapTokenLen
  deriving DecidableEq

/-- `coap_separate_t`; the type of the response is always NON. -/
structure CoapSeparate where
  token : CoapToken
  block2Size : UInt16
  observe : Int
  endpoint : OcEndpoint
  method : OcMethod
  uri : Bytes
  deriving DecidableEq

/-- `oc_separate_response_t` without its buffer. -/
structure SeparateResponse where
  requests : List CoapSeparate
  active : Bool
  deriving DecidableEq

structure SentMessage where
  endpoint : OcEndpoint
  packet : OutPacket
  deriving DecidableEq

/-- What `coap_separate_accept` reads of the packet, and its other
arguments. -/
structure SeparateRequest where
  confirmable : Bool
  mid : UInt16
  token : CoapToken
  uriPath : Bytes
  method : OcMethod
  endpoint : OcEndpoint
  observe : Int
  block2Size : UInt16

/-- If there is memory for the buffer of the handle, for the record of the
request and for the acknowledgement. -/
structure AcceptMemory where
  buffer : Bool
  request : Bool
  ack : Bool

namespace SeparateRequest

/-- Endpoints are not compared. -/
def finds (request : SeparateRequest) (stored : CoapSeparate) : Bool :=
  stored.token == request.token && stored.observe == request.observe

def stored (request : SeparateRequest) : CoapSeparate where
  token := request.token
  block2Size := request.block2Size
  observe := request.observe
  endpoint := request.endpoint
  method := request.method
  uri := request.uriPath

/-- The first record that is found gets the endpoint of the request. -/
def readdress (request : SeparateRequest) (stored : CoapSeparate) :
    Option CoapSeparate :=
  if request.finds stored then
    some { stored with endpoint := request.endpoint }
  else none

def putInto (request : SeparateRequest) (requests : List CoapSeparate) :
    List CoapSeparate :=
  if requests.any request.finds then requests.replaceF request.readdress
  else requests ++ [request.stored]

def ack (request : SeparateRequest) : SentMessage :=
  ⟨request.endpoint, coapUdpInitMessage .ack 0 request.mid⟩

end SeparateRequest

/-- The handle of an inactive response starts with an empty list.  Without an
acknowledgement the record is removed, also one that was there before. -/
def coapSeparateAccept (response : SeparateResponse)
    (request : SeparateRequest) (memory : AcceptMemory) :
    SeparateResponse × Bool :=
  let requests := if response.active then response.requests else []
  if !response.active && !memory.buffer then
    ({ response with requests := requests }, false)
  else if !requests.any request.finds && !memory.request then
    ({ response with requests := requests }, false)
  else if request.confirmable && !memory.ack then
    ({ response with
      requests := (request.putInto requests).eraseP request.finds }, false)
  else ({ response with requests := request.putInto requests }, true)

/-- `oc_coap_status_codes`, in the order of `oc_status_t` -/
def ocCoapStatusCodes : List UInt8 :=
  [69, 65, 68, 66, 67, 128, 129, 130, 131, 132, 133, 134, 141, 143, 160, 161,
    162, 163, 164, 165]

/-- `OC_IGNORE` -/
def ocIgnore : Nat := 21

def clearTransaction : UInt8 := 194

def ocStatusCode (key : Nat) : Option UInt8 :=
  ocCoapStatusCodes[key]?.or (if key = ocIgnore then some clearTransaction
    else none)

namespace OcInterface

abbrev baseline : Nat := 2
abbrev startup : Nat := 1024
abbrev startupRevert : Nat := 2048

end OcInterface

/-- A mask of several interfaces has no name. -/
def ocQueryEncodeInterface (mask : Nat) : Bytes :=
  match mask with
  | 2 => ascii "if=oic.if.baseline"
  | 4 => ascii "if=oic.if.ll"
  | 8 => ascii "if=oic.if.b"
  | 16 => ascii "if=oic.if.r"
  | 32 => ascii "if=oic.if.rw"
  | 64 => ascii "if=oic.if.a"
  | 128 => ascii "if=oic.if.s"
  | 256 => ascii "if=oic.if.create"
  | 512 => ascii "if=oic.if.w"
  | 1024 => ascii "if=oic.if.startup"
  | 2048 => ascii "if=oic.if.startup.revert"
  | _ => []

/-- `ref` is the address of the resource. -/
structure AppResource where
  ref : Nat
  uri : Bytes
  device : Nat
  observable : Bool
  numObservers : Nat

/-- `coap_observer_t`; its counter is kept apart, under `ref`. -/
structure CoapObserver where
  ref : Nat
  resource : Nat
  endpoint : OcEndpoint
  token : CoapToken
  ifaceMask : Nat
  block2Size : UInt16

def CoapObserver.revert (obs : CoapObserver) : Bool :=
  obs.ifaceMask == OcInterface.startupRevert

/-- What a response buffer of the server is found by. -/
structure TransferKey where
  href : Bytes
  endpoint : OcEndpoint
  method : OcMethod
  query : Bytes

def TransferKey.finds (wanted key : TransferKey) : Bool :=
  key.method == wanted.method && key.href == wanted.href &&
    ocEndpointCompare key.endpoint wanted.endpoint &&
    key.query == wanted.query

structure ResponseState where
  key : TransferKey
  buffer : ResponseBuffer

def ResponseState.running (state : ResponseState) : Bool :=
  state.buffer.payloadSize != state.buffer.nextBlockOffset

/-- The arguments of `oc_send_separate_response` and what it finds.  The
payload is in `buffer`, with a length given in `len` or by the encoder.  The
allocations and serialisations of the call are numbered; `succeeds` tells which
of them do. -/
structure SendCall where
  status : Nat
  buffer : Bytes
  buffer_lt : buffer.length < 2 ^ 32
  len : Nat
  encodedSize : Int
  initialized : Bool
  dos : Nat → DosType
  resources : List AppResource
  collections : List AppResource
  observers : List CoapObserver
  obsCounter : Nat → Int32
  buffers : List ResponseState
  mid : UInt16
  succeeds : Nat → Bool
  randomEtag : Nat → Bytes

namespace SendCall

/-- An encoded payload of at most two bytes counts as empty. -/
def responseLength (call : SendCall) : Nat :=
  if call.len ≠ 0 then call.len
  else if call.encodedSize ≤ 2 then 0
  else call.encodedSize.toNat

def payload (call : SendCall) : Bytes := call.buffer.take call.responseLength

theorem payload_lt (call : SendCall) : call.payload.length < 2 ^ 32 := by
  have shorter : call.payload.length ≤ call.buffer.length :=
    List.length_take_le' call.responseLength call.buffer
  exact lt_of_le_of_lt shorter call.buffer_lt

/-- `oc_ri_get_app_resource_by_uri` -/
def ocRiGetAppResourceByUri (call : SendCall) (uri : Bytes) (device : Nat) :
    Option AppResource :=
  if uri = [] then none
  else
    let skip := if uri.head? = some 47 then 0 else 1
    let path := uri.dropWhile (· == 47)
    (call.resources.find? fun resource =>
        resource.uri.length == uri.length + skip &&
          resource.uri.drop skip == uri && resource.device == device).or
      (call.collections.find? fun collection =>
        collection.device == device &&
          collection.uri.length == path.length + 1 &&
          collection.uri.drop 1 == path)

/-- `oc_check_if_collection` -/
def isCollection (call : SendCall) (resource : AppResource) : Bool :=
  call.collections.any fun collection => collection.ref == resource.ref

/-- The observers that `coap_iterate_observers` does not skip. -/
def selects (call : SendCall) (resource : AppResource)
    (endpoint : OcEndpoint) (obs : CoapObserver) : Bool :=
  obs.resource == resource.ref && ocEndpointCompare obs.endpoint endpoint &&
    !(call.isCollection resource && obs.ifaceMask != OcInterface.baseline) &&
    obs.ifaceMask != OcInterface.startup

end SendCall

structure Transaction where
  mid : UInt16
  token : CoapToken
  endpoint : OcEndpoint
  deriving DecidableEq

/-- The state of a call.  `unsent` has the transactions that were created and
neither sent nor cleared, `attempts` counts allocations and serialisations. -/
structure Sending where
  code : UInt8
  buffers : List ResponseState
  obsCounter : Nat → Int32
  mid : UInt16
  attempts : Nat
  sent : List SentMessage
  unsent : List Transaction

/-- The settings of the build, and which routes are over TCP. -/
structure SeparateEnv where
  config : CoapConfig
  overTcp : Nat → Bool

def SeparateEnv.tcp (env : SeparateEnv) (endpoint : OcEndpoint) : Bool :=
  env.overTcp endpoint.route

section Sending

variable (env : SeparateEnv) (call : SendCall)

def coapNewTransaction (token : CoapToken) (endpoint : OcEndpoint)
    (state : Sending) : Option Transaction × Sending :=
  let transaction : Transaction := ⟨state.mid + 1, token, endpoint⟩
  let next :=
    { state with mid := state.mid + 1, attempts := state.attempts + 1 }
  if call.succeeds state.attempts then
    (some transaction, { next with unsent := transaction :: next.unsent })
  else (none, next)

/-- A first transmission.  Before the initialisation nothing happens. -/
def coapSendTransaction (transaction : Transaction) (packet : OutPacket)
    (state : Sending) : Sending :=
  if call.initialized then
    { state with
      sent := state.sent ++ [⟨transaction.endpoint, packet⟩]
      unsent := state.unsent.erase transaction }
  else state

def coapClearTransaction (transaction : Transaction) (state : Sending) :
    Sending :=
  { state with unsent := state.unsent.erase transaction }

/-- A message that cannot be serialized clears its transaction. -/
def serializeAndSend (transaction : Transaction) (packet : OutPacket)
    (state : Sending) : Sending :=
  let next := { state with attempts := state.attempts + 1 }
  if call.succeeds state.attempts then
    coapSendTransaction call transaction packet next
  else coapClearTransaction transaction next

inductive TransferStart where
  | running
  | noMemory
  | started (block : Bytes)

/-- A new buffer with the payload, from which the first block is taken. -/
def allocTransfer (key : TransferKey) (size : UInt16) (state : Sending) :
    TransferStart × Sending :=
  let next := { state with attempts := state.attempts + 1 }
  if call.succeeds state.attempts then
    let (length, left) := firstBlock (.filled call.payload call.payload_lt)
      size
    (.started (call.payload.take length),
      { next with buffers := next.buffers ++ [⟨key, left⟩] })
  else (.noMemory, next)

/-- A finished buffer with the key makes room for the new one. -/
def startTransfer (key : TransferKey) (size : UInt16) (state : Sending) :
    TransferStart × Sending :=
  match state.buffers.find? (fun other => key.finds other.key) with
  | none => allocTransfer call key size state
  | some found =>
      if found.running then (.running, state)
      else allocTransfer call key size { state with
        buffers := state.buffers.eraseP fun other => key.finds other.key }

/-- If the payload does not fit into one block. -/
def blockwise (endpoint : OcEndpoint) (size : UInt16) : Bool :=
  !env.tcp endpoint && size.toNat < call.payload.length

def setFirstBlock (packet : OutPacket) (block : Bytes) (size : UInt16) :
    OutPacket :=
  coapOptionsSetSize2
    (coapOptionsSetBlock2 (coapSetPayload env.config packet block) 0 1 size 0)
    (UInt32.ofNat call.payload.length)

def CoapSeparate.key (request : CoapSeparate) : TransferKey :=
  ⟨request.uri, request.endpoint, request.method, []⟩

def coapSeparateResume (request : CoapSeparate) (code : UInt8)
    (mid : UInt16) : OutPacket :=
  let response :=
    if env.tcp request.endpoint then coapTcpInitMessage code
    else coapUdpInitMessage .non code mid
  coapSetToken response request.token.bytes

/-- With a transfer in progress, or without memory for the buffer, the
function returns and leaves the transaction behind. -/
def handleSeparateResponseRequest (request : CoapSeparate)
    (state : Sending) : Sending :=
  match coapNewTransaction call request.token request.endpoint state with
  | (none, state) => state
  | (some transaction, state) =>
      let response := coapOptionsSetContentFormat
        (coapSeparateResume env request state.code transaction.mid)
        OcContentFormat.applicationVndOcfCbor
      if blockwise env call request.endpoint request.block2Size then
        match startTransfer call request.key request.block2Size state with
        | (.started block, state) =>
            serializeAndSend call transaction
              (setFirstBlock env call response block request.block2Size) state
        | (_, state) => state
      else
        let response :=
          if call.payload = [] then response
          else coapSetPayload env.config response call.payload
        serializeAndSend call transaction response state

/-- A resource has a leading `/`, which is not part of the key. -/
def CoapObserver.key (obs : CoapObserver) (resource : AppResource) :
    TransferKey :=
  ⟨resource.uri.drop 1, obs.endpoint, .get,
    ocQueryEncodeInterface obs.ifaceMask⟩

/-- `observe_increment_observe_counter` for the counter of an observer -/
def incrementObserveCounter (obs : CoapObserver) (state : Sending) :
    Sending :=
  let previous := state.obsCounter obs.ref
  let next := if previous = 2 ^ 24 - 1 then 2 else previous + 1
  { state with obsCounter := Function.update state.obsCounter obs.ref next }

/-- The end of `coap_send_notification_internal`.  `false` stands for a
negative result, with which the iteration ends. -/
def dispatchNotification (resource : AppResource) (obs : CoapObserver)
    (notification : OutPacket) (state : Sending) : Bool × Sending :=
  let counted := state.code < 128 && resource.numObservers != 0
  let observe := if counted then state.obsCounter obs.ref else 1
  let state := if counted then incrementObserveCounter obs state else state
  let notification := coapSetToken
    (coapOptionsSetContentFormat
      (coapOptionsSetObserve { notification with code := state.code } observe)
      OcContentFormat.applicationVndOcfCbor)
    obs.token.bytes
  match coapNewTransaction call obs.token obs.endpoint state with
  | (none, state) => (false, state)
  | (some transaction, state) =>
      (true, serializeAndSend call transaction
        { notification with mid := transaction.mid } state)

def initNotification (obs : CoapObserver) (code : UInt8) : OutPacket :=
  if env.tcp obs.endpoint then coapTcpInitMessage code
  else coapUdpInitMessage .non code 0

/-- `coap_prepare_notification_blockwise` and what follows; the buffer has a
random ETag. -/
def notifyBlockwise (resource : AppResource) (obs : CoapObserver)
    (state : Sending) : Bool × Sending :=
  match startTransfer call (obs.key resource) obs.block2Size state with
  | (.running, state) => (true, state)
  | (.noMemory, state) => (false, state)
  | (.started block, next) =>
      let notification := { initNotification env obs 69 with type := .con }
      dispatchNotification call resource obs
        (coapOptionsSetEtag
          (setFirstBlock env call notification block obs.block2Size)
          (call.randomEtag state.attempts))
        next

/-- Every fifth notification is confirmable, to see if the client is there. -/
def notifyAtOnce (resource : AppResource) (obs : CoapObserver)
    (state : Sending) : Bool × Sending :=
  let notification := initNotification env obs 69
  let notification :=
    if state.obsCounter obs.ref % 5 = 0 ∧ !env.tcp obs.endpoint then
      { notification with type := .con }
    else notification
  dispatchNotification call resource obs
    (coapSetPayload env.config notification call.payload) state

/-- `coap_send_notification_internal` for a response that is not separate.
The code of a revert notification stays in the response for those after it. -/
def coapSendNotification (resource : AppResource) (obs : CoapObserver)
    (state : Sending) : Bool × Sending :=
  if obs.revert then
    dispatchNotification call resource obs (initNotification env obs 67)
      { state with code := 67 }
  else if call.payload = [] then (true, state)
  else if blockwise env call obs.endpoint obs.block2Size then
    notifyBlockwise env call resource obs state
  else notifyAtOnce env call resource obs state

def coapIterateObservers (resource : AppResource) (endpoint : OcEndpoint) :
    List CoapObserver → Sending → Sending
  | [], state => state
  | obs :: rest, state =>
      if call.selects resource endpoint obs then
        match coapSendNotification env call resource obs state with
        | (true, state) => coapIterateObservers resource endpoint rest state
        | (false, state) => state
      else coapIterateObservers resource endpoint rest state

def coapNotifyObservers (resource : AppResource) (endpoint : OcEndpoint)
    (state : Sending) : Sending :=
  if !resource.observable then state
  else if call.dos resource.device ≠ .rfnop then state
  else if resource.numObservers = 0 then state
  else coapIterateObservers env call resource endpoint call.observers state

/-- The body of the loop of `oc_send_separate_response`. -/
def answer (state : Sending) (request : CoapSeparate) : Sending :=
  if request.observe < observeSequenceStartValue then
    handleSeparateResponseRequest env call request state
  else match call.ocRiGetAppResourceByUri request.uri
      request.endpoint.device with
    | none => state
    | some resource =>
        coapNotifyObservers env call resource request.endpoint state

def SendCall.start (call : SendCall) (code : UInt8)
    (unsent : List Transaction) : Sending where
  code := code
  buffers := call.buffers
  obsCounter := call.obsCounter
  mid := call.mid
  attempts := 0
  sent := []
  unsent := unsent

/-- After an invalid status the requests are gone and the handle is as active
as before. -/
def ocSendSeparateResponse (response : SeparateResponse)
    (unsent : List Transaction) :
    SeparateResponse × List SentMessage × List Transaction :=
  match ocStatusCode call.status with
  | none => ({ response with requests := [] }, [], unsent)
  | some code =>
      let state := response.requests.foldl (answer env call)
        (call.start code unsent)
      (⟨[], false⟩, state.sent, state.unsent)

end Sending

/-- A request is told apart by its endpoint, its token and its Observe
option. -/
structure Requester where
  endpoint : OcEndpoint
  token : CoapToken
  observe : Int
  deriving DecidableEq

def CoapSeparate.requester (request : CoapSeparate) : Requester :=
  ⟨request.endpoint, request.token, request.observe⟩

def SeparateRequest.requester (request : SeparateRequest) : Requester :=
  ⟨request.endpoint, request.token, request.observe⟩

inductive SeparateEvent where
  | accept (request : SeparateRequest) (memory : AcceptMemory)
  | send (call : SendCall)

/-- A handle, the requests that it accepted since the last response, and the
transactions that it left behind. -/
structure SeparateState where
  response : SeparateResponse
  accepted : List Requester
  unsent : List Transaction

/-- A handle that was set to zero. -/
def SeparateState.initial : SeparateState := ⟨⟨[], false⟩, [], []⟩

/-- A request that is accepted makes its handle active. -/
def SeparateState.accept (state : SeparateState) (request : SeparateRequest)
    (memory : AcceptMemory) : SeparateState :=
  match coapSeparateAccept state.response request memory with
  | (response, false) => { state with response := response }
  | (response, true) =>
      { state with
        response := { response with active := true }
        accepted :=
          if request.requester ∈ state.accepted then state.accepted
          else state.accepted ++ [request.requester] }

section Run

variable (env : SeparateEnv)

def separateStep (state : SeparateState) : SeparateEvent → SeparateState
  | .accept request memory => state.accept request memory
  | .send call =>
      let (response, _, unsent) :=
        ocSendSeparateResponse env call state.response state.unsent
      ⟨response, [], unsent⟩

/-- The messages of an event: acknowledgements, and what a response sends. -/
def separateSent (state : SeparateState) : SeparateEvent → List SentMessage
  | .accept request memory =>
      if (coapSeparateAccept state.response request memory).2 &&
          request.confirmable then
        [request.ack]
      else []
  | .send call =>
      (ocSendSeparateResponse env call state.response state.unsent).2.1

end Run

end IotivityLite
