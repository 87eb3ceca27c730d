import IotivityLite.Coap.Parse
import IotivityLite.Foundation.Keeps
import IotivityLite.Server.SeparateResponse

/-!
# The engine that processes inbound messages

`coap_process_inbound_message` of `engine.c` with the functions it calls, and
the open transactions of `transactions.c`.  The receive context is static: it
keeps the pointers to a transaction and to two block-wise buffers from one
message to the next.  A pointer is modelled by an address together with the
number of the message it was found or created for, and every use of a pointer
is recorded.  What the processing of a message finds outside of the engine
comes with the message: buffers, client callbacks, memory and what handlers
return.  Options and payloads of responses, and what handlers send on their
own, are left out.
-/

namespace IotivityLite

/-- An endpoint with its flags `TCP` and `MULTICAST`; `oc_endpoint_compare`
looks at the first of them only. -/
structure Peer where
  endpoint : OcEndpoint
  tcp : Bool
  multicast : Bool
  deriving DecidableEq

def Peer.same (first second : Peer) : Bool :=
  first.tcp == second.tcp && ocEndpointCompare first.endpoint second.endpoint

/-- `coap_transaction_t`.  For the bytes that are transmitted again stands the
number of the inbound message they answer. -/
structure OpenTransaction where
  address : Nat
  mid : UInt16
  token : Bytes
  peer : Peer
  retransCounter : Nat
  interval : Nat
  answers : Nat
  deriving DecidableEq

/-- A pointer, and the number of the message it was found or created for. -/
structure Held where
  address : Nat
  foundFor : Nat
  deriving DecidableEq

/-- The pointers of `coap_receive_ctx_t`. -/
structure ReceiveCtx where
  transaction : Option Held
  requestBuffer : Option Held
  responseBuffer : Option Held
  deriving DecidableEq

namespace ReceiveCtx

def null : ReceiveCtx := ⟨none, none, none⟩

/-- All pointers of a context. -/
def held (ctx : ReceiveCtx) : List Held :=
  ctx.transaction.toList ++ ctx.requestBuffer.toList ++
    ctx.responseBuffer.toList

end ReceiveCtx

/-- `coap_receive_status_t` -/
inductive ReceiveStatus where
  | success
  | skipDuplicateMessage
  | sendResetMessage
  | invokeHandler
  | error
  deriving DecidableEq

/-- The values of the global status code that are told apart. -/
inductive GlobalStatus where
  | parsed (status : CoapStatus)
  | clearTransaction
  deriving DecidableEq

/-- The static variables of the engine.  `count` is the number of the message
in process and `uses` the pointers that were used for it. -/
structure EngineState where
  ctx : ReceiveCtx
  response : OutPacket
  status : GlobalStatus
  currentMid : UInt16
  history : List (UInt16 × Nat)
  transactions : List OpenTransaction
  count : Nat
  uses : List Held

abbrev Engine := StateM EngineState

/-- An allocator never hands out memory that is in use. -/
structure TransactionMemory where
  allocate : List Nat → Option Nat
  unused : ∀ used address, allocate used = some address → address ∉ used

def coapMaxRetransmit : Nat := 4

/-- What a request with a block1 option meets: the buffer that is found, if
its transfer starts again, the buffer that is allocated, and if the block is
taken. -/
structure Block1Finds where
  found : Option Nat
  restarted : Bool
  allocated : Option Nat
  handled : Bool

/-- What a request with a block2 option meets: the buffer that is found and
its code, if the block was sent before, if it can be sent, and if it is not
the last. -/
structure Block2Finds where
  found : Option Nat
  code : UInt8
  alreadyProvided : Bool
  dispatched : Bool
  more : Bool

/-- What a request without block options meets. -/
structure PayloadFinds where
  resetInProgress : Bool
  validSize : Bool
  foundRequest : Option Nat
  createdRequest : Option Nat
  foundResponse : Option Nat
  unfinished : Bool

/-- What the handler of a resource does: its result, the response code, if it
takes the request buffer away, the response buffer it leaves, and if it
defers the response. -/
structure HandlerFinds where
  result : Bool
  code : UInt8
  takesRequest : Bool
  responseBuffer : Option Nat
  separate : Bool

/-- What a response or an empty message meets at the client. -/
structure ClientFinds where
  clientCb : Bool
  requestByClientCb : Option Nat
  requestByMid : Option Nat
  requestByToken : Option Nat
  requestClientCb : Bool
  requestDispatched : Bool
  requestUnreferenced : Bool
  responseByClientCb : Option Nat
  responseAllocated : Option Nat
  responseByMid : Option Nat
  responseByToken : Option Nat
  responseClientCb : Bool
  blockHandled : Bool
  responseAfterInvoke : Bool
  clientCbValid : Bool
  separate : Bool

/-- An inbound message and what its processing finds. -/
structure Inbound where
  peer : Peer
  data : Bytes
  memory : TransactionMemory
  mainInitialized : Bool
  closesPeer : Bool
  headerCode : UInt8
  block1Finds : Block1Finds
  block2Finds : Block2Finds
  payloadFinds : PayloadFinds
  handler : HandlerFinds
  client : ClientFinds
  observing : Bool
  newToken : Bytes
  serialized : Bool
  randomInterval : Nat

/-- `coap_parse_inbound_message` -/
def coapParseInboundMessage (config : CoapConfig) (message : Inbound) :
    ParseResult :=
  if message.peer.tcp then
    coapTcpParseMessage config (.ofBytes message.data) message.data.length
      false
  else
    coapUdpParseMessage config (.ofBytes message.data) message.data.length
      false

namespace EngineState

def use (held : Option Held) (state : EngineState) : EngineState :=
  { state with uses := state.uses ++ held.toList }

def useTransaction (state : EngineState) : EngineState :=
  state.use state.ctx.transaction

def useRequestBuffer (state : EngineState) : EngineState :=
  state.use state.ctx.requestBuffer

def useResponseBuffer (state : EngineState) : EngineState :=
  state.use state.ctx.responseBuffer

def setRequestBuffer (address : Option Nat) (state : EngineState) :
    EngineState :=
  { state with
    ctx.requestBuffer := address.map fun address => ⟨address, state.count⟩ }

def setResponseBuffer (address : Option Nat) (state : EngineState) :
    EngineState :=
  { state with
    ctx.responseBuffer := address.map fun address => ⟨address, state.count⟩ }

def addresses (state : EngineState) : List Nat :=
  state.transactions.map OpenTransaction.address

/-- `coap_get_transaction_by_mid`; endpoints are not compared. -/
def coapGetTransactionByMid (mid : UInt16) (state : EngineState) :
    Option OpenTransaction :=
  state.transactions.find? fun transaction => transaction.mid == mid

/-- `coap_clear_transaction` -/
def coapClearTransaction (held : Option Held) (state : EngineState) :
    EngineState :=
  { state.use held with
    transactions := state.transactions.filter fun transaction =>
      held.all fun pointer => transaction.address != pointer.address }

/-- Writing to the transaction a pointer refers to. -/
def updateTransaction (held : Option Held)
    (change : OpenTransaction → OpenTransaction) (state : EngineState) :
    EngineState :=
  { state.use held with
    transactions := state.transactions.map fun transaction =>
      if held.any fun pointer => transaction.address == pointer.address then
        change transaction
      else transaction }

/-- `coap_new_transaction`, stored in the context. -/
def newTransaction (message : Inbound) (mid : UInt16) (state : EngineState) :
    EngineState :=
  match message.memory.allocate state.addresses with
  | none => { state with ctx.transaction := none }
  | some address =>
      { state with
        ctx.transaction := some ⟨address, state.count⟩
        transactions := state.transactions ++
          [⟨address, mid, [], message.peer, 0, 0, state.count⟩] }

/-- `coap_free_transactions_by_endpoint` -/
def coapFreeTransactionsByEndpoint (peer : Peer) (state : EngineState) :
    EngineState :=
  { state with transactions := state.transactions.filter fun transaction =>
      !transaction.peer.same peer }

/-- The record the transaction pointer of the context refers to. -/
def ctxTransaction (state : EngineState) : Option OpenTransaction :=
  state.ctx.transaction.bind fun pointer =>
    state.transactions.find? fun transaction =>
      transaction.address == pointer.address

/-- A TCP message without options and payload starts with a zero nibble, which
reads as CON. -/
def confirmable (state : EngineState) (transaction : OpenTransaction) :
    Bool :=
  (state.response.transportType == .tcp || state.response.type == .con) &&
    !transaction.peer.tcp

/-- `coap_send_transaction` for the transaction of the context.  The timeout
of a secured peer closes the connection with all its transactions. -/
def coapSendTransaction (message : Inbound) (state : EngineState) :
    EngineState :=
  if !message.mainInitialized then state
  else match state.ctxTransaction with
    | none => state.useTransaction
    | some transaction =>
        if !state.confirmable transaction then
          state.coapClearTransaction state.ctx.transaction
        else if transaction.retransCounter < coapMaxRetransmit then
          state.updateTransaction state.ctx.transaction fun transaction =>
            { transaction with
              interval :=
                if transaction.retransCounter = 0 then message.randomInterval
                else transaction.interval <<< 1 }
        else if transaction.peer.endpoint.secured then
          if message.closesPeer then
            state.useTransaction.coapFreeTransactionsByEndpoint
              transaction.peer
          else state.useTransaction
        else state.coapClearTransaction state.ctx.transaction

/-- `oc_close_session`: a TLS peer takes its transactions with it. -/
def ocCloseSession (message : Inbound) (state : EngineState) : EngineState :=
  if message.closesPeer then
    state.coapFreeTransactionsByEndpoint message.peer
  else state

/-- The transaction that the mid of a message acknowledges. -/
def clearAcknowledged (mid : UInt16) (state : EngineState) : EngineState :=
  match state.coapGetTransactionByMid mid with
  | none => state
  | some transaction =>
      state.coapClearTransaction (some ⟨transaction.address, state.count⟩)

end EngineState

namespace Engine

open EngineState

def coapGetMid : Engine UInt16 := do
  modify fun state => { state with currentMid := state.currentMid + 1 }
  return (← get).currentMid

def coapIsMethod (code : UInt8) : Bool := 1 ≤ code && code ≤ 4

/-- `oc_coap_check_if_duplicate` -/
def isDuplicate (message : Inbound) (mid : UInt16) (state : EngineState) :
    Bool :=
  state.history.contains (mid, message.peer.endpoint.device)

/-- `coap_receive_init_response`; the history has 25 places. -/
def coapReceiveInitResponse (message : Inbound) (packet : InPacket)
    (href : Bytes) : Engine ReceiveStatus := do
  if message.peer.tcp then
    modify fun state => { state with response := coapTcpInitMessage 69 }
    return .success
  else if packet.type = .con then
    modify fun state =>
      { state with response := coapUdpInitMessage .ack 69 packet.mid }
    return .success
  else if isDuplicate message packet.mid (← get) then
    return .skipDuplicateMessage
  else
    modify fun state => { state with
      history := state.history.drop 1 ++
        [(packet.mid, message.peer.endpoint.device)] }
    let mid ← coapGetMid
    let type := if href = ascii "oic/res" then .con else .non
    modify fun state =>
      { state with response := coapUdpInitMessage type 69 mid }
    return .success

/-- A confirmable response with a mid of its own, which the transaction takes
over. -/
def separateResponse (code : UInt8) : Engine Unit := do
  let mid ← coapGetMid
  modify fun state =>
    { state with response := coapUdpInitMessage .con code mid }
  modify fun state => state.updateTransaction state.ctx.transaction
    fun transaction => { transaction with mid }

/-- `coap_receive_blockwise_block1` -/
def coapReceiveBlockwiseBlock1 (packet : InPacket) (finds : Block1Finds) :
    Engine ReceiveStatus := do
  modify (setRequestBuffer finds.found)
  modify useRequestBuffer
  onlyIf ((← get).ctx.requestBuffer.isSome && finds.restarted) do
    modify useRequestBuffer
    modify (setRequestBuffer none)
  onlyIf ((← get).ctx.requestBuffer.isNone && packet.block1.num = 0) do
    modify (setRequestBuffer finds.allocated)
    modify useRequestBuffer
  if (← get).ctx.requestBuffer.isNone then
    return .error
  else do
    modify useRequestBuffer
    if !finds.handled then
      return .error
    else if packet.block1.more ≠ 0 then
      modify fun state => { state with response.code := 95 }
      modify useRequestBuffer
      return .success
    else
      separateResponse 69
      modify useRequestBuffer
      return .invokeHandler

/-- `coap_receive_blockwise_block2` -/
def coapReceiveBlockwiseBlock2 (packet : InPacket) (finds : Block2Finds) :
    Engine ReceiveStatus := do
  if packet.payload.length > 0 then
    return .error
  else do
    modify (setResponseBuffer finds.found)
    if (← get).ctx.responseBuffer.isSome then
      modify useResponseBuffer
      if finds.alreadyProvided then
        modify fun state => state.coapClearTransaction state.ctx.transaction
        return .skipDuplicateMessage
      else if !finds.dispatched then
        return .error
      else
        onlyIf (!finds.more) (separateResponse finds.code)
        modify useResponseBuffer
        return .success
    else if packet.block2.num ≠ 0 then
      return .error
    else
      return .invokeHandler

/-- `coap_receive_blockwise` -/
def coapReceiveBlockwise (message : Inbound) (packet : InPacket) :
    Engine ReceiveStatus :=
  if packet.isOption CoapOption.block1 then
    if packet.code = 2 ∨ packet.code = 3 then
      coapReceiveBlockwiseBlock1 packet message.block1Finds
    else pure .error
  else
    coapReceiveBlockwiseBlock2 packet message.block2Finds

def hasBlockOption (packet : InPacket) : Bool :=
  packet.isOption CoapOption.block1 || packet.isOption CoapOption.block2

/-- The request buffer of a request without block options.  The result says
if it could be created. -/
def createRequestBuffer (finds : PayloadFinds) : Engine Bool := do
  modify (setRequestBuffer finds.foundRequest)
  onlyIf (← get).ctx.requestBuffer.isSome do
    modify useRequestBuffer
    modify (setRequestBuffer none)
  modify (setRequestBuffer finds.createdRequest)
  modify useRequestBuffer
  return (← get).ctx.requestBuffer.isSome

/-- The response buffer of an earlier request is freed, unless the request is
a repetition by multicast. -/
def dropResponseBuffer (message : Inbound) (finds : PayloadFinds) :
    Engine ReceiveStatus := do
  modify (setResponseBuffer finds.foundResponse)
  if (← get).ctx.responseBuffer.isSome then
    modify useResponseBuffer
    if message.peer.multicast && finds.unfinished then
      modify fun state => { state with status := .clearTransaction }
      return .success
    else
      modify (setResponseBuffer none)
      return .invokeHandler
  else return .invokeHandler

/-- `coap_receive_method_payload` -/
def coapReceiveMethodPayload (message : Inbound) (packet : InPacket) :
    Engine ReceiveStatus := do
  let finds := message.payloadFinds
  if hasBlockOption packet then
    coapReceiveBlockwise message packet
  else if !message.mainInitialized then
    return .error
  else if finds.resetInProgress && !message.peer.endpoint.secured then
    return .error
  else if !finds.validSize then
    return .error
  else if packet.payload.length > 0 then
    if ← createRequestBuffer finds then
      dropResponseBuffer message finds
    else return .error
  else dropResponseBuffer message finds

/-- Both buffers lose their reference. -/
def releaseBuffers : Engine Unit := do
  modify useRequestBuffer
  modify useResponseBuffer

/-- `coap_receive_set_response_by_handler` -/
def coapReceiveSetResponseByHandler (handler : HandlerFinds) :
    Engine UInt8 := do
  modify useRequestBuffer
  onlyIf handler.takesRequest (modify (setRequestBuffer none))
  modify (setResponseBuffer handler.responseBuffer)
  onlyIf handler.separate
    (modify fun state => { state with status := .clearTransaction })
  modify fun state => { state with response.code := handler.code }
  if !handler.result || handler.code = 67 then
    releaseBuffers
    return handler.code
  else
    modify useResponseBuffer
    return handler.code

/-- `coap_receive_request_with_method` -/
def coapReceiveRequestWithMethod (message : Inbound) (packet : InPacket)
    (href : Bytes) : Engine ReceiveStatus := do
  let initialised ← coapReceiveInitResponse message packet href
  if initialised = .skipDuplicateMessage then
    return .skipDuplicateMessage
  else do
    modify fun state => state.newTransaction message state.response.mid
    if (← get).ctx.transaction.isNone then
      return .error
    else if message.headerCode ≠ 0 then
      releaseBuffers
      return .success
    else do
      let ret ← coapReceiveMethodPayload message packet
      if ret ≠ .invokeHandler then
        return ret
      else do
        let code ← coapReceiveSetResponseByHandler message.handler
        if code ≠ 0 then return .success else return .sendResetMessage

/-- `coap_receive_invoke_client_cb` -/
def coapReceiveInvokeClientCb (client : ClientFinds) :
    Engine ReceiveStatus := do
  releaseBuffers
  onlyIf (!client.responseAfterInvoke) (modify (setResponseBuffer none))
  onlyIf (client.clientCbValid && !client.separate) (modify useResponseBuffer)
  return .success

/-- The request buffer of a response is looked up by the client callback, or
else by mid and token. -/
def findRequestBuffer (client : ClientFinds) (clientCb : Bool) :
    Engine Unit :=
  modify (setRequestBuffer
    (if clientCb then client.requestByClientCb
      else client.requestByMid <|> client.requestByToken))

/-- The response buffer of a response; for a client callback one is
allocated. -/
def findResponseBuffer (client : ClientFinds) (clientCb : Bool) :
    Engine Unit := do
  modify (setResponseBuffer
    (if clientCb then
        client.responseByClientCb <|> client.responseAllocated
      else client.responseByMid <|> client.responseByToken))
  modify useResponseBuffer

/-- The next block of a request is sent.  The result says if it is on its
way. -/
def dispatchRequestBlock (message : Inbound) (mid : UInt16) :
    Engine Bool := do
  modify useRequestBuffer
  if message.client.requestDispatched then
    modify (newTransaction message mid)
    if (← get).ctx.transaction.isSome then
      modify fun state =>
        { state with response := coapUdpInitMessage .con 0 mid }
      modify useRequestBuffer
      return true
    else return false
  else return false

/-- The next block of a response is requested. -/
def requestNextBlock (message : Inbound) (packet : InPacket) (mid : UInt16) :
    Engine Bool := do
  modify useResponseBuffer
  if message.client.blockHandled &&
      packet.isOption CoapOption.block2 && packet.block2.more ≠ 0 then
    modify (newTransaction message mid)
    if (← get).ctx.transaction.isSome then
      modify fun state =>
        { state with response := coapUdpInitMessage .con 0 mid }
      modify useResponseBuffer
      return true
    else return false
  else return false

/-- The second half of `coap_receive_request_with_code`: the response buffer
and the client callback. -/
def receiveResponse (message : Inbound) (packet : InPacket) (mid : UInt16)
    (clientCb errorResponse : Bool) : Engine ReceiveStatus := do
  findResponseBuffer message.client clientCb
  if !errorResponse && (← get).ctx.responseBuffer.isSome then
    if ← requestNextBlock message packet mid then
      return .success
    else if message.client.responseClientCb then
      coapReceiveInvokeClientCb message.client
    else return .sendResetMessage
  else if clientCb then
    coapReceiveInvokeClientCb message.client
  else return .sendResetMessage

/-- `coap_receive_request_with_code`.  The empty acknowledgement of a CON and
the removal of observers after a RST touch neither transactions nor buffers. -/
def coapReceiveRequestWithCode (message : Inbound) (packet : InPacket) :
    Engine ReceiveStatus := do
  let mid ← coapGetMid
  let client := message.client
  let clientCb := packet.type ≠ .rst && client.clientCb
  let errorResponse := packet.type ≠ .rst && 128 ≤ packet.code &&
    packet.code ≠ 141
  findRequestBuffer client clientCb
  let block1 := packet.isOption CoapOption.block1 || packet.code = 141
  if !errorResponse && block1 && (← get).ctx.requestBuffer.isSome then
    if ← dispatchRequestBlock message mid then
      return .success
    else
      modify useRequestBuffer
      onlyIf (!client.requestDispatched || client.requestUnreferenced)
        (modify (setRequestBuffer none))
      receiveResponse message packet mid client.requestClientCb errorResponse
  else
    modify useRequestBuffer
    onlyIf (client.requestUnreferenced || errorResponse)
      (modify (setRequestBuffer none))
    receiveResponse message packet mid clientCb errorResponse

/-- `coap_receive` -/
def coapReceive (message : Inbound) (packet : InPacket) (href : Bytes) :
    Engine ReceiveStatus :=
  if coapIsMethod packet.code then
    coapReceiveRequestWithMethod message packet href
  else coapReceiveRequestWithCode message packet

/-- The token a response gets in `coap_send_response`. -/
def setResponseToken (message : Inbound) (packet : InPacket) :
    Engine Unit := do
  let token := packet.token
  if (← get).response.type = .rst || token = [] then
    pure ()
  else if coapIsMethod packet.code then
    modify fun state =>
      { state with response := coapSetToken state.response token }
  else do
    modify useResponseBuffer
    if (← get).ctx.responseBuffer.isSome && message.observing then
      modify fun state =>
        { state with response := coapSetToken state.response message.newToken }
      releaseBuffers
    else
      modify fun state =>
        { state with response := coapSetToken state.response token }

/-- Token and message are written into the transaction of the context. -/
def writeTransaction (state : EngineState) : EngineState :=
  state.updateTransaction state.ctx.transaction fun transaction =>
    { transaction with
      token :=
        if state.response.token = [] then transaction.token
        else state.response.token
      answers := state.count }

/-- `coap_send_response` -/
def coapSendResponse (message : Inbound) (packet : InPacket) :
    Engine Unit := do
  if (← get).status = .clearTransaction then
    modify fun state => state.coapClearTransaction state.ctx.transaction
    modify fun state => { state with status := .parsed .noError }
  else if (← get).ctx.transaction.isNone then
    pure ()
  else do
    setResponseToken message packet
    modify writeTransaction
    if message.serialized then
      modify (EngineState.coapSendTransaction message)
    else
      modify fun state => state.coapClearTransaction state.ctx.transaction

/-- What follows the label `receive_result`. -/
def receiveResult (message : Inbound) (packet : InPacket)
    (ret : ReceiveStatus) : Engine Unit := do
  onlyIf (ret = .error || ret = .sendResetMessage) do
    releaseBuffers
    modify fun state => { state with
      response :=
        if message.peer.tcp then coapTcpInitMessage 160
        else coapUdpInitMessage .rst 0 packet.mid }
  if ret = .skipDuplicateMessage then
    pure ()
  else coapSendResponse message packet

/-- `coap_signal_handle_message`; the result says if the message is done. -/
def coapSignalHandleMessage (message : Inbound) (signal : CoapSignal) :
    Engine Bool :=
  match signal with
  | .pong => return false
  | .release => do
      modify (ocCloseSession message)
      return true
  | .csm | .ping | .abort => return true

/-- The part of `coap_process_inbound_message` after the signals.  Over TCP a
block option leads past the statement that clears the context. -/
def receiveMessage (message : Inbound) (packet : InPacket) (href : Bytes) :
    Engine Unit := do
  if message.peer.tcp && hasBlockOption packet then
    receiveResult message packet .error
  else do
    modify fun state => { state with ctx := .null }
    let ret ← coapReceive message packet href
    receiveResult message packet ret

/-- The statements of `coap_process_inbound_message` for a message that could
be parsed. -/
def processParsed (message : Inbound) (packet : InPacket) (href : Bytes) :
    Engine Unit := do
  onlyIf (!message.peer.tcp) (modify (clearAcknowledged packet.mid))
  match coapSignal packet.code with
  | none => receiveMessage message packet href
  | some signal => do
      if ← coapSignalHandleMessage message signal then
        pure ()
      else receiveMessage message packet href

/-- `coap_process_invalid_inbound_message` -/
def coapProcessInvalidInboundMessage (message : Inbound) : Engine Unit :=
  if message.peer.tcp then modify (ocCloseSession message) else pure ()

def beginMessage (status : CoapStatus) (state : EngineState) : EngineState :=
  { state with status := .parsed status, count := state.count + 1, uses := [] }

/-- `coap_process_inbound_message` -/
def coapProcessInboundMessage (config : CoapConfig) (message : Inbound) :
    Engine GlobalStatus := do
  let result := coapParseInboundMessage config message
  modify (beginMessage result.status)
  if result.status ≠ .noError then
    coapProcessInvalidInboundMessage message
    return .parsed result.status
  else
    processParsed message result.packet
      (result.memory.text result.packet.uriPath)
    return (← get).status

end Engine

end IotivityLite
