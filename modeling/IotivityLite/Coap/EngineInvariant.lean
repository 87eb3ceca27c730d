import IotivityLite.Coap.Engine

/-!
# Invariants of the engine

The processing of a message is put together from a few statements that touch
the static variables.  An invariant that these statements keep is kept by
everything that follows the clearing of the receive context, whatever the
message is and whatever its processing finds.
-/

namespace IotivityLite

theorem EngineState.coapSendTransaction_cases {motive : EngineState → Prop}
    (message : Inbound) (state : EngineState) (unchanged : motive state)
    (used : motive state.useTransaction)
    (cleared : motive (state.coapClearTransaction state.ctx.transaction))
    (waits : ∀ interval : OpenTransaction → Nat,
      motive (state.updateTransaction state.ctx.transaction fun transaction =>
        { transaction with interval := interval transaction }))
    (closed : ∀ transaction, state.ctxTransaction = some transaction →
      state.confirmable transaction = true →
      motive (state.useTransaction.coapFreeTransactionsByEndpoint
        transaction.peer)) : motive (state.coapSendTransaction message) := by
  unfold coapSendTransaction
  split
  · exact unchanged
  split
  · exact used
  case h_2 transaction found =>
    split
    · exact cleared
    case isFalse confirmable =>
      split
      · exact waits _
      split
      · split
        · refine closed transaction found ?_
          simpa using confirmable
        · exact used
      · exact cleared

/-- The statements that send a response keep the invariant. -/
structure ResultInvariant (message : Inbound)
    (invariant : EngineState → Prop) : Prop where
  useRequestBuffer : ∀ state, invariant state →
    invariant state.useRequestBuffer
  useResponseBuffer : ∀ state, invariant state →
    invariant state.useResponseBuffer
  clearTransaction : ∀ state, invariant state →
    invariant (state.coapClearTransaction state.ctx.transaction)
  writeTransaction : ∀ state, invariant state →
    invariant (Engine.writeTransaction state)
  sendTransaction : ∀ state, invariant state →
    invariant (state.coapSendTransaction message)
  response : ∀ response state, invariant state →
    invariant { state with response }
  status : ∀ status state, invariant state → invariant { state with status }

/-- All statements on the static variables keep the invariant. -/
structure EngineInvariant (message : Inbound)
    (invariant : EngineState → Prop) : Prop
    extends ResultInvariant message invariant where
  setRequestBuffer : ∀ address state, invariant state →
    invariant (state.setRequestBuffer address)
  setResponseBuffer : ∀ address state, invariant state →
    invariant (state.setResponseBuffer address)
  newTransaction : ∀ mid state, invariant state →
    invariant (state.newTransaction message mid)
  setMid : ∀ mid state, invariant state →
    invariant (state.updateTransaction state.ctx.transaction
      fun transaction => { transaction with mid })
  currentMid : ∀ currentMid state, invariant state →
    invariant { state with currentMid }
  history : ∀ history state, invariant state → invariant { state with history }

variable {message : Inbound} {invariant : EngineState → Prop}

namespace ResultInvariant

section

variable (keeps : ResultInvariant message invariant)

include keeps

theorem releaseBuffers : Keeps invariant Engine.releaseBuffers := by
  refine keeps_bind (keeps_modify keeps.useRequestBuffer) fun _ => ?_
  exact keeps_modify keeps.useResponseBuffer

theorem setResponseToken (packet : InPacket) :
    Keeps invariant (Engine.setResponseToken message packet) := by
  have answer : ∀ token, Keeps invariant
      (modify fun state : EngineState =>
        { state with response := coapSetToken state.response token }) :=
    fun token => keeps_modify fun state => keeps.response _ state
  refine keeps_bind keeps_get fun _ => keeps_ite (keeps_pure _) ?_
  refine keeps_ite (answer _) ?_
  refine keeps_bind (keeps_modify keeps.useResponseBuffer) fun _ => ?_
  refine keeps_bind keeps_get fun _ => keeps_ite ?_ (answer _)
  exact keeps_bind (answer _) fun _ => keeps.releaseBuffers

theorem coapSendResponse (packet : InPacket) :
    Keeps invariant (Engine.coapSendResponse message packet) := by
  have clears := keeps_modify keeps.clearTransaction
  refine keeps_bind keeps_get fun _ => keeps_ite ?_ ?_
  · exact keeps_bind clears fun _ => keeps_modify (keeps.status _)
  refine keeps_bind keeps_get fun _ => keeps_ite (keeps_pure _) ?_
  refine keeps_bind (keeps.setResponseToken packet) fun _ => ?_
  refine keeps_bind (keeps_modify keeps.writeTransaction) fun _ => ?_
  exact keeps_ite (keeps_modify keeps.sendTransaction) clears

theorem receiveResult (packet : InPacket) (ret : ReceiveStatus) :
    Keeps invariant (Engine.receiveResult message packet ret) := by
  refine keeps_bind ?_ fun _ => ?_
  · refine keeps_onlyIf ?_
    refine keeps_bind keeps.releaseBuffers fun _ => ?_
    exact keeps_modify (keeps.response _)
  · exact keeps_ite (keeps_pure _) (keeps.coapSendResponse packet)

end

end ResultInvariant

namespace EngineInvariant

section

variable (keeps : EngineInvariant message invariant)

include keeps

theorem coapGetMid : Keeps invariant Engine.coapGetMid := by
  refine keeps_bind (keeps_modify fun state => ?_) fun _ => ?_
  · exact keeps.currentMid _ state
  · exact keeps_bind keeps_get fun _ => keeps_pure _

variable (packet : InPacket)

theorem coapReceiveInitResponse (href : Bytes) :
    Keeps invariant (Engine.coapReceiveInitResponse message packet href) := by
  have answer : ∀ response, Keeps invariant
      (modify fun state : EngineState => { state with response }) :=
    fun response => keeps_modify (keeps.response response)
  refine keeps_ite ?_ (keeps_ite ?_ ?_)
  · exact keeps_bind (answer _) fun _ => keeps_pure _
  · exact keeps_bind (answer _) fun _ => keeps_pure _
  · refine keeps_bind keeps_get fun _ => keeps_ite (keeps_pure _) ?_
    refine keeps_bind (keeps_modify fun state => keeps.history _ state)
      fun _ => ?_
    refine keeps_bind keeps.coapGetMid fun _ => ?_
    exact keeps_bind (answer _) fun _ => keeps_pure _

theorem separateResponse (code : UInt8) :
    Keeps invariant (Engine.separateResponse code) := by
  refine keeps_bind keeps.coapGetMid fun mid => ?_
  refine keeps_bind (keeps_modify (keeps.response _)) fun _ => ?_
  exact keeps_modify (keeps.setMid mid)

theorem coapReceiveBlockwiseBlock1 (finds : Block1Finds) :
    Keeps invariant (Engine.coapReceiveBlockwiseBlock1 packet finds) := by
  have uses := keeps_modify keeps.useRequestBuffer
  have sets : ∀ address, Keeps invariant
      (modify (EngineState.setRequestBuffer address)) :=
    fun address => keeps_modify (keeps.setRequestBuffer address)
  refine keeps_bind (sets _) fun _ => keeps_bind uses fun _ => ?_
  refine keeps_bind keeps_get fun _ => keeps_bind ?_ fun _ => ?_
  · exact keeps_onlyIf (keeps_bind uses fun _ => sets _)
  refine keeps_bind keeps_get fun _ => keeps_bind ?_ fun _ => ?_
  · exact keeps_onlyIf (keeps_bind (sets _) fun _ => uses)
  refine keeps_bind keeps_get fun _ => keeps_ite (keeps_pure _) ?_
  refine keeps_bind uses fun _ => keeps_ite (keeps_pure _) (keeps_ite ?_ ?_)
  · refine keeps_bind (keeps_modify fun state => keeps.response _ state)
      fun _ => ?_
    exact keeps_bind uses fun _ => keeps_pure _
  · refine keeps_bind (keeps.separateResponse _) fun _ => ?_
    exact keeps_bind uses fun _ => keeps_pure _

theorem coapReceiveBlockwiseBlock2 (finds : Block2Finds) :
    Keeps invariant (Engine.coapReceiveBlockwiseBlock2 packet finds) := by
  have uses := keeps_modify keeps.useResponseBuffer
  refine keeps_ite (keeps_pure _) ?_
  refine keeps_bind (keeps_modify (keeps.setResponseBuffer _)) fun _ => ?_
  refine keeps_bind keeps_get fun _ => keeps_ite ?_ ?_
  · refine keeps_bind uses fun _ => keeps_ite ?_ (keeps_ite ?_ ?_)
    · refine keeps_bind ?_ fun _ => keeps_pure _
      exact keeps_modify keeps.clearTransaction
    · exact keeps_pure _
    · refine keeps_bind ?_ fun _ => keeps_bind uses fun _ => keeps_pure _
      exact keeps_onlyIf (keeps.separateResponse _)
  · exact keeps_ite (keeps_pure _) (keeps_pure _)

theorem coapReceiveBlockwise :
    Keeps invariant (Engine.coapReceiveBlockwise message packet) := by
  refine keeps_ite (keeps_ite ?_ (keeps_pure _)) ?_
  · exact keeps.coapReceiveBlockwiseBlock1 packet _
  · exact keeps.coapReceiveBlockwiseBlock2 packet _

theorem createRequestBuffer (finds : PayloadFinds) :
    Keeps invariant (Engine.createRequestBuffer finds) := by
  have uses := keeps_modify keeps.useRequestBuffer
  have sets : ∀ address, Keeps invariant
      (modify (EngineState.setRequestBuffer address)) :=
    fun address => keeps_modify (keeps.setRequestBuffer address)
  refine keeps_bind (sets _) fun _ => ?_
  refine keeps_bind keeps_get fun _ => keeps_bind ?_ fun _ => ?_
  · exact keeps_onlyIf (keeps_bind uses fun _ => sets _)
  · refine keeps_bind (sets _) fun _ => keeps_bind uses fun _ => ?_
    exact keeps_bind keeps_get fun _ => keeps_pure _

theorem dropResponseBuffer (finds : PayloadFinds) :
    Keeps invariant (Engine.dropResponseBuffer message finds) := by
  have sets : ∀ address, Keeps invariant
      (modify (EngineState.setResponseBuffer address)) :=
    fun address => keeps_modify (keeps.setResponseBuffer address)
  refine keeps_bind (sets _) fun _ => ?_
  refine keeps_bind keeps_get fun _ => keeps_ite ?_ (keeps_pure _)
  refine keeps_bind (keeps_modify keeps.useResponseBuffer) fun _ => ?_
  refine keeps_ite ?_ ?_
  · exact keeps_bind (keeps_modify (keeps.status _)) fun _ => keeps_pure _
  · exact keeps_bind (sets _) fun _ => keeps_pure _

theorem coapReceiveMethodPayload :
    Keeps invariant (Engine.coapReceiveMethodPayload message packet) := by
  have drops := keeps.dropResponseBuffer message.payloadFinds
  refine keeps_ite (keeps.coapReceiveBlockwise packet) ?_
  refine keeps_ite (keeps_pure _) (keeps_ite (keeps_pure _) ?_)
  refine keeps_ite (keeps_pure _) (keeps_ite ?_ drops)
  refine keeps_bind (keeps.createRequestBuffer _) fun created => ?_
  exact keeps_ite drops (keeps_pure _)

theorem coapReceiveSetResponseByHandler (handler : HandlerFinds) :
    Keeps invariant (Engine.coapReceiveSetResponseByHandler handler) := by
  refine keeps_bind (keeps_modify keeps.useRequestBuffer) fun _ => ?_
  refine keeps_bind ?_ fun _ => ?_
  · exact keeps_onlyIf (keeps_modify (keeps.setRequestBuffer _))
  refine keeps_bind (keeps_modify (keeps.setResponseBuffer _)) fun _ => ?_
  refine keeps_bind ?_ fun _ => ?_
  · exact keeps_onlyIf (keeps_modify (keeps.status _))
  refine keeps_bind (keeps_modify fun state => keeps.response _ state)
    fun _ => keeps_ite ?_ ?_
  · exact keeps_bind keeps.releaseBuffers fun _ => keeps_pure _
  · exact keeps_bind (keeps_modify keeps.useResponseBuffer)
      fun _ => keeps_pure _

theorem coapReceiveRequestWithMethod (href : Bytes) :
    Keeps invariant
      (Engine.coapReceiveRequestWithMethod message packet href) := by
  refine keeps_bind (keeps.coapReceiveInitResponse packet href) fun _ => ?_
  refine keeps_ite (keeps_pure _) ?_
  refine keeps_bind
    (keeps_modify fun state => keeps.newTransaction _ state) fun _ => ?_
  refine keeps_bind keeps_get fun _ => keeps_ite (keeps_pure _) ?_
  refine keeps_ite ?_ ?_
  · exact keeps_bind keeps.releaseBuffers fun _ => keeps_pure _
  refine keeps_bind (keeps.coapReceiveMethodPayload packet) fun _ => ?_
  refine keeps_ite (keeps_pure _) ?_
  refine keeps_bind (keeps.coapReceiveSetResponseByHandler _) fun _ => ?_
  exact keeps_ite (keeps_pure _) (keeps_pure _)

theorem coapReceiveInvokeClientCb (client : ClientFinds) :
    Keeps invariant (Engine.coapReceiveInvokeClientCb client) := by
  refine keeps_bind keeps.releaseBuffers fun _ => ?_
  refine keeps_bind ?_ fun _ => keeps_bind ?_ fun _ => keeps_pure _
  · exact keeps_onlyIf (keeps_modify (keeps.setResponseBuffer _))
  · exact keeps_onlyIf (keeps_modify keeps.useResponseBuffer)

theorem findResponseBuffer (client : ClientFinds) (clientCb : Bool) :
    Keeps invariant (Engine.findResponseBuffer client clientCb) := by
  refine keeps_bind (keeps_modify (keeps.setResponseBuffer _)) fun _ => ?_
  exact keeps_modify keeps.useResponseBuffer

theorem dispatchRequestBlock (mid : UInt16) :
    Keeps invariant (Engine.dispatchRequestBlock message mid) := by
  have uses := keeps_modify keeps.useRequestBuffer
  refine keeps_bind uses fun _ => keeps_ite ?_ (keeps_pure _)
  refine keeps_bind (keeps_modify (keeps.newTransaction mid)) fun _ => ?_
  refine keeps_bind keeps_get fun _ => keeps_ite ?_ (keeps_pure _)
  refine keeps_bind (keeps_modify (keeps.response _)) fun _ => ?_
  exact keeps_bind uses fun _ => keeps_pure _

theorem requestNextBlock (mid : UInt16) :
    Keeps invariant (Engine.requestNextBlock message packet mid) := by
  have uses := keeps_modify keeps.useResponseBuffer
  refine keeps_bind uses fun _ => keeps_ite ?_ (keeps_pure _)
  refine keeps_bind (keeps_modify (keeps.newTransaction mid)) fun _ => ?_
  refine keeps_bind keeps_get fun _ => keeps_ite ?_ (keeps_pure _)
  refine keeps_bind (keeps_modify (keeps.response _)) fun _ => ?_
  exact keeps_bind uses fun _ => keeps_pure _

theorem receiveResponse (mid : UInt16) (clientCb errorResponse : Bool) :
    Keeps invariant
      (Engine.receiveResponse message packet mid clientCb errorResponse) := by
  have invokes := keeps.coapReceiveInvokeClientCb message.client
  refine keeps_bind (keeps.findResponseBuffer _ _) fun _ => ?_
  refine keeps_bind keeps_get fun _ => keeps_ite ?_ ?_
  · refine keeps_bind (keeps.requestNextBlock packet mid) fun _ => ?_
    refine keeps_ite (keeps_pure _) ?_
    exact keeps_ite invokes (keeps_pure _)
  · exact keeps_ite invokes (keeps_pure _)

theorem coapReceiveRequestWithCode :
    Keeps invariant (Engine.coapReceiveRequestWithCode message packet) := by
  have uses := keeps_modify keeps.useRequestBuffer
  have sets : ∀ address, Keeps invariant
      (modify (EngineState.setRequestBuffer address)) :=
    fun address => keeps_modify (keeps.setRequestBuffer address)
  refine keeps_bind keeps.coapGetMid fun mid => ?_
  refine keeps_bind (sets _) fun _ => ?_
  refine keeps_bind keeps_get fun _ => keeps_ite ?_ ?_
  · refine keeps_bind (keeps.dispatchRequestBlock mid) fun _ => ?_
    refine keeps_ite (keeps_pure _) (keeps_bind uses fun _ => ?_)
    refine keeps_bind ?_ fun _ => keeps.receiveResponse packet mid _ _
    exact keeps_onlyIf (sets _)
  · refine keeps_bind uses fun _ => ?_
    refine keeps_bind ?_ fun _ => keeps.receiveResponse packet mid _ _
    exact keeps_onlyIf (sets _)

theorem coapReceive (href : Bytes) :
    Keeps invariant (Engine.coapReceive message packet href) := by
  refine keeps_ite ?_ ?_
  · exact keeps.coapReceiveRequestWithMethod packet href
  · exact keeps.coapReceiveRequestWithCode packet

theorem receive (href : Bytes) :
    Keeps invariant (do
      let ret ← Engine.coapReceive message packet href
      Engine.receiveResult message packet ret) := by
  refine keeps_bind (keeps.coapReceive packet href) fun ret => ?_
  exact keeps.receiveResult packet ret

end

end EngineInvariant

end IotivityLite
