import IotivityLite.Coap.EngineInvariant

/-!
# Independence of inbound messages

The pointers that the engine uses while it handles a message should be ones
that were found or created for that message.  A message over TCP with a block
option jumps past the statement that clears the receive context, and so works
on the pointers of an earlier message.  The theorem says that this is the only
way: messages are independent in a run exactly if no such message meets a
context that still holds a pointer.
-/

namespace IotivityLite

inductive EngineEvent where
  /-- A message arrives. -/
  | inbound (message : Inbound)
  /-- Another part of the stack opens or closes transactions. -/
  | other (transactions : List OpenTransaction)

def engineStep (config : CoapConfig) (state : EngineState) :
    EngineEvent → EngineState
  | .inbound message =>
      finalState (Engine.coapProcessInboundMessage config message) state
  | .other transactions => { state with transactions }

/-- The static variables before the first message. -/
def EngineState.initial (currentMid : UInt16) : EngineState where
  ctx := .null
  response := .zero .null
  status := .parsed .noError
  currentMid := currentMid
  history := List.replicate 25 (0, 0)
  transactions := []
  count := 0
  uses := []

/-- Every pointer that is used for the message was found or created for it. -/
def OwnUses (config : CoapConfig) (state : EngineState) : EngineEvent → Prop
  | .inbound message =>
      ∀ pointer ∈ (engineStep config state (.inbound message)).uses,
        pointer.foundFor = state.count + 1
  | .other _ => True

/-- The message jumps over the statement that clears the context. -/
def skipsClearing (config : CoapConfig) (message : Inbound) : Bool :=
  let result := coapParseInboundMessage config message
  result.status == .noError && message.peer.tcp &&
    Engine.hasBlockOption result.packet &&
    (coapSignal result.packet.code == none ||
      coapSignal result.packet.code == some .pong)

/-- A message that skips the clearing meets an empty context. -/
def MeetsEmptyContext (config : CoapConfig) (state : EngineState) :
    EngineEvent → Prop
  | .inbound message =>
      skipsClearing config message = true → state.ctx.held = []
  | .other _ => True

/-- The pointers of the context and the pointers that were used stand for the
message in process. -/
structure Tagged (number : Nat) (state : EngineState) : Prop where
  count : state.count = number
  held : ∀ pointer ∈ state.ctx.held, pointer.foundFor = number
  uses : ∀ pointer ∈ state.uses, pointer.foundFor = number

variable {pointer : Held}

theorem ReceiveCtx.mem_held {ctx : ReceiveCtx} :
    pointer ∈ ctx.held ↔ ctx.transaction = some pointer ∨
      ctx.requestBuffer = some pointer ∨ ctx.responseBuffer = some pointer := by
  simp [ReceiveCtx.held]

namespace Tagged

variable {number : Nat} {state : EngineState}

section

variable (tagged : Tagged number state)

include tagged

theorem use {held : Option Held}
    (present : ∀ pointer ∈ held, pointer.foundFor = number) :
    Tagged number (state.use held) where
  count := tagged.count
  held := tagged.held
  uses := by
    intro pointer member
    rcases List.mem_append.mp member with before | now
    · exact tagged.uses pointer before
    · exact present pointer (Option.mem_toList.mp now)

theorem transaction :
    ∀ pointer ∈ state.ctx.transaction, pointer.foundFor = number := by
  intro pointer present
  exact tagged.held pointer (ReceiveCtx.mem_held.mpr (.inl present))

theorem requestBuffer :
    ∀ pointer ∈ state.ctx.requestBuffer, pointer.foundFor = number := by
  intro pointer present
  exact tagged.held pointer (ReceiveCtx.mem_held.mpr (.inr (.inl present)))

theorem responseBuffer :
    ∀ pointer ∈ state.ctx.responseBuffer, pointer.foundFor = number := by
  intro pointer present
  exact tagged.held pointer (ReceiveCtx.mem_held.mpr (.inr (.inr present)))

theorem withCtx {ctx : ReceiveCtx}
    (fresh : ∀ pointer ∈ ctx.held,
      pointer ∈ state.ctx.held ∨ pointer.foundFor = state.count) :
    Tagged number { state with ctx } where
  count := tagged.count
  held := by
    intro pointer member
    rcases fresh pointer member with old | new
    · exact tagged.held pointer old
    · rw [new]
      exact tagged.count
  uses := tagged.uses

theorem withTransactions (transactions : List OpenTransaction) :
    Tagged number { state with transactions } :=
  ⟨tagged.count, tagged.held, tagged.uses⟩

theorem clearTransaction {held : Option Held}
    (present : ∀ pointer ∈ held, pointer.foundFor = number) :
    Tagged number (state.coapClearTransaction held) :=
  (tagged.use present).withTransactions _

theorem updateTransaction (change : OpenTransaction → OpenTransaction) :
    Tagged number (state.updateTransaction state.ctx.transaction change) :=
  (tagged.use tagged.transaction).withTransactions _

theorem sendTransaction (message : Inbound) :
    Tagged number (state.coapSendTransaction message) := by
  have used : Tagged number state.useTransaction :=
    tagged.use tagged.transaction
  apply state.coapSendTransaction_cases message
  case unchanged => exact tagged
  case used => exact used
  case cleared => exact tagged.clearTransaction tagged.transaction
  case waits =>
    intro interval
    exact tagged.updateTransaction _
  case closed =>
    intro transaction _ _
    exact used.withTransactions _

theorem setRequestBuffer (address : Option Nat) :
    Tagged number (state.setRequestBuffer address) := by
  refine tagged.withCtx fun pointer member => ?_
  rcases ReceiveCtx.mem_held.mp member with old | new | old
  · exact .inl (ReceiveCtx.mem_held.mpr (.inl old))
  · obtain ⟨found, -, rfl⟩ := Option.map_eq_some_iff.mp new
    exact .inr rfl
  · exact .inl (ReceiveCtx.mem_held.mpr (.inr (.inr old)))

theorem setResponseBuffer (address : Option Nat) :
    Tagged number (state.setResponseBuffer address) := by
  refine tagged.withCtx fun pointer member => ?_
  rcases ReceiveCtx.mem_held.mp member with old | old | new
  · exact .inl (ReceiveCtx.mem_held.mpr (.inl old))
  · exact .inl (ReceiveCtx.mem_held.mpr (.inr (.inl old)))
  · obtain ⟨found, -, rfl⟩ := Option.map_eq_some_iff.mp new
    exact .inr rfl

theorem newTransaction (message : Inbound) (mid : UInt16) :
    Tagged number (state.newTransaction message mid) := by
  unfold EngineState.newTransaction
  split
  · refine tagged.withCtx fun pointer member => ?_
    rcases ReceiveCtx.mem_held.mp member with none | buffers
    · nomatch none
    · exact .inl (ReceiveCtx.mem_held.mpr (.inr buffers))
  · refine (tagged.withCtx fun pointer member => ?_).withTransactions _
    rcases ReceiveCtx.mem_held.mp member with new | buffers
    · cases new
      exact .inr rfl
    · exact .inl (ReceiveCtx.mem_held.mpr (.inr buffers))

end

end Tagged

theorem tagged_engineInvariant (message : Inbound) (number : Nat) :
    EngineInvariant message (Tagged number) where
  useRequestBuffer _ tagged := tagged.use tagged.requestBuffer
  useResponseBuffer _ tagged := tagged.use tagged.responseBuffer
  clearTransaction _ tagged := tagged.clearTransaction tagged.transaction
  writeTransaction _ tagged := tagged.updateTransaction _
  sendTransaction _ tagged := tagged.sendTransaction message
  response _ _ tagged := ⟨tagged.count, tagged.held, tagged.uses⟩
  status _ _ tagged := ⟨tagged.count, tagged.held, tagged.uses⟩
  setRequestBuffer address _ tagged := tagged.setRequestBuffer address
  setResponseBuffer address _ tagged := tagged.setResponseBuffer address
  newTransaction mid _ tagged := tagged.newTransaction message mid
  setMid _ _ tagged := tagged.updateTransaction _
  currentMid _ _ tagged := ⟨tagged.count, tagged.held, tagged.uses⟩
  history _ _ tagged := ⟨tagged.count, tagged.held, tagged.uses⟩

variable {state : EngineState}

theorem EngineState.mem_uses_use (member : pointer ∈ state.uses)
    (held : Option Held) : pointer ∈ (state.use held).uses :=
  List.mem_append_left _ member

theorem uses_resultInvariant (message : Inbound) (pointer : Held) :
    ResultInvariant message (pointer ∈ ·.uses) where
  useRequestBuffer _ member := EngineState.mem_uses_use member _
  useResponseBuffer _ member := EngineState.mem_uses_use member _
  clearTransaction _ member := EngineState.mem_uses_use member _
  writeTransaction _ member := EngineState.mem_uses_use member _
  sendTransaction state member := by
    have used := EngineState.mem_uses_use member state.ctx.transaction
    exact state.coapSendTransaction_cases (motive := (pointer ∈ ·.uses))
      message member used used (fun _ => used) fun _ _ _ => used
  response _ _ member := member
  status _ _ member := member

theorem ctx_resultInvariant (message : Inbound) (ctx : ReceiveCtx)
    (number : Nat) :
    ResultInvariant message
      fun state => state.ctx = ctx ∧ state.count = number where
  useRequestBuffer _ same := same
  useResponseBuffer _ same := same
  clearTransaction _ same := same
  writeTransaction _ same := same
  sendTransaction state same :=
    state.coapSendTransaction_cases
      (motive := fun after => after.ctx = ctx ∧ after.count = number)
      message same same same (fun _ => same) fun _ _ _ => same
  response _ _ same := same
  status _ _ same := same

variable {message : Inbound}

theorem coapSendResponse_of_written {invariant : EngineState → Prop}
    (keeps : ResultInvariant message invariant) {packet : InPacket}
    (status : state.status = .parsed .noError)
    (held : state.ctx.transaction = some pointer)
    (written : invariant (Engine.writeTransaction
      (finalState (Engine.setResponseToken message packet) state))) :
    invariant
      (finalState (Engine.coapSendResponse message packet) state) := by
  have notCleared : ¬ state.status = .clearTransaction := by
    rw [status]
    exact nofun
  have present : ¬ state.ctx.transaction.isNone = true := by
    rw [held]
    exact nofun
  unfold Engine.coapSendResponse
  rw [finalState_bind, finalState_get, finalResult_get, if_neg notCleared,
    finalState_bind, finalState_get, finalResult_get, if_neg present,
    finalState_bind, finalState_bind, finalState_modify]
  split
  · exact keeps.sendTransaction _ written
  · exact keeps.clearTransaction _ written

theorem mem_uses_coapSendResponse (message : Inbound) (packet : InPacket)
    (status : state.status = .parsed .noError)
    (held : state.ctx.transaction = some pointer) :
    pointer ∈
      (finalState (Engine.coapSendResponse message packet) state).uses := by
  apply coapSendResponse_of_written (uses_resultInvariant message pointer)
    status held
  obtain ⟨ctx, -⟩ := (ctx_resultInvariant message state.ctx
    state.count).setResponseToken packet state ⟨rfl, rfl⟩
  apply List.mem_append_right
  rw [ctx, held]
  exact List.mem_singleton_self pointer

theorem mem_uses_receiveResult (message : Inbound) (packet : InPacket)
    {pointer : Held} (status : state.status = .parsed .noError)
    (held : pointer ∈ state.ctx.held) :
    pointer ∈ (finalState
      (Engine.receiveResult message packet .error) state).uses := by
  have keepsUses := uses_resultInvariant message pointer
  rcases ReceiveCtx.mem_held.mp held with transaction | request | response
  · exact mem_uses_coapSendResponse message packet status transaction
  · apply keepsUses.coapSendResponse packet
    refine EngineState.mem_uses_use (List.mem_append_right _ ?_) _
    exact Option.mem_toList.mpr request
  · apply keepsUses.coapSendResponse packet
    exact List.mem_append_right _ (Option.mem_toList.mpr response)

/-- The message used its own pointers only, and it left the context as it was
or with its own pointers. -/
structure Independent (number : Nat) (before : ReceiveCtx)
    (state : EngineState) : Prop where
  count : state.count = number
  uses : ∀ pointer ∈ state.uses, pointer.foundFor = number
  ctx : state.ctx = before ∨
    ∀ pointer ∈ state.ctx.held, pointer.foundFor = number

namespace Independent

variable {number : Nat} {before : ReceiveCtx}

theorem begin (state : EngineState) (status : CoapStatus) :
    Independent (state.count + 1) state.ctx
      (Engine.beginMessage status state) :=
  ⟨rfl, nofun, .inl rfl⟩

section

variable (independent : Independent number before state)

include independent

theorem ocCloseSession (message : Inbound) :
    Independent number before (state.ocCloseSession message) := by
  unfold EngineState.ocCloseSession
  split
  · exact ⟨independent.count, independent.uses, independent.ctx⟩
  · exact independent

theorem clearAcknowledged (mid : UInt16) :
    Independent number before (state.clearAcknowledged mid) := by
  unfold EngineState.clearAcknowledged
  split
  · exact independent
  · refine ⟨independent.count, fun pointer member => ?_, independent.ctx⟩
    rcases List.mem_append.mp member with used | now
    · exact independent.uses pointer used
    · obtain rfl := Option.some.inj (Option.mem_toList.mp now)
      exact independent.count

theorem acknowledged (message : Inbound) (mid : UInt16) :
    Independent number before (finalState (onlyIf (!message.peer.tcp)
      (modify (EngineState.clearAcknowledged mid))) state) := by
  unfold onlyIf
  split
  · exact independent.clearAcknowledged mid
  · exact independent

theorem receiveMessage {packet : InPacket}
    (clears : (message.peer.tcp && Engine.hasBlockOption packet) = false)
    (href : Bytes) :
    Independent number before
      (finalState (Engine.receiveMessage message packet href) state) := by
  have cleared : Tagged number { state with ctx := .null } :=
    ⟨independent.count, nofun, independent.uses⟩
  unfold Engine.receiveMessage
  rw [clears, if_neg Bool.false_ne_true]
  have received := (tagged_engineInvariant message number).receive
    packet href _ cleared
  exact ⟨received.count, received.uses, .inr received.held⟩

end

end Independent

theorem engineStep_of_invalid {config : CoapConfig} (state : EngineState)
    (invalid : (coapParseInboundMessage config message).status ≠ .noError) :
    Independent (state.count + 1) state.ctx
      (engineStep config state (.inbound message)) := by
  have begun := Independent.begin state
    (coapParseInboundMessage config message).status
  simp only [engineStep, Engine.coapProcessInboundMessage, finalState_bind,
    finalState_modify, if_pos invalid, finalState_pure,
    Engine.coapProcessInvalidInboundMessage]
  split
  · exact begun.ocCloseSession message
  · exact begun

theorem engineStep_of_valid {config : CoapConfig} (state : EngineState)
    (valid : (coapParseInboundMessage config message).status = .noError) :
    ∃ href, engineStep config state (.inbound message) =
      finalState (Engine.processParsed message
          (coapParseInboundMessage config message).packet href)
        (Engine.beginMessage .noError state) := by
  refine ⟨(coapParseInboundMessage config message).memory.text
    (coapParseInboundMessage config message).packet.uriPath, ?_⟩
  simp only [engineStep, Engine.coapProcessInboundMessage, finalState_bind,
    finalState_modify, valid, ne_eq, not_true_eq_false, if_false,
    finalState_get, finalState_pure]

theorem engineStep_of_skipsClearing {config : CoapConfig} (state : EngineState)
    (skips : skipsClearing config message = true) :
    engineStep config state (.inbound message) =
      finalState (Engine.receiveResult message
          (coapParseInboundMessage config message).packet .error)
        (Engine.beginMessage .noError state) := by
  simp only [skipsClearing, Bool.and_eq_true, Bool.or_eq_true,
    beq_iff_eq] at skips
  obtain ⟨⟨⟨valid, tcp⟩, block⟩, signal⟩ := skips
  obtain ⟨href, step⟩ := engineStep_of_valid state valid
  have received : ∀ before, finalState (Engine.receiveMessage message
      (coapParseInboundMessage config message).packet href) before =
      finalState (Engine.receiveResult message
        (coapParseInboundMessage config message).packet .error) before := by
    intro before
    unfold Engine.receiveMessage
    rw [tcp, block, if_pos (by rfl)]
  rw [step]
  unfold Engine.processParsed
  rw [finalState_bind, tcp]
  rcases signal with none | pong
  · rw [none]
    exact received _
  · rw [pong]
    exact received _

theorem engineStep_of_clears {config : CoapConfig} (state : EngineState)
    (clears : skipsClearing config message = false) :
    Independent (state.count + 1) state.ctx
      (engineStep config state (.inbound message)) := by
  by_cases valid : (coapParseInboundMessage config message).status = .noError
  case neg => exact engineStep_of_invalid state valid
  obtain ⟨href, step⟩ := engineStep_of_valid state valid
  have begun := (Independent.begin state .noError).acknowledged message
    (coapParseInboundMessage config message).packet.mid
  rw [step]
  unfold Engine.processParsed
  rw [finalState_bind]
  cases signal : coapSignal (coapParseInboundMessage config message).packet.code
    with
  | none =>
      refine begun.receiveMessage ?_ href
      simpa [skipsClearing, valid, signal] using clears
  | some kind =>
      cases kind with
      | pong =>
          refine begun.receiveMessage ?_ href
          simpa [skipsClearing, valid, signal] using clears
      | release => exact begun.ocCloseSession message
      | csm => exact begun
      | ping => exact begun
      | abort => exact begun

/-- The pointers of the context were found for messages that came before. -/
def EngineState.Past (state : EngineState) : Prop :=
  ∀ pointer ∈ state.ctx.held, pointer.foundFor ≤ state.count

theorem engineStep_past {config : CoapConfig} (past : state.Past)
    (event : EngineEvent) : (engineStep config state event).Past := by
  cases event with
  | other transactions => exact past
  | inbound message =>
      cases skips : skipsClearing config message with
      | false =>
          have independent := engineStep_of_clears state skips
          intro pointer member
          rw [independent.count]
          rcases independent.ctx with same | own
          · rw [same] at member
            exact Nat.le_succ_of_le (past pointer member)
          · exact Nat.le_of_eq (own pointer member)
      | true =>
          have kept := (ctx_resultInvariant message state.ctx
            (state.count + 1)).receiveResult
              (coapParseInboundMessage config message).packet .error
              (Engine.beginMessage .noError state) ⟨rfl, rfl⟩
          rw [← engineStep_of_skipsClearing state skips] at kept
          intro pointer member
          rw [kept.1] at member
          rw [kept.2]
          exact Nat.le_succ_of_le (past pointer member)

theorem ownUses_iff {config : CoapConfig} (past : state.Past)
    (event : EngineEvent) :
    OwnUses config state event ↔ MeetsEmptyContext config state event := by
  cases event with
  | other transactions => exact Iff.rfl
  | inbound message =>
      constructor
      · intro own skips
        apply List.eq_nil_iff_forall_not_mem.mpr
        intro pointer held
        have used : pointer ∈
            (engineStep config state (.inbound message)).uses := by
          rw [engineStep_of_skipsClearing state skips]
          exact mem_uses_receiveResult message _ rfl held
        have number := own pointer used
        have earlier := past pointer held
        omega
      · intro meets
        cases skips : skipsClearing config message with
        | false => exact (engineStep_of_clears state skips).uses
        | true =>
            have empty : state.ctx.held = [] := meets skips
            have tagged : Tagged (state.count + 1)
                (Engine.beginMessage .noError state) := by
              refine ⟨rfl, ?_, nofun⟩
              intro pointer member
              rw [show (Engine.beginMessage .noError state).ctx.held = []
                from empty] at member
              nomatch member
            have received := (tagged_engineInvariant message
              (state.count + 1)).receiveResult
                (coapParseInboundMessage config message).packet .error _ tagged
            rw [← engineStep_of_skipsClearing state skips] at received
            exact received.uses

/-- The messages of a run are processed independently of each other exactly if
every message that skips the clearing of the context meets an empty one. -/
theorem ownUses_run_iff (config : CoapConfig) (mid : UInt16)
    (events : List EngineEvent) :
    Along (engineStep config) (OwnUses config) (.initial mid) events ↔
      Along (engineStep config) (MeetsEmptyContext config) (.initial mid)
        events := by
  have start : (EngineState.initial mid).Past := nofun
  exact Along.congr_iff_of_invariant start
    (fun state event past => ownUses_iff past event)
    (fun state event past _ => engineStep_past past event)

namespace StaleContext

def config : CoapConfig where
  ocTcp := true
  ocOscore := false
  ocSpecVerOic := false
  ocJsonEncoder := false
  ocWkcore := false
  ocBlockWise := true
  ocEtag := false
  ocEtagIncrementalChanges := false
  ocTest := false
  ocBlockSize := 1024

/-- An address beyond all that are in use. -/
def freeMemory : TransactionMemory where
  allocate used := some (used.sum + 1)
  unused used address found := by
    cases found
    intro member
    have bound := List.le_sum_of_mem member
    omega

/-- A message for a resource that does not exist. -/
def arrives (tcp : Bool) (route : Nat) (data : Bytes) : Inbound where
  peer := ⟨⟨0, false, route, 0, .nil⟩, tcp, false⟩
  data := data
  memory := freeMemory
  mainInitialized := true
  closesPeer := false
  headerCode := 132
  block1Finds := ⟨none, false, none, false⟩
  block2Finds := ⟨none, 0, false, false, false⟩
  payloadFinds := ⟨false, true, none, none, none, false⟩
  handler := ⟨true, 69, false, none, false⟩
  client := ⟨false, none, none, none, false, false, false, none, none, none,
    none, false, false, false, false, false⟩
  observing := false
  newToken := []
  serialized := true
  randomInterval := 2000

/-- A confirmable GET over UDP. -/
def udpGet : Inbound := arrives false 1 [0x40, 0x01, 0x12, 0x34]

/-- A GET over TCP with a block2 option. -/
def tcpBlockGet : Inbound := arrives true 2 [0x30, 0x01, 0xD1, 0x0A, 0x00]

end StaleContext

open StaleContext in
/-- The answer to the GET over TCP is written to the transaction that was
created for the GET over UDP, and freed since. -/
theorem not_ownUses_of_jump :
    ¬ Along (engineStep config) (OwnUses config) (.initial 0)
      [.inbound udpGet, .inbound tcpBlockGet] := by
  rintro ⟨-, second, -⟩
  have used : (⟨1, 1⟩ : Held) ∈ (engineStep config
      (engineStep config (.initial 0) (.inbound udpGet))
      (.inbound tcpBlockGet)).uses := by
    decide
  exact absurd (second _ used) (by decide)

end IotivityLite
