import IotivityLite.Coap.ReceiveContext

/-!
# Transactions and their endpoints

An inbound message should close transactions of its sender only.  Over UDP
the engine clears the first open transaction that has the mid of the message,
whoever its peer is, and over TCP a message with a block option may send the
transaction of an earlier message.  The theorem says exactly when the
transactions of other endpoints stay as they are.
-/

namespace IotivityLite

/-- An engine between two messages: transactions have different addresses, and
their contents were written for messages that came before. -/
structure OpenEngine where
  state : EngineState
  distinct : state.addresses.Nodup
  answered : ∀ transaction ∈ state.transactions,
    transaction.answers ≤ state.count

/-- Every transaction to another endpoint stays open, with its retransmission
state. -/
def KeepsForeign (config : CoapConfig) (state : EngineState)
    (message : Inbound) : Prop :=
  ∀ transaction ∈ state.transactions,
    transaction.peer.same message.peer = false →
    transaction ∈ (engineStep config state (.inbound message)).transactions

/-- A message over UDP acknowledges a transaction of its sender or none, and a
message that skips the clearing of the context meets such a transaction in it
or none that is open. -/
def MeetsOwnTransactions (config : CoapConfig) (state : EngineState)
    (message : Inbound) : Prop :=
  ((coapParseInboundMessage config message).status = .noError →
    message.peer.tcp = false →
    ∀ transaction, state.coapGetTransactionByMid
        (coapParseInboundMessage config message).packet.mid =
        some transaction →
      transaction.peer.same message.peer = true) ∧
  (skipsClearing config message = true →
    ∀ pointer, state.ctx.transaction = some pointer →
    ∀ transaction ∈ state.transactions,
      transaction.address = pointer.address →
      transaction.peer.same message.peer = true)

theorem Peer.same_refl (peer : Peer) : peer.same peer = true := by
  simp [Peer.same, ocEndpointCompare]

variable {state : EngineState}

namespace EngineState

/-- The open transactions whose peer is another one. -/
def foreign (state : EngineState) (peer : Peer) : List OpenTransaction :=
  state.transactions.filter fun transaction => !transaction.peer.same peer

variable {peer : Peer}

theorem mem_foreign {transaction : OpenTransaction} :
    transaction ∈ state.foreign peer ↔ transaction ∈ state.transactions ∧
      transaction.peer.same peer = false := by
  simp [foreign]

theorem foreign_coapClearTransaction {held : Option Held}
    (own : ∀ pointer ∈ held, ∀ transaction ∈ state.transactions,
      transaction.address = pointer.address →
      transaction.peer.same peer = true) :
    (state.coapClearTransaction held).foreign peer = state.foreign peer := by
  unfold foreign coapClearTransaction
  rw [List.filter_filter]
  apply List.filter_congr
  intro transaction present
  cases held with
  | none => simp
  | some pointer =>
      by_cases matching : transaction.address = pointer.address
      · simp [own pointer rfl transaction present matching]
      · simp [matching]

theorem foreign_updateTransaction {held : Option Held}
    {change : OpenTransaction → OpenTransaction}
    (samePeer : ∀ transaction, (change transaction).peer = transaction.peer)
    (own : ∀ pointer ∈ held, ∀ transaction ∈ state.transactions,
      transaction.address = pointer.address →
      transaction.peer.same peer = true) :
    (state.updateTransaction held change).foreign peer =
      state.foreign peer := by
  unfold foreign updateTransaction
  rw [List.filter_map]
  have same : (fun transaction : OpenTransaction =>
      !transaction.peer.same peer) ∘ (fun transaction =>
        if held.any fun pointer => transaction.address == pointer.address then
          change transaction
        else transaction) =
      fun transaction => !transaction.peer.same peer := by
    funext transaction
    rw [Function.comp_apply]
    split
    · rw [samePeer]
    · rfl
  rw [same]
  conv_rhs => rw [← List.map_id (List.filter _ state.transactions)]
  apply List.map_congr_left
  intro transaction member
  obtain ⟨present, foreign⟩ := List.mem_filter.mp member
  rw [if_neg]
  · rfl
  · intro matching
    cases held with
    | none => nomatch matching
    | some pointer =>
        have equal : transaction.address = pointer.address :=
          beq_iff_eq.mp matching
        rw [own pointer rfl transaction present equal] at foreign
        nomatch foreign

theorem foreign_coapFreeTransactionsByEndpoint (state : EngineState)
    (peer : Peer) :
    (state.coapFreeTransactionsByEndpoint peer).foreign peer =
      state.foreign peer := by
  unfold foreign coapFreeTransactionsByEndpoint
  rw [List.filter_filter]
  apply List.filter_congr
  intro transaction _
  exact Bool.and_self _

theorem of_ctxTransaction {transaction : OpenTransaction}
    (found : state.ctxTransaction = some transaction) :
    ∃ pointer, state.ctx.transaction = some pointer ∧
      transaction ∈ state.transactions ∧
      transaction.address = pointer.address := by
  obtain ⟨pointer, held, looked⟩ := Option.bind_eq_some_iff.mp found
  have matching := List.find?_some looked
  exact ⟨pointer, held, List.mem_of_find?_eq_some looked,
    beq_iff_eq.mp matching⟩

end EngineState

/-- The transactions to other endpoints are the given ones, and the transaction
of the context belongs to the sender. -/
structure Guarded (peer : Peer) (foreign : List OpenTransaction)
    (state : EngineState) : Prop where
  foreign_eq : state.foreign peer = foreign
  own : ∀ pointer ∈ state.ctx.transaction,
    ∀ transaction ∈ state.transactions,
      transaction.address = pointer.address →
      transaction.peer.same peer = true ∧
        (transaction.peer = peer ∨ transaction.peer.tcp = true)

variable {message : Inbound}

namespace Guarded

variable {peer : Peer} {foreign : List OpenTransaction}

section

variable (guarded : Guarded peer foreign state)

include guarded

theorem same :
    ∀ pointer ∈ state.ctx.transaction, ∀ transaction ∈ state.transactions,
      transaction.address = pointer.address →
      transaction.peer.same peer = true := by
  intro pointer held transaction present matching
  exact (guarded.own pointer held transaction present matching).1

theorem restrict {after : EngineState} (ctx : after.ctx = state.ctx)
    (subset : ∀ transaction ∈ after.transactions,
      transaction ∈ state.transactions)
    (foreign_eq : after.foreign peer = state.foreign peer) :
    Guarded peer foreign after where
  foreign_eq := foreign_eq.trans guarded.foreign_eq
  own pointer held transaction present matching := by
    rw [ctx] at held
    exact guarded.own pointer held transaction (subset transaction present)
      matching

theorem clearTransaction :
    Guarded peer foreign
      (state.coapClearTransaction state.ctx.transaction) := by
  refine guarded.restrict rfl ?_ ?_
  · intro transaction present
    exact List.mem_of_mem_filter present
  · exact EngineState.foreign_coapClearTransaction guarded.same

theorem updateTransaction {change : OpenTransaction → OpenTransaction}
    (samePeer : ∀ transaction, (change transaction).peer = transaction.peer)
    (sameAddress : ∀ transaction,
      (change transaction).address = transaction.address) :
    Guarded peer foreign
      (state.updateTransaction state.ctx.transaction change) where
  foreign_eq := (EngineState.foreign_updateTransaction samePeer
    guarded.same).trans guarded.foreign_eq
  own pointer held transaction present matching := by
    obtain ⟨before, old, changed⟩ := List.mem_map.mp present
    have kept : transaction.peer = before.peer ∧
        transaction.address = before.address := by
      rw [← changed]
      split
      · exact ⟨samePeer before, sameAddress before⟩
      · exact ⟨rfl, rfl⟩
    rw [kept.1]
    exact guarded.own pointer held before old (kept.2.symm.trans matching)

theorem sendTransaction (message : Inbound) :
    Guarded peer foreign (state.coapSendTransaction message) := by
  have used : Guarded peer foreign state.useTransaction :=
    ⟨guarded.foreign_eq, guarded.own⟩
  apply state.coapSendTransaction_cases message
  case unchanged => exact guarded
  case used => exact used
  case cleared => exact guarded.clearTransaction
  case waits =>
    intro interval
    exact guarded.updateTransaction (fun _ => rfl) (fun _ => rfl)
  case closed =>
    intro transaction found confirmable
    obtain ⟨pointer, held, present, matching⟩ :=
      EngineState.of_ctxTransaction found
    have peer_eq : transaction.peer = peer := by
      rcases (guarded.own pointer held transaction present matching).2
        with equal | tcp
      · exact equal
      · simp [EngineState.confirmable, tcp] at confirmable
    rw [peer_eq]
    refine used.restrict rfl ?_ ?_
    · intro other stays
      exact List.mem_of_mem_filter stays
    · exact EngineState.foreign_coapFreeTransactionsByEndpoint _ peer

end

theorem newTransaction (guarded : Guarded message.peer foreign state)
    (mid : UInt16) :
    Guarded message.peer foreign (state.newTransaction message mid) := by
  unfold EngineState.newTransaction
  split
  · exact ⟨guarded.foreign_eq, nofun⟩
  case h_2 address allocated =>
    have unused := message.memory.unused _ _ allocated
    refine ⟨?_, ?_⟩
    · refine Eq.trans ?_ guarded.foreign_eq
      refine (List.filter_append ..).trans ?_
      rw [List.filter_cons_of_neg (by simp [Peer.same_refl]), List.filter_nil,
        List.append_nil]
      rfl
    · intro pointer held transaction present matching
      cases held
      rcases List.mem_append.mp present with old | new
      · have inUse : transaction.address ∈ state.addresses :=
          List.mem_map_of_mem old
        rw [matching] at inUse
        exact absurd inUse unused
      · rw [List.mem_singleton.mp new]
        exact ⟨Peer.same_refl _, .inl rfl⟩

end Guarded

theorem guarded_engineInvariant (message : Inbound)
    (foreign : List OpenTransaction) :
    EngineInvariant message (Guarded message.peer foreign) where
  useRequestBuffer _ guarded := ⟨guarded.foreign_eq, guarded.own⟩
  useResponseBuffer _ guarded := ⟨guarded.foreign_eq, guarded.own⟩
  clearTransaction _ guarded := guarded.clearTransaction
  writeTransaction _ guarded :=
    guarded.updateTransaction (fun _ => rfl) (fun _ => rfl)
  sendTransaction _ guarded := guarded.sendTransaction message
  response _ _ guarded := ⟨guarded.foreign_eq, guarded.own⟩
  status _ _ guarded := ⟨guarded.foreign_eq, guarded.own⟩
  setRequestBuffer _ _ guarded := ⟨guarded.foreign_eq, guarded.own⟩
  setResponseBuffer _ _ guarded := ⟨guarded.foreign_eq, guarded.own⟩
  newTransaction mid _ guarded := guarded.newTransaction mid
  setMid _ _ guarded :=
    guarded.updateTransaction (fun _ => rfl) (fun _ => rfl)
  currentMid _ _ guarded := ⟨guarded.foreign_eq, guarded.own⟩
  history _ _ guarded := ⟨guarded.foreign_eq, guarded.own⟩

/-- The static variables after a message has acknowledged a transaction. -/
def EngineState.acknowledged (message : Inbound) (mid : UInt16)
    (state : EngineState) : EngineState :=
  finalState (onlyIf (!message.peer.tcp)
    (modify (EngineState.clearAcknowledged mid)))
    (Engine.beginMessage .noError state)

theorem foreign_ocCloseSession (message : Inbound) (state : EngineState) :
    (state.ocCloseSession message).foreign message.peer =
      state.foreign message.peer := by
  unfold EngineState.ocCloseSession
  split
  · exact state.foreign_coapFreeTransactionsByEndpoint message.peer
  · rfl

theorem foreign_engineStep_of_invalid {config : CoapConfig}
    (state : EngineState)
    (invalid : (coapParseInboundMessage config message).status ≠ .noError) :
    (engineStep config state (.inbound message)).foreign message.peer =
      state.foreign message.peer := by
  simp only [engineStep, Engine.coapProcessInboundMessage, finalState_bind,
    finalState_modify, if_pos invalid, finalState_pure,
    Engine.coapProcessInvalidInboundMessage]
  split
  · exact foreign_ocCloseSession message _
  · rfl

theorem foreign_receiveMessage {packet : InPacket}
    (clears : (message.peer.tcp && Engine.hasBlockOption packet) = false)
    (href : Bytes) (state : EngineState) :
    (finalState (Engine.receiveMessage message packet href) state).foreign
      message.peer = state.foreign message.peer := by
  have cleared : Guarded message.peer (state.foreign message.peer)
      { state with ctx := .null } := ⟨rfl, nofun⟩
  unfold Engine.receiveMessage
  rw [clears, if_neg Bool.false_ne_true]
  exact ((guarded_engineInvariant message _).receive packet href _
    cleared).foreign_eq

theorem foreign_engineStep_of_clears {config : CoapConfig} (state : EngineState)
    (valid : (coapParseInboundMessage config message).status = .noError)
    (clears : skipsClearing config message = false) :
    (engineStep config state (.inbound message)).foreign message.peer =
      (state.acknowledged message
        (coapParseInboundMessage config message).packet.mid).foreign
          message.peer := by
  obtain ⟨href, step⟩ := engineStep_of_valid state valid
  rw [step]
  unfold Engine.processParsed
  rw [finalState_bind]
  cases signal : coapSignal (coapParseInboundMessage config message).packet.code
    with
  | none =>
      refine foreign_receiveMessage ?_ href _
      simpa [skipsClearing, valid, signal] using clears
  | some kind =>
      cases kind with
      | pong =>
          refine foreign_receiveMessage ?_ href _
          simpa [skipsClearing, valid, signal] using clears
      | release => exact foreign_ocCloseSession message _
      | csm => rfl
      | ping => rfl
      | abort => rfl

theorem keepsForeign_iff_foreign {config : CoapConfig} :
    KeepsForeign config state message ↔
      ∀ transaction ∈ state.foreign message.peer, transaction ∈
        (engineStep config state (.inbound message)).foreign message.peer := by
  constructor
  · intro keeps transaction member
    obtain ⟨present, foreign⟩ := EngineState.mem_foreign.mp member
    exact EngineState.mem_foreign.mpr
      ⟨keeps transaction present foreign, foreign⟩
  · intro keeps transaction present foreign
    have member := EngineState.mem_foreign.mpr ⟨present, foreign⟩
    exact (EngineState.mem_foreign.mp (keeps transaction member)).1

namespace OpenEngine

variable (engine : OpenEngine)

theorem eq_of_address {first second : OpenTransaction}
    (left : first ∈ engine.state.transactions)
    (right : second ∈ engine.state.transactions)
    (equal : first.address = second.address) : first = second :=
  List.inj_on_of_nodup_map engine.distinct left right equal

theorem foreign_acknowledged_iff (message : Inbound) (mid : UInt16) :
    (∀ transaction ∈ engine.state.foreign message.peer, transaction ∈
      (engine.state.acknowledged message mid).foreign message.peer) ↔
    (message.peer.tcp = false → ∀ transaction,
      engine.state.coapGetTransactionByMid mid = some transaction →
      transaction.peer.same message.peer = true) := by
  cases tcp : message.peer.tcp with
  | true =>
      have same : (engine.state.acknowledged message mid).foreign
          message.peer = engine.state.foreign message.peer := by
        unfold EngineState.acknowledged
        rw [tcp]
        rfl
      rw [same]
      exact ⟨nofun, fun _ _ member => member⟩
  | false =>
      have cleared : engine.state.acknowledged message mid =
          (Engine.beginMessage .noError engine.state).clearAcknowledged
            mid := by
        unfold EngineState.acknowledged
        rw [tcp]
        rfl
      rw [cleared]
      unfold EngineState.clearAcknowledged
      rw [show (Engine.beginMessage .noError
        engine.state).coapGetTransactionByMid mid =
          engine.state.coapGetTransactionByMid mid from rfl]
      cases found : engine.state.coapGetTransactionByMid mid with
      | none => exact ⟨nofun, fun _ _ member => member⟩
      | some acknowledged =>
          have listed := List.mem_of_find?_eq_some found
          constructor
          · intro keeps _ transaction equal
            cases equal
            cases same : acknowledged.peer.same message.peer with
            | true => rfl
            | false =>
                have kept := keeps acknowledged
                  (EngineState.mem_foreign.mpr ⟨listed, same⟩)
                obtain ⟨stays, -⟩ := EngineState.mem_foreign.mp kept
                have other := (List.mem_filter.mp stays).2
                simp at other
          · intro own transaction member
            obtain ⟨present, foreign⟩ := EngineState.mem_foreign.mp member
            refine EngineState.mem_foreign.mpr
              ⟨List.mem_filter.mpr ⟨present, ?_⟩, foreign⟩
            simp only [Option.all_some, bne_iff_ne]
            intro equal
            rw [engine.eq_of_address present listed equal,
              own rfl acknowledged rfl] at foreign
            nomatch foreign

end OpenEngine

/-- The contents of the transaction at an address were written for the message
in process. -/
structure Rewritten (number address : Nat) (state : EngineState) : Prop where
  count : state.count = number
  answers : ∀ transaction ∈ state.transactions,
    transaction.address = address → transaction.answers = number

namespace Rewritten

variable {number address : Nat}

section

variable (written : Rewritten number address state)

include written

theorem restrict {after : EngineState} (count : after.count = state.count)
    (subset : ∀ transaction ∈ after.transactions,
      transaction ∈ state.transactions) :
    Rewritten number address after where
  count := count.trans written.count
  answers transaction present :=
    written.answers transaction (subset transaction present)

theorem clearTransaction (held : Option Held) :
    Rewritten number address (state.coapClearTransaction held) := by
  refine written.restrict rfl fun transaction present => ?_
  exact List.mem_of_mem_filter present

theorem updateTransaction (held : Option Held)
    {change : OpenTransaction → OpenTransaction}
    (sameAddress : ∀ transaction,
      (change transaction).address = transaction.address)
    (kept : ∀ transaction, transaction.answers = number →
      (change transaction).answers = number) :
    Rewritten number address (state.updateTransaction held change) where
  count := written.count
  answers transaction present matching := by
    obtain ⟨before, old, changed⟩ := List.mem_map.mp present
    rw [← changed] at matching ⊢
    by_cases hit :
        (held.any fun pointer => before.address == pointer.address) = true
    · rw [if_pos hit] at matching ⊢
      rw [sameAddress] at matching
      exact kept before (written.answers before old matching)
    · rw [if_neg hit] at matching ⊢
      exact written.answers before old matching

theorem sendTransaction (message : Inbound) :
    Rewritten number address (state.coapSendTransaction message) := by
  have used : Rewritten number address state.useTransaction :=
    ⟨written.count, written.answers⟩
  apply state.coapSendTransaction_cases message
  case unchanged => exact written
  case used => exact used
  case cleared => exact written.clearTransaction _
  case waits =>
    intro interval
    exact written.updateTransaction _ (fun _ => rfl) fun _ same => same
  case closed =>
    intro transaction _ _
    refine used.restrict rfl fun other present => ?_
    exact List.mem_of_mem_filter present

end

end Rewritten

theorem rewritten_resultInvariant (message : Inbound) (number address : Nat) :
    ResultInvariant message (Rewritten number address) where
  useRequestBuffer _ written := ⟨written.count, written.answers⟩
  useResponseBuffer _ written := ⟨written.count, written.answers⟩
  clearTransaction _ written := written.clearTransaction _
  writeTransaction _ written :=
    written.updateTransaction _ (fun _ => rfl) fun _ _ => written.count
  sendTransaction _ written := written.sendTransaction message
  response _ _ written := ⟨written.count, written.answers⟩
  status _ _ written := ⟨written.count, written.answers⟩

theorem rewritten_writeTransaction {pointer : Held}
    (held : state.ctx.transaction = some pointer) :
    Rewritten state.count pointer.address
      (Engine.writeTransaction state) where
  count := rfl
  answers transaction present matching := by
    obtain ⟨before, -, changed⟩ := List.mem_map.mp present
    rw [held] at changed
    by_cases hit : (before.address == pointer.address) = true
    · rw [Option.any_some, if_pos hit] at changed
      rw [← changed]
    · rw [Option.any_some, if_neg hit] at changed
      rw [changed, matching] at hit
      exact absurd (BEq.rfl) hit

theorem rewritten_receiveResult (message : Inbound) (packet : InPacket)
    (state : EngineState) {pointer : Held}
    (status : state.status = .parsed .noError)
    (held : state.ctx.transaction = some pointer) :
    Rewritten state.count pointer.address
      (finalState (Engine.receiveResult message packet .error) state) := by
  have keeps := ctx_resultInvariant message state.ctx state.count
  refine coapSendResponse_of_written
    (rewritten_resultInvariant message state.count pointer.address)
    status held ?_
  obtain ⟨ctx, count⟩ := keeps.setResponseToken packet _
    (keeps.response _ _ (keeps.releaseBuffers state ⟨rfl, rfl⟩))
  rw [← ctx] at held
  have written := rewritten_writeTransaction held
  rw [count] at written
  exact written

theorem tcp_of_skipsClearing {config : CoapConfig}
    (skips : skipsClearing config message = true) :
    message.peer.tcp = true := by
  simp only [skipsClearing, Bool.and_eq_true] at skips
  exact skips.1.1.2

theorem OpenEngine.keepsForeign_of_skips_iff (engine : OpenEngine)
    {config : CoapConfig} (skips : skipsClearing config message = true) :
    KeepsForeign config engine.state message ↔
      ∀ pointer, engine.state.ctx.transaction = some pointer →
      ∀ transaction ∈ engine.state.transactions,
        transaction.address = pointer.address →
        transaction.peer.same message.peer = true := by
  have step := engineStep_of_skipsClearing engine.state skips
  have tcp := tcp_of_skipsClearing skips
  constructor
  · intro keeps pointer held transaction present matching
    cases same : transaction.peer.same message.peer with
    | true => rfl
    | false =>
        have stays := keeps transaction present same
        rw [step] at stays
        have written := (rewritten_receiveResult message _
          (Engine.beginMessage .noError engine.state) rfl held).answers
            transaction stays matching
        have earlier := engine.answered transaction present
        have number : (Engine.beginMessage .noError engine.state).count =
          engine.state.count + 1 := rfl
        omega
  · intro own
    have guarded : Guarded message.peer (engine.state.foreign message.peer)
        (Engine.beginMessage .noError engine.state) := by
      refine ⟨rfl, fun pointer held transaction present matching => ?_⟩
      have same := own pointer held transaction present matching
      refine ⟨same, .inr ?_⟩
      simp only [Peer.same, Bool.and_eq_true, beq_iff_eq] at same
      exact same.1.trans tcp
    have after := (guarded_engineInvariant message _).receiveResult
      (coapParseInboundMessage config message).packet .error _ guarded
    rw [← step] at after
    rw [keepsForeign_iff_foreign, after.foreign_eq]
    exact fun _ member => member

/-- The transactions to other endpoints stay open and keep their retransmission
state exactly if the message meets its sender's own transactions. -/
theorem keepsForeign_iff (config : CoapConfig) (engine : OpenEngine)
    (message : Inbound) :
    KeepsForeign config engine.state message ↔
      MeetsOwnTransactions config engine.state message := by
  cases skips : skipsClearing config message with
  | true =>
      rw [engine.keepsForeign_of_skips_iff skips]
      have tcp := tcp_of_skipsClearing skips
      simp [MeetsOwnTransactions, skips, tcp]
  | false =>
      by_cases valid :
          (coapParseInboundMessage config message).status = .noError
      · rw [keepsForeign_iff_foreign,
          foreign_engineStep_of_clears engine.state valid skips,
          engine.foreign_acknowledged_iff]
        simp [MeetsOwnTransactions, skips, valid]
      · rw [keepsForeign_iff_foreign,
          foreign_engineStep_of_invalid engine.state valid]
        simp [MeetsOwnTransactions, skips, valid]

namespace EqualMid

/-- A confirmable message to one peer that was transmitted twice so far. -/
def waiting : OpenTransaction where
  address := 1
  mid := 0x1234
  token := []
  peer := ⟨⟨0, false, 7, 0, .nil⟩, false, false⟩
  retransCounter := 1
  interval := 4000
  answers := 0

def engine : OpenEngine where
  state := { EngineState.initial 0 with transactions := [waiting] }
  distinct := List.nodup_singleton _
  answered := by
    intro transaction present
    rw [List.mem_singleton.mp present]
    exact Nat.le_refl _

end EqualMid

open StaleContext EqualMid in
/-- A GET from another peer that happens to use the mid ends the
retransmission. -/
theorem not_keepsForeign_of_equalMid :
    ¬ KeepsForeign config engine.state udpGet := by
  intro keeps
  have gone : waiting ∉
      (engineStep config engine.state (.inbound udpGet)).transactions := by
    decide
  exact gone (keeps waiting (List.mem_singleton_self waiting) (by decide))

end IotivityLite
