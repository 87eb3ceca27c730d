import IotivityLite.Server.SeparateResponse

/-!
# Every accepted request is answered once

A handle answers its requests if they can be told apart by token and Observe
option, the status is valid, and each response can be built and reaches only
its own requester.  `Delivers` says what one round of the loop then does; the
loop, a call and a run of calls follow from it.
-/

namespace IotivityLite

/-- The endpoint and the token that a message is for. -/
def SentMessage.addressee (message : SentMessage) : OcEndpoint × Bytes :=
  (message.endpoint, message.packet.token)

def Requester.addressee (requester : Requester) : OcEndpoint × Bytes :=
  (requester.endpoint, requester.token.bytes)

section Property

variable (env : SeparateEnv)

/-- Each accepted request gets one message, the handle is inactive and empty,
and no transaction is left behind. -/
def Answered (state : SeparateState) : SeparateEvent → Prop
  | .accept _ _ => True
  | .send call =>
      let after := separateStep env state (.send call)
      ((separateSent env state (.send call)).map SentMessage.addressee).Perm
          (state.accepted.map Requester.addressee) ∧
        after.response.active = false ∧ after.response.requests = [] ∧
        after.unsent = []

instance (state : SeparateState) :
    (event : SeparateEvent) → Decidable (Answered env state event)
  | .accept _ _ => isTrue trivial
  | .send _ => inferInstanceAs (Decidable (_ ∧ _ ∧ _ ∧ _))

/-- Every response of a run answers what was accepted before it. -/
def SeparateAnswered (events : List SeparateEvent) : Prop :=
  Along (separateStep env) (Answered env) SeparateState.initial events

end Property

section Condition

variable (env : SeparateEnv) (call : SendCall)

/-- The observers that are notified for a request of the handle. -/
def SendCall.notified (request : CoapSeparate) : List CoapObserver :=
  match call.ocRiGetAppResourceByUri request.uri request.endpoint.device with
  | none => []
  | some resource =>
      if resource.observable ∧ call.dos resource.device = .rfnop ∧
          resource.numObservers ≠ 0 then
        call.observers.filter (call.selects resource request.endpoint)
      else []

/-- A notification is sent, to the requester only. -/
def NotifiedAlone (request : CoapSeparate) : Prop :=
  (call.notified request).length = 1 ∧ ∀ obs ∈ call.notified request,
    obs.endpoint = request.endpoint ∧ obs.token = request.token ∧
      (obs.revert = false → call.payload ≠ [])

/-- The transfer that an observer's notification starts. -/
def SendCall.notificationTransfer (resource : AppResource)
    (obs : CoapObserver) : List TransferKey :=
  if !obs.revert && blockwise env call obs.endpoint obs.block2Size then
    [obs.key resource]
  else []

/-- The transfer that a response starts. -/
def SendCall.responseTransfer (request : CoapSeparate) : List TransferKey :=
  if blockwise env call request.endpoint request.block2Size then
    [request.key]
  else []

/-- The transfers that are started for a request of the handle. -/
def SendCall.transfers (request : CoapSeparate) : List TransferKey :=
  if request.observe < observeSequenceStartValue then
    call.responseTransfer env request
  else match call.ocRiGetAppResourceByUri request.uri
      request.endpoint.device with
    | none => []
    | some resource =>
        (call.notified request).flatMap
          (call.notificationTransfer env resource)

/-- The responses to some requests can be sent. -/
@[mk_iff] structure Answerable (requests : List CoapSeparate) : Prop where
  valid : ocStatusCode call.status ≠ none
  initialized : call.initialized = true
  succeeds : ∀ attempt < 3 * requests.length, call.succeeds attempt = true
  alone : ∀ request ∈ requests,
    observeSequenceStartValue ≤ request.observe → NotifiedAlone call request
  idle : ∀ key ∈ requests.flatMap (call.transfers env),
    ∀ other ∈ call.buffers, key.finds other.key = true → other.running = false
  apart : (requests.flatMap (call.transfers env)).Pairwise fun first second =>
    second.finds first = false

/-- The condition on an event.  A request that is found is from the same
client, and its acknowledgement can be sent. -/
def KeepsApart (state : SeparateState) : SeparateEvent → Prop
  | .accept request memory =>
      ∀ stored ∈ state.response.requests, request.finds stored = true →
        stored.endpoint = request.endpoint ∧
          (request.confirmable = true → memory.ack = true)
  | .send call =>
      state.response.requests = [] ∨
        Answerable env call state.response.requests

instance (call : SendCall) (request : CoapSeparate) :
    Decidable (NotifiedAlone call request) :=
  inferInstanceAs (Decidable (_ ∧ _))

instance (requests : List CoapSeparate) :
    Decidable (Answerable env call requests) :=
  decidable_of_iff _ (answerable_iff env call requests).symm

instance (state : SeparateState) :
    (event : SeparateEvent) → Decidable (KeepsApart env state event)
  | .accept request memory =>
      inferInstanceAs (Decidable (∀ stored ∈ state.response.requests,
        request.finds stored = true → stored.endpoint = request.endpoint ∧
          (request.confirmable = true → memory.ack = true)))
  | .send _ => inferInstanceAs (Decidable (_ ∨ _))

end Condition

/-- The handle stores what it accepted, and is active if it stores any. -/
structure Consistent (state : SeparateState) : Prop where
  stored : state.response.requests.map CoapSeparate.requester = state.accepted
  active : state.response.active = false ↔ state.response.requests = []
  settled : state.unsent = []

section Accept

variable {request : SeparateRequest} {requests : List CoapSeparate}

theorem SeparateRequest.finds_iff {stored : CoapSeparate} :
    request.finds stored = true ↔
      stored.token = request.token ∧ stored.observe = request.observe := by
  simp [SeparateRequest.finds]

theorem SeparateRequest.replaceF_readdress
    (same : ∀ stored ∈ requests, request.finds stored = true →
      stored.endpoint = request.endpoint) :
    requests.replaceF request.readdress = requests := by
  induction requests with
  | nil => rfl
  | cons first rest ih =>
      rw [List.forall_mem_cons] at same
      by_cases found : request.finds first = true
      · have unchanged : request.readdress first = some first := by
          rw [SeparateRequest.readdress, if_pos found, ← same.1 found]
        rw [List.replaceF_cons_of_some _ unchanged]
      · have skipped : request.readdress first = none := by
          rw [SeparateRequest.readdress, if_neg found]
        rw [List.replaceF_cons_of_none _ skipped, ih same.2]

theorem SeparateRequest.putInto_of_found
    (found : requests.any request.finds = true)
    (same : ∀ stored ∈ requests, request.finds stored = true →
      stored.endpoint = request.endpoint) :
    request.putInto requests = requests := by
  rw [SeparateRequest.putInto, if_pos found, replaceF_readdress same]

theorem SeparateRequest.putInto_of_new
    (new : requests.any request.finds = false) :
    request.putInto requests = requests ++ [request.stored] := by
  rw [SeparateRequest.putInto, new, if_neg (by decide)]

theorem SeparateRequest.eraseP_putInto_of_new
    (new : requests.any request.finds = false) :
    (request.putInto requests).eraseP request.finds = requests := by
  have absent : ∀ stored ∈ requests, ¬ request.finds stored = true := by
    simpa using new
  have itself : request.finds request.stored = true :=
    SeparateRequest.finds_iff.mpr ⟨rfl, rfl⟩
  rw [SeparateRequest.putInto_of_new new,
    List.eraseP_append_right [request.stored] absent,
    List.eraseP_cons_of_pos itself, List.append_nil]

theorem SeparateRequest.requester_mem_iff
    (same : ∀ stored ∈ requests, request.finds stored = true →
      stored.endpoint = request.endpoint) :
    request.requester ∈ requests.map CoapSeparate.requester ↔
      requests.any request.finds = true := by
  rw [List.mem_map, List.any_eq_true]
  constructor
  · rintro ⟨stored, member, equal⟩
    have token : stored.token = request.token :=
      congrArg Requester.token equal
    have observe : stored.observe = request.observe :=
      congrArg Requester.observe equal
    exact ⟨stored, member, finds_iff.mpr ⟨token, observe⟩⟩
  · rintro ⟨stored, member, found⟩
    obtain ⟨token, observe⟩ := finds_iff.mp found
    refine ⟨stored, member, ?_⟩
    rw [CoapSeparate.requester, same stored member found, token, observe]
    rfl

variable {state : SeparateState}

theorem Consistent.start_eq (consistent : Consistent state) :
    (if state.response.active = true then state.response.requests else []) =
      state.response.requests := by
  cases active : state.response.active with
  | true => rfl
  | false => exact (consistent.active.mp active).symm

theorem coapSeparateAccept_cases {memory : AcceptMemory}
    (consistent : Consistent state)
    (same : ∀ stored ∈ state.response.requests,
      request.finds stored = true → stored.endpoint = request.endpoint ∧
        (request.confirmable = true → memory.ack = true)) :
    coapSeparateAccept state.response request memory =
        (state.response, false) ∨
      coapSeparateAccept state.response request memory =
          (state.response, true) ∧
        state.response.requests.any request.finds = true ∨
      coapSeparateAccept state.response request memory =
          ({ state.response with
            requests := state.response.requests ++ [request.stored] }, true) ∧
        state.response.requests.any request.finds = false := by
  simp only [coapSeparateAccept, consistent.start_eq]
  by_cases noBuffer : (!state.response.active && !memory.buffer) = true
  · rw [if_pos noBuffer]
    exact .inl rfl
  rw [if_neg noBuffer]
  cases known : state.response.requests.any request.finds with
  | true =>
      rw [SeparateRequest.putInto_of_found known
        (fun stored member found => (same stored member found).1)]
      obtain ⟨stored, member, found⟩ := List.any_eq_true.mp known
      have acknowledged : ¬ (request.confirmable && !memory.ack) = true := by
        have sent := (same stored member found).2
        cases confirmable : request.confirmable with
        | false => simp
        | true => simp [sent confirmable]
      rw [if_neg (by simp), if_neg acknowledged]
      exact .inr (.inl ⟨rfl, rfl⟩)
  | false =>
      by_cases noRecord : (!false && !memory.request) = true
      · rw [if_pos noRecord]
        exact .inl rfl
      rw [if_neg noRecord]
      by_cases noAck : (request.confirmable && !memory.ack) = true
      · rw [if_pos noAck, SeparateRequest.eraseP_putInto_of_new known]
        exact .inl rfl
      · rw [if_neg noAck, SeparateRequest.putInto_of_new known]
        exact .inr (.inr ⟨rfl, rfl⟩)

theorem Consistent.accept {memory : AcceptMemory}
    (consistent : Consistent state)
    (same : ∀ stored ∈ state.response.requests,
      request.finds stored = true → stored.endpoint = request.endpoint ∧
        (request.confirmable = true → memory.ack = true)) :
    Consistent (state.accept request memory) := by
  have known := @SeparateRequest.requester_mem_iff request
    state.response.requests
    (fun stored member found => (same stored member found).1)
  rw [consistent.stored] at known
  rcases coapSeparateAccept_cases consistent same with
    refused | ⟨again, found⟩ | ⟨added, new⟩
  · rw [SeparateState.accept, refused]
    exact consistent
  · rw [SeparateState.accept, again]
    dsimp only
    rw [if_pos (known.mpr found)]
    have nonempty : state.response.requests ≠ [] := by
      intro empty
      simp [empty] at found
    exact ⟨consistent.stored, by simp [nonempty], consistent.settled⟩
  · rw [SeparateState.accept, added]
    dsimp only
    rw [if_neg (by rw [known, new]; decide)]
    refine ⟨?_, by simp, consistent.settled⟩
    rw [List.map_append, consistent.stored]
    rfl

end Accept

section Packets

variable {packet : OutPacket}

@[simp] theorem token_coapSetPayload (config : CoapConfig)
    (payload : Bytes) :
    (coapSetPayload config packet payload).token = packet.token := rfl

@[simp] theorem token_coapOptionsSetSize2 (size : UInt32) :
    (coapOptionsSetSize2 packet size).token = packet.token := rfl

@[simp] theorem token_coapOptionsSetContentFormat (format : UInt16) :
    (coapOptionsSetContentFormat packet format).token = packet.token := rfl

@[simp] theorem token_coapOptionsSetBlock2 (num : UInt32) (more : UInt8)
    (size : UInt16) (offset : UInt32) :
    (coapOptionsSetBlock2 packet num more size offset).token =
      packet.token := by
  unfold coapOptionsSetBlock2
  split
  · rfl
  · split
    · rfl
    · rfl

@[simp] theorem token_coapSetToken (token : CoapToken) :
    (coapSetToken packet token.bytes).token = token.bytes :=
  List.take_of_length_le token.short

end Packets

section Deliver

variable {env : SeparateEnv} {call : SendCall}

/-- One message for the endpoint and the token was sent, no transaction was
left behind, and new buffers have one of the keys. -/
structure Delivers (endpoint : OcEndpoint) (token : CoapToken)
    (keys : List TransferKey) (before after : Sending) : Prop where
  sent : after.sent.map SentMessage.addressee =
    before.sent.map SentMessage.addressee ++ [(endpoint, token.bytes)]
  unsent : after.unsent = before.unsent
  attempts : after.attempts ≤ before.attempts + 3
  buffers : ∀ other ∈ after.buffers,
    other ∈ before.buffers ∨ other.key ∈ keys

/-- The attempts of a call succeed, so far and the next ones. -/
def NextSucceed (call : SendCall) (count : Nat) (state : Sending) : Prop :=
  ∀ attempt < state.attempts + count, call.succeeds attempt = true

/-- No transfer with one of the keys is in progress. -/
def IdleFor (keys : List TransferKey) (state : Sending) : Prop :=
  ∀ key ∈ keys, ∀ other ∈ state.buffers,
    key.finds other.key = true → other.running = false

theorem coapNewTransaction_succeeds {state : Sending} {token : CoapToken}
    {endpoint : OcEndpoint} (succeeds : call.succeeds state.attempts = true) :
    coapNewTransaction call token endpoint state =
      (some ⟨state.mid + 1, token, endpoint⟩,
        { state with
          mid := state.mid + 1
          attempts := state.attempts + 1
          unsent := ⟨state.mid + 1, token, endpoint⟩ :: state.unsent }) := by
  simp only [coapNewTransaction]
  rw [if_pos succeeds]

variable {state : Sending}

theorem serializeAndSend_succeeds {transaction : Transaction}
    {packet : OutPacket} (initialized : call.initialized = true)
    (succeeds : call.succeeds state.attempts = true) :
    serializeAndSend call transaction packet state =
      { state with
        attempts := state.attempts + 1
        sent := state.sent ++ [⟨transaction.endpoint, packet⟩]
        unsent := state.unsent.erase transaction } := by
  simp only [serializeAndSend, coapSendTransaction]
  rw [if_pos succeeds, if_pos initialized]

theorem allocTransfer_succeeds (key : TransferKey) (size : UInt16)
    (succeeds : call.succeeds state.attempts = true) :
    ∃ block left, allocTransfer call key size state =
      (.started block,
        { state with
          attempts := state.attempts + 1
          buffers := state.buffers ++ [⟨key, left⟩] }) := by
  simp only [allocTransfer]
  rw [if_pos succeeds]
  exact ⟨_, _, rfl⟩

theorem startTransfer_succeeds {state : Sending} (key : TransferKey)
    (size : UInt16) (succeeds : call.succeeds state.attempts = true)
    (idle : ∀ other ∈ state.buffers, key.finds other.key = true →
      other.running = false) :
    ∃ block buffers,
      startTransfer call key size state =
        (.started block,
          { state with
            attempts := state.attempts + 1
            buffers := buffers }) ∧
      ∀ other ∈ buffers, other ∈ state.buffers ∨ other.key = key := by
  have appended : ∀ (kept : List ResponseState) (left : ResponseBuffer),
      (∀ other ∈ kept, other ∈ state.buffers) →
      ∀ other ∈ kept ++ [⟨key, left⟩],
        other ∈ state.buffers ∨ other.key = key := by
    intro kept left old other member
    rcases List.mem_append.mp member with before | new
    · exact .inl (old other before)
    · rw [List.mem_singleton.mp new]
      exact .inr rfl
  simp only [startTransfer]
  split
  · obtain ⟨block, left, started⟩ :=
      allocTransfer_succeeds key size succeeds
    exact ⟨block, _, started, appended _ left fun _ member => member⟩
  · next found located =>
      have finished : found.running = false :=
        idle found (List.mem_of_find?_eq_some located)
          (List.find?_some (p := fun other : ResponseState =>
            key.finds other.key) located)
      rw [finished, if_neg (by decide)]
      have succeeds' : call.succeeds { state with
          buffers := state.buffers.eraseP
            fun other => key.finds other.key }.attempts = true := succeeds
      obtain ⟨block, left, started⟩ :=
        allocTransfer_succeeds key size succeeds'
      exact ⟨block, _, started,
        appended _ left fun _ member => List.mem_of_mem_eraseP member⟩

variable {endpoint : OcEndpoint}

theorem serializeAndSend_delivers {before state : Sending} {token : CoapToken}
    {keys : List TransferKey} {mid : UInt16} {packet : OutPacket}
    (initialized : call.initialized = true)
    (succeeds : call.succeeds state.attempts = true)
    (sent : state.sent = before.sent)
    (unsent : state.unsent = ⟨mid, token, endpoint⟩ :: before.unsent)
    (attempts : state.attempts ≤ before.attempts + 2)
    (buffers : ∀ other ∈ state.buffers,
      other ∈ before.buffers ∨ other.key ∈ keys)
    (named : packet.token = token.bytes) :
    Delivers endpoint token keys before
      (serializeAndSend call ⟨mid, token, endpoint⟩ packet state) := by
  rw [serializeAndSend_succeeds initialized succeeds]
  refine ⟨?_, ?_, ?_, buffers⟩
  · simp [SentMessage.addressee, sent, named]
  · simp [unsent]
  · dsimp only
    omega

variable {request : CoapSeparate}

theorem handleSeparateResponseRequest_delivers
    (initialized : call.initialized = true) (succeed : NextSucceed call 3 state)
    (idle : IdleFor (call.responseTransfer env request) state) :
    Delivers request.endpoint request.token
      (call.responseTransfer env request) state
      (handleSeparateResponseRequest env call request state) := by
  have first : call.succeeds state.attempts = true :=
    succeed _ (by omega)
  have second : call.succeeds (state.attempts + 1) = true :=
    succeed _ (by omega)
  have third : call.succeeds (state.attempts + 1 + 1) = true :=
    succeed _ (by omega)
  have named : ∀ code mid,
      (coapSeparateResume env request code mid).token =
        request.token.bytes := by
    intro code mid
    exact token_coapSetToken request.token
  rw [handleSeparateResponseRequest, coapNewTransaction_succeeds first]
  dsimp only
  unfold SendCall.responseTransfer at idle ⊢
  by_cases blocks : blockwise env call request.endpoint
      request.block2Size = true
  · rw [if_pos blocks] at idle ⊢
    rw [if_pos blocks]
    obtain ⟨block, buffers, started, kept⟩ :=
      @startTransfer_succeeds call
        { state with
          mid := state.mid + 1
          attempts := state.attempts + 1
          unsent := ⟨state.mid + 1, request.token, request.endpoint⟩ ::
            state.unsent }
        request.key request.block2Size second
        (idle request.key List.mem_cons_self)
    rw [started]
    refine serializeAndSend_delivers initialized third rfl rfl le_rfl ?_ ?_
    · intro other member
      rcases kept other member with old | new
      · exact .inl old
      · exact .inr (List.mem_singleton.mpr new)
    · simp [setFirstBlock, named]
  · rw [if_neg blocks] at idle ⊢
    rw [if_neg blocks]
    refine serializeAndSend_delivers initialized second rfl rfl ?_ ?_ ?_
    · dsimp only
      omega
    · intro other member
      exact .inl member
    · split
      · simp [named]
      · simp [named]

variable {resource : AppResource} {obs : CoapObserver}

theorem dispatchNotification_delivers {before state : Sending}
    {keys : List TransferKey} {notification : OutPacket}
    (initialized : call.initialized = true)
    (first : call.succeeds state.attempts = true)
    (second : call.succeeds (state.attempts + 1) = true)
    (sent : state.sent = before.sent) (unsent : state.unsent = before.unsent)
    (attempts : state.attempts ≤ before.attempts + 1)
    (buffers : ∀ other ∈ state.buffers,
      other ∈ before.buffers ∨ other.key ∈ keys) :
    Delivers obs.endpoint obs.token keys before
      (dispatchNotification call resource obs notification state).2 := by
  have counted : ∀ counts : Bool, ∃ counters,
      (if counts then incrementObserveCounter obs state else state) =
        { state with obsCounter := counters } := by
    intro counts
    cases counts with
    | true => exact ⟨_, rfl⟩
    | false => exact ⟨state.obsCounter, rfl⟩
  obtain ⟨counters, same⟩ :=
    counted (state.code < 128 && resource.numObservers != 0)
  have opened := @coapNewTransaction_succeeds call
    { state with obsCounter := counters } obs.token obs.endpoint first
  simp only [dispatchNotification, same, opened]
  refine serializeAndSend_delivers initialized second sent ?_ ?_ buffers ?_
  · rw [← unsent]
  · dsimp only
    omega
  · exact List.take_of_length_le obs.token.short

theorem notifyBlockwise_delivers (initialized : call.initialized = true)
    (succeed : NextSucceed call 3 state)
    (idle : IdleFor [obs.key resource] state) :
    Delivers obs.endpoint obs.token [obs.key resource] state
      (notifyBlockwise env call resource obs state).2 := by
  have first : call.succeeds state.attempts = true :=
    succeed _ (by omega)
  obtain ⟨block, buffers, started, kept⟩ :=
    startTransfer_succeeds (obs.key resource) obs.block2Size first
      (idle (obs.key resource) List.mem_cons_self)
  rw [notifyBlockwise, started]
  refine dispatchNotification_delivers initialized
    (succeed _ ?_) (succeed _ ?_) rfl rfl le_rfl ?_
  · dsimp only
    omega
  · dsimp only
    omega
  · intro other member
    rcases kept other member with old | new
    · exact .inl old
    · exact .inr (List.mem_singleton.mpr new)

theorem coapSendNotification_delivers (initialized : call.initialized = true)
    (succeed : NextSucceed call 3 state)
    (idle : IdleFor (call.notificationTransfer env resource obs) state)
    (filled : obs.revert = false → call.payload ≠ []) :
    Delivers obs.endpoint obs.token
      (call.notificationTransfer env resource obs) state
      (coapSendNotification env call resource obs state).2 := by
  have first : call.succeeds state.attempts = true :=
    succeed _ (by omega)
  have second : call.succeeds (state.attempts + 1) = true :=
    succeed _ (by omega)
  cases revert : obs.revert with
  | true =>
      rw [coapSendNotification, if_pos revert]
      exact dispatchNotification_delivers initialized first second rfl rfl
        (Nat.le_succ _) fun _ member => .inl member
  | false =>
      rw [coapSendNotification, if_neg (by simp [revert]),
        if_neg (filled revert)]
      cases blocks : blockwise env call obs.endpoint obs.block2Size with
      | true =>
          have keys : call.notificationTransfer env resource obs =
              [obs.key resource] := by
            simp [SendCall.notificationTransfer, revert, blocks]
          rw [keys] at idle ⊢
          exact notifyBlockwise_delivers initialized succeed idle
      | false =>
          exact dispatchNotification_delivers initialized first second rfl
            rfl (Nat.le_succ _) fun _ member => .inl member

theorem coapIterateObservers_of_unselected {observers : List CoapObserver}
    (none : observers.filter (call.selects resource endpoint) = []) :
    coapIterateObservers env call resource endpoint observers state =
      state := by
  induction observers with
  | nil => rfl
  | cons obs rest ih =>
      rw [List.filter_eq_nil_iff, List.forall_mem_cons] at none
      rw [coapIterateObservers, if_neg none.1]
      exact ih (List.filter_eq_nil_iff.mpr none.2)

theorem coapIterateObservers_of_selected {observers : List CoapObserver}
    (one : observers.filter (call.selects resource endpoint) = [obs]) :
    coapIterateObservers env call resource endpoint observers state =
      (coapSendNotification env call resource obs state).2 := by
  induction observers with
  | nil => cases one
  | cons first rest ih =>
      rw [coapIterateObservers]
      by_cases selected : call.selects resource endpoint first = true
      · rw [List.filter_cons_of_pos selected] at one
        obtain ⟨rfl, others⟩ := List.cons.inj one
        rw [if_pos selected]
        split
        · next next notified =>
            rw [coapIterateObservers_of_unselected others, notified]
        · next next notified => rw [notified]
      · rw [List.filter_cons_of_neg selected] at one
        rw [if_neg selected]
        exact ih one

theorem SendCall.of_notified_eq (one : call.notified request = [obs]) :
    ∃ resource,
      call.ocRiGetAppResourceByUri request.uri request.endpoint.device =
        some resource ∧
      (resource.observable ∧ call.dos resource.device = .rfnop ∧
        resource.numObservers ≠ 0) ∧
      call.observers.filter (call.selects resource request.endpoint) =
        [obs] := by
  unfold SendCall.notified at one
  split at one
  · cases one
  · next resource found =>
      split at one
      · next open_ => exact ⟨resource, found, open_, one⟩
      · cases one

theorem answer_delivers (initialized : call.initialized = true)
    (succeed : NextSucceed call 3 state)
    (alone : observeSequenceStartValue ≤ request.observe →
      NotifiedAlone call request)
    (idle : IdleFor (call.transfers env request) state) :
    Delivers request.endpoint request.token (call.transfers env request)
      state (answer env call state request) := by
  unfold answer
  by_cases plain : request.observe < observeSequenceStartValue
  · have keys : call.transfers env request =
        call.responseTransfer env request := by
      rw [SendCall.transfers, if_pos plain]
    rw [keys] at idle ⊢
    rw [if_pos plain]
    exact handleSeparateResponseRequest_delivers initialized succeed idle
  · obtain ⟨single, every⟩ := alone (not_lt.mp plain)
    obtain ⟨obs, one⟩ := List.length_eq_one_iff.mp single
    obtain ⟨endpoint, token, filled⟩ := every obs (by rw [one]; simp)
    obtain ⟨resource, found, ⟨observable, dos, observed⟩, selected⟩ :=
      SendCall.of_notified_eq one
    have keys : call.transfers env request =
        call.notificationTransfer env resource obs := by
      rw [SendCall.transfers, if_neg plain, found]
      dsimp only
      rw [one, List.flatMap_singleton]
    rw [keys] at idle ⊢
    rw [if_neg plain, found, ← endpoint, ← token]
    dsimp only
    rw [coapNotifyObservers, observable, if_neg (by decide),
      if_neg (not_not.mpr dos), if_neg observed, endpoint,
      coapIterateObservers_of_selected selected, ← endpoint]
    exact coapSendNotification_delivers initialized succeed idle filled

theorem IdleFor.after {keys later : List TransferKey} {token : CoapToken}
    {before after : Sending} (idle : IdleFor later before)
    (delivers : Delivers endpoint token keys before after)
    (apart : ∀ first ∈ keys, ∀ second ∈ later, second.finds first = false) :
    IdleFor later after := by
  intro key member other stored found
  rcases delivers.buffers other stored with old | new
  · exact idle key member other old found
  · rw [apart other.key new key member] at found
    cases found

theorem foldl_answer_delivers {requests : List CoapSeparate}
    {state : Sending} (initialized : call.initialized = true)
    (succeed : NextSucceed call (3 * requests.length) state)
    (alone : ∀ request ∈ requests,
      observeSequenceStartValue ≤ request.observe →
        NotifiedAlone call request)
    (idle : IdleFor (requests.flatMap (call.transfers env)) state)
    (apart : (requests.flatMap (call.transfers env)).Pairwise
      fun first second => second.finds first = false) :
    (requests.foldl (answer env call) state).sent.map
          SentMessage.addressee =
        state.sent.map SentMessage.addressee ++
          requests.map (fun request => request.requester.addressee) ∧
      (requests.foldl (answer env call) state).unsent = state.unsent := by
  induction requests generalizing state with
  | nil => exact ⟨(List.append_nil _).symm, rfl⟩
  | cons request rest ih =>
      rw [List.flatMap_cons, List.pairwise_append] at apart
      obtain ⟨-, restApart, between⟩ := apart
      rw [List.forall_mem_cons] at alone
      rw [List.length_cons] at succeed
      have delivers : Delivers request.endpoint request.token
          (call.transfers env request) state
          (answer env call state request) := by
        refine answer_delivers initialized ?_ alone.1 ?_
        · intro attempt upper
          exact succeed attempt (by omega)
        · intro key member
          exact idle key (List.mem_append_left _ member)
      have restIdle : IdleFor (rest.flatMap (call.transfers env)) state := by
        intro key member
        exact idle key (List.mem_append_right _ member)
      have restSucceed : NextSucceed call (3 * rest.length)
          (answer env call state request) := by
        intro attempt upper
        have steps := delivers.attempts
        exact succeed attempt (by omega)
      obtain ⟨sent, unsent⟩ :=
        ih restSucceed alone.2 (restIdle.after delivers between) restApart
      rw [List.foldl_cons, sent, unsent, delivers.sent, List.map_cons,
        List.append_assoc]
      exact ⟨rfl, delivers.unsent⟩

end Deliver

section Run

variable {env : SeparateEnv} {state : SeparateState}

theorem SeparateState.consistent_initial : Consistent SeparateState.initial :=
  ⟨rfl, by decide, rfl⟩

theorem Consistent.send_answerable {call : SendCall}
    (consistent : Consistent state)
    (answerable : Answerable env call state.response.requests) :
    ((separateSent env state (.send call)).map SentMessage.addressee) =
        state.accepted.map Requester.addressee ∧
      separateStep env state (.send call) = SeparateState.initial := by
  obtain ⟨code, valid⟩ := Option.ne_none_iff_exists'.mp answerable.valid
  have loop := @foldl_answer_delivers env call state.response.requests
    (call.start code state.unsent) answerable.initialized
    (by simpa [NextSucceed, SendCall.start] using answerable.succeeds)
    answerable.alone answerable.idle answerable.apart
  simp only [separateSent, separateStep, ocSendSeparateResponse, valid,
    loop.1, loop.2]
  refine ⟨?_, ?_⟩
  · rw [← consistent.stored, List.map_map]
    rfl
  · rw [SendCall.start, consistent.settled]
    rfl

theorem Consistent.send_empty (call : SendCall)
    (consistent : Consistent state)
    (empty : state.response.requests = []) :
    separateSent env state (.send call) = [] ∧
      separateStep env state (.send call) = SeparateState.initial := by
  have inactive := consistent.active.mpr empty
  have handle : state.response = ⟨[], false⟩ := by
    rw [← empty, ← inactive]
  simp only [separateSent, separateStep, ocSendSeparateResponse, handle,
    consistent.settled]
  cases ocStatusCode call.status with
  | none => exact ⟨rfl, rfl⟩
  | some code => exact ⟨rfl, rfl⟩

theorem Consistent.send {call : SendCall} (consistent : Consistent state)
    (admitted : KeepsApart env state (.send call)) :
    ((separateSent env state (.send call)).map SentMessage.addressee) =
        state.accepted.map Requester.addressee ∧
      separateStep env state (.send call) = SeparateState.initial := by
  rcases admitted with empty | answerable
  · obtain ⟨silent, after⟩ := consistent.send_empty call empty
    refine ⟨?_, after⟩
    rw [silent, ← consistent.stored, empty]
    rfl
  · exact consistent.send_answerable answerable

theorem Consistent.step {event : SeparateEvent}
    (consistent : Consistent state) (admitted : KeepsApart env state event) :
    Consistent (separateStep env state event) := by
  cases event with
  | accept request memory => exact consistent.accept admitted
  | send call =>
      rw [(consistent.send admitted).2]
      exact SeparateState.consistent_initial

theorem Consistent.answered {event : SeparateEvent}
    (consistent : Consistent state) (admitted : KeepsApart env state event) :
    Answered env state event := by
  cases event with
  | accept request memory => trivial
  | send call =>
      obtain ⟨sent, after⟩ := consistent.send admitted
      rw [Answered, sent, after]
      exact ⟨List.Perm.refl _, rfl, rfl, rfl⟩

end Run

/-- In a run whose events all keep the requests apart, every response reaches
each of its requesters once and leaves nothing behind. -/
theorem separateAnswered_of_keepsApart (env : SeparateEnv)
    (events : List SeparateEvent)
    (admitted : Along (separateStep env) (KeepsApart env)
      SeparateState.initial events) : SeparateAnswered env events :=
  admitted.imp SeparateState.consistent_initial
    (fun _ _ consistent here => consistent.step here)
    (fun _ _ consistent here => consistent.answered here)

namespace SeparateSample

def config : CoapConfig where
  ocTcp := true
  ocOscore := true
  ocSpecVerOic := true
  ocJsonEncoder := false
  ocWkcore := false
  ocBlockWise := true
  ocEtag := false
  ocEtagIncrementalChanges := false
  ocTest := false
  ocBlockSize := 1024

def env : SeparateEnv := ⟨config, fun _ => false⟩

def client (route : Nat) : OcEndpoint := ⟨0, false, route, 0, Uuid.nil⟩

def token (number : UInt8) : CoapToken := ⟨[number], by simp [coapTokenLen]⟩

/-- A request for `/light`, confirmable unless it stands for an observer. -/
def request (route : Nat) (number : UInt8) (observe : Int) :
    SeparateRequest where
  confirmable := observe < observeSequenceStartValue
  mid := 1
  token := token number
  uriPath := ascii "light"
  method := .get
  endpoint := client route
  observe := observe
  block2Size := 16

def accept (route : Nat) (number : UInt8) (observe : Int) : SeparateEvent :=
  .accept (request route number observe) ⟨true, true, true⟩

def observer (route : Nat) (number : UInt8) : CoapObserver where
  ref := number.toNat
  resource := 1
  endpoint := client route
  token := token number
  ifaceMask := OcInterface.baseline
  block2Size := 16

/-- A response with a payload of some length; there is memory for it. -/
def send (status length : Nat) (observers : List CoapObserver) :
    SeparateEvent :=
  .send {
    status := status
    buffer := List.replicate (min length 100) 0
    buffer_lt := by rw [List.length_replicate]; omega
    len := length
    encodedSize := 0
    initialized := true
    dos := fun _ => .rfnop
    resources := [⟨1, ascii "/light", 0, true, observers.length⟩]
    collections := []
    observers := observers
    obsCounter := fun _ => 2
    buffers := []
    mid := 0
    succeeds := fun _ => true
    randomEtag := fun _ => [] }

/-- Two clients and an observer, answered in blocks, and the handle again. -/
def run : List SeparateEvent :=
  [accept 1 1 (-1), accept 2 2 0, accept 3 3 2,
    send 0 20 [observer 3 3], accept 1 4 (-1), send 0 10 []]

def equalTokens : List SeparateEvent :=
  [accept 1 7 (-1), accept 2 7 (-1), send 0 10 []]

def invalidStatus : List SeparateEvent := [accept 1 1 (-1), send 30 10 []]

def oneTransfer : List SeparateEvent :=
  [accept 1 1 (-1), accept 1 2 (-1), send 0 20 []]

def observedTwice : List SeparateEvent :=
  [accept 1 1 2, accept 1 2 2, send 0 10 [observer 1 1, observer 1 2]]

end SeparateSample

open SeparateSample in
theorem separateAnswered_threeRequesters : SeparateAnswered env run :=
  separateAnswered_of_keepsApart env run (by decide +kernel)

open SeparateSample in
/-- Of two clients with one token only the second gets a response; after an
invalid status the handle stays active; the second of two payloads in blocks
for one client is not sent and leaves its transaction; a client that observes
twice is notified four times. -/
theorem not_separateAnswered :
    ¬ SeparateAnswered env equalTokens ∧
      ¬ SeparateAnswered env invalidStatus ∧
      ¬ SeparateAnswered env oneTransfer ∧
      ¬ SeparateAnswered env observedTwice := by
  unfold SeparateAnswered
  decide +kernel

end IotivityLite
