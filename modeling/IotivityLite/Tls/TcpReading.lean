import IotivityLite.Port.TcpChunking

/-!
# Application data over TCP

`tls_read_application_data_tcp` of `oc_tls.c`.  A TLS session hands out the
decrypted bytes record by record; a read event is posted for every record that
arrives, and handling it ends with the first message that is complete.
-/

namespace IotivityLite

/-- `pduSize` is `OC_PDU_SIZE`. -/
structure TlsTcpConfig where
  pduSize : Nat
  /-- a `size_t` -/
  sized : pduSize < 2 ^ 64

/-- What `mbedtls_ssl_read` was asked for while the message with the index
was being read and `received` bytes of it were there. -/
structure TlsReadRequest where
  index : Nat
  received : Nat
  wantRead : Nat
  deriving DecidableEq

/-- The part of `oc_tls_peer_t` that reading changes: the bytes of
`processed_recv_message`, the records that have arrived, the first of them up
to its unread bytes, and the number of read events.  `finished` counts the
messages that were complete, `posted` are those the CoAP engine got. -/
structure TlsTcpPeer where
  message : Bytes
  records : List Bytes
  pending : Nat
  finished : Nat
  posted : List Bytes
  requests : List TlsReadRequest
  /-- `oc_tls_free_peer` was called -/
  freed : Bool
  /-- the last step was a read -/
  returned : Bool
  deriving DecidableEq

def TlsTcpPeer.initial : TlsTcpPeer := ⟨[], [], 0, 0, [], [], false, false⟩

/-- Decrypted bytes that were not handed on. -/
def TlsTcpPeer.unread (peer : TlsTcpPeer) : Bytes :=
  peer.message ++ peer.records.flatten

/-- A call of `mbedtls_ssl_read`, of the library: it takes decrypted bytes of
the records in their order and no more than it is asked for, and nothing only
when nothing has arrived or was asked for. -/
structure SslRead where
  read : (wantRead : Nat) → (records : List Bytes) → Bytes × List Bytes
  inOrder : ∀ wantRead records, (read wantRead records).1 ++
    (read wantRead records).2.flatten = records.flatten
  bounded : ∀ wantRead records, (read wantRead records).1.length ≤ wantRead
  takes : ∀ wantRead records, 0 < wantRead →
    (read wantRead records).1 = [] → records.flatten = []

/-- What is asked for, with the length of the message as far as it is known;
`none` when the message cannot be received. -/
def tlsWantRead (config : TlsTcpConfig) (message : Bytes) :
    Option (Nat × Nat) :=
  if message.length < ocTcpDefaultReceiveSize then
    some (ocTcpDefaultReceiveSize - message.length, 0)
  else
    match coapTcpGetPacketSize message with
    | none => none
    | some totalLength =>
        if totalLength > config.pduSize then none
        else some (sizeSub totalLength message.length, totalLength)

/-- The loop of `tls_read_application_data_tcp`.  `room` tells whether the
event queue takes a message.  Every round but the last one takes a byte. -/
def tlsReadLoop (config : TlsTcpConfig) (room : Bool) :
    (fuel : Nat) → (ssl : Nat → SslRead) → TlsTcpPeer → TlsTcpPeer
  | 0, _, peer => peer
  | fuel + 1, ssl, peer =>
      match tlsWantRead config peer.message with
      | none => { peer with freed := true }
      | some (wantRead, totalLength) =>
          let requests := peer.requests ++
            [⟨peer.finished, peer.message.length, wantRead⟩]
          match (ssl 0).read wantRead peer.records with
          | ([], records) =>
              { peer with records := records, requests := requests }
          | (chunk, records) =>
              let message := peer.message ++ chunk
              if totalLength ≠ 0 ∧ message.length = totalLength then
                { peer with
                  message := []
                  records := records
                  finished := peer.finished + 1
                  posted := if room then peer.posted ++ [message]
                    else peer.posted
                  requests := requests }
              else
                tlsReadLoop config room fuel (fun call => ssl (call + 1))
                  { peer with
                    message := message
                    records := records
                    requests := requests }

/-- `tls_read_application_data_tcp` -/
def tlsReadApplicationDataTcp (config : TlsTcpConfig) (room : Bool)
    (ssl : Nat → SslRead) (peer : TlsTcpPeer) : TlsTcpPeer :=
  tlsReadLoop config room (peer.records.flatten.length + 1) ssl peer

/-- A record arrives, and its read event is posted or not; or a read event is
handled. -/
inductive TlsTcpInput where
  | record (bytes : Bytes) (scheduled : Bool)
  | read (room : Bool) (ssl : Nat → SslRead)

def tlsTcpStep (config : TlsTcpConfig) (peer : TlsTcpPeer) :
    TlsTcpInput → TlsTcpPeer
  | .record bytes scheduled =>
      -- `oc_tls_recv_message`
      { peer with
        records := peer.records ++ [bytes]
        pending := peer.pending + (if scheduled then 1 else 0)
        returned := false }
  | .read room ssl =>
      if peer.freed ∨ peer.pending = 0 then peer
      else
        { tlsReadApplicationDataTcp config room ssl peer with
          pending := peer.pending - 1
          returned := true }

/-- The bytes of all records that arrive. -/
def arrivedBytes : List TlsTcpInput → Bytes
  | [] => []
  | .record bytes _ :: inputs => bytes ++ arrivedBytes inputs
  | .read _ _ :: inputs => arrivedBytes inputs

/-- A message of CoAP over TCP that tells its own length. -/
structure CoapTcpMessage (config : TlsTcpConfig) (message : Bytes) : Prop where
  size : coapTcpGetPacketSize message = some message.length
  fits : message.length ≤ config.pduSize

/-- A request asks for no more than is left of its message. -/
def TlsReadRequest.Inside (messages : List Bytes) (request : TlsReadRequest) :
    Prop :=
  ∀ message, messages[request.index]? = some message →
    request.received + request.wantRead ≤ message.length

/-- The messages are posted in order and no more is asked for than is left of
the current one; a read that returns without another event leaves no complete
message behind. -/
structure TlsTcpPeer.Delivers (messages : List Bytes) (peer : TlsTcpPeer) :
    Prop where
  posted : peer.posted = messages.take peer.finished
  requests : ∀ request ∈ peer.requests, request.Inside messages
  complete : peer.returned = true → peer.pending = 0 →
    ∀ message, messages[peer.finished]? = some message →
      ¬message <+: peer.unread
  opened : peer.freed = false

/-- A read finds room in the event queue, and if its event is the last one,
not two complete messages. -/
def TlsTcpPeer.SafeRead (messages : List Bytes) (peer : TlsTcpPeer) :
    TlsTcpInput → Prop
  | .read room _ =>
      room = true ∧ (peer.pending = 1 → ∀ first second,
        messages[peer.finished]? = some first →
        messages[peer.finished + 1]? = some second →
          ¬first ++ second <+: peer.unread)
  | .record _ _ => True

section Round

variable {config : TlsTcpConfig} {message : Bytes}

theorem tlsWantRead_start (part : Bytes) (short : part.length < 6) :
    tlsWantRead config part = some (6 - part.length, 0) :=
  if_pos short

theorem tlsWantRead_rest (valid : CoapTcpMessage config message) {count : Nat}
    (enough : 6 ≤ count) (open_ : count < message.length) :
    tlsWantRead config (message.take count) =
      some (message.length - count, message.length) := by
  have length : (message.take count).length = count :=
    List.length_take_of_le open_.le
  have started : ¬count < ocTcpDefaultReceiveSize := Nat.not_lt.mpr enough
  have sized := Nat.lt_of_le_of_lt valid.fits config.sized
  rw [tlsWantRead, length, if_neg started,
    coapTcpGetPacketSize_take_five message (by omega) open_.le, valid.size]
  simp only
  rw [if_neg (Nat.not_lt.mpr valid.fits), sizeSub_of_le sized open_.le]

end Round

/-- Either everything was read, or the current message was posted. -/
structure ReadsOn (messages : List Bytes) (peer after : TlsTcpPeer) :
    Prop where
  freed : after.freed = peer.freed
  requests : ∀ request ∈ after.requests,
    request ∈ peer.requests ∨ request.Inside messages
  outcome :
    (after.finished = peer.finished ∧ after.posted = peer.posted ∧
      after.records.flatten = [] ∧ after.message = peer.unread ∧
      ∀ message, messages[peer.finished]? = some message →
        after.message.length < message.length) ∨
    ∃ message, messages[peer.finished]? = some message ∧
      after.finished = peer.finished + 1 ∧
      after.posted = peer.posted ++ [message] ∧ after.message = [] ∧
      message ++ after.records.flatten = peer.unread

section Reading

variable {config : TlsTcpConfig} {messages : List Bytes} {peer : TlsTcpPeer}

/-- What has not been handed on is the start of the messages to come, and the
current one is not complete. -/
structure TlsTcpPeer.Current (messages : List Bytes) (peer : TlsTcpPeer) :
    Prop where
  stream : peer.unread <+: (messages.drop peer.finished).flatten
  part : ∀ message, messages[peer.finished]? = some message →
    peer.message.length < message.length

theorem TlsTcpPeer.Current.message_eq (current : peer.Current messages)
    {message : Bytes} (here : messages[peer.finished]? = some message) :
    peer.message = message.take peer.message.length := by
  obtain ⟨inside, rfl⟩ := List.getElem?_eq_some_iff.mp here
  have part := current.part _ here
  have stream := current.stream
  rw [List.drop_eq_getElem_cons inside, List.flatten_cons] at stream
  have whole := (List.prefix_append peer.message peer.records.flatten).trans
    stream
  rw [List.prefix_iff_eq_take, List.take_append_of_le_length part.le] at whole
  exact whole

theorem TlsTcpPeer.Current.nothing (current : peer.Current messages)
    (none : messages[peer.finished]? = none) :
    peer.message = [] ∧ peer.records.flatten = [] := by
  have stream := current.stream
  rw [List.drop_eq_nil_of_le (List.getElem?_eq_none_iff.mp none),
    List.flatten_nil, List.prefix_nil] at stream
  exact List.append_eq_nil_iff.mp stream

/-- Every message is valid and longer than the first read asks for. -/
def LongMessages (config : TlsTcpConfig) (messages : List Bytes) : Prop :=
  ∀ message ∈ messages,
    CoapTcpMessage config message ∧ ocTcpDefaultReceiveSize < message.length

/-- What a round asks for is not nothing and no more than is left of the
message; the message can become complete in it only if its length is known. -/
structure AsksFor (messages : List Bytes) (peer : TlsTcpPeer)
    (wantRead totalLength : Nat) : Prop where
  positive : 0 < wantRead
  left : ∀ message, messages[peer.finished]? = some message →
    peer.message.length + wantRead ≤ message.length ∧
      (totalLength = 0 → peer.message.length + wantRead < message.length)
  known : totalLength ≠ 0 → ∃ message,
    messages[peer.finished]? = some message ∧ totalLength = message.length

theorem TlsTcpPeer.Current.asks (current : peer.Current messages)
    (long : LongMessages config messages) :
    ∃ wantRead totalLength,
      tlsWantRead config peer.message = some (wantRead, totalLength) ∧
        AsksFor messages peer wantRead totalLength := by
  by_cases short : peer.message.length < 6
  · refine ⟨_, _, tlsWantRead_start peer.message short, by omega, ?_, ?_⟩
    · intro message here
      have longer : 6 < message.length :=
        (long message (List.mem_of_getElem? here)).2
      omega
    · intro known
      exact absurd rfl known
  · obtain none | ⟨message, here⟩ :=
      Option.eq_none_or_eq_some messages[peer.finished]?
    · rw [(current.nothing none).1] at short
      exact absurd (by decide) short
    · have part := current.part message here
      have valid := (long message (List.mem_of_getElem? here)).1
      have asked := tlsWantRead_rest valid (Nat.not_lt.mp short) part
      rw [← current.message_eq here] at asked
      refine ⟨_, _, asked, by omega, ?_, fun _ => ⟨message, here, rfl⟩⟩
      intro other same
      cases here.symm.trans same
      omega

variable {records : List Bytes}

theorem ReadsOn.of_round {after : TlsTcpPeer} {chunk : Bytes}
    {request : TlsReadRequest}
    (read : chunk ++ records.flatten = peer.records.flatten)
    (inside : request.Inside messages)
    (later : ReadsOn messages
      { peer with
        message := peer.message ++ chunk
        records := records
        requests := peer.requests ++ [request] } after) :
    ReadsOn messages peer after := by
  have same : peer.message ++ chunk ++ records.flatten = peer.unread := by
    rw [List.append_assoc, read, TlsTcpPeer.unread]
  refine ⟨later.freed, ?_, ?_⟩
  · intro asked member
    rcases later.requests asked member with before | inside'
    · rcases List.mem_append.mp before with before | new
      · exact .inl before
      · rw [List.mem_singleton.mp new]
        exact .inr inside
    · exact .inr inside'
  · have outcome := later.outcome
    simp only [TlsTcpPeer.unread] at outcome
    rw [same] at outcome
    exact outcome

theorem TlsTcpPeer.Current.complete (current : peer.Current messages)
    {message chunk : Bytes} (here : messages[peer.finished]? = some message)
    (read : chunk ++ records.flatten = peer.records.flatten)
    (whole : (peer.message ++ chunk).length = message.length) :
    peer.message ++ chunk = message := by
  obtain ⟨inside, rfl⟩ := List.getElem?_eq_some_iff.mp here
  have stream := current.stream
  rw [List.drop_eq_getElem_cons inside, List.flatten_cons, TlsTcpPeer.unread,
    ← read, ← List.append_assoc] at stream
  exact (List.prefix_of_prefix_length_le
    ((List.prefix_append _ _).trans stream) (List.prefix_append _ _)
    whole.le).eq_of_length whole

theorem TlsTcpPeer.Current.round (current : peer.Current messages)
    {wantRead totalLength : Nat} {chunk : Bytes}
    {requests : List TlsReadRequest}
    (asks : AsksFor messages peer wantRead totalLength)
    (read : chunk ++ records.flatten = peer.records.flatten)
    (within : chunk.length ≤ wantRead)
    (incomplete : ¬(totalLength ≠ 0 ∧
      (peer.message ++ chunk).length = totalLength)) :
    TlsTcpPeer.Current messages
      { peer with
        message := peer.message ++ chunk
        records := records
        requests := requests } := by
  refine ⟨?_, ?_⟩
  · have stream := current.stream
    rw [TlsTcpPeer.unread, ← read, ← List.append_assoc] at stream
    exact stream
  · intro message here
    obtain ⟨left, started⟩ := asks.left message here
    simp only [List.length_append] at incomplete ⊢
    by_cases unknown : totalLength = 0
    · have := started unknown
      omega
    · obtain ⟨other, same, rfl⟩ := asks.known unknown
      cases here.symm.trans same
      omega

theorem tlsReadLoop_readsOn (long : LongMessages config messages)
    (fuel : Nat) (ssl : Nat → SslRead) (current : peer.Current messages)
    (enough : peer.records.flatten.length < fuel) :
    ReadsOn messages peer (tlsReadLoop config true fuel ssl peer) := by
  induction fuel generalizing ssl peer with
  | zero => exact absurd enough (Nat.not_lt_zero _)
  | succ fuel ih =>
      obtain ⟨wantRead, totalLength, asked, asks⟩ := current.asks long
      have read := (ssl 0).inOrder wantRead peer.records
      have within := (ssl 0).bounded wantRead peer.records
      have none := (ssl 0).takes wantRead peer.records
      have inside : TlsReadRequest.Inside messages
          ⟨peer.finished, peer.message.length, wantRead⟩ :=
        fun message here => (asks.left message here).1
      have added : ∀ request ∈ peer.requests ++
          [(⟨peer.finished, peer.message.length, wantRead⟩ :
            TlsReadRequest)],
          request ∈ peer.requests ∨ request.Inside messages := by
        intro request member
        rcases List.mem_append.mp member with before | new
        · exact .inl before
        · rw [List.mem_singleton.mp new]
          exact .inr inside
      rw [tlsReadLoop, asked]
      simp only
      generalize (ssl 0).read wantRead peer.records = result
        at read within none ⊢
      rcases result with ⟨_ | ⟨byte, chunk⟩, records⟩
      · have empty := none asks.positive rfl
        refine ⟨rfl, added, .inl ⟨rfl, rfl, ?_, ?_, current.part⟩⟩
        · exact (read.trans empty :)
        · simp only [TlsTcpPeer.unread, empty, List.append_nil]
      · simp only at read within ⊢
        split_ifs with complete
        · obtain ⟨known, whole⟩ := complete
          obtain ⟨message, here, rfl⟩ := asks.known known
          have same := current.complete here read whole
          refine ⟨rfl, added, .inr ⟨message, here, rfl, ?_, rfl, ?_⟩⟩
          · simp only [same]
          · rw [← same, List.append_assoc, read, TlsTcpPeer.unread]
        · refine .of_round read inside
            (ih _ (current.round asks read within complete) ?_)
          have lengths := congrArg List.length read
          rw [List.length_append, List.length_cons] at lengths
          simp only
          omega

end Reading

/-- The messages of a connection and what arrives of them. -/
structure TlsTcpStream (config : TlsTcpConfig) (messages : List Bytes)
    (inputs : List TlsTcpInput) : Prop where
  valid : ∀ message ∈ messages, CoapTcpMessage config message
  arrives : arrivedBytes inputs <+: messages.flatten

/-- The state reached delivers the messages; all of them, when all have
arrived and no read event is pending. -/
structure DeliversEvery (config : TlsTcpConfig) (messages : List Bytes)
    (inputs : List TlsTcpInput) : Prop where
  delivers :
    (runFrom (tlsTcpStep config) .initial inputs).Delivers messages
  every : arrivedBytes inputs = messages.flatten →
    (runFrom (tlsTcpStep config) .initial inputs).returned = true →
    (runFrom (tlsTcpStep config) .initial inputs).pending = 0 →
      (runFrom (tlsTcpStep config) .initial inputs).posted = messages

section Runs

variable {config : TlsTcpConfig} {messages : List Bytes} {peer : TlsTcpPeer}

/-- The invariant of a run; `coming` are the bytes that have not arrived. -/
structure TlsTcpPeer.Follows (messages : List Bytes) (coming : Bytes)
    (peer : TlsTcpPeer) : Prop where
  stream : peer.unread ++ coming = (messages.drop peer.finished).flatten
  part : ∀ message, messages[peer.finished]? = some message →
    peer.message.length < message.length
  delivers : peer.Delivers messages

theorem TlsTcpPeer.Follows.record {bytes coming : Bytes}
    (follows : peer.Follows messages (bytes ++ coming)) (scheduled : Bool) :
    (tlsTcpStep config peer (.record bytes scheduled)).Follows messages
      coming := by
  refine ⟨?_, follows.part, follows.delivers.posted,
    follows.delivers.requests, ?_, follows.delivers.opened⟩
  · have stream := follows.stream
    rw [TlsTcpPeer.unread, List.append_assoc] at stream
    simp only [tlsTcpStep, TlsTcpPeer.unread, List.flatten_append,
      List.flatten_singleton, List.append_assoc]
    exact stream
  · intro returned
    cases returned

theorem TlsTcpPeer.Follows.read {coming : Bytes}
    (follows : peer.Follows messages coming)
    (long : LongMessages config messages) (ssl : Nat → SslRead)
    (safe : peer.SafeRead messages (.read true ssl)) :
    (tlsTcpStep config peer (.read true ssl)).Follows messages
      coming := by
  have opened := follows.delivers.opened
  by_cases idle : peer.pending = 0
  · rw [tlsTcpStep, if_pos (.inr idle)]
    exact follows
  have current : peer.Current messages :=
    ⟨⟨coming, follows.stream⟩, follows.part⟩
  obtain ⟨freed, requests, outcome⟩ := tlsReadLoop_readsOn long _ ssl
    current (Nat.lt_succ_self _)
  have asked : ∀ request ∈ (tlsReadLoop config true
      (peer.records.flatten.length + 1) ssl peer).requests,
      request.Inside messages := by
    intro request member
    rcases requests request member with before | inside
    · exact follows.delivers.requests request before
    · exact inside
  have busy : ¬(peer.freed = true ∨ peer.pending = 0) := by
    rw [opened]
    simp only [Bool.false_eq_true, false_or]
    exact idle
  rw [tlsTcpStep, if_neg busy, tlsReadApplicationDataTcp]
  generalize tlsReadLoop config true (peer.records.flatten.length + 1) ssl
    peer = after at freed outcome asked ⊢
  rcases outcome with ⟨finished, posted, empty, rest, part⟩ |
    ⟨message, here, finished, posted, none, rest⟩
  · have unread : after.message ++ after.records.flatten = peer.unread := by
      rw [empty, List.append_nil, rest]
    refine ⟨?_, ?_, ?_, asked, ?_, freed.trans opened⟩
    · simp only [TlsTcpPeer.unread, unread, finished]
      exact follows.stream
    · simp only [finished]
      exact part
    · simp only [finished, posted]
      exact follows.delivers.posted
    · intro _ _ message here whole
      simp only [finished] at here
      change message <+: after.message ++ after.records.flatten at whole
      rw [empty, List.append_nil] at whole
      exact absurd whole.length_le (Nat.not_le.mpr (part message here))
  · obtain ⟨inside, rfl⟩ := List.getElem?_eq_some_iff.mp here
    refine ⟨?_, ?_, ?_, asked, ?_, freed.trans opened⟩
    · have stream := follows.stream
      rw [List.drop_eq_getElem_cons inside, List.flatten_cons, ← rest,
        List.append_assoc, List.append_cancel_left_eq] at stream
      simp only [TlsTcpPeer.unread, none, finished, List.nil_append]
      exact stream
    · intro later next
      simp only [none, List.length_nil]
      exact Nat.zero_lt_of_lt (long later (List.mem_of_getElem? next)).2
    · simp only [finished, posted, follows.delivers.posted]
      exact List.take_append_getElem inside
    · intro _ pending second next whole
      simp only at pending
      simp only [finished] at next
      refine safe.2 (by omega) _ second here next ?_
      simp only [TlsTcpPeer.unread, none, List.nil_append] at whole
      rw [← rest, List.prefix_append_right_inj]
      exact whole

/-- Safe inputs keep the invariant; by induction on them. -/
theorem TlsTcpPeer.Follows.run (long : LongMessages config messages)
    {inputs : List TlsTcpInput}
    (along : Along (tlsTcpStep config) (TlsTcpPeer.SafeRead messages) peer
      inputs) {coming : Bytes}
    (follows : peer.Follows messages (arrivedBytes inputs ++ coming)) :
    (runFrom (tlsTcpStep config) peer inputs).Follows messages coming := by
  induction inputs generalizing peer with
  | nil => exact follows
  | cons input inputs ih =>
      obtain ⟨safe, along⟩ := along
      refine ih along ?_
      cases input with
      | record bytes scheduled =>
          rw [arrivedBytes, List.append_assoc] at follows
          exact follows.record scheduled
      | read room ssl =>
          obtain ⟨rfl, -⟩ := id safe
          exact follows.read long ssl safe

theorem TlsTcpStream.deliversEvery {inputs : List TlsTcpInput}
    (stream : TlsTcpStream config messages inputs)
    (longer : ∀ message ∈ messages, ocTcpDefaultReceiveSize < message.length)
    (along : Along (tlsTcpStep config) (TlsTcpPeer.SafeRead messages) .initial
      inputs) : DeliversEvery config messages inputs := by
  have long : LongMessages config messages :=
    fun message member => ⟨stream.valid message member, longer message member⟩
  obtain ⟨coming, split⟩ := stream.arrives
  have start : TlsTcpPeer.initial.Follows messages
      (arrivedBytes inputs ++ coming) := by
    refine ⟨split, ?_, rfl, ?_, ?_, rfl⟩
    · intro message here
      exact Nat.zero_lt_of_lt (longer message (List.mem_of_getElem? here))
    · intro request member
      cases member
    · intro returned
      cases returned
  have follows := start.run long along
  refine ⟨follows.delivers, fun all returned pending => ?_⟩
  rw [all, List.append_right_eq_self] at split
  have rest := follows.stream
  rw [split, List.append_nil] at rest
  rw [follows.delivers.posted, List.take_eq_self_iff, ← Nat.not_lt]
  intro inside
  refine follows.delivers.complete returned pending _
    (List.getElem?_eq_getElem inside) ?_
  rw [rest, List.drop_eq_getElem_cons inside, List.flatten_cons]
  exact List.prefix_append _ _

end Runs

/-- With messages longer than the first read asks for, and reads that find
room and not two messages for the last event, everything is delivered. -/
def TlsTcpReadingContract (config : TlsTcpConfig) : Prop :=
  ∀ messages inputs, TlsTcpStream config messages inputs →
    (∀ message ∈ messages, ocTcpDefaultReceiveSize < message.length) →
    Along (tlsTcpStep config) (TlsTcpPeer.SafeRead messages) .initial inputs →
      DeliversEvery config messages inputs

theorem tls_tcp_reading (config : TlsTcpConfig) : TlsTcpReadingContract config :=
  fun _ _ stream longer along => stream.deliversEvery longer along

/-- Bytes of the first record that is not empty. -/
def readRecord (wantRead : Nat) : List Bytes → Bytes × List Bytes
  | [] => ([], [])
  | [] :: records => readRecord wantRead records
  | record :: records => (record.take wantRead, record.drop wantRead :: records)

def SslRead.ofRecord : SslRead where
  read := readRecord
  inOrder wantRead records := by
    fun_induction readRecord wantRead records with
    | case1 => rfl
    | case2 records ih => exact ih
    | case3 record records =>
        rw [List.flatten_cons, ← List.append_assoc, List.take_append_drop,
          List.flatten_cons]
  bounded wantRead records := by
    fun_induction readRecord wantRead records with
    | case1 => exact Nat.zero_le _
    | case2 records ih => exact ih
    | case3 record records => exact List.length_take_le _ _
  takes wantRead records positive none := by
    fun_induction readRecord wantRead records with
    | case1 => rfl
    | case2 records ih => exact ih none
    | case3 record records filled =>
        rcases List.take_eq_nil_iff.mp none with zero | empty
        · omega
        · exact absurd empty filled

/-- One message in one record is delivered. -/
theorem tls_tcp_reading_message :
    DeliversEvery ⟨64, by decide⟩ [[0x50, 0x01, 1, 2, 3, 4, 5]]
      [.record [0x50, 0x01, 1, 2, 3, 4, 5] true,
        .read true fun _ => .ofRecord] := by
  refine tls_tcp_reading _ _ _ ⟨?_, List.prefix_refl _⟩ (by decide)
    ⟨trivial, ⟨rfl, nofun⟩, trivial⟩
  intro message member
  rw [List.mem_singleton.mp member]
  exact ⟨by decide, by decide⟩

/-- A ping has two bytes; after it was read, four more are asked for and it is
never posted. -/
theorem not_deliversEvery_ping :
    ¬∀ config messages inputs, TlsTcpStream config messages inputs →
      DeliversEvery config messages inputs := by
  intro every
  have posted := (every ⟨64, by decide⟩ [[0x00, 0xE2]]
    [.record [0x00, 0xE2] true, .read true fun _ => .ofRecord]
    ⟨by
      intro message member
      rw [List.mem_singleton.mp member]
      exact ⟨by decide, by decide⟩, List.prefix_refl _⟩).every rfl rfl rfl
  revert posted
  decide

end IotivityLite
