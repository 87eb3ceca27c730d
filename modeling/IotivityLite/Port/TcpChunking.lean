import IotivityLite.Coap.ReceivedBytes
import IotivityLite.Port.TcpReceive

/-!
# Chunks of a TCP stream

A stream of messages is delivered message by message, however `recv` cuts it,
under two conditions that the receiver does not establish itself: no message
is shorter than the first read asks for, and the first read of a message
returns its whole length field.
-/

namespace IotivityLite

/-- A message as the receiver wants it: its header tells its length, it fits
into a buffer and it passes the check made before it is handed on. -/
structure ValidTcpMessage (receiver : TcpReceiver) (message : Bytes) :
    Prop where
  size : ocTcpGetTotalLengthFromHeader receiver.ocSecurity message
    receiver.secured = some message.length
  fits : message.length ≤ receiver.bufferSize
  accepted : ocTcpIsValidMessage receiver message

/-- The bytes of a message without which its length is not known. -/
def TcpReceiver.headerSize (receiver : TcpReceiver) (message : Bytes) : Nat :=
  if receiver.ocSecurity && receiver.secured then ocTlsHeaderSize
  else
    let tcpLen := (0xF0 &&& (Mem.ofBytes message 0).toNat) >>> 4
    if tcpLen < 13 then 1 else (1 <<< (tcpLen - 13)) + 1

/-- The message came out whole, and `recv` was never asked for more than was
left of it. -/
def DeliversWhole (message : Bytes) (outcome : TcpReceived) : Prop :=
  ∃ requests, outcome = .receive message requests ∧
    ∀ request ∈ requests,
      request.received + request.wantRead ≤ message.length

/-- The first read of a message asks for no more than the message and returns
its length field. -/
def FirstReadSuffices (receiver : TcpReceiver) (choice : Nat)
    (message : Bytes) : Prop :=
  ocTcpDefaultReceiveSize ≤ message.length ∧
    receiver.headerSize message ≤ max 1 choice

theorem agreeBelow_take (message : Bytes) (count : Nat) :
    AgreeBelow count (.ofBytes message) (.ofBytes (message.take count)) := by
  intro address below
  unfold Mem.ofBytes
  rw [List.getD_eq_getElem?_getD, List.getD_eq_getElem?_getD,
    List.getElem?_take_of_lt below]

private theorem tcpLen_le (first : UInt8) :
    (0xF0 &&& first.toNat) >>> 4 ≤ 15 := by
  have small : 0xF0 &&& first.toNat ≤ 0xF0 := Nat.and_le_left
  rw [Nat.shiftRight_eq_div_pow]
  omega

variable (receiver : TcpReceiver)

theorem headerSize_pos (message : Bytes) :
    0 < receiver.headerSize message := by
  unfold TcpReceiver.headerSize
  simp only
  split_ifs
  · decide
  · decide
  · exact Nat.succ_pos _

theorem headerSize_le (message : Bytes) :
    receiver.headerSize message ≤ 5 := by
  have limit := tcpLen_le (Mem.ofBytes message 0)
  unfold TcpReceiver.headerSize
  simp only
  generalize (0xF0 &&& (Mem.ofBytes message 0).toNat) >>> 4 = tcpLen at limit
  split_ifs with tls short
  · exact Nat.le_refl _
  · decide
  · obtain rfl | rfl | rfl : tcpLen = 13 ∨ tcpLen = 14 ∨ tcpLen = 15 := by
      omega
    all_goals decide

theorem coapTcpParseMessageLength_size (memory : Mem) {size count : Nat}
    (enough : ¬ (0xF0 &&& (memory 0).toNat) >>> 4 < 13 →
      (1 <<< ((0xF0 &&& (memory 0).toNat) >>> 4 - 13)) + 1 ≤ count)
    (larger : count ≤ size) :
    coapTcpParseMessageLength memory count =
      coapTcpParseMessageLength memory size := by
  unfold coapTcpParseMessageLength
  simp only
  by_cases short : (0xF0 &&& (memory 0).toNat) >>> 4 < 13
  · rw [if_pos short, if_pos short]
  · have complete := enough short
    rw [if_neg short, if_neg short, if_neg (Nat.not_lt_of_le complete),
      if_neg (Nat.not_lt_of_le (Nat.le_trans complete larger))]

variable {count : Nat}

theorem ocTcpIsValidHeader_take (ocSecurity isTls : Bool) (message : Bytes)
    (enough : 3 ≤ count ∨ (ocSecurity && isTls) = false ∧ 0 < count) :
    ocTcpIsValidHeader ocSecurity (message.take count) isTls =
      ocTcpIsValidHeader ocSecurity message isTls := by
  unfold ocTcpIsValidHeader
  cases tls : ocSecurity && isTls with
  | true =>
      obtain ⟨count, rfl⟩ : ∃ more, count = more + 3 := by
        refine ⟨count - 3, ?_⟩
        rcases enough with three | ⟨plain, -⟩
        · omega
        · rw [tls] at plain
          cases plain
      rcases message with _ | ⟨type, _ | ⟨major, _ | ⟨minor, rest⟩⟩⟩
      all_goals rfl
  | false =>
      obtain ⟨count, rfl⟩ : ∃ more, count = more + 1 := by
        refine ⟨count - 1, ?_⟩
        omega
      cases message with
      | nil => rfl
      | cons first rest => rfl

theorem coapTcpGetPacketSize_take (message : Bytes) (started : 0 < count)
    (enough : ¬ (0xF0 &&& (Mem.ofBytes message 0).toNat) >>> 4 < 13 →
      (1 <<< ((0xF0 &&& (Mem.ofBytes message 0).toNat) >>> 4 - 13)) + 1 ≤
        count) (inside : count ≤ message.length) :
    coapTcpGetPacketSize (message.take count) =
      coapTcpGetPacketSize message := by
  have agree := agreeBelow_take message count
  unfold coapTcpGetPacketSize
  rw [List.length_take_of_le inside,
    coapTcpParseMessageLength_agree started agree,
    coapTcpParseMessageLength_size _ enough inside, agree 0 started]

theorem coapTcpGetPacketSize_take_five (message : Bytes) (enough : 5 ≤ count)
    (inside : count ≤ message.length) :
    coapTcpGetPacketSize (message.take count) =
      coapTcpGetPacketSize message := by
  refine coapTcpGetPacketSize_take message (by omega) (fun long => ?_) inside
  have limit := tcpLen_le (Mem.ofBytes message 0)
  generalize (0xF0 &&& (Mem.ofBytes message 0).toNat) >>> 4 = tcpLen
    at limit long ⊢
  obtain rfl | rfl | rfl : tcpLen = 13 ∨ tcpLen = 14 ∨ tcpLen = 15 := by omega
  all_goals
    refine Nat.le_trans ?_ enough
    decide

theorem totalLength_take (message : Bytes)
    (enough : receiver.headerSize message ≤ count)
    (inside : count ≤ message.length) :
    ocTcpGetTotalLengthFromHeader receiver.ocSecurity (message.take count)
        receiver.secured =
      ocTcpGetTotalLengthFromHeader receiver.ocSecurity message
        receiver.secured := by
  have agree := agreeBelow_take message count
  have started : 0 < count :=
    Nat.lt_of_lt_of_le (headerSize_pos receiver message) enough
  have length : (message.take count).length = count :=
    List.length_take_of_le inside
  unfold TcpReceiver.headerSize at enough
  unfold ocTcpGetTotalLengthFromHeader
  cases tls : receiver.ocSecurity && receiver.secured with
  | true =>
      rw [tls, if_pos rfl] at enough
      have five : 5 ≤ count := enough
      rw [ocTcpIsValidHeader_take _ _ message (.inl (by omega)), length,
        agree 3 (by omega), agree 4 (by omega)]
      simp only [if_true, show ¬ count < ocTlsHeaderSize from
        Nat.not_lt_of_le enough, show ¬ message.length < ocTlsHeaderSize from
        Nat.not_lt_of_le (Nat.le_trans enough inside), if_false]
  | false =>
      rw [tls] at enough
      simp only [Bool.false_eq_true, if_false] at enough ⊢
      rw [ocTcpIsValidHeader_take _ _ message (.inr ⟨tls, by omega⟩)]
      have size := coapTcpGetPacketSize_take message started (fun long => by
        rw [if_neg long] at enough
        exact enough) inside
      rw [size]

theorem totalLength_take_short (message : Bytes) (positive : 0 < count)
    (short : count < receiver.headerSize message) :
    ocTcpGetTotalLengthFromHeader receiver.ocSecurity (message.take count)
      receiver.secured = none := by
  have agree := agreeBelow_take message count
  have length : (message.take count).length ≤ count := List.length_take_le _ _
  unfold TcpReceiver.headerSize at short
  unfold ocTcpGetTotalLengthFromHeader
  cases tls : receiver.ocSecurity && receiver.secured with
  | true =>
      rw [tls, if_pos rfl] at short
      simp only [if_true, show (message.take count).length < ocTlsHeaderSize
        from Nat.lt_of_le_of_lt length short, ite_self]
  | false =>
      rw [tls] at short
      simp only [Bool.false_eq_true, if_false] at short ⊢
      have size : coapTcpGetPacketSize (message.take count) = none := by
        unfold coapTcpGetPacketSize coapTcpParseMessageLength
        rw [← agree 0 positive]
        split_ifs at short with small
        · omega
        · simp only [small, if_false]
          rw [if_pos (by omega)]
      rw [size, ite_self]

theorem recvCount_le (choice wantRead available : Nat) :
    recvCount choice wantRead available ≤ wantRead ∧
      recvCount choice wantRead available ≤ available := by
  unfold recvCount
  omega

theorem recvCount_pos {choice wantRead available : Nat} (wanted : 0 < wantRead)
    (there : 0 < available) : 0 < recvCount choice wantRead available := by
  unfold recvCount
  omega

theorem tcpReceiveLoop_rest {receiver : TcpReceiver} {message rest : Bytes}
    (valid : ValidTcpMessage receiver message) (fuel : Nat)
    (choices : Nat → Nat) (received : Nat) (requests : List RecvRequest)
    (open_ : received < message.length)
    (enough : message.length - received + rest.length ≤ fuel) :
    ∃ more, tcpReceiveLoop receiver fuel choices
        (message.drop received ++ rest)
        ⟨message.take received, message.length - received, message.length⟩
        requests = (.receive message (requests ++ more), rest) ∧
      ∀ request ∈ more,
        request.received + request.wantRead ≤ message.length := by
  have sized := Nat.lt_of_le_of_lt valid.fits receiver.sized
  induction fuel generalizing choices received requests with
  | zero => omega
  | succ fuel ih =>
      have available : (message.drop received ++ rest).length =
          message.length - received + rest.length := by
        rw [List.length_append, List.length_drop]
      obtain ⟨wanted, -⟩ := recvCount_le (choices 0)
        (message.length - received) (message.drop received ++ rest).length
      have positive := @recvCount_pos (choices 0)
        (message.length - received) (message.drop received ++ rest).length
        (by omega) (by omega)
      rw [tcpReceiveLoop]
      generalize recvCount (choices 0) (message.length - received)
        (message.drop received ++ rest).length = count at wanted positive ⊢
      have chunk : (message.drop received ++ rest).take count =
          (message.drop received).take count := by
        rw [List.take_append_of_le_length]
        rw [List.length_drop]
        exact wanted
      have chunkLength : ((message.drop received).take count).length =
          count := by
        rw [List.length_take, List.length_drop]
        omega
      have left : (message.drop received ++ rest).drop count =
          message.drop (received + count) ++ rest := by
        rw [List.drop_append_of_le_length, List.drop_drop]
        rw [List.length_drop]
        exact wanted
      have read : message.take received ++
          (message.drop received).take count =
            message.take (received + count) := List.take_add.symm
      have taken : (message.take received).length = received :=
        List.length_take_of_le (Nat.le_of_lt open_)
      have advanced : TcpReading.advance receiver
          ⟨message.take received, message.length - received, message.length⟩
          ((message.drop received).take count) =
            some ⟨message.take (received + count),
              message.length - (received + count), message.length⟩ := by
        unfold TcpReading.advance
        simp only
        rw [if_neg (by omega), read, chunkLength,
          sizeSub_of_le (by omega) wanted, Nat.sub_sub]
      have whole : (message.take (received + count)).length =
          received + count := List.length_take_of_le (by omega)
      simp only [Nat.ne_of_gt positive, if_false, chunk, left, advanced,
        whole, taken]
      by_cases more : message.length > received + count
      · rw [if_pos more]
        obtain ⟨later, equal, bounded⟩ := ih
          (fun call => choices (call + 1)) (received + count)
          (requests ++ [⟨received, message.length - received⟩]) more
          (by omega)
        refine ⟨⟨received, message.length - received⟩ :: later, ?_, ?_⟩
        · rw [equal, List.append_assoc]
          rfl
        · intro request member
          rcases List.mem_cons.mp member with rfl | member
          · simp only
            omega
          · exact bounded request member
      · have complete : received + count = message.length := by omega
        rw [if_neg more, complete, List.take_length, if_pos valid.accepted,
          List.drop_length, List.nil_append]
        refine ⟨[⟨received, message.length - received⟩], rfl, ?_⟩
        intro request member
        rw [List.mem_singleton] at member
        subst member
        simp only
        omega

variable {receiver : TcpReceiver}

theorem ValidTcpMessage.length_pos {message : Bytes}
    (valid : ValidTcpMessage receiver message) : 0 < message.length := by
  cases message with
  | nil =>
      have size := valid.size
      unfold ocTcpGetTotalLengthFromHeader ocTcpIsValidHeader at size
      simp at size
  | cons first rest => exact Nat.succ_pos _

theorem tcpReceiveLoop_requests {fuel : Nat} {choices : Nat → Nat}
    {unread rest message : Bytes} {reading : TcpReading}
    {requests all : List RecvRequest}
    (received : tcpReceiveLoop receiver fuel choices unread reading requests =
      (.receive message all, rest)) :
    ∃ more, all = requests ++ ⟨reading.data.length, reading.wantRead⟩ ::
      more := by
  induction fuel generalizing choices unread reading requests with
  | zero => cases received
  | succ fuel ih =>
      rw [tcpReceiveLoop] at received
      simp only at received
      split_ifs at received
      · cases received
      · cases advanced : reading.advance receiver (unread.take
            (recvCount (choices 0) reading.wantRead unread.length)) with
        | none =>
            rw [advanced] at received
            cases received
        | some next =>
            rw [advanced] at received
            simp only at received
            split_ifs at received
            · obtain ⟨more, rfl⟩ := ih received
              rw [List.append_assoc]
              exact ⟨_, rfl⟩
            · cases received
              exact ⟨[], rfl⟩
            · cases received

theorem tcpSessionReceiveMessage_delivers {receiver : TcpReceiver}
    {message : Bytes} (valid : ValidTcpMessage receiver message)
    (choices : Nat → Nat) (rest : Bytes)
    (suffices_ : FirstReadSuffices receiver (choices 0) message) :
    DeliversWhole message
        (tcpSessionReceiveMessage receiver choices (message ++ rest)).1 ∧
      (tcpSessionReceiveMessage receiver choices (message ++ rest)).2 =
        rest := by
  obtain ⟨long, header⟩ := suffices_
  have sized := Nat.lt_of_le_of_lt valid.fits receiver.sized
  have six : ocTcpDefaultReceiveSize = 6 := rfl
  have headerSmall := headerSize_le receiver message
  have headerPositive := headerSize_pos receiver message
  have available : (message ++ rest).length =
      message.length + rest.length := List.length_append
  obtain ⟨fuel, fuelEq⟩ : ∃ fewer, (message ++ rest).length = fewer + 1 :=
    ⟨(message ++ rest).length - 1, by omega⟩
  have complete : receiver.headerSize message ≤ recvCount (choices 0)
      ocTcpDefaultReceiveSize (message ++ rest).length := by
    unfold recvCount
    omega
  obtain ⟨wanted, -⟩ := recvCount_le (choices 0) ocTcpDefaultReceiveSize
    (message ++ rest).length
  unfold tcpSessionReceiveMessage
  rw [fuelEq, tcpReceiveLoop]
  simp only
  generalize recvCount (choices 0) ocTcpDefaultReceiveSize
    (message ++ rest).length = count at complete wanted ⊢
  have inside : count ≤ message.length := by omega
  have chunk : (message ++ rest).take count = message.take count :=
    List.take_append_of_le_length inside
  have chunkLength : (message.take count).length = count :=
    List.length_take_of_le inside
  have left : (message ++ rest).drop count = message.drop count ++ rest :=
    List.drop_append_of_le_length inside
  have advanced : TcpReading.advance receiver
      ⟨[], ocTcpDefaultReceiveSize, 0⟩ (message.take count) =
        some ⟨message.take count, message.length - count,
          message.length⟩ := by
    unfold TcpReading.advance
    simp only [if_true, List.nil_append]
    rw [totalLength_take receiver message complete inside, valid.size]
    simp only
    rw [if_neg (Nat.not_lt_of_le valid.fits), chunkLength,
      sizeSub_of_le sized inside]
  rw [if_neg (by omega), chunk, left, advanced]
  simp only [chunkLength, List.length_nil, List.nil_append]
  by_cases more : message.length > count
  · rw [if_pos more]
    obtain ⟨later, equal, bounded⟩ := @tcpReceiveLoop_rest receiver message
      rest valid fuel (fun call => choices (call + 1)) count
      [⟨0, ocTcpDefaultReceiveSize⟩] more (by omega)
    rw [equal]
    refine ⟨⟨_, rfl, ?_⟩, rfl⟩
    intro request member
    rcases List.mem_cons.mp member with rfl | member
    · simp only
      omega
    · exact bounded request member
  · have whole : count = message.length := by omega
    rw [if_neg more, whole, List.take_length, if_pos valid.accepted,
      List.drop_length, List.nil_append]
    refine ⟨⟨_, rfl, ?_⟩, rfl⟩
    intro request member
    rw [List.mem_singleton] at member
    subst member
    simp only
    omega

theorem firstReadSuffices_of_delivers {receiver : TcpReceiver}
    {message : Bytes} {choices : Nat → Nat} {rest : Bytes}
    (delivers : DeliversWhole message
      (tcpSessionReceiveMessage receiver choices (message ++ rest)).1) :
    FirstReadSuffices receiver (choices 0) message := by
  have six : ocTcpDefaultReceiveSize = 6 := rfl
  obtain ⟨requests, received, bounded⟩ := delivers
  have long : ocTcpDefaultReceiveSize ≤ message.length := by
    -- the default size is the first request of every run
    obtain ⟨more, rfl⟩ := tcpReceiveLoop_requests
      (Prod.ext received (Eq.refl (tcpSessionReceiveMessage receiver choices
        (message ++ rest)).2))
    have asked := bounded ⟨0, ocTcpDefaultReceiveSize⟩ (by simp)
    simp only at asked
    omega
  refine ⟨long, ?_⟩
  by_contra cut
  have available : (message ++ rest).length =
      message.length + rest.length := List.length_append
  obtain ⟨fuel, fuelEq⟩ : ∃ fewer, (message ++ rest).length = fewer + 1 :=
    ⟨(message ++ rest).length - 1, by omega⟩
  have positive := @recvCount_pos (choices 0) ocTcpDefaultReceiveSize
    (message ++ rest).length (by omega) (by omega)
  have short : recvCount (choices 0) ocTcpDefaultReceiveSize
      (message ++ rest).length < receiver.headerSize message := by
    unfold recvCount
    omega
  have headerSmall := headerSize_le receiver message
  unfold tcpSessionReceiveMessage at received
  rw [fuelEq, tcpReceiveLoop] at received
  simp only at received
  generalize recvCount (choices 0) ocTcpDefaultReceiveSize
    (message ++ rest).length = count at short positive received
  have failed : TcpReading.advance receiver
      ⟨[], ocTcpDefaultReceiveSize, 0⟩ ((message ++ rest).take count) =
        none := by
    unfold TcpReading.advance
    simp only [if_true, List.nil_append]
    rw [List.take_append_of_le_length (by omega),
      totalLength_take_short receiver message positive short]
  rw [if_neg (by omega), failed] at received
  cases received

theorem tcpReceiveMessages_iff (choices : Nat → Nat → Nat)
    {messages : List Bytes}
    (valid : ∀ message ∈ messages, ValidTcpMessage receiver message)
    (fuel run : Nat) (enough : messages.flatten.length ≤ fuel) :
    List.Forall₂ DeliversWhole messages
        (tcpReceiveMessages receiver choices fuel run messages.flatten) ↔
      ∀ index message, messages[index]? = some message →
        FirstReadSuffices receiver (choices (run + index) 0) message := by
  induction messages generalizing fuel run with
  | nil =>
      refine iff_of_true ?_ ?_
      · cases fuel with
        | zero => exact .nil
        | succ fuel => exact .nil
      · intro index message found
        cases found
  | cons message rest ih =>
      rw [List.forall_mem_cons] at valid
      obtain ⟨validHere, validRest⟩ := valid
      have positive := validHere.length_pos
      rw [List.flatten_cons, List.length_append] at enough
      obtain ⟨fuel, rfl⟩ : ∃ fewer, fuel = fewer + 1 :=
        ⟨fuel - 1, by omega⟩
      have unread : ¬ message ++ rest.flatten = [] := by
        intro empty
        rw [List.append_eq_nil_iff] at empty
        rw [empty.1] at positive
        exact absurd positive (Nat.lt_irrefl 0)
      have later := ih validRest fuel (run + 1) (by omega)
      have split : (∀ index current,
          (message :: rest)[index]? = some current →
            FirstReadSuffices receiver (choices (run + index) 0) current) ↔
          FirstReadSuffices receiver (choices run 0) message ∧
            ∀ index current, rest[index]? = some current →
              FirstReadSuffices receiver (choices (run + 1 + index) 0)
                current := by
        constructor
        · intro all
          refine ⟨all 0 message rfl, ?_⟩
          intro index current found
          rw [Nat.add_assoc, Nat.add_comm 1 index]
          exact all (index + 1) current found
        · rintro ⟨here, below⟩ index current found
          cases index with
          | zero =>
              obtain rfl := Option.some.inj found
              exact here
          | succ index =>
              rw [Nat.add_comm index 1, ← Nat.add_assoc]
              exact below index current found
      rw [split, List.flatten_cons, tcpReceiveMessages, if_neg unread]
      constructor
      · intro delivered
        have here : FirstReadSuffices receiver (choices run 0) message := by
          apply @firstReadSuffices_of_delivers receiver message (choices run)
            rest.flatten
          generalize tcpSessionReceiveMessage receiver (choices run)
            (message ++ rest.flatten) = result at delivered
          obtain ⟨outcome, left⟩ := result
          cases outcome with
          | receive found requests =>
              cases delivered with
              | cons head _ => exact head
          | closed =>
              cases delivered with
              | cons head _ => exact head
          | waiting =>
              cases delivered with
              | cons head _ => exact head
        obtain ⟨⟨requests, received, -⟩, left⟩ :=
          tcpSessionReceiveMessage_delivers validHere (choices run)
            rest.flatten here
        rw [← Prod.eta (tcpSessionReceiveMessage receiver (choices run)
          (message ++ rest.flatten)), received, left] at delivered
        cases delivered with
        | cons _ tail => exact ⟨here, later.mp tail⟩
      · rintro ⟨here, below⟩
        obtain ⟨delivers, left⟩ := tcpSessionReceiveMessage_delivers validHere
          (choices run) rest.flatten here
        obtain ⟨requests, received, bounded⟩ := delivers
        rw [← Prod.eta (tcpSessionReceiveMessage receiver (choices run)
          (message ++ rest.flatten)), received, left]
        exact .cons ⟨requests, rfl, bounded⟩ (later.mpr below)

theorem tcp_stream_delivered_iff (receiver : TcpReceiver)
    (choices : Nat → Nat → Nat) (messages : List Bytes)
    (valid : ∀ message ∈ messages, ValidTcpMessage receiver message) :
    List.Forall₂ DeliversWhole messages
        (tcpReceiveMessages receiver choices messages.flatten.length 0
          messages.flatten) ↔
      ∀ index message, messages[index]? = some message →
        FirstReadSuffices receiver (choices index 0) message := by
  rw [tcpReceiveMessages_iff choices valid _ 0 (Nat.le_refl _)]
  simp only [Nat.zero_add]

section Sessions

private theorem sessionBuffer_sized : 1088 < 2 ^ 64 := by decide

private def session : TcpReceiver where
  config :=
    ⟨true, false, false, false, false, true, false, false, false, 1024⟩
  ocSecurity := false
  secured := false
  bufferSize := 1088
  sized := sessionBuffer_sized

/-- A request for the path `abc`. -/
private def getAbc : Bytes := [0x40, 0x01, 0xB3, 0x61, 0x62, 0x63]

private theorem valid_getAbc : ValidTcpMessage session getAbc :=
  ⟨by decide +kernel, by decide, by decide +kernel⟩

theorem tcp_stream_delivered_byteByByte :
    ValidTcpMessage session getAbc ∧
      List.Forall₂ DeliversWhole [getAbc, getAbc]
        (tcpReceiveMessages session (fun _ _ => 1) 12 0
          [getAbc, getAbc].flatten) := by
  refine ⟨valid_getAbc, ?_⟩
  have sufficient : FirstReadSuffices session 1 getAbc := by
    constructor
    · decide
    · decide +kernel
  refine (tcp_stream_delivered_iff session (fun _ _ => 1) [getAbc, getAbc]
    ?_).mpr ?_
  · intro message member
    simp only [List.mem_cons, List.not_mem_nil, or_false, or_self] at member
    subst member
    exact valid_getAbc
  · intro index message found
    have member := List.mem_of_getElem? found
    simp only [List.mem_cons, List.not_mem_nil, or_false, or_self] at member
    subst member
    exact sufficient

/-- A ping without options: the shortest message. -/
private def shortPing : Bytes := [0x00, 0xE2]

private theorem valid_shortPing : ValidTcpMessage session shortPing :=
  ⟨by decide +kernel, by decide, by decide +kernel⟩

/-- Two pings that arrive together are taken for one message, and the session
is closed. -/
theorem tcp_stream_not_delivered_pings :
    ValidTcpMessage session shortPing ∧
      ¬ List.Forall₂ DeliversWhole [shortPing, shortPing]
        (tcpReceiveMessages session (fun _ _ => 6) 4 0
          [shortPing, shortPing].flatten) := by
  refine ⟨valid_shortPing, ?_⟩
  have outcome : tcpReceiveMessages session (fun _ _ => 6) 4 0
      [shortPing, shortPing].flatten = [.closed] := by decide +kernel
  rw [outcome]
  intro delivered
  cases delivered with
  | cons head _ =>
      obtain ⟨requests, received, -⟩ := head
      cases received

end Sessions

end IotivityLite
