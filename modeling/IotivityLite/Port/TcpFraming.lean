import IotivityLite.Coap.RoundTrip
import IotivityLite.Coap.SerializedSize
import IotivityLite.Foundation.StreamFraming
import IotivityLite.Port.TcpReceive

/-!
# Framing of messages on a TCP stream

The header of a TCP message announces the token, the options and the payload
that follow it.  `coap_tcp_get_packet_size` adds them up again.  The header of
an empty message is written like any other, but nothing follows it.
-/

namespace IotivityLite

/-- The marker and the payload as the length field counts them. -/
def countedPayload (packet : OutPacket) : Nat :=
  if packet.payload.bytes.length > 0 then
    (1 + packet.payload.bytes.length) % 2 ^ 32
  else 0

section LengthField

variable {packet : OutPacket} {optionLength tokenLen : Nat}
  {numExtended length extended : Nat}

theorem coapTcpComputeMessageLength_cases
    (computed : coapTcpComputeMessageLength packet optionLength =
      (numExtended, length, extended)) :
    let total := optionLength + countedPayload packet
    (numExtended = 0 ∧ length = total ∧ total < 13) ∨
      (numExtended = 1 ∧ length = 13 ∧ total = extended + 13 ∧
        extended < 256 ^ 1) ∨
      (numExtended = 2 ∧ length = 14 ∧ total = extended + 269 ∧
        extended < 256 ^ 2) ∨
      (numExtended = 4 ∧ length = 15 ∧ total = extended + 65805) := by
  have total : (if packet.payload.bytes.length > 0 then
        optionLength + (1 + packet.payload.bytes.length) % 2 ^ 32
      else optionLength) = optionLength + countedPayload packet := by
    unfold countedPayload
    split_ifs
    · rfl
    · rfl
  unfold coapTcpComputeMessageLength at computed
  simp only [total] at computed ⊢
  generalize optionLength + countedPayload packet = total at computed
  split_ifs at computed with tiny small medium
  · obtain ⟨rfl, rfl, rfl⟩ := computed
    exact .inl ⟨rfl, rfl, tiny⟩
  · obtain ⟨rfl, rfl, rfl⟩ := computed
    exact .inr (.inl ⟨rfl, rfl, by omega, by omega⟩)
  · obtain ⟨rfl, rfl, rfl⟩ := computed
    exact .inr (.inr (.inl ⟨rfl, rfl, by omega, by omega⟩))
  · obtain ⟨rfl, rfl, rfl⟩ := computed
    exact .inr (.inr (.inr ⟨rfl, rfl, by omega⟩))

private theorem value_extended {memory : Mem}
    (held : memory.Holds 1 ((List.range' 1 numExtended).map fun i =>
      UInt8.ofNat (extended >>> (8 * (numExtended - i)))))
    (fits : extended < 256 ^ numExtended) :
    (memory.read 1 numExtended).foldl
      (fun length byte => length <<< 8 ||| byte.toNat) 0 = extended := by
  rw [BigEndian.map_shiftRight_eq_encode] at held
  unfold Mem.Holds at held
  rw [BigEndian.length_encode] at held
  rw [held, BigEndian.foldl_shiftLeft_or, BigEndian.value_encode,
    Nat.mod_eq_of_lt fits]

theorem coapTcpParseMessageLength_lengthField {memory : Mem} {dataLen : Nat}
    (computed : coapTcpComputeMessageLength packet optionLength =
      (numExtended, length, extended))
    (token : tokenLen ≤ 8) (options : optionLength ≤ 300)
    (held : memory.Holds 0
      (coapTcpSetHeaderLength tokenLen numExtended length extended))
    (complete : numExtended + 1 ≤ dataLen) :
    coapTcpParseMessageLength memory dataLen =
        some (optionLength + countedPayload packet, numExtended) ∧
      0x0F &&& (memory 0).toNat = tokenLen := by
  have counted : countedPayload packet < 2 ^ 32 := by
    unfold countedPayload
    split_ifs
    · exact Nat.mod_lt _ (by decide)
    · decide
  obtain ⟨first, extension⟩ := Mem.holds_cons.mp held
  have nibble : length < 16 := by
    have classes := coapTcpComputeMessageLength_cases computed
    omega
  obtain ⟨lengthRead, tokenRead⟩ := tcpFirstByte nibble token
  rw [← first] at lengthRead tokenRead
  refine ⟨?_, tokenRead⟩
  unfold coapTcpParseMessageLength
  rw [lengthRead]
  rcases coapTcpComputeMessageLength_cases computed with
    ⟨rfl, rfl, tiny⟩ | ⟨rfl, rfl, total, fits⟩ | ⟨rfl, rfl, total, fits⟩ |
      ⟨rfl, rfl, total⟩
  · rw [if_pos tiny]
  · have value := value_extended extension fits
    simp only [Nat.lt_irrefl, if_false, Nat.sub_self, Nat.shiftLeft_zero,
      if_neg (Nat.not_lt.mpr complete), value, if_true, total]
  · have value := value_extended extension fits
    have whole : ¬ dataLen < 1 <<< (14 - 13) + 1 := Nat.not_lt.mpr complete
    rw [if_neg (by decide), if_neg whole, if_neg (by decide), if_pos rfl,
      total]
    exact congrArg (fun value => some (value + 269, 2)) value
  · have value := value_extended extension (by omega)
    have whole : ¬ dataLen < 1 <<< (15 - 13) + 1 := Nat.not_lt.mpr complete
    rw [if_neg (by decide), if_neg whole, if_neg (by decide),
      if_neg (by decide), total]
    exact congrArg (fun value => some (value + 65805, 4)) value

end LengthField

/-- A message as it is sent over TCP. -/
structure TcpMessage (config : CoapConfig) where
  packet : OutPacket
  bufferSize : Nat
  inner : Bool
  oscore : Bool
  data : Bytes
  enabled : config.ocTcp = true
  tcp : packet.transportType = .tcp
  token_le : packet.token.length ≤ coapTokenLen
  /-- `payload_len` is a `uint32_t` -/
  payload_lt : packet.payload.bytes.length < 2 ^ 32
  serialized : coapOscoreSerializeMessage config packet bufferSize inner true
    oscore = some data

namespace TcpMessage

variable {config : CoapConfig} (message : TcpMessage config)

def header : HeaderSize :=
  messageHeader config message.packet message.inner true message.oscore

def optionSize : Nat :=
  (coapSerializeOptions config message.packet false message.inner true
    message.oscore).size

/-- The first byte and the extended length. -/
def lengthField : Bytes :=
  message.data.take (1 + message.header.numExtendedLengthBytes)

/-- The first bytes of the message tell its length, whatever follows the length
field. -/
def TellsLength : Prop :=
  ∀ first, message.lengthField <+: first →
    coapTcpGetPacketSize first = some message.data.length

/-- All that the header announces is written: an empty message has nothing to
announce, and the payload of another one can be counted with its marker. -/
def Complete : Prop :=
  if message.packet.code = 0 then
    message.packet.token = [] ∧ message.optionSize = 0 ∧
      (message.packet.payload.bytes = [] ∨
        message.packet.payload.bytes.length = 2 ^ 32 - 1)
  else message.packet.payload.bytes.length ≠ 2 ^ 32 - 1

/-- What the header announces. -/
def announcedSize : Nat :=
  2 + message.header.numExtendedLengthBytes + message.packet.token.length +
    (message.optionSize + countedPayload message.packet)

theorem computed :
    coapTcpComputeMessageLength message.packet message.optionSize =
      (message.header.numExtendedLengthBytes, message.header.length,
        message.header.extendedLength) := by
  have overTcp : config.ocTcp = true ∧ message.packet.transportType = .tcp :=
    ⟨message.enabled, message.tcp⟩
  unfold header messageHeader coapCalculateHeaderSize
  simp only [Bool.not_true, Bool.false_eq_true, if_false, if_pos overTcp]
  rfl

theorem tokenLocation_eq :
    message.header.tokenLocation =
      2 + message.header.numExtendedLengthBytes := by
  have overTcp : config.ocTcp = true ∧ message.packet.transportType = .tcp :=
    ⟨message.enabled, message.tcp⟩
  unfold header messageHeader coapCalculateHeaderSize
  simp only [Bool.not_true, Bool.false_eq_true, if_false, if_pos overTcp]

theorem optionSize_le : message.optionSize ≤ 300 := by
  have written := message.serialized
  rw [coapOscoreSerializeMessage_outer] at written
  split_ifs at written with failed
  all_goals
    have largest := config.coapMaxHeaderSize_le
    have checked := (coapCheckHeaderSize_iff.mp
      (by simpa using failed : coapCheckHeaderSize config _ _ = true)).1
    have size := size_messageHeader config message.packet message.inner
      message.oscore
    unfold optionSize
    omega

theorem serializedFields_prefix :
    serializedFields config message.packet message.inner message.oscore <+:
      message.data := by
  have written := message.serialized
  rw [coapOscoreSerializeMessage_outer] at written
  split_ifs at written with failed empty
  · rw [Option.some.inj written]
  · obtain ⟨payload, -, data⟩ := Option.map_eq_some_iff.mp written
    rw [← data, List.append_assoc, List.append_assoc]
    exact List.prefix_append _ _

theorem lengthField_eq :
    message.lengthField =
      coapTcpSetHeaderLength message.packet.token.length
        message.header.numExtendedLengthBytes message.header.length
        message.header.extendedLength := by
  obtain ⟨rest, data⟩ := message.serializedFields_prefix
  have overTcp : config.ocTcp = true ∧ message.packet.transportType = .tcp :=
    ⟨message.enabled, message.tcp⟩
  have size : (coapTcpSetHeaderLength message.packet.token.length
      message.header.numExtendedLengthBytes message.header.length
      message.header.extendedLength).length =
        1 + message.header.numExtendedLengthBytes := by
    simp [coapTcpSetHeaderLength, Nat.add_comm]
  unfold lengthField
  rw [← data, ← size, serializedFields, if_pos overTcp, coapTcpSetHeaderFields,
    List.append_assoc]
  exact List.take_left

theorem coapTcpGetPacketSize_eq {first : Bytes}
    (begun : message.lengthField <+: first) :
    coapTcpGetPacketSize first = some message.announcedSize := by
  obtain ⟨rest, rfl⟩ := begun
  have held := (Mem.holds_append.mp
    (Mem.holds_ofBytes (message.lengthField ++ rest))).1
  have size : message.header.numExtendedLengthBytes + 1 ≤
      (message.lengthField ++ rest).length := by
    rw [message.lengthField_eq]
    simp [coapTcpSetHeaderLength]
  rw [message.lengthField_eq] at held size ⊢
  obtain ⟨parsed, token⟩ := coapTcpParseMessageLength_lengthField
    message.computed message.token_le message.optionSize_le held size
  unfold coapTcpGetPacketSize
  rw [parsed]
  simp only [token]
  rfl

theorem length_data :
    message.data.length =
      if message.packet.code = 0 then
        2 + message.header.numExtendedLengthBytes
      else
        2 + message.header.numExtendedLengthBytes +
          message.packet.token.length + message.optionSize +
          payloadSize message.packet := by
  have size := size_messageHeader config message.packet message.inner
    message.oscore
  have location := message.tokenLocation_eq
  unfold header at location
  rw [length_coapOscoreSerializeMessage message.serialized]
  unfold messageLength checkedHeaderSize isEmptyMessage header optionSize
  simp only [true_and, if_true, Nat.add_zero]
  rw [size, location]

theorem announcedSize_eq_iff :
    message.announcedSize = message.data.length ↔ message.Complete := by
  have limit := message.payload_lt
  rw [message.length_data]
  unfold announcedSize Complete countedPayload payloadSize
  rw [← List.length_eq_zero_iff, ← List.length_eq_zero_iff]
  generalize message.packet.payload.bytes.length = payload at *
  split_ifs
  all_goals omega

theorem tellsLength_iff : message.TellsLength ↔ message.Complete := by
  rw [← message.announcedSize_eq_iff]
  constructor
  · intro tells
    have told := tells message.lengthField (List.prefix_refl _)
    rw [message.coapTcpGetPacketSize_eq (List.prefix_refl _)] at told
    exact Option.some.inj told
  · intro same first begun
    rw [message.coapTcpGetPacketSize_eq begun, same]

theorem data_ne_nil : message.data ≠ [] := by
  intro empty
  have length := message.length_data
  rw [empty, List.length_nil] at length
  split_ifs at length
  all_goals omega

theorem tellLengths_iff (messages : List (TcpMessage config)) :
    TellLengths coapTcpGetPacketSize (messages.map data) ↔
      ∀ message ∈ messages, message.Complete := by
  induction messages with
  | nil => exact iff_of_true trivial (List.forall_mem_nil _)
  | cons message messages ih =>
      rw [List.forall_mem_cons, ← ih, ← message.announcedSize_eq_iff]
      refine and_congr_left fun _ => ?_
      have begun : message.lengthField <+:
          message.data ++ (messages.map data).flatten :=
        (List.take_prefix _ _).trans (List.prefix_append _ _)
      rw [message.coapTcpGetPacketSize_eq begun]
      exact Option.some_inj

end TcpMessage

/-- The first bytes of a message tell its length exactly if all that its
header announces is written, and a stream of messages is cut back into them
exactly if this holds for every message. -/
theorem tcp_framing_iff (config : CoapConfig) :
    (∀ message : TcpMessage config,
        message.TellsLength ↔ message.Complete) ∧
      ∀ messages : List (TcpMessage config),
        let stream := (messages.map TcpMessage.data).flatten
        cutStream coapTcpGetPacketSize stream.length stream =
            some (messages.map TcpMessage.data) ↔
          ∀ message ∈ messages, message.Complete := by
  refine ⟨TcpMessage.tellsLength_iff, fun messages => ?_⟩
  have nonempty : ∀ data ∈ messages.map TcpMessage.data, data ≠ [] := by
    intro data member
    obtain ⟨message, -, rfl⟩ := List.mem_map.mp member
    exact message.data_ne_nil
  exact (cutStream_flatten_iff nonempty).trans
    (TcpMessage.tellLengths_iff messages)

namespace TcpFraming

/-- An empty message with a token of one byte. -/
def emptyPacket : OutPacket :=
  { coapTcpInitMessage 0 with token := [7] }

theorem serialized_emptyPacket :
    coapOscoreSerializeMessage SerializedMessage.config emptyPacket 64 true
      true false = some [1, 0] := by
  decide

theorem token_le_emptyPacket : emptyPacket.token.length ≤ coapTokenLen := by
  decide

theorem payload_lt_emptyPacket : emptyPacket.payload.bytes.length < 2 ^ 32 := by
  decide

def emptyMessage : TcpMessage SerializedMessage.config where
  packet := emptyPacket
  bufferSize := 64
  inner := true
  oscore := false
  data := [1, 0]
  enabled := rfl
  tcp := rfl
  token_le := token_le_emptyPacket
  payload_lt := payload_lt_emptyPacket
  serialized := serialized_emptyPacket

end TcpFraming

/-- An empty message with a token has two bytes but announces three; in a
stream it takes a byte of the message behind it. -/
theorem empty_message_announces_token :
    ¬ TcpFraming.emptyMessage.TellsLength ∧
      cutStream coapTcpGetPacketSize 4
        ([TcpFraming.emptyMessage, TcpFraming.emptyMessage].map
          TcpMessage.data).flatten ≠
        some ([TcpFraming.emptyMessage, TcpFraming.emptyMessage].map
          TcpMessage.data) := by
  constructor
  · intro tells
    have told := tells [1, 0] (by decide)
    revert told
    decide
  · decide

end IotivityLite
