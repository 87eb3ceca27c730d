import IotivityLite.Coap.OptionList

/-!
# Sizes of serialised messages

The options of a packet are serialised twice: without a buffer, to know the
size of the header, and then into the buffer.  Both passes run the same
writers.  The size of the header already contains the options; it is compared
with the buffer before anything is written.
-/

namespace IotivityLite

/-- A pass without a buffer counts what the pass with one writes. -/
structure Measures (dry wet : Chunk) : Prop where
  size : dry.size = wet.size
  written : wet.bytes.length = wet.size

theorem measures_emit (bytes : Bytes) :
    Measures (Chunk.emit false bytes) (Chunk.emit true bytes) :=
  ⟨rfl, rfl⟩

theorem measures_empty : Measures Chunk.empty Chunk.empty :=
  ⟨rfl, rfl⟩

theorem Measures.append {dry wet dryRest wetRest : Chunk}
    (first : Measures dry wet) (second : Measures dryRest wetRest) :
    Measures (dry ++ dryRest) (wet ++ wetRest) where
  size := by
    rw [Chunk.size_append, Chunk.size_append, first.size, second.size]
  written := by
    rw [Chunk.bytes_append, List.length_append, Chunk.size_append,
      first.written, second.written]

theorem measures_coapSerializeIntOption (number current : Nat)
    (value : UInt32) :
    Measures (coapSerializeIntOption number current false value)
      (coapSerializeIntOption number current true value) :=
  (measures_emit _).append (measures_emit _)

theorem measures_coapSerializeArrayOption (number current : Nat)
    (array : CString) (splitChar : UInt8) :
    Measures (coapSerializeArrayOption number current false array splitChar)
      (coapSerializeArrayOption number current true array splitChar) := by
  rw [coapSerializeArrayOption_eq_emit, coapSerializeArrayOption_eq_emit]
  exact measures_emit _

theorem size_oscoreOptionValue_eq (packet : OutPacket) :
    (oscoreOptionValue packet).bytes.length =
      (oscoreOptionValue packet).size := by
  have positive : packet.oscoreFlags > 0 ↔ packet.oscoreFlags ≠ 0 :=
    UInt8.pos_iff_ne_zero
  unfold oscoreOptionValue
  simp only [positive]
  by_cases flagged : packet.oscoreFlags ≠ 0
  · by_cases context : packet.kidCtx.length > 0
    · simp only [if_pos flagged, if_pos context, List.length_append,
        List.length_cons]
      omega
    · simp only [if_pos flagged, if_neg context, List.length_append,
        List.length_cons, List.length_nil]
      omega
  · simp only [if_neg flagged, List.length_replicate]

theorem measures_coapSerializeOscoreOption (packet : OutPacket)
    (current : Nat) :
    Measures (coapSerializeOscoreOption packet current false)
      (coapSerializeOscoreOption packet current true) :=
  (measures_emit _).append ⟨rfl, size_oscoreOptionValue_eq packet⟩

/-- The writers of both passes stand at the same option. -/
structure MeasuresWriter (dry wet : OptionWriter) : Prop where
  currentNumber : dry.currentNumber = wet.currentNumber
  out : Measures dry.out wet.out

namespace MeasuresWriter

variable {dry wet dryNext wetNext : OptionWriter}

theorem start : MeasuresWriter OptionWriter.start OptionWriter.start :=
  ⟨rfl, measures_empty⟩

theorem ite (condition : Prop) [Decidable condition]
    (skipped : MeasuresWriter dry wet)
    (written : MeasuresWriter dryNext wetNext) :
    MeasuresWriter (if condition then dryNext else dry)
      (if condition then wetNext else wet) := by
  split_ifs
  · exact written
  · exact skipped

section

variable (measures : MeasuresWriter dry wet)

include measures

theorem write (packet : OutPacket) (number : Nat)
    {dryOption wetOption : Nat → Chunk}
    (option : ∀ current, Measures (dryOption current) (wetOption current)) :
    MeasuresWriter (dry.write packet number dryOption)
      (wet.write packet number wetOption) := by
  apply ite _ measures
  refine ⟨rfl, measures.out.append ?_⟩
  rw [measures.currentNumber]
  exact option _

theorem writeInt (packet : OutPacket) (number : Nat) (field : UInt32) :
    MeasuresWriter (dry.writeInt packet false number field)
      (wet.writeInt packet true number field) :=
  measures.write packet number fun current =>
    measures_coapSerializeIntOption number current field

theorem writeByte (packet : OutPacket) (number : Nat) (field : Bytes) :
    MeasuresWriter (dry.writeByte packet false number field)
      (wet.writeByte packet true number field) :=
  measures.write packet number fun current =>
    measures_coapSerializeArrayOption number current ⟨field, []⟩ 0

theorem writeString (packet : OutPacket) (number : Nat) (field : CString)
    (splitter : UInt8) :
    MeasuresWriter (dry.writeString packet false number field splitter)
      (wet.writeString packet true number field splitter) :=
  measures.write packet number fun current =>
    measures_coapSerializeArrayOption number current field splitter

theorem writeBlock (packet : OutPacket) (number : Nat) (field : BlockOption) :
    MeasuresWriter (dry.writeBlock packet false number field)
      (wet.writeBlock packet true number field) :=
  measures.write packet number fun current =>
    measures_coapSerializeIntOption number current _

theorem versions (config : CoapConfig) (packet : OutPacket) :
    MeasuresWriter (serializeVersionOptions config packet false dry)
      (serializeVersionOptions config packet true wet) := by
  have accept (current : Nat) :
      Measures (coapSerializeAcceptOption config packet.accept current false)
        (coapSerializeAcceptOption config packet.accept current true) := by
    unfold coapSerializeAcceptOption
    split_ifs
    · exact measures_coapSerializeIntOption _ _ _
    · exact measures_coapSerializeIntOption _ _ _
    · exact measures_empty
  have format (current : Nat) :
      Measures
        (coapSerializeContentFormatOption config packet.contentFormat current
          false)
        (coapSerializeContentFormatOption config packet.contentFormat current
          true) := by
    unfold coapSerializeContentFormatOption
    split_ifs
    · exact measures_coapSerializeIntOption _ _ _
    · exact measures_coapSerializeIntOption _ _ _
    · exact measures_empty
  have accepted : MeasuresWriter
      (if packet.isOption CoapOption.accept then
        ⟨CoapOption.ocfAcceptContentFormatVer, dry.out ++
          coapSerializeAcceptOption config packet.accept dry.currentNumber
            false⟩
      else dry)
      (if packet.isOption CoapOption.accept then
        ⟨CoapOption.ocfAcceptContentFormatVer, wet.out ++
          coapSerializeAcceptOption config packet.accept wet.currentNumber
            true⟩
      else wet) := by
    apply ite _ measures
    refine ⟨rfl, measures.out.append ?_⟩
    rw [measures.currentNumber]
    exact accept _
  apply ite _ accepted
  refine ⟨accepted.currentNumber, accepted.out.append ?_⟩
  rw [accepted.currentNumber]
  exact format _

end

end MeasuresWriter

theorem measures_coapSerializeSignalOptions (packet : OutPacket)
    (signal : CoapSignal) :
    Measures (coapSerializeSignalOptions packet false signal)
      (coapSerializeSignalOptions packet true signal) := by
  have start := MeasuresWriter.start
  cases signal with
  | csm =>
      have size := start.writeInt packet CoapSignalOption.maxMsgSize
        packet.maxMsgSize
      exact (size.ite (packet.blockwiseTransfer ≠ 0)
        (size.writeInt packet CoapSignalOption.blockwiseTransfer 0)).out
  | ping =>
      exact (start.ite (packet.custody ≠ 0)
        (start.writeInt packet CoapSignalOption.custody 0)).out
  | pong =>
      exact (start.ite (packet.custody ≠ 0)
        (start.writeInt packet CoapSignalOption.custody 0)).out
  | release =>
      exact ((start.writeString packet CoapSignalOption.altAddr packet.altAddr
        0).writeInt packet CoapSignalOption.holdOff packet.holdOff).out
  | abort =>
      exact (start.writeInt packet CoapSignalOption.badCsm
        packet.badCsmOpt.toUInt32).out

theorem measures_coapSerializeOptions (config : CoapConfig)
    (packet : OutPacket) (inner outer oscore : Bool) :
    Measures (coapSerializeOptions config packet false inner outer oscore)
      (coapSerializeOptions config packet true inner outer oscore) := by
  unfold coapSerializeOptions
  split
  · exact measures_coapSerializeSignalOptions packet _
  · have start := MeasuresWriter.start
    have host := start.ite (outer = true)
      (start.writeString packet CoapOption.uriHost packet.uriHost 0)
    have etag := host.ite (inner = true)
      (host.writeByte packet CoapOption.etag packet.etag)
    have observe := etag.writeInt packet CoapOption.observe
      packet.observe.toUInt32
    have port := observe.ite (outer = true)
      (observe.writeInt packet CoapOption.uriPort packet.uriPort.toUInt32)
    have protection := port.ite
      (config.ocOscore = true ∧ oscore = true ∧ outer = true)
      (port.write packet CoapOption.oscore
        (measures_coapSerializeOscoreOption packet))
    have path := protection.ite (inner = true)
      ((protection.writeString packet CoapOption.uriPath packet.uriPath
        47).writeInt packet CoapOption.contentFormat
          packet.contentFormat.toUInt32)
    have maxAge := path.ite (outer = true)
      (path.writeInt packet CoapOption.maxAge packet.maxAge)
    have query := maxAge.ite (inner = true)
      ((maxAge.writeString packet CoapOption.uriQuery packet.uriQuery
        38).writeInt packet CoapOption.accept packet.accept.toUInt32)
    have blocks := query.ite (inner = true)
      (((query.writeBlock packet CoapOption.block2 packet.block2).writeBlock
        packet CoapOption.block1 packet.block1).writeInt packet
          CoapOption.size2 packet.size2)
    have proxy := blocks.ite (outer = true)
      (blocks.writeString packet CoapOption.proxyUri packet.proxyUri 0)
    have size := proxy.ite (inner = true)
      ((proxy.writeInt packet CoapOption.size1 packet.size1).versions config
        packet)
    exact size.out

/-- The marker and the payload, if there is one. -/
def payloadSize (packet : OutPacket) : Nat :=
  if packet.payload.bytes.length > 0 then packet.payload.bytes.length + 1
  else 0

section Message

variable (config : CoapConfig) (packet : OutPacket)
  (inner outer oscore : Bool)

/-- The header of the message; its size contains the options. -/
def messageHeader : HeaderSize :=
  coapCalculateHeaderSize config packet inner outer oscore
    packet.token.length

/-- What is compared with the largest header: an inner message has a code
byte that the header size does not contain. -/
def checkedHeaderSize : Nat :=
  (messageHeader config packet inner outer oscore).size +
    if outer then 0 else 1

/-- An empty message has no payload. -/
def isEmptyMessage : Prop := outer = true ∧ packet.code = 0

instance : Decidable (isEmptyMessage packet outer) :=
  inferInstanceAs (Decidable (_ ∧ _))

/-- The room that a message needs in its buffer. -/
def requiredSize : Nat :=
  if isEmptyMessage packet outer then
    checkedHeaderSize config packet inner outer oscore
  else checkedHeaderSize config packet inner outer oscore + payloadSize packet

/-- The length of a message: an empty one ends before the token. -/
def messageLength : Nat :=
  if isEmptyMessage packet outer then
    (messageHeader config packet inner outer oscore).tokenLocation
  else checkedHeaderSize config packet inner outer oscore + payloadSize packet

/-- The header fields as they are written. -/
def serializedFields : Bytes :=
  if config.ocTcp ∧ packet.transportType = .tcp then
    coapTcpSetHeaderFields { packet with version := 1 }
      (messageHeader config packet inner true oscore)
  else coapUdpSetHeaderFields { packet with version := 1 }

theorem length_serializedFields :
    (serializedFields config packet inner oscore).length =
      (messageHeader config packet inner true oscore).tokenLocation := by
  unfold serializedFields messageHeader coapCalculateHeaderSize
  simp only [Bool.not_true, Bool.false_eq_true, if_false]
  split_ifs
  · simp [coapTcpSetHeaderFields, coapTcpSetHeaderLength]
    omega
  · rfl

theorem size_messageHeader :
    (messageHeader config packet inner true oscore).size =
      (messageHeader config packet inner true oscore).tokenLocation +
        packet.token.length +
        (coapSerializeOptions config packet false inner true oscore).size := by
  unfold messageHeader coapCalculateHeaderSize
  simp only [Bool.not_true, Bool.false_eq_true, if_false]
  split_ifs
  · simp only
    omega
  · simp only
    omega

private theorem tokenLocation_pos :
    0 < (messageHeader config packet inner true oscore).tokenLocation := by
  unfold messageHeader coapCalculateHeaderSize
  simp only [Bool.not_true, Bool.false_eq_true, if_false]
  split_ifs
  · exact Nat.add_pos_left (by decide) _
  · exact Nat.succ_pos 3

theorem coapOscoreSerializeMessage_outer (bufferSize : Nat) :
    coapOscoreSerializeMessage config packet bufferSize inner true oscore =
      if !coapCheckHeaderSize config
          (messageHeader config packet inner true oscore).size bufferSize then
        none
      else if packet.code = 0 then
        some (serializedFields config packet inner oscore)
      else
        (serializePayload packet
          ((bufferSize + 2 ^ 64 -
            (messageHeader config packet inner true oscore).size) %
              2 ^ 64)).map fun payload =>
          serializedFields config packet inner oscore ++ packet.token ++
            (coapSerializeOptions config packet true inner true oscore).bytes ++
            payload :=
  rfl

private theorem coapOscoreSerializeMessage_inner (bufferSize : Nat) :
    coapOscoreSerializeMessage config packet bufferSize inner false oscore =
      if !coapCheckHeaderSize config
          (messageHeader config packet inner false oscore).size
          bufferSize then
        none
      else if !coapCheckHeaderSize config
          ((messageHeader config packet inner false oscore).size + 1)
          bufferSize then
        none
      else
        (serializePayload packet
          ((bufferSize + 2 ^ 64 -
            ((messageHeader config packet inner false oscore).size + 1)) %
              2 ^ 64)).map fun payload =>
          packet.code ::
            (coapSerializeOptions config packet true inner false
              oscore).bytes ++ payload :=
  rfl

end Message

section Checks

variable {config : CoapConfig} {packet : OutPacket} {bufferSize : Nat}

theorem coapCheckHeaderSize_iff {headerSize : Nat} :
    coapCheckHeaderSize config headerSize bufferSize = true ↔
      headerSize ≤ config.coapMaxHeaderSize ∧
        (bufferSize = 0 ∨ headerSize ≤ bufferSize) := by
  unfold coapCheckHeaderSize
  split_ifs with large small
  · simp only [Bool.false_eq_true, false_iff]
    omega
  · simp only [Bool.false_eq_true, false_iff]
    omega
  · simp only [true_iff]
    omega

theorem length_serializePayload {remaining : Nat} {bytes : Bytes}
    (written : serializePayload packet remaining = some bytes) :
    bytes.length = payloadSize packet := by
  unfold serializePayload at written
  unfold payloadSize
  simp only at written
  split_ifs at written ⊢
  · rw [← Option.some.inj written, List.length_cons]
  · rw [← Option.some.inj written, List.length_nil]

theorem serializePayload_isSome_iff {header : Nat}
    (sized : bufferSize < 2 ^ 64)
    (short : packet.payload.bytes.length < 2 ^ 32 - 1) (begun : 0 < header)
    (small : header ≤ config.coapMaxHeaderSize)
    (room : bufferSize = 0 ∨ header ≤ bufferSize) :
    (serializePayload packet
        ((bufferSize + 2 ^ 64 - header) % 2 ^ 64)).isSome = true ↔
      bufferSize = 0 ∨ header + payloadSize packet ≤ bufferSize := by
  have largest := config.coapMaxHeaderSize_le
  have remaining : (bufferSize + 2 ^ 64 - header) % 2 ^ 64 =
      if bufferSize = 0 then 2 ^ 64 - header else bufferSize - header := by
    split_ifs with unlimited
    · rw [unlimited, Nat.zero_add]
      exact Nat.mod_eq_of_lt (by omega)
    · have split : bufferSize + 2 ^ 64 - header =
          (bufferSize - header) + 2 ^ 64 := by omega
      rw [split, Nat.add_mod_right]
      exact Nat.mod_eq_of_lt (by omega)
  have counted : (packet.payload.bytes.length + 1) % 2 ^ 32 =
      packet.payload.bytes.length + 1 := Nat.mod_eq_of_lt (by omega)
  rw [remaining]
  unfold serializePayload payloadSize
  simp only [counted]
  generalize packet.payload.bytes.length = length at *
  by_cases filled : length > 0
  · rw [if_pos filled, if_pos filled]
    split_ifs with unlimited tight tight
    · omega
    · simp [unlimited]
    · simp only [Option.isSome_none, Bool.false_eq_true, false_iff]
      omega
    · simp only [Option.isSome_some, true_iff]
      omega
  · rw [if_neg filled, if_neg filled]
    simpa using room

end Checks

section Sizes

variable {config : CoapConfig} {packet : OutPacket}
  {inner outer oscore : Bool} {bufferSize : Nat}

theorem length_coapOscoreSerializeMessage {data : Bytes}
    (serialized : coapOscoreSerializeMessage config packet bufferSize inner
      outer oscore = some data) :
    data.length = messageLength config packet inner outer oscore := by
  have options := measures_coapSerializeOptions config packet inner outer
    oscore
  unfold messageLength checkedHeaderSize isEmptyMessage
  cases outer with
  | true =>
      have fields := length_serializedFields config packet inner oscore
      have size := size_messageHeader config packet inner oscore
      rw [coapOscoreSerializeMessage_outer] at serialized
      simp only [true_and, if_true, Nat.add_zero]
      split_ifs at serialized with failed empty
      · rw [if_pos empty, ← Option.some.inj serialized]
        exact fields
      · obtain ⟨payload, written, rfl⟩ := Option.map_eq_some_iff.mp serialized
        rw [if_neg empty]
        simp only [List.length_append]
        rw [length_serializePayload written, fields, options.written,
          ← options.size, size]
  | false =>
      rw [coapOscoreSerializeMessage_inner] at serialized
      simp only [Bool.false_eq_true, false_and, if_false]
      split_ifs at serialized with failed large
      obtain ⟨payload, written, rfl⟩ := Option.map_eq_some_iff.mp serialized
      simp only [List.length_append, List.length_cons]
      rw [length_serializePayload written, options.written, ← options.size]
      rfl

private theorem isSome_guarded {checked : Bool} {rest : Option Bytes} :
    (if !checked then none else rest).isSome = true ↔
      checked = true ∧ rest.isSome = true := by
  cases checked
  · simp
  · simp

theorem coapOscoreSerializeMessage_isSome_iff (sized : bufferSize < 2 ^ 64)
    (short : packet.payload.bytes.length < 2 ^ 32 - 1) :
    (coapOscoreSerializeMessage config packet bufferSize inner outer
        oscore).isSome = true ↔
      checkedHeaderSize config packet inner outer oscore ≤
          config.coapMaxHeaderSize ∧
        (bufferSize = 0 ∨
          requiredSize config packet inner outer oscore ≤ bufferSize) := by
  unfold requiredSize checkedHeaderSize isEmptyMessage
  cases outer with
  | true =>
      have size := size_messageHeader config packet inner oscore
      have begun := tokenLocation_pos config packet inner oscore
      rw [coapOscoreSerializeMessage_outer, isSome_guarded,
        coapCheckHeaderSize_iff]
      simp only [true_and, if_true, Nat.add_zero]
      split_ifs
      · exact and_iff_left rfl
      · rw [Option.isSome_map, and_assoc]
        refine and_congr_right fun small => ?_
        constructor
        · rintro ⟨room, written⟩
          exact (serializePayload_isSome_iff sized short (by omega) small
            room).mp written
        · intro fits
          have room := fits.imp_right fun fits =>
            Nat.le_trans (Nat.le_add_right _ _) fits
          exact ⟨room, (serializePayload_isSome_iff sized short (by omega)
            small room).mpr fits⟩
  | false =>
      rw [coapOscoreSerializeMessage_inner, isSome_guarded, isSome_guarded,
        coapCheckHeaderSize_iff, coapCheckHeaderSize_iff, Option.isSome_map]
      simp only [Bool.false_eq_true, false_and, if_false]
      constructor
      · rintro ⟨-, ⟨small, room⟩, written⟩
        exact ⟨small, (serializePayload_isSome_iff sized short (by omega)
          small room).mp written⟩
      · rintro ⟨small, fits⟩
        have room := fits.imp_right fun fits =>
          Nat.le_trans (Nat.le_add_right _ _) fits
        refine ⟨⟨by omega, by omega⟩, ⟨small, room⟩, ?_⟩
        exact (serializePayload_isSome_iff sized short (by omega) small
          room).mpr fits

end Sizes

/-- The fields of an OSCORE option without flags are counted and left out in
the buffer, but not written. -/
def skippedOscoreBytes (config : CoapConfig) (packet : OutPacket)
    (outer oscore : Bool) : Nat :=
  if NoSignal config packet.code ∧ config.ocOscore ∧ oscore ∧ outer ∧
      packet.isOption CoapOption.oscore ∧ packet.oscoreFlags = 0 then
    (oscoreOptionValue packet).size
  else 0

/-- The option bytes that get into the buffer. -/
def writtenOptionBytes (config : CoapConfig) (packet : OutPacket)
    (inner outer oscore : Bool) : Nat :=
  (coapSerializeOptions config packet true inner outer oscore).bytes.length -
    skippedOscoreBytes config packet outer oscore

/-- Both passes return the same size, which is the number of bytes written.
The size of the header contains it, so the message has the length of the
header, the code byte of an inner message and the payload; an empty message
has its header fields only.  A message is written exactly if its header is not
too large and it fits into the buffer. -/
theorem serialized_size_of_message (config : CoapConfig) (packet : OutPacket)
    (inner outer oscore : Bool) {bufferSize : Nat}
    (sized : bufferSize < 2 ^ 64)
    (short : packet.payload.bytes.length < 2 ^ 32 - 1) :
    (coapSerializeOptions config packet false inner outer oscore).size =
        (coapSerializeOptions config packet true inner outer oscore).size ∧
      (skippedOscoreBytes config packet outer oscore = 0 →
        (coapSerializeOptions config packet false inner outer oscore).size =
          writtenOptionBytes config packet inner outer oscore) ∧
      (∀ data, coapOscoreSerializeMessage config packet bufferSize inner outer
          oscore = some data →
        data.length = messageLength config packet inner outer oscore ∧
          (bufferSize = 0 ∨ data.length ≤ bufferSize)) ∧
      ((coapOscoreSerializeMessage config packet bufferSize inner outer
          oscore).isSome = true ↔
        checkedHeaderSize config packet inner outer oscore ≤
            config.coapMaxHeaderSize ∧
          (bufferSize = 0 ∨
            requiredSize config packet inner outer oscore ≤ bufferSize)) := by
  have options := measures_coapSerializeOptions config packet inner outer
    oscore
  have exact := @coapOscoreSerializeMessage_isSome_iff config packet inner
    outer oscore bufferSize sized short
  refine ⟨options.size, ?_, ?_, exact⟩
  · intro nothing
    unfold writtenOptionBytes
    rw [nothing, Nat.sub_zero, options.written, options.size]
  · intro data serialized
    have length := length_coapOscoreSerializeMessage serialized
    have fits := (exact.mp (by rw [serialized]; rfl)).2
    refine ⟨length, fits.imp_right fun fits => Nat.le_trans ?_ fits⟩
    rw [length]
    unfold messageLength requiredSize
    split_ifs with empty
    · obtain ⟨rfl, -⟩ := empty
      have size := size_messageHeader config packet inner oscore
      unfold checkedHeaderSize
      omega
    · exact Nat.le_refl _

namespace SerializedMessage

def config : CoapConfig :=
  ⟨true, true, false, false, false, true, false, false, false, 1024⟩

/-- A request for "a" with a token of one byte. -/
def request : OutPacket :=
  { CoapPacket.zero CString.null with
    code := 1, token := [1], uriPath := ⟨[97], []⟩ }.setOption
      CoapOption.uriPath

/-- An empty message with a token. -/
def empty : OutPacket :=
  { CoapPacket.zero CString.null with token := [1] }

end SerializedMessage

theorem serialized_size_of_request :
    (coapOscoreSerializeMessage SerializedMessage.config
        SerializedMessage.request 7 true true false).isSome = true ∧
      (coapOscoreSerializeMessage SerializedMessage.config
        SerializedMessage.request 6 true true false).isSome ≠ true := by
  constructor
  · exact (serialized_size_of_message SerializedMessage.config
      SerializedMessage.request true true false (by decide)
      (by decide)).2.2.2.mpr (by decide)
  · exact mt (serialized_size_of_message SerializedMessage.config
      SerializedMessage.request true true false (by decide)
      (by decide)).2.2.2.mp (by decide)

/-- The token of an empty message is counted but not written. -/
theorem empty_message_shorter_than_counted :
    (coapOscoreSerializeMessage SerializedMessage.config
        SerializedMessage.empty 100 true true false).map List.length ≠
      some ((messageHeader SerializedMessage.config SerializedMessage.empty
          true true false).size +
        (coapSerializeOptions SerializedMessage.config
          SerializedMessage.empty false true true false).size +
        payloadSize SerializedMessage.empty) := by
  decide

end IotivityLite
