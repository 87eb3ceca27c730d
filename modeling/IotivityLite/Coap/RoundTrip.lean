import IotivityLite.Coap.PacketDelivery

/-!
# Serialising and parsing a message

A packet made by an initialiser and any calls of the setters is written to a
buffer; the parser of its transport gets it back from these bytes.
-/

namespace IotivityLite

theorem Ascending.weaken {current later : Nat} {options : List RawOption}
    (ascending : Ascending later options) (below : current ≤ later) :
    Ascending current options := by
  cases ascending with
  | nil => exact .nil
  | cons order small rest =>
      exact .cons (Nat.le_trans below order) small rest

private theorem ascending_map_append {number : Nat} {values : List Bytes}
    {rest : List RawOption} (small : number ≤ CoapOption.ocfContentFormatVer)
    (ascending : Ascending number rest) :
    Ascending number (values.map (RawOption.mk number) ++ rest) := by
  induction values with
  | nil => exact ascending
  | cons value values ih => exact .cons (Nat.le_refl number) small ih

private theorem ascending_ite_append {present : Prop} [Decidable present]
    {current number : Nat} {values : List Bytes} {rest : List RawOption}
    (small : number ≤ CoapOption.ocfContentFormatVer)
    (below : current ≤ number) (ascending : Ascending number rest) :
    Ascending current ((if present then values.map (RawOption.mk number)
      else []) ++ rest) := by
  split_ifs
  · exact (ascending_map_append small ascending).weaken below
  · exact ascending.weaken below

theorem ascending_rawOptions (config : CoapConfig) (packet : OutPacket) :
    Ascending 0 (rawOptions config packet) := by
  have versions : Ascending CoapOption.size1 (versionOptions config packet) := by
    unfold versionOptions
    rw [← List.append_nil (_ ++ _), List.append_assoc]
    refine ascending_ite_append (by decide) (by decide) ?_
    exact ascending_ite_append (by decide) (by decide) .nil
  simp only [rawOptions, baseOptions, List.append_assoc]
  iterate 14 refine ascending_ite_append (by decide) (by decide) ?_
  exact versions

/-- The header fields as `coap_oscore_serialize_message` writes them. -/
def messageFields (config : CoapConfig) (packet : OutPacket) : Bytes :=
  let packet := { packet with version := 1 }
  let header := coapCalculateHeaderSize config packet true true false
    packet.token.length
  if config.ocTcp ∧ packet.transportType = .tcp then
    coapTcpSetHeaderFields packet header
  else coapUdpSetHeaderFields packet

/-- The size the header check of `coap_oscore_serialize_message` looks at. -/
def messageHeaderSize (config : CoapConfig) (packet : OutPacket) : Nat :=
  (coapCalculateHeaderSize config { packet with version := 1 } true true false
    packet.token.length).size

section Message

variable {config : CoapConfig} {packet : OutPacket}

theorem Transmissible.coapSerializeOptions_eq
    (transmissible : Transmissible config packet) (buffer : Bool) :
    coapSerializeOptions config packet buffer true true false =
      Chunk.emit buffer (encodeOptions 0 (rawOptions config packet)) := by
  have texts : TextsEndInside packet :=
    ⟨transmissible.path, transmissible.query⟩
  rcases transmissible.signal with none | plain
  · exact coapSerializeOptions_of_none config buffer none
      transmissible.aligned texts
  · exact IotivityLite.coapSerializeOptions_eq buffer plain
      transmissible.aligned texts

theorem serializePayload_eq {remaining : Nat} {bytes : Bytes}
    (serialized : serializePayload packet remaining = some bytes) :
    bytes = payloadBytes packet.payload.bytes := by
  unfold serializePayload at serialized
  unfold payloadBytes
  simp only at serialized
  split_ifs at serialized with filled short
  · rw [if_pos filled]
    exact (Option.some.inj serialized).symm
  · rw [if_neg filled]
    exact (Option.some.inj serialized).symm

private theorem rawOptions_version (version : UInt8) :
    rawOptions config { packet with version := version } =
      rawOptions config packet :=
  rfl

private theorem coapSerializeMessage_unfold (bufferSize : Nat) :
    coapSerializeMessage config packet bufferSize =
      if !coapCheckHeaderSize config (messageHeaderSize config packet)
          bufferSize then none
      else if packet.code = 0 then some (messageFields config packet)
      else (serializePayload packet
        ((bufferSize + 2 ^ 64 - messageHeaderSize config packet) % 2 ^ 64)).map
          fun payload => messageFields config packet ++ packet.token ++
            (coapSerializeOptions config { packet with version := 1 } true true
              true false).bytes ++ payload :=
  rfl

private theorem options_length_le {bufferSize : Nat}
    (transmissible : Transmissible config { packet with version := 1 })
    (accepted : coapCheckHeaderSize config (messageHeaderSize config packet)
      bufferSize) :
    (encodeOptions 0 (rawOptions config packet)).length ≤ 300 := by
  have largest := config.coapMaxHeaderSize_le
  have size : (encodeOptions 0 (rawOptions config packet)).length ≤
      messageHeaderSize config packet := by
    unfold messageHeaderSize coapCalculateHeaderSize
    rw [transmissible.coapSerializeOptions_eq]
    simp only [Chunk.size_emit, Bool.not_true, Bool.false_eq_true, if_false]
    split_ifs
    · exact Nat.le_trans (Nat.le_add_right _ _) (Nat.le_add_right _ _)
    · exact Nat.le_trans (Nat.le_add_right _ _) (Nat.le_add_right _ _)
  unfold coapCheckHeaderSize at accepted
  split_ifs at accepted
  omega

variable {data : Bytes}

theorem coapSerializeMessage_eq {bufferSize : Nat}
    (transmissible : Transmissible config packet)
    (serialized : coapSerializeMessage config packet bufferSize = some data) :
    data = messageFields config packet ++ packet.token ++
        encodeOptions 0 (rawOptions config packet) ++
        payloadBytes packet.payload.bytes ∧
      (encodeOptions 0 (rawOptions config packet)).length ≤ 300 := by
  have versioned : Transmissible config { packet with version := 1 } :=
    { transmissible with }
  rw [coapSerializeMessage_unfold] at serialized
  by_cases accepted : coapCheckHeaderSize config
      (messageHeaderSize config packet) bufferSize
  · rw [accepted] at serialized
    simp only [Bool.not_true, Bool.false_eq_true, if_false] at serialized
    refine ⟨?_, options_length_le versioned accepted⟩
    by_cases empty : packet.code = 0
    · rw [if_pos empty] at serialized
      obtain ⟨noToken, noOptions, noPayload⟩ :=
        transmissible.code.resolve_left (not_not_intro empty)
      have noRaw : rawOptions config packet = [] :=
        rawOptions_of_none config noOptions
      rw [← Option.some.inj serialized, noToken, noPayload, noRaw]
      simp [encodeOptions, payloadBytes]
    · rw [if_neg empty, versioned.coapSerializeOptions_eq,
        Chunk.bytes_emit_true, rawOptions_version] at serialized
      obtain ⟨payload, written, rfl⟩ := Option.map_eq_some_iff.mp serialized
      rw [serializePayload_eq written]
  · simp [accepted] at serialized

/-- The packet of a parser that has read the header fields and the token. -/
def parsedHeader (transportType : CoapTransportType) (version : UInt8)
    (type : CoapMessageType) (code : UInt8) (mid : UInt16) (token : Bytes) :
    InPacket :=
  { CoapPacket.zero Span.null with
    transportType := transportType
    version := version
    type := type
    code := code
    mid := mid
    token := token }

/-- The packet as a receiver should see it.  Only UDP messages carry a
version. -/
def expectedPacket (packet : OutPacket) : ValuePacket :=
  { packet.mapText CString.bytes with
    version := match packet.transportType with
      | .udp => 1
      | .tcp => 0 }

variable {memory : Mem}

private theorem received_eq_expectedPacket {version : UInt8}
    (prepared : Prepared config packet)
    (transport : version = (expectedPacket packet).version) :
    { receivedUpTo ((parsedHeader packet.transportType version packet.type
        packet.code packet.mid packet.token).mapText memory.text) packet
        CoapOption.size1 with
      payload := packet.payload.bytes } = expectedPacket packet := by
  have untouched := prepared.untouched
  simp only [Prod.mk.injEq] at untouched
  obtain ⟨-, host, port, maxMsgSize, blockwise, custody, alt, holdOff,
    badCsm, flags, piv, kidCtx, kid⟩ := untouched
  unfold receivedUpTo
  rw [optionsUpTo_all prepared, transport]
  simp only [parsedHeader, CoapPacket.mapText, CoapPacket.zero,
    expectedPacket, host, port, maxMsgSize, blockwise, custody, alt, holdOff,
    badCsm, flags, piv, kidCtx, kid]
  rfl

theorem coapOscoreParseOptions_yields {current dataLen : Nat} {version : UInt8}
    (prepared : Prepared config packet)
    (transmissible : Transmissible config packet)
    (transport : version = (expectedPacket packet).version)
    (short : (encodeOptions 0 (rawOptions config packet)).length ≤ 300)
    (started : 0 < current) (bounded : dataLen < 2 ^ 32)
    (held : memory.Holds current
      (encodeOptions 0 (rawOptions config packet) ++
        payloadBytes packet.payload.bytes))
    (ends : current + (encodeOptions 0 (rawOptions config packet) ++
      payloadBytes packet.payload.bytes).length = dataLen) :
    (coapOscoreParseOptions config .message memory
      (parsedHeader packet.transportType version packet.type packet.code
        packet.mid packet.token) dataLen current).Yields
      (expectedPacket packet) := by
  have blank : Blank ((parsedHeader packet.transportType version packet.type
      packet.code packet.mid packet.token).mapText memory.text) := by
    constructor <;> rfl
  have received := receive_rawOptions prepared transmissible blank
  have sorted := ascending_rawOptions config packet
  have fits : ∀ option ∈ rawOptions config packet,
      option.value.length < 65805 := by
    intro option membership
    have inside := value_length_le_length_encodeOptions 0 membership
    omega
  have plain : rawOptions config packet ≠ [] →
      NoSignal config packet.code := by
    intro filled
    rcases transmissible.signal with none | plain
    · exact absurd (rawOptions_of_none config none) filled
    · exact plain
  rw [← received_eq_expectedPacket prepared transport]
  refine coapOscoreParseOptions_follows started bounded rfl ?_ plain sorted
    fits held ends received
  constructor <;> simp [parsedHeader, CoapPacket.zero, Span.null, Span.stop]

private theorem udpFirstByte (type : CoapMessageType) {tokenLen : Nat}
    (small : tokenLen ≤ 8) :
    let first := (UInt8.ofNat ((0xC0 &&& UInt8.toNat 1 <<< 6) |||
      (0x30 &&& type.bits <<< 4) ||| (0x0F &&& tokenLen))).toNat
    UInt8.ofNat ((0xC0 &&& first) >>> 6) = 1 ∧
      CoapMessageType.ofBits ((0x30 &&& first) >>> 4) = type ∧
      0x0F &&& first = tokenLen := by
  cases type <;> interval_cases tokenLen <;> decide

private theorem mid_of_bytes (mid : UInt16) :
    UInt16.ofNat ((mid >>> 8).toUInt8.toNat <<< 8 ||| mid.toUInt8.toNat) =
      mid := by
  have bounded : mid.toNat < 65536 := mid.toNat_lt
  have low : mid.toUInt8.toNat < 2 ^ 8 := mid.toUInt8.toNat_lt
  have high : (mid >>> 8).toUInt8.toNat = mid.toNat / 256 := by
    simp [UInt16.toNat_shiftRight, Nat.shiftRight_eq_div_pow]
    omega
  rw [← Nat.shiftLeft_add_eq_or_of_lt low, ← UInt16.toNat_inj, high,
    Nat.shiftLeft_eq]
  simp
  omega

theorem coapUdpParseMessage_yields (prepared : Prepared config packet)
    (transmissible : Transmissible config packet)
    (udp : packet.transportType = .udp)
    (short : (encodeOptions 0 (rawOptions config packet)).length ≤ 300)
    (fits : data.length ≤ 65535)
    (written : data = messageFields config packet ++ packet.token ++
      encodeOptions 0 (rawOptions config packet) ++
      payloadBytes packet.payload.bytes) (held : memory.Holds 0 data) :
    (coapUdpParseMessage config memory data.length false).Yields
      (expectedPacket packet) := by
  have fields : messageFields config packet =
      coapUdpSetHeaderFields { packet with version := 1 } := by
    unfold messageFields
    simp [udp]
  rw [written, fields] at held
  simp only [List.append_assoc] at held
  rw [Mem.holds_append, Mem.holds_append] at held
  obtain ⟨fieldsHeld, tokenHeld, restHeld⟩ := held
  simp only [coapUdpSetHeaderFields, Mem.holds_cons, Mem.holds_nil,
    and_true] at fieldsHeld
  obtain ⟨first, code, midHigh, midLow⟩ := fieldsHeld
  obtain ⟨versionRead, typeRead, tokenRead⟩ :=
    udpFirstByte packet.type prepared.token_le
  have length : data.length = 4 + packet.token.length +
      (encodeOptions 0 (rawOptions config packet) ++
        payloadBytes packet.payload.bytes).length := by
    rw [written, fields]
    simp [coapUdpSetHeaderFields]
    omega
  have version : 1 = (expectedPacket packet).version := by
    simp [expectedPacket, udp]
  have tokenBytes : memory.read 4 packet.token.length = packet.token :=
    tokenHeld
  have parsed := coapOscoreParseOptions_yields prepared transmissible version
    short (by omega : 0 < 4 + packet.token.length) (by omega) restHeld
    length.symm
  unfold coapUdpParseMessage
  rw [if_neg (by omega)]
  simp only [first, code, midHigh, midLow, versionRead, typeRead, tokenRead,
    mid_of_bytes]
  rw [if_neg (by simp), if_neg (Nat.not_lt.mpr prepared.token_le), tokenBytes]
  rw [udp] at parsed
  exact parsed

theorem tcpFirstByte {length tokenLen : Nat} (nibble : length < 16)
    (small : tokenLen ≤ 8) :
    let first := (UInt8.ofNat ((0xF0 &&& length <<< 4) |||
      (0x0F &&& tokenLen))).toNat
    (0xF0 &&& first) >>> 4 = length ∧ 0x0F &&& first = tokenLen := by
  interval_cases tokenLen <;> interval_cases length <;> decide

/-- The length nibble of a TCP header tells how many extended length bytes
follow it. -/
def LengthNibble (numExtended length : Nat) : Prop :=
  (numExtended = 0 ∧ length < 13) ∨ (numExtended = 1 ∧ length = 13) ∨
    (numExtended = 2 ∧ length = 14) ∨ (numExtended = 4 ∧ length = 15)

private theorem lengthNibble_coapTcpComputeMessageLength
    (packet : OutPacket) (optionLength : Nat) :
    LengthNibble (coapTcpComputeMessageLength packet optionLength).1
      (coapTcpComputeMessageLength packet optionLength).2.1 := by
  unfold coapTcpComputeMessageLength LengthNibble
  simp only
  split_ifs <;> simp_all

private theorem coapTcpParseMessageLength_of_nibble
    {dataLen numExtended length : Nat}
    (nibble : LengthNibble numExtended length)
    (read : (0xF0 &&& (memory 0).toNat) >>> 4 = length)
    (complete : numExtended + 1 ≤ dataLen) :
    ∃ total, coapTcpParseMessageLength memory dataLen =
      some (total, numExtended) := by
  unfold coapTcpParseMessageLength
  rw [read]
  rcases nibble with ⟨rfl, small⟩ | ⟨rfl, rfl⟩ | ⟨rfl, rfl⟩ | ⟨rfl, rfl⟩
  · exact ⟨length, by simp [small]⟩
  · exact ⟨_, by simp [show ¬ dataLen < 1 + 1 by omega]; rfl⟩
  · exact ⟨_, by simp [show ¬ dataLen < 2 + 1 by omega]; rfl⟩
  · exact ⟨_, by simp [show ¬ dataLen < 4 + 1 by omega]; rfl⟩

private theorem messageFields_tcp (enabled : config.ocTcp = true)
    (tcp : packet.transportType = .tcp) :
    ∃ numExtended length extended, LengthNibble numExtended length ∧
      extended.length = numExtended ∧
      messageFields config packet =
        UInt8.ofNat ((0xF0 &&& length <<< 4) |||
          (0x0F &&& packet.token.length)) ::
            (extended ++ [packet.code]) := by
  have nibble := lengthNibble_coapTcpComputeMessageLength
    { packet with version := 1 }
    (coapSerializeOptions config { packet with version := 1 } false true true
      false).size
  rcases lengths : coapTcpComputeMessageLength { packet with version := 1 }
      (coapSerializeOptions config { packet with version := 1 } false true
        true false).size with ⟨numExtended, length, extendedLen⟩
  rw [lengths] at nibble
  refine ⟨numExtended, length,
    (List.range' 1 numExtended).map fun i =>
      UInt8.ofNat (extendedLen >>> (8 * (numExtended - i))), nibble, ?_, ?_⟩
  · simp
  · have overTcp : config.ocTcp = true ∧ packet.transportType = .tcp :=
      ⟨enabled, tcp⟩
    unfold messageFields coapCalculateHeaderSize
    simp only [Bool.not_true, Bool.false_eq_true, if_false]
    rw [if_pos overTcp, if_pos overTcp, lengths]
    rfl

theorem coapTcpParseMessage_yields (prepared : Prepared config packet)
    (transmissible : Transmissible config packet)
    (tcp : packet.transportType = .tcp)
    (short : (encodeOptions 0 (rawOptions config packet)).length ≤ 300)
    (fits : data.length ≤ 2 ^ 32 - 1)
    (written : data = messageFields config packet ++ packet.token ++
      encodeOptions 0 (rawOptions config packet) ++
      payloadBytes packet.payload.bytes) (held : memory.Holds 0 data) :
    (coapTcpParseMessage config memory data.length false).Yields
      (expectedPacket packet) := by
  obtain ⟨enabled, type, mid⟩ := prepared.tcp tcp
  obtain ⟨numExtended, length, extended, nibble, extendedLength, fields⟩ :=
    messageFields_tcp enabled tcp
  have nibbleSmall : length < 16 := by
    rcases nibble with ⟨_, small⟩ | ⟨_, rfl⟩ | ⟨_, rfl⟩ | ⟨_, rfl⟩ <;> omega
  obtain ⟨lengthRead, tokenRead⟩ := tcpFirstByte nibbleSmall prepared.token_le
  have total : data.length = 2 + numExtended + packet.token.length +
      (encodeOptions 0 (rawOptions config packet) ++
        payloadBytes packet.payload.bytes).length := by
    rw [written, fields]
    simp [extendedLength]
    omega
  rw [written, fields] at held
  simp only [List.append_assoc, List.cons_append, List.nil_append] at held
  rw [Mem.holds_cons, Mem.holds_append, Mem.holds_cons, Mem.holds_append]
    at held
  obtain ⟨first, -, code, tokenHeld, restHeld⟩ := held
  rw [extendedLength, Nat.zero_add] at code tokenHeld restHeld
  rw [← first] at lengthRead tokenRead
  obtain ⟨messageLength, lengthParsed⟩ :=
    coapTcpParseMessageLength_of_nibble nibble lengthRead
      (by omega : numExtended + 1 ≤ data.length)
  have version : 0 = (expectedPacket packet).version := by
    simp [expectedPacket, tcp]
  have next : 1 + numExtended + 1 = 2 + numExtended := by omega
  rw [next] at tokenHeld restHeld
  have tokenBytes : memory.read (2 + numExtended) packet.token.length =
      packet.token := tokenHeld
  have parsed := coapOscoreParseOptions_yields prepared transmissible version
    short (by omega : 0 < 2 + numExtended + packet.token.length) (by omega)
    restHeld total.symm
  unfold coapTcpParseMessage
  rw [if_neg (by omega), lengthParsed]
  simp only [tokenRead, code, tokenBytes]
  rw [if_neg (Nat.not_lt.mpr prepared.token_le)]
  rw [tcp, type, mid] at parsed
  exact parsed

end Message

def coapParseMessage (config : CoapConfig)
    (transportType : CoapTransportType) (memory : Mem) (dataLen : Nat) :
    ParseResult :=
  match transportType with
  | .udp => coapUdpParseMessage config memory dataLen false
  | .tcp => coapTcpParseMessage config memory dataLen false

/-- The longest message a parser looks at. -/
def CoapTransportType.maxMessageLength : CoapTransportType → Nat
  | udp => 65535
  | tcp => 2 ^ 32 - 1

/-- Parsing the bytes of a serialised packet succeeds and gives back its
header fields, token, option bitmap, every option value and the payload. -/
theorem coapParseMessage_coapSerializeMessage {config : CoapConfig}
    {packet : OutPacket} {bufferSize : Nat} {data : Bytes} {memory : Mem}
    (built : Built config packet)
    (transmissible : Transmissible config packet)
    (serialized : coapSerializeMessage config packet bufferSize = some data)
    (fits : data.length ≤ packet.transportType.maxMessageLength)
    (held : memory.Holds 0 data) :
    (coapParseMessage config packet.transportType memory data.length).Yields
      (expectedPacket packet) := by
  have prepared := built.prepared
  obtain ⟨written, short⟩ := coapSerializeMessage_eq transmissible serialized
  cases transport : packet.transportType with
  | udp =>
      rw [transport] at fits
      exact coapUdpParseMessage_yields prepared transmissible transport short
        fits written held
  | tcp =>
      rw [transport] at fits
      exact coapTcpParseMessage_yields prepared transmissible transport short
        fits written held

/-- A build with every optional encoding switched on. -/
def fullConfig : CoapConfig where
  ocTcp := true
  ocOscore := true
  ocSpecVerOic := true
  ocJsonEncoder := true
  ocWkcore := true
  ocBlockWise := true
  ocEtag := true
  ocEtagIncrementalChanges := false
  ocTest := false
  ocBlockSize := 1024

/-- A request for `/a/bc?x=1` with an observe option, a block and formats. -/
def sampleRequest : OutPacket :=
  [CoapSetter.token [1, 2, 3], .uriPath ⟨[47, 97, 47, 98, 99], []⟩,
    .uriQuery ⟨[63, 120, 61, 49], []⟩, .observe 0, .accept 10000,
    .contentFormat 60, .block2 3 1 64 192, .size2 70000].foldl
      (CoapSetter.apply fullConfig) (coapUdpInitMessage .con 1 4660)

def sampleRequestBytes : Bytes :=
  [67, 1, 18, 52, 1, 2, 3, 96, 81, 97, 2, 98, 99, 17, 60, 51, 120, 61, 49, 34,
    39, 16, 97, 58, 83, 1, 17, 112, 226, 6, 216, 8, 0, 66, 8, 64]

theorem coapParseMessage_sampleRequest :
    coapSerializeMessage fullConfig sampleRequest 256 =
        some sampleRequestBytes ∧
      (coapParseMessage fullConfig sampleRequest.transportType
        (Mem.ofBytes sampleRequestBytes) sampleRequestBytes.length).Yields
          (expectedPacket sampleRequest) := by
  have built : Built fullConfig sampleRequest :=
    Built.foldl (.udp _ _ _) _
  have serialized : coapSerializeMessage fullConfig sampleRequest 256 =
      some sampleRequestBytes := by
    decide
  have block2 : sampleRequest.block2.Encodable :=
    ⟨⟨2, by decide, by decide⟩, by decide, by decide⟩
  have transmissible : Transmissible fullConfig sampleRequest :=
    { code := by decide
      signal := .inr rfl
      contentFormat := by decide
      accept := by decide
      aligned := fun _ _ _ => by decide
      block1 := fun present => absurd present (by decide)
      block2 := fun _ => block2
      path := by decide
      query := by decide
      query_head := by decide }
  exact ⟨serialized, coapParseMessage_coapSerializeMessage built
    transmissible serialized (by decide) (Mem.holds_ofBytes _)⟩

/-- What does not come back: a content format the parser does not list, a
block size that is no power of two, the payload of an empty message, and an
ordinary option on a signal. -/
theorem coapParseMessage_not_transmissible :
    (Built fullConfig (coapOptionsSetContentFormat
        (coapUdpInitMessage .con 2 1) OcContentFormat.textPlain) ∧
      coapSerializeMessage fullConfig
        (coapOptionsSetContentFormat (coapUdpInitMessage .con 2 1)
          OcContentFormat.textPlain) 64 = some [64, 2, 0, 1, 192] ∧
      (coapParseMessage fullConfig .udp (Mem.ofBytes [64, 2, 0, 1, 192])
        5).status = .unsupportedMediaType) ∧
    (Built fullConfig
        (coapOptionsSetBlock2 (coapUdpInitMessage .con 2 1) 1 0 24 24) ∧
      coapSerializeMessage fullConfig
        (coapOptionsSetBlock2 (coapUdpInitMessage .con 2 1) 1 0 24 24) 64 =
          some [64, 2, 0, 1, 209, 10, 16] ∧
      (coapParseMessage fullConfig .udp
        (Mem.ofBytes [64, 2, 0, 1, 209, 10, 16]) 7).packet.block2 =
          ⟨1, 0, 16, 16⟩) ∧
    (Built fullConfig
        (coapSetPayload fullConfig (coapUdpInitMessage .con 0 1) [1]) ∧
      coapSerializeMessage fullConfig
        (coapSetPayload fullConfig (coapUdpInitMessage .con 0 1) [1]) 64 =
          some [64, 0, 0, 1] ∧
      (coapParseMessage fullConfig .udp (Mem.ofBytes [64, 0, 0, 1])
        4).packet.payload.length = 0) ∧
    (Built fullConfig (coapOptionsSetMaxAge (coapTcpInitMessage 225) 7) ∧
      coapSerializeMessage fullConfig
        (coapOptionsSetMaxAge (coapTcpInitMessage 225) 7) 64 =
          some [0, 225] ∧
      (coapParseMessage fullConfig .tcp (Mem.ofBytes [0, 225])
        2).packet.options = 0) := by
  refine ⟨⟨?_, by decide⟩, ⟨?_, by decide⟩, ⟨?_, by decide⟩, ?_, by decide⟩
  · exact .set (.contentFormat OcContentFormat.textPlain) (.udp .con 2 1)
  · exact .set (.block2 1 0 24 24) (.udp .con 2 1)
  · exact .set (.payload [1] (by decide)) (.udp .con 0 1)
  · exact .set (.maxAge 7) (.tcp rfl 225)

end IotivityLite
