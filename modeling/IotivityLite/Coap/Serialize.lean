import IotivityLite.Coap.Packet

/-!
# Serialisation of CoAP messages

The writing half of `coap.c` and the OSCORE option writer of `oscore.c`.
Every option writer is run twice by the source: once with a null buffer to
learn the size, once to write.  Both runs are one function here; it returns
the size it reports together with the bytes it stores.
-/

namespace IotivityLite

/-- What one call of a writer reports and stores.  A call with a null buffer
stores nothing. -/
@[ext] structure Chunk where
  size : Nat
  bytes : Bytes
  deriving DecidableEq, Repr

namespace Chunk

def empty : Chunk := ⟨0, []⟩

def append (first second : Chunk) : Chunk :=
  ⟨first.size + second.size, first.bytes ++ second.bytes⟩

instance : Append Chunk := ⟨Chunk.append⟩

def emit (buffer : Bool) (bytes : Bytes) : Chunk :=
  ⟨bytes.length, if buffer then bytes else []⟩

@[simp] theorem size_append (first second : Chunk) :
    (first ++ second).size = first.size + second.size := rfl

@[simp] theorem bytes_append (first second : Chunk) :
    (first ++ second).bytes = first.bytes ++ second.bytes := rfl

@[simp] theorem size_emit (buffer : Bool) (bytes : Bytes) :
    (emit buffer bytes).size = bytes.length := rfl

@[simp] theorem bytes_emit_true (bytes : Bytes) :
    (emit true bytes).bytes = bytes := rfl

theorem emit_append (buffer : Bool) (first second : Bytes) :
    emit buffer first ++ emit buffer second =
      emit buffer (first ++ second) := by
  apply Chunk.ext
  · simp
  · cases buffer
    · rfl
    · simp

theorem emit_nil (buffer : Bool) : emit buffer [] = empty := by
  cases buffer
  · rfl
  · rfl

end Chunk

def coapOptionNibble (value : Nat) : Nat :=
  if value < 13 then value
  else if value ≤ 0xFF + 13 then 13
  else 14

/-- The extension bytes of a delta or a length; the source has the same two
branches for both. -/
def optionExtension (value : Nat) : Bytes :=
  if value > 268 then
    [UInt8.ofNat ((value - 269) >>> 8), UInt8.ofNat (value - 269)]
  else if value > 12 then [UInt8.ofNat (value - 13)]
  else []

def coapSetOptionHeader (buffer : Bool) (delta length : Nat) : Chunk :=
  Chunk.emit buffer
    (UInt8.ofNat (coapOptionNibble delta <<< 4 ||| coapOptionNibble length) ::
      (optionExtension delta ++ optionExtension length))

/-- The value bytes of an integer option: leading zero bytes are left out. -/
def intOptionBytes (value : UInt32) : Bytes :=
  (if 0xFF000000 &&& value ≠ 0 then [(value >>> 24).toUInt8] else []) ++
  (if 0xFFFF0000 &&& value ≠ 0 then [(value >>> 16).toUInt8] else []) ++
  (if 0xFFFFFF00 &&& value ≠ 0 then [(value >>> 8).toUInt8] else []) ++
  (if 0xFFFFFFFF &&& value ≠ 0 then [value.toUInt8] else [])

def coapSerializeIntOption (number currentNumber : Nat) (buffer : Bool)
    (value : UInt32) : Chunk :=
  coapSetOptionHeader buffer (number - currentNumber)
      (intOptionBytes value).length ++
    Chunk.emit buffer (intOptionBytes value)

/-- One option holding the given bytes. -/
def serializeOneOption (number currentNumber : Nat) (buffer : Bool)
    (value : Bytes) : Chunk :=
  coapSetOptionHeader buffer (number - currentNumber) value.length ++
    Chunk.emit buffer value

/-- The loop of `coap_serialize_array_option` for a text that is split.  The
byte after a separator starts the next part without being looked at, and the
loop index may pass the end of the text by one. -/
def serializeParts (number : Nat) (buffer : Bool) (array : CString)
    (splitChar : UInt8) : (fuel j partStart currentNumber : Nat) → Chunk
  | 0, _, _, _ => Chunk.empty
  | fuel + 1, j, partStart, currentNumber =>
      if j ≤ array.bytes.length + 1 then
        if array.at j = splitChar ∨ j = array.bytes.length then
          serializeOneOption number currentNumber buffer
              (((array.bytes ++ array.beyond).drop partStart).take
                (j - partStart)) ++
            serializeParts number buffer array splitChar fuel (j + 2) (j + 1)
              number
        else
          serializeParts number buffer array splitChar fuel (j + 1) partStart
            currentNumber
      else Chunk.empty

def coapSerializeArrayOption (number currentNumber : Nat) (buffer : Bool)
    (array : CString) (splitChar : UInt8) : Chunk :=
  if splitChar = 0 then
    serializeOneOption number currentNumber buffer array.bytes
  else
    serializeParts number buffer array splitChar (array.bytes.length + 2) 0 0
      currentNumber

/-- `coap_log_2`: the position of the highest bit, zero for zero. -/
def coapLog2 (value : UInt16) : Nat := Nat.log2 value.toNat

def coapOptionsBlockEncode (num : UInt32) (more : UInt8) (size : UInt16) :
    UInt32 :=
  let block := num <<< 4
  let block := if more ≠ 0 then block ||| 0x8 else block
  block ||| (0xF &&& UInt32.ofNat (coapLog2 (size / 16)))

def coapOptionsBlockDecode (value : UInt32) : BlockOption where
  num := (value >>> 4) &&& 0xFFFFF
  more := ((value &&& 0x08) >>> 3).toUInt8
  size := (16 <<< (value &&& 0x07)).toUInt16
  offset := (value &&& 0xFFFFFFF0) <<< (value &&& 0x07)

/-- The running option number together with everything written so far. -/
structure OptionWriter where
  currentNumber : Nat
  out : Chunk

namespace OptionWriter

def start : OptionWriter := ⟨0, Chunk.empty⟩

/-- The common shape of the `COAP_SERIALIZE_*_OPTION` macros. -/
def write (writer : OptionWriter) (packet : OutPacket) (number : Nat)
    (option : (currentNumber : Nat) → Chunk) : OptionWriter :=
  if packet.isOption number then
    ⟨number, writer.out ++ option writer.currentNumber⟩
  else writer

/-- `COAP_SERIALIZE_INT_OPTION` -/
def writeInt (writer : OptionWriter) (packet : OutPacket) (buffer : Bool)
    (number : Nat) (field : UInt32) : OptionWriter :=
  writer.write packet number fun currentNumber =>
    coapSerializeIntOption number currentNumber buffer field

/-- `COAP_SERIALIZE_BYTE_OPTION` -/
def writeByte (writer : OptionWriter) (packet : OutPacket) (buffer : Bool)
    (number : Nat) (field : Bytes) : OptionWriter :=
  writer.write packet number fun currentNumber =>
    coapSerializeArrayOption number currentNumber buffer ⟨field, []⟩ 0

/-- `COAP_SERIALIZE_STRING_OPTION` -/
def writeString (writer : OptionWriter) (packet : OutPacket)
    (buffer : Bool) (number : Nat) (field : CString) (splitter : UInt8) :
    OptionWriter :=
  writer.write packet number fun currentNumber =>
    coapSerializeArrayOption number currentNumber buffer field splitter

/-- `COAP_SERIALIZE_BLOCK_OPTION` -/
def writeBlock (writer : OptionWriter) (packet : OutPacket) (buffer : Bool)
    (number : Nat) (field : BlockOption) : OptionWriter :=
  writer.write packet number fun currentNumber =>
    coapSerializeIntOption number currentNumber buffer
      (coapOptionsBlockEncode field.num field.more field.size)

end OptionWriter

def coapSerializeSignalOptions (packet : OutPacket) (buffer : Bool)
    (signal : CoapSignal) : Chunk :=
  let writer := OptionWriter.start
  let writer := match signal with
    | .csm =>
        let writer := writer.writeInt packet buffer
          CoapSignalOption.maxMsgSize packet.maxMsgSize
        if packet.blockwiseTransfer ≠ 0 then
          writer.writeInt packet buffer CoapSignalOption.blockwiseTransfer 0
        else writer
    | .ping | .pong =>
        if packet.custody ≠ 0 then
          writer.writeInt packet buffer CoapSignalOption.custody 0
        else writer
    | .release =>
        let writer := writer.writeString packet buffer
          CoapSignalOption.altAddr packet.altAddr 0
        writer.writeInt packet buffer CoapSignalOption.holdOff packet.holdOff
    | .abort =>
        writer.writeInt packet buffer CoapSignalOption.badCsm
          packet.badCsmOpt.toUInt32
  writer.out

def coapSerializeAcceptOption (config : CoapConfig) (accept : UInt16)
    (currentNumber : Nat) (buffer : Bool) : Chunk :=
  if accept = OcContentFormat.applicationVndOcfCbor then
    coapSerializeIntOption CoapOption.ocfAcceptContentFormatVer currentNumber
      buffer ocfVer100
  else if config.ocSpecVerOic ∧ accept = OcContentFormat.applicationCbor then
    coapSerializeIntOption CoapOption.ocfAcceptContentFormatVer currentNumber
      buffer oicVer110
  else Chunk.empty

def coapSerializeContentFormatOption (config : CoapConfig)
    (contentFormat : UInt16) (currentNumber : Nat) (buffer : Bool) : Chunk :=
  if contentFormat = OcContentFormat.applicationVndOcfCbor then
    coapSerializeIntOption CoapOption.ocfContentFormatVer currentNumber
      buffer ocfVer100
  else if config.ocSpecVerOic ∧
      contentFormat = OcContentFormat.applicationCbor then
    coapSerializeIntOption CoapOption.ocfContentFormatVer currentNumber
      buffer oicVer110
  else Chunk.empty

/-- The value of the OSCORE option: flags, Partial IV, kid context with its
length, kid.  For zero flags the value is not written, only skipped. -/
def oscoreOptionValue (packet : OutPacket) : Chunk :=
  let kidCtxLen := packet.kidCtx.length
  let size := packet.piv.length + packet.kid.length + kidCtxLen +
    (if kidCtxLen > 0 then 1 else 0) + (if packet.oscoreFlags > 0 then 1 else 0)
  let bytes :=
    if packet.oscoreFlags ≠ 0 then
      packet.oscoreFlags :: packet.piv ++
        (if kidCtxLen > 0 then UInt8.ofNat kidCtxLen :: packet.kidCtx else []) ++
        packet.kid
    else List.replicate size 0
  ⟨size, bytes⟩

def coapSerializeOscoreOption (packet : OutPacket) (currentNumber : Nat)
    (buffer : Bool) : Chunk :=
  let value := oscoreOptionValue packet
  coapSetOptionHeader buffer (CoapOption.oscore - currentNumber) value.size ++
    ⟨value.size, if buffer then value.bytes else []⟩

/-- The tail of `coap_serialize_options`: the version options that accompany
Accept and Content-Format.  The running number is moved to the accept version
option even when none was written. -/
def serializeVersionOptions (config : CoapConfig) (packet : OutPacket)
    (buffer : Bool) (writer : OptionWriter) : OptionWriter :=
  let writer :=
    if packet.isOption CoapOption.accept then
      ⟨CoapOption.ocfAcceptContentFormatVer, writer.out ++
        coapSerializeAcceptOption config packet.accept writer.currentNumber
          buffer⟩
    else writer
  if packet.isOption CoapOption.contentFormat then
    ⟨writer.currentNumber, writer.out ++
      coapSerializeContentFormatOption config packet.contentFormat
        writer.currentNumber buffer⟩
  else writer

def coapSerializeOptions (config : CoapConfig) (packet : OutPacket)
    (buffer inner outer oscore : Bool) : Chunk :=
  match (if config.ocTcp then coapSignal packet.code else none) with
  | some signal => coapSerializeSignalOptions packet buffer signal
  | none =>
    let w := OptionWriter.start
    let w := if outer then
      w.writeString packet buffer CoapOption.uriHost packet.uriHost 0 else w
    let w := if inner then
      w.writeByte packet buffer CoapOption.etag packet.etag else w
    let w := w.writeInt packet buffer CoapOption.observe
      packet.observe.toUInt32
    let w := if outer then
      w.writeInt packet buffer CoapOption.uriPort packet.uriPort.toUInt32
      else w
    let w := if config.ocOscore ∧ oscore ∧ outer then
      w.write packet CoapOption.oscore fun currentNumber =>
        coapSerializeOscoreOption packet currentNumber buffer
      else w
    let w := if inner then
      let w := w.writeString packet buffer CoapOption.uriPath
        packet.uriPath 47
      w.writeInt packet buffer CoapOption.contentFormat
        packet.contentFormat.toUInt32
      else w
    let w := if outer then
      w.writeInt packet buffer CoapOption.maxAge packet.maxAge else w
    let w := if inner then
      let w := w.writeString packet buffer CoapOption.uriQuery
        packet.uriQuery 38
      w.writeInt packet buffer CoapOption.accept packet.accept.toUInt32
      else w
    let w := if inner then
      let w := w.writeBlock packet buffer CoapOption.block2 packet.block2
      let w := w.writeBlock packet buffer CoapOption.block1 packet.block1
      w.writeInt packet buffer CoapOption.size2 packet.size2
      else w
    let w := if outer then
      w.writeString packet buffer CoapOption.proxyUri packet.proxyUri 0
      else w
    let w := if inner then
      let w := w.writeInt packet buffer CoapOption.size1 packet.size1
      serializeVersionOptions config packet buffer w
      else w
    w.out

structure HeaderSize where
  size : Nat
  extendedLength : Nat := 0
  length : Nat := 0
  numExtendedLengthBytes : Nat := 0
  tokenLocation : Nat := 0
  deriving DecidableEq, Repr

/-- The three results are the number of extended length bytes, the length
nibble and the extended length.  The marker and the payload length are added
as `uint32_t`. -/
def coapTcpComputeMessageLength (packet : OutPacket) (optionLength : Nat) :
    Nat × Nat × Nat :=
  let payloadLen := packet.payload.bytes.length
  let totalLength :=
    if payloadLen > 0 then optionLength + (1 + payloadLen) % 2 ^ 32
    else optionLength
  if totalLength < 13 then (0, totalLength, 0)
  else if totalLength < 269 then (1, 13, totalLength - 13)
  else if totalLength < 65805 then (2, 14, totalLength - 269)
  else (4, 15, totalLength - 65805)

def coapCalculateHeaderSize (config : CoapConfig) (packet : OutPacket)
    (inner outer oscore : Bool) (tokenLen : Nat) : HeaderSize :=
  let optionLength :=
    (coapSerializeOptions config packet false inner outer oscore).size
  if !outer then { size := optionLength }
  else if config.ocTcp ∧ packet.transportType = .tcp then
    let (numExtended, length, extended) :=
      coapTcpComputeMessageLength packet optionLength
    { size := optionLength + tokenLen + (2 + numExtended)
      extendedLength := extended
      length := length
      numExtendedLengthBytes := numExtended
      tokenLocation := 2 + numExtended }
  else
    { size := optionLength + tokenLen + 4, tokenLocation := 4 }

/-- A buffer size of zero switches the second check off. -/
def coapCheckHeaderSize (config : CoapConfig) (headerSize bufferSize : Nat) :
    Bool :=
  if headerSize > config.coapMaxHeaderSize then false
  else if bufferSize > 0 ∧ headerSize > bufferSize then false
  else true

def coapUdpSetHeaderFields (packet : OutPacket) : Bytes :=
  [UInt8.ofNat ((0xC0 &&& packet.version.toNat <<< 6) |||
      (0x30 &&& packet.type.bits <<< 4) |||
      (0x0F &&& packet.token.length)),
    packet.code,
    (packet.mid >>> 8).toUInt8,
    packet.mid.toUInt8]

def coapTcpSetHeaderLength (tokenLen numExtendedLengthBytes len
    extendedLen : Nat) : Bytes :=
  UInt8.ofNat ((0xF0 &&& len <<< 4) ||| (0x0F &&& tokenLen)) ::
    (List.range' 1 numExtendedLengthBytes).map fun i =>
      UInt8.ofNat (extendedLen >>> (8 * (numExtendedLengthBytes - i)))

def coapTcpSetHeaderFields (packet : OutPacket) (header : HeaderSize) :
    Bytes :=
  coapTcpSetHeaderLength packet.token.length header.numExtendedLengthBytes
    header.length header.extendedLength ++ [packet.code]

/-- The payload part: nothing for an empty payload, else the marker and the
payload, provided they fit.  `none` stands for the error exit. -/
def serializePayload (packet : OutPacket) (remaining : Nat) : Option Bytes :=
  let payload := packet.payload.bytes
  if payload.length > 0 then
    if remaining < (payload.length + 1) % 2 ^ 32 then none
    else some (0xFF :: payload)
  else some []

/-- The bytes written to the buffer, or `none` where the source returns a
length of zero. -/
def coapOscoreSerializeMessage (config : CoapConfig) (packet : OutPacket)
    (bufferSize : Nat) (inner outer oscore : Bool) : Option Bytes :=
  let packet := { packet with version := 1 }
  let header := coapCalculateHeaderSize config packet inner outer oscore
    packet.token.length
  if !coapCheckHeaderSize config header.size bufferSize then none
  else
    let options :=
      (coapSerializeOptions config packet true inner outer oscore).bytes
    if outer then
      let fields :=
        if config.ocTcp ∧ packet.transportType = .tcp then
          coapTcpSetHeaderFields packet header
        else coapUdpSetHeaderFields packet
      -- an empty message is its header only
      if packet.code = 0 then some fields
      else
        let remaining := (bufferSize + 2 ^ 64 - header.size) % 2 ^ 64
        (serializePayload packet remaining).map fun payload =>
          fields ++ packet.token ++ options ++ payload
    else
      let size := header.size + 1
      if !coapCheckHeaderSize config size bufferSize then none
      else
        let remaining := (bufferSize + 2 ^ 64 - size) % 2 ^ 64
        (serializePayload packet remaining).map fun payload =>
          packet.code :: options ++ payload

def coapSerializeMessage (config : CoapConfig) (packet : OutPacket)
    (bufferSize : Nat) : Option Bytes :=
  coapOscoreSerializeMessage config packet bufferSize true true false

end IotivityLite
