import IotivityLite.Coap.Serialize

/-!
# Parsing of CoAP messages

The reading half of `coap.c` and the OSCORE option reader of `oscore.c`.  The
parser works on the memory that holds the message: it keeps an address and
joins the parts of Uri-Path and Uri-Query in place, so the memory is part of
its state.  Reads are not checked against the message length where the source
does not check them.
-/

namespace IotivityLite

/-- The part of `coap_status_t` the parser returns. -/
inductive CoapStatus where
  | noError
  | badRequest
  | badOption
  | notAcceptable
  | unsupportedMediaType
  deriving DecidableEq, Repr

def CoapStatus.code : CoapStatus → Nat
  | noError => 0
  | badRequest => 128
  | badOption => 130
  | notAcceptable => 134
  | unsupportedMediaType => 143

abbrev InPacket := CoapPacket Span

def Span.null : Span := ⟨0, 0⟩

def Mem.text (memory : Mem) (span : Span) : Bytes :=
  memory.read span.start span.length

/-- What a parsing function leaves behind. -/
structure ParseResult where
  status : CoapStatus
  memory : Mem
  packet : InPacket

/-- `none` stands for the result -1. -/
def coapParseIntOption (bytes : Bytes) : Option UInt32 :=
  if bytes.length > 4 then none
  else some (bytes.foldl (fun var byte => (var <<< 8) ||| byte.toUInt32) 0)

def coapMergeMultiOption (memory : Mem) (dst option : Span)
    (separator : UInt8) : Mem × Span :=
  if dst.length > 0 then
    -- dst already contains an option: concatenate
    let memory := memory.store (dst.start + dst.length) separator
    let length := dst.length + 1
    (memory.move (dst.start + length) option.start option.length,
      ⟨dst.start, length + option.length⟩)
  else (memory, option)

def coapParseIsValidContentFormatOption (config : CoapConfig)
    (contentFormat : UInt32) : Bool :=
  contentFormat = 10000 ||
    (config.ocSpecVerOic && contentFormat = 60) ||
    (config.ocJsonEncoder && (contentFormat = 50 || contentFormat = 432))

def coapParseIsValidAcceptOption (config : CoapConfig) (accept : UInt32) :
    Bool :=
  coapParseIsValidContentFormatOption config accept ||
    (config.ocWkcore && accept = 40)

def isSupportedVersion (config : CoapConfig) (version : Option UInt32) :
    Bool :=
  match version with
  | none => false
  | some version =>
      2048 ≤ version || (config.ocSpecVerOic && version = oicVer110)

/-- `size_t` subtraction. -/
def sizeSub (left right : Nat) : Nat := (left + 2 ^ 64 - right) % 2 ^ 64

theorem sizeSub_of_le {left right : Nat} (bounded : left < 2 ^ 64)
    (below : right ≤ left) : sizeSub left right = left - right := by
  unfold sizeSub
  have split : left + 2 ^ 64 - right = (left - right) + 2 ^ 64 := by omega
  rw [split, Nat.add_mod_right, Nat.mod_eq_of_lt (by omega)]

/-- `none` stands for the result -1. -/
def coapParseOscoreOption (memory : Mem) (packet : InPacket)
    (option : Span) : Option InPacket :=
  if option.length = 0 then some packet
  else
    let flags := memory option.start
    let current := option.start + 1
    let length := sizeSub option.length 1
    let pivLen := (flags &&& 0x07).toNat
    let piv := memory.read current pivLen
    let current := current + pivLen
    let length := sizeSub length pivLen
    let hasKidCtx : Bool := flags &&& 0x10 ≠ 0
    let kidCtxLen := if hasKidCtx then (memory current).toNat else 0
    if kidCtxLen > 16 then none
    else
      let kidCtx := if hasKidCtx then memory.read (current + 1) kidCtxLen
        else []
      let current := if hasKidCtx then current + 1 + kidCtxLen else current
      let length :=
        if hasKidCtx then sizeSub (sizeSub length 1) kidCtxLen else length
      let hasKid : Bool := flags &&& 0x08 ≠ 0
      if hasKid ∧ length > 7 then none
      else
        let kid := if hasKid then memory.read current length else []
        some { packet with
          oscoreFlags := flags, piv := piv, kidCtx := kidCtx, kid := kid }

/-- The labels of the switches over the option number. -/
inductive OptionKind where
  | contentFormat | etag | accept | uriPath | uriQuery | block2 | block1
  | size2 | size1 | contentFormatVer | acceptVer
  | oscore | proxyUri | uriHost | uriPort
  | maxAge | observe | unknown
  deriving DecidableEq, Repr

def coapOptionKinds : List (Nat × OptionKind) :=
  [(CoapOption.contentFormat, .contentFormat), (CoapOption.etag, .etag),
    (CoapOption.accept, .accept), (CoapOption.uriPath, .uriPath),
    (CoapOption.uriQuery, .uriQuery), (CoapOption.block2, .block2),
    (CoapOption.block1, .block1), (CoapOption.size2, .size2),
    (CoapOption.size1, .size1),
    (CoapOption.ocfContentFormatVer, .contentFormatVer),
    (CoapOption.ocfAcceptContentFormatVer, .acceptVer),
    (CoapOption.oscore, .oscore), (CoapOption.proxyUri, .proxyUri),
    (CoapOption.uriHost, .uriHost), (CoapOption.uriPort, .uriPort),
    (CoapOption.maxAge, .maxAge), (CoapOption.observe, .observe)]

def coapOptionKind (number : Nat) : OptionKind :=
  match coapOptionKinds.find? (·.1 == number) with
  | some (_, kind) => kind
  | none => .unknown

theorem mem_coapOptionKinds {number : Nat}
    (known : coapOptionKind number ≠ .unknown) :
    (number, coapOptionKind number) ∈ coapOptionKinds := by
  unfold coapOptionKind at known ⊢
  cases found : coapOptionKinds.find? (·.1 == number) with
  | none => simp [found] at known
  | some entry =>
      have matching := List.find?_some found
      rw [beq_iff_eq] at matching
      subst matching
      exact List.mem_of_find?_eq_some found

/-- Options that belong to the protected part of an OSCORE message. -/
def OptionKind.isInner : OptionKind → Bool
  | contentFormat | etag | accept | uriPath | uriQuery | block2 | block1
  | size2 | size1 | contentFormatVer | acceptVer => true
  | _ => false

def OptionKind.isOuter : OptionKind → Bool
  | proxyUri | uriHost | uriPort => true
  | _ => false

/-- An integer option: a value that cannot be read is answered with
`failure`. -/
def parseInt (memory : Mem) (packet : InPacket) (option : Span)
    (failure : CoapStatus) (accepted : UInt32 → Bool)
    (store : InPacket → UInt32 → InPacket) : ParseResult :=
  match coapParseIntOption (memory.text option) with
  | none => ⟨failure, memory, packet⟩
  | some value =>
      if accepted value then ⟨.noError, memory, store packet value⟩
      else ⟨failure, memory, packet⟩

def coapOptionsBlock1Decode (packet : InPacket) (value : UInt32) :
    InPacket :=
  { packet with block1 := coapOptionsBlockDecode value }.setOption
    CoapOption.block1

def coapOptionsBlock2Decode (packet : InPacket) (value : UInt32) :
    InPacket :=
  { packet with block2 := coapOptionsBlockDecode value }.setOption
    CoapOption.block2

def coapOscoreParseInnerOption (config : CoapConfig) (memory : Mem)
    (packet : InPacket) (kind : OptionKind) (option : Span)
    (validate : Bool) : ParseResult :=
  match kind with
  | .contentFormat =>
      parseInt memory packet option .unsupportedMediaType
        (coapParseIsValidContentFormatOption config)
        fun packet value => { packet with contentFormat := value.toUInt16 }
  | .etag =>
      let length := min coapEtagLen option.length
      ⟨.noError, memory,
        { packet with etag := memory.read option.start length }⟩
  | .accept =>
      parseInt memory packet option .notAcceptable
        (coapParseIsValidAcceptOption config)
        fun packet value => { packet with accept := value.toUInt16 }
  | .uriPath =>
      if validate then ⟨.noError, memory, packet⟩
      else
        let (memory, uriPath) :=
          coapMergeMultiOption memory packet.uriPath option 47
        ⟨.noError, memory, { packet with uriPath := uriPath }⟩
  | .uriQuery =>
      if validate then ⟨.noError, memory, packet⟩
      else
        let (memory, uriQuery) :=
          coapMergeMultiOption memory packet.uriQuery option 38
        ⟨.noError, memory, { packet with uriQuery := uriQuery }⟩
  | .block2 =>
      parseInt memory packet option .badOption (fun _ => true)
        coapOptionsBlock2Decode
  | .block1 =>
      parseInt memory packet option .badOption (fun _ => true)
        coapOptionsBlock1Decode
  | .size2 =>
      parseInt memory packet option .badOption (fun _ => true)
        fun packet value => { packet with size2 := value }
  | .size1 =>
      parseInt memory packet option .badOption (fun _ => true)
        fun packet value => { packet with size1 := value }
  | .contentFormatVer | .acceptVer =>
      if isSupportedVersion config
          (coapParseIntOption (memory.text option)) then
        ⟨.noError, memory, packet⟩
      else ⟨.unsupportedMediaType, memory, packet⟩
  | _ => ⟨.badOption, memory, packet⟩

def coapOscoreParseOuterOption (memory : Mem) (packet : InPacket)
    (kind : OptionKind) (option : Span) (validate : Bool) : ParseResult :=
  match kind with
  | .proxyUri =>
      if validate then ⟨.noError, memory, packet⟩
      else ⟨.noError, memory, { packet with proxyUri := option }⟩
  | .uriHost => ⟨.noError, memory, { packet with uriHost := option }⟩
  | .uriPort =>
      parseInt memory packet option .badOption
        (fun value => value ≤ 65535)
        fun packet value => { packet with uriPort := value.toUInt16 }
  | _ => ⟨.badOption, memory, packet⟩

def coapParseSignalOptions (memory : Mem) (packet : InPacket)
    (signal : CoapSignal) (number : Nat) (option : Span) (inner : Bool) :
    ParseResult :=
  if !inner then ⟨.badOption, memory, packet⟩
  else match signal with
    | .csm =>
        if number = CoapSignalOption.maxMsgSize then
          parseInt memory packet option .badOption (fun _ => true)
            fun packet value => { packet with maxMsgSize := value }
        else if number = CoapSignalOption.blockwiseTransfer then
          ⟨.noError, memory, { packet with blockwiseTransfer := 1 }⟩
        else ⟨.noError, memory, packet⟩
    | .ping | .pong =>
        if number = CoapSignalOption.custody then
          ⟨.noError, memory, { packet with custody := 1 }⟩
        else ⟨.noError, memory, packet⟩
    | .release =>
        if number = CoapSignalOption.altAddr then
          ⟨.noError, memory, { packet with altAddr := option }⟩
        else if number = CoapSignalOption.holdOff then
          parseInt memory packet option .badOption (fun _ => true)
            fun packet value => { packet with holdOff := value }
        else ⟨.noError, memory, packet⟩
    | .abort =>
        if number = CoapSignalOption.badCsm then
          parseInt memory packet option .badOption
            (fun value => value ≤ 65535)
            fun packet value => { packet with badCsmOpt := value.toUInt16 }
        else ⟨.noError, memory, packet⟩

/-- The flags a caller of the option parser chooses. -/
structure ParseMode where
  inner : Bool
  outer : Bool
  oscore : Bool
  validate : Bool
  deriving DecidableEq, Repr

def coapOscoreParseOption (config : CoapConfig) (mode : ParseMode)
    (memory : Mem) (packet : InPacket) (number : Nat) (option : Span) :
    ParseResult :=
  match (if config.ocTcp then coapSignal packet.code else none) with
  | some signal =>
      coapParseSignalOptions memory packet signal number option mode.inner
  | none =>
    let kind := coapOptionKind number
    if kind.isInner then
      if !mode.inner then ⟨.badOption, memory, packet⟩
      else coapOscoreParseInnerOption config memory packet kind option
        mode.validate
    else if config.ocOscore ∧ kind = .oscore then
      if !mode.outer || !mode.oscore then ⟨.badOption, memory, packet⟩
      else match coapParseOscoreOption memory packet option with
        | none => ⟨.badOption, memory, packet⟩
        | some packet => ⟨.noError, memory, packet⟩
    else if kind.isOuter then
      if !mode.outer then ⟨.badOption, memory, packet⟩
      else coapOscoreParseOuterOption memory packet kind option mode.validate
    else if kind = .maxAge then
      parseInt memory packet option .badOption (fun _ => true)
        fun packet value => { packet with maxAge := value }
    else if kind = .observe then
      parseInt memory packet option .badOption (fun _ => true)
        fun packet value => { packet with observe := value.toInt32 }
    -- an unknown option is rejected when it is critical (odd)
    else if number % 2 ≠ 0 then ⟨.badOption, memory, packet⟩
    else ⟨.noError, memory, packet⟩

/-- A delta or a length after its nibble has been read, and the address of
the next unread byte. -/
def readExtension (memory : Mem) (nibble current : Nat) : Nat × Nat :=
  if nibble = 13 then (nibble + (memory current).toNat, current + 1)
  else if nibble = 14 then
    (nibble + 255 + (memory current).toNat <<< 8 +
      (memory (current + 1)).toNat, current + 2)
  else (nibble, current)

structure OptionParser where
  memory : Mem
  packet : InPacket
  current : Nat
  number : Nat
  lastError : CoapStatus

/-- One round of the loop: the parser either stops or goes on. -/
def parseOptionStep (config : CoapConfig) (mode : ParseMode)
    (dataLen : Nat) (parser : OptionParser) : ParseResult ⊕ OptionParser :=
  let first := (parser.memory parser.current).toNat
  if first &&& 0xF0 = 0xF0 then
    let payload := parser.current + 1
    .inl ⟨parser.lastError, parser.memory,
      { parser.packet with
        payload := ⟨payload, (dataLen - payload) % 2 ^ 32⟩ }⟩
  else
    let (delta, current) :=
      readExtension parser.memory (first >>> 4) (parser.current + 1)
    let (length, current) :=
      readExtension parser.memory (first &&& 0x0F) current
    let number := (parser.number + delta) % 2 ^ 32
    let packet :=
      if number ≤ CoapOption.size1 then parser.packet.setOption number
      else parser.packet
    if current + length > dataLen then
      .inl ⟨.badRequest, parser.memory, packet⟩
    else
      let result := coapOscoreParseOption config mode parser.memory packet
        number ⟨current, length⟩
      if result.status ≠ .noError ∧
          (!mode.validate ∨ result.status = .badRequest) then
        .inl result
      else
        .inr
          { memory := result.memory
            packet := result.packet
            current := current + length
            number := number
            lastError :=
              if parser.lastError.code < result.status.code then result.status
              else parser.lastError }

/-- Every round moves the address forward, so `dataLen` rounds suffice. -/
def parseOptionLoop (config : CoapConfig) (mode : ParseMode)
    (dataLen : Nat) : (fuel : Nat) → OptionParser → ParseResult
  | 0, parser => ⟨parser.lastError, parser.memory, parser.packet⟩
  | fuel + 1, parser =>
      if parser.current < dataLen then
        match parseOptionStep config mode dataLen parser with
        | .inl result => result
        | .inr parser => parseOptionLoop config mode dataLen fuel parser
      else ⟨parser.lastError, parser.memory, parser.packet⟩

def coapOscoreParseOptions (config : CoapConfig) (mode : ParseMode)
    (memory : Mem) (packet : InPacket) (dataLen current : Nat) :
    ParseResult :=
  if dataLen > 2 ^ 32 - 1 then ⟨.badRequest, memory, packet⟩
  else
    parseOptionLoop config mode dataLen dataLen
      { memory := memory
        packet := { packet with options := 0 }
        current := current
        number := 0
        lastError := .noError }

def coapUdpParseMessage (config : CoapConfig) (memory : Mem)
    (dataLen : Nat) (validate : Bool) : ParseResult :=
  let packet := CoapPacket.zero Span.null
  if dataLen > 65535 then ⟨.badRequest, memory, packet⟩
  else
    let first := (memory 0).toNat
    let tokenLen := 0x0F &&& first
    let packet := { packet with
      transportType := .udp
      version := UInt8.ofNat ((0xC0 &&& first) >>> 6)
      type := .ofBits ((0x30 &&& first) >>> 4)
      code := memory 1
      mid := UInt16.ofNat ((memory 2).toNat <<< 8 ||| (memory 3).toNat) }
    if packet.version ≠ 1 then ⟨.badRequest, memory, packet⟩
    else if tokenLen > coapTokenLen then ⟨.badRequest, memory, packet⟩
    else
      coapOscoreParseOptions config ⟨true, true, false, validate⟩ memory
        { packet with token := memory.read 4 tokenLen } dataLen (4 + tokenLen)

/-- The message length and the number of extended length bytes; `none` when
the length bytes are not complete. -/
def coapTcpParseMessageLength (memory : Mem) (dataSize : Nat) :
    Option (Nat × Nat) :=
  let tcpLen := (0xF0 &&& (memory 0).toNat) >>> 4
  if tcpLen < 13 then some (tcpLen, 0)
  else
    let extendedBytes := 1 <<< (tcpLen - 13)
    if dataSize < extendedBytes + 1 then none
    else
      let length := (memory.read 1 extendedBytes).foldl
        (fun length byte => length <<< 8 ||| byte.toNat) 0
      if tcpLen = 13 then some (length + 13, extendedBytes)
      else if tcpLen = 14 then some (length + 269, extendedBytes)
      else some (length + 65805, extendedBytes)

def coapTcpParseMessage (config : CoapConfig) (memory : Mem)
    (dataLen : Nat) (validate : Bool) : ParseResult :=
  let packet := CoapPacket.zero Span.null
  if dataLen > 2 ^ 32 - 1 then ⟨.badRequest, memory, packet⟩
  else
    let packet := { packet with transportType := .tcp }
    match coapTcpParseMessageLength memory dataLen with
    | none => ⟨.badRequest, memory, packet⟩
    | some (_, extendedBytes) =>
        let tokenLen := 0x0F &&& (memory 0).toNat
        let packet := { packet with
          type := .non, mid := 0, code := memory (1 + extendedBytes) }
        if tokenLen > coapTokenLen then ⟨.badRequest, memory, packet⟩
        else
          let current := 2 + extendedBytes
          coapOscoreParseOptions config ⟨true, true, false, validate⟩ memory
            { packet with token := memory.read current tokenLen } dataLen
            (current + tokenLen)

end IotivityLite
