import IotivityLite.Foundation.Memory

/-!
# CoAP packets and the option setters

The packet record of `coap_internal.h`, the two message initialisers and the
setters of `options.c`.  Text fields are pointers in the source: a packet that
is being built points to strings of the caller, a parsed packet points into
the received buffer.  The record is therefore generic in the type of its
texts.
-/

namespace IotivityLite

/-- The compile-time switches and settings the CoAP layer depends on. -/
structure CoapConfig where
  ocTcp : Bool
  ocOscore : Bool
  ocSpecVerOic : Bool
  ocJsonEncoder : Bool
  ocWkcore : Bool
  ocBlockWise : Bool
  ocEtag : Bool
  ocEtagIncrementalChanges : Bool
  ocTest : Bool
  ocBlockSize : Nat

/-- `COAP_MAX_HEADER_SIZE` as chosen in `conf.h`. -/
def CoapConfig.coapMaxHeaderSize (config : CoapConfig) : Nat :=
  if config.ocTest && config.ocEtagIncrementalChanges then 300
  else if config.ocBlockWise then 4 + 8 + 3 + 4 + 4 + 8 + 150
  else if config.ocEtag then 4 + 8 + 3 + 4 + 4 + 8 + 100
  else 4 + 8 + 3 + 4 + 4 + 100

theorem CoapConfig.coapMaxHeaderSize_le (config : CoapConfig) :
    config.coapMaxHeaderSize ≤ 300 := by
  unfold CoapConfig.coapMaxHeaderSize
  split_ifs <;> omega

inductive CoapTransportType where
  | udp
  | tcp
  deriving DecidableEq, Repr

inductive CoapMessageType where
  | con
  | non
  | ack
  | rst
  deriving DecidableEq, Repr

namespace CoapMessageType

def bits : CoapMessageType → Nat
  | con => 0
  | non => 1
  | ack => 2
  | rst => 3

def ofBits (value : Nat) : CoapMessageType :=
  if value = 0 then con else if value = 1 then non
  else if value = 2 then ack else rst

end CoapMessageType

def coapTokenLen : Nat := 8
def coapEtagLen : Nat := 8

namespace CoapOption

abbrev uriHost : Nat := 3
abbrev etag : Nat := 4
abbrev observe : Nat := 6
abbrev uriPort : Nat := 7
abbrev oscore : Nat := 9
abbrev uriPath : Nat := 11
abbrev contentFormat : Nat := 12
abbrev maxAge : Nat := 14
abbrev uriQuery : Nat := 15
abbrev accept : Nat := 17
abbrev block2 : Nat := 23
abbrev block1 : Nat := 27
abbrev size2 : Nat := 28
abbrev proxyUri : Nat := 35
abbrev size1 : Nat := 60
abbrev ocfAcceptContentFormatVer : Nat := 2049
abbrev ocfContentFormatVer : Nat := 2053

end CoapOption

namespace CoapSignalOption

abbrev maxMsgSize : Nat := 2
abbrev blockwiseTransfer : Nat := 4
abbrev custody : Nat := 2
abbrev altAddr : Nat := 2
abbrev holdOff : Nat := 4
abbrev badCsm : Nat := 2

end CoapSignalOption

namespace OcContentFormat

abbrev textPlain : UInt16 := 0
abbrev applicationCbor : UInt16 := 60
abbrev applicationVndOcfCbor : UInt16 := 10000

end OcContentFormat

abbrev ocfVer100 : UInt32 := 2048
abbrev oicVer110 : UInt32 := 2112

/-- The codes of `coap_signal_code_t`; every other code is not a signal. -/
inductive CoapSignal where
  | csm
  | ping
  | pong
  | release
  | abort
  deriving DecidableEq, Repr

/-- The signal a message code stands for. -/
def coapSignal (code : UInt8) : Option CoapSignal :=
  if code = 225 then some .csm
  else if code = 226 then some .ping
  else if code = 227 then some .pong
  else if code = 228 then some .release
  else if code = 229 then some .abort
  else none

/-- A string handed to the stack: its bytes, and the bytes that happen to
follow it in memory.  Some loops of the source look past the end. -/
structure CString where
  bytes : Bytes
  beyond : Bytes := []
  deriving DecidableEq, Repr

def CString.at (text : CString) (index : Nat) : UInt8 :=
  (text.bytes ++ text.beyond).getD index 0

/-- A pointer into the received buffer together with a length. -/
structure Span where
  start : Nat
  length : Nat
  deriving DecidableEq, Repr

structure BlockOption where
  num : UInt32
  more : UInt8
  size : UInt16
  offset : UInt32
  deriving DecidableEq, Repr

structure CoapPacket (Text : Type) where
  transportType : CoapTransportType
  version : UInt8
  type : CoapMessageType
  code : UInt8
  mid : UInt16
  token : Bytes
  options : BitVec 64
  contentFormat : UInt16
  maxAge : UInt32
  etag : Bytes
  proxyUri : Text
  uriHost : Text
  uriPort : UInt16
  uriPath : Text
  observe : Int32
  accept : UInt16
  block2 : BlockOption
  block1 : BlockOption
  size2 : UInt32
  size1 : UInt32
  uriQuery : Text
  maxMsgSize : UInt32
  blockwiseTransfer : UInt8
  custody : UInt8
  altAddr : Text
  holdOff : UInt32
  badCsmOpt : UInt16
  oscoreFlags : UInt8
  piv : Bytes
  kidCtx : Bytes
  kid : Bytes
  payload : Text
  deriving DecidableEq

namespace CoapPacket

variable {Text : Type}

/-- A packet after `memset(packet, 0, sizeof(coap_packet_t))`. -/
def zero (null : Text) : CoapPacket Text where
  transportType := .udp
  version := 0
  type := .con
  code := 0
  mid := 0
  token := []
  options := 0
  contentFormat := 0
  maxAge := 0
  etag := []
  proxyUri := null
  uriHost := null
  uriPort := 0
  uriPath := null
  observe := 0
  accept := 0
  block2 := ⟨0, 0, 0, 0⟩
  block1 := ⟨0, 0, 0, 0⟩
  size2 := 0
  size1 := 0
  uriQuery := null
  maxMsgSize := 0
  blockwiseTransfer := 0
  custody := 0
  altAddr := null
  holdOff := 0
  badCsmOpt := 0
  oscoreFlags := 0
  piv := []
  kidCtx := []
  kid := []
  payload := null

/-- `SET_OPTION`: the eight bytes of the bitmap are one 64-bit vector. -/
def setOption (packet : CoapPacket Text) (option : Nat) : CoapPacket Text :=
  { packet with options := packet.options ||| BitVec.twoPow 64 option }

/-- `IS_OPTION` -/
def isOption (packet : CoapPacket Text) (option : Nat) : Bool :=
  packet.options.getLsbD option

@[simp] theorem isOption_setOption (packet : CoapPacket Text)
    (option candidate : Nat) :
    (packet.setOption option).isOption candidate =
      (packet.isOption candidate ||
        (decide (candidate < 64) && decide (option = candidate))) := by
  simp [isOption, setOption, BitVec.getLsbD_or, BitVec.getLsbD_twoPow]
  grind

/-- Reading all texts of a packet through one function. -/
def mapText {Other : Type} (packet : CoapPacket Text)
    (view : Text → Other) : CoapPacket Other :=
  { packet with
    proxyUri := view packet.proxyUri
    uriHost := view packet.uriHost
    uriPath := view packet.uriPath
    uriQuery := view packet.uriQuery
    altAddr := view packet.altAddr
    payload := view packet.payload }

end CoapPacket

abbrev OutPacket := CoapPacket CString

def CString.null : CString := ⟨[], []⟩

def coapUdpInitMessage (type : CoapMessageType) (code : UInt8)
    (mid : UInt16) : OutPacket :=
  { CoapPacket.zero CString.null with
    transportType := .udp, type := type, code := code, mid := mid }

def coapTcpInitMessage (code : UInt8) : OutPacket :=
  { CoapPacket.zero CString.null with
    transportType := .tcp, type := .non, code := code, mid := 0 }

def coapSetToken (packet : OutPacket) (token : Bytes) : OutPacket :=
  { packet with token := token.take coapTokenLen }

/-- Over UDP the payload is cut to one block. -/
def coapSetPayload (config : CoapConfig) (packet : OutPacket)
    (payload : Bytes) : OutPacket :=
  let kept :=
    if config.ocTcp && packet.transportType = .tcp then payload
    else payload.take (config.ocBlockSize % 2 ^ 32)
  { packet with payload := ⟨kept, []⟩ }

def coapOptionsSetContentFormat (packet : OutPacket) (format : UInt16) :
    OutPacket :=
  { packet with contentFormat := format }.setOption CoapOption.contentFormat

def coapOptionsSetAccept (packet : OutPacket) (accept : UInt16) :
    OutPacket :=
  { packet with accept := accept }.setOption CoapOption.accept

def coapOptionsSetMaxAge (packet : OutPacket) (age : UInt32) : OutPacket :=
  { packet with maxAge := age }.setOption CoapOption.maxAge

def coapOptionsSetEtag (packet : OutPacket) (etag : Bytes) : OutPacket :=
  { packet with etag := etag.take coapEtagLen }.setOption CoapOption.etag

def coapOptionsSetProxyUri (packet : OutPacket) (uri : CString) :
    OutPacket :=
  { packet with proxyUri := uri }.setOption CoapOption.proxyUri

/-- All leading `/` are skipped. -/
def coapOptionsSetUriPath (packet : OutPacket) (path : CString) :
    OutPacket :=
  { packet with
    uriPath := { path with bytes := path.bytes.dropWhile (· == 47) } }.setOption
      CoapOption.uriPath

/-- All leading `?` are skipped. -/
def coapOptionsSetUriQuery (packet : OutPacket) (query : CString) :
    OutPacket :=
  { packet with
    uriQuery :=
      { query with bytes := query.bytes.dropWhile (· == 63) } }.setOption
        CoapOption.uriQuery

def coapOptionsSetSize1 (packet : OutPacket) (size : UInt32) : OutPacket :=
  { packet with size1 := size }.setOption CoapOption.size1

def coapOptionsSetSize2 (packet : OutPacket) (size : UInt32) : OutPacket :=
  { packet with size2 := size }.setOption CoapOption.size2

/-- A rejected block leaves the packet as it was.  `more` is stored as it
comes, unlike in `coapOptionsSetBlock2`. -/
def coapOptionsSetBlock1 (packet : OutPacket) (num : UInt32) (more : UInt8)
    (size : UInt16) (offset : UInt32) : OutPacket :=
  if num > 0x0FFFFF then packet
  else if size < 16 ∨ size > 2048 then packet
  else { packet with block1 := ⟨num, more, size, offset⟩ }.setOption
    CoapOption.block1

def coapOptionsSetBlock2 (packet : OutPacket) (num : UInt32) (more : UInt8)
    (size : UInt16) (offset : UInt32) : OutPacket :=
  if num > 0x0FFFFF then packet
  else if size < 16 ∨ size > 2048 then packet
  else { packet with
    block2 := ⟨num, if more ≠ 0 then 1 else 0, size, offset⟩ }.setOption
      CoapOption.block2

def coapOptionsSetObserve (packet : OutPacket) (observe : Int32) :
    OutPacket :=
  { packet with observe := observe }.setOption CoapOption.observe

/-- One call of a setter, with the arguments it is given.  The payload length
is a `uint32_t`. -/
inductive CoapSetter where
  | token (token : Bytes)
  | payload (payload : Bytes) (fits : payload.length < 2 ^ 32)
  | contentFormat (format : UInt16)
  | accept (accept : UInt16)
  | maxAge (age : UInt32)
  | etag (etag : Bytes)
  | proxyUri (uri : CString)
  | uriPath (path : CString)
  | uriQuery (query : CString)
  | size1 (size : UInt32)
  | size2 (size : UInt32)
  | block1 (num : UInt32) (more : UInt8) (size : UInt16) (offset : UInt32)
  | block2 (num : UInt32) (more : UInt8) (size : UInt16) (offset : UInt32)
  | observe (observe : Int32)

def CoapSetter.apply (config : CoapConfig) (packet : OutPacket) :
    CoapSetter → OutPacket
  | .token value => coapSetToken packet value
  | .payload value _ => coapSetPayload config packet value
  | .contentFormat value => coapOptionsSetContentFormat packet value
  | .accept value => coapOptionsSetAccept packet value
  | .maxAge value => coapOptionsSetMaxAge packet value
  | .etag value => coapOptionsSetEtag packet value
  | .proxyUri value => coapOptionsSetProxyUri packet value
  | .uriPath value => coapOptionsSetUriPath packet value
  | .uriQuery value => coapOptionsSetUriQuery packet value
  | .size1 value => coapOptionsSetSize1 packet value
  | .size2 value => coapOptionsSetSize2 packet value
  | .block1 num more size offset =>
      coapOptionsSetBlock1 packet num more size offset
  | .block2 num more size offset =>
      coapOptionsSetBlock2 packet num more size offset
  | .observe value => coapOptionsSetObserve packet value

/-- The packets a program can hold after initialising one and calling any
setters on it in any order. -/
inductive Built (config : CoapConfig) : OutPacket → Prop where
  | udp (type : CoapMessageType) (code : UInt8) (mid : UInt16) :
      Built config (coapUdpInitMessage type code mid)
  | tcp (enabled : config.ocTcp = true) (code : UInt8) :
      Built config (coapTcpInitMessage code)
  | set {packet : OutPacket} (setter : CoapSetter) :
      Built config packet → Built config (setter.apply config packet)

theorem Built.foldl {config : CoapConfig} {packet : OutPacket}
    (built : Built config packet) (setters : List CoapSetter) :
    Built config (setters.foldl (CoapSetter.apply config) packet) := by
  induction setters generalizing packet with
  | nil => exact built
  | cons setter rest ih => exact ih (.set setter built)

end IotivityLite
