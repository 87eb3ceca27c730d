import IotivityLite.Oscore.Receive

/-!
# Receiving messages on a TCP session

`tcp_session_receive_message_locked` of the Linux port with the header checks
of `oc_tcp.c`.  The kernel decides how many of the requested bytes a call of
`recv` returns; the model takes this choice as an argument.  What `recv` was
asked for is kept beside the result.
-/

namespace IotivityLite

def coapTcpDefaultHeaderLen : Nat := 2

def coapTcpMaxExtendedLengthLen : Nat := 4

/-- `OC_TCP_DEFAULT_RECEIVE_SIZE` -/
def ocTcpDefaultReceiveSize : Nat :=
  coapTcpDefaultHeaderLen + coapTcpMaxExtendedLengthLen

/-- The record types of `mbedtls`: change cipher spec, alert, handshake,
application data and connection ID. -/
def tlsRecordTypes : List UInt8 := [20, 21, 22, 23, 25]

def ocTcpIsValidHeader (ocSecurity : Bool) (data : Bytes) (isTls : Bool) :
    Bool :=
  if ocSecurity && isTls then
    match data with
    | type :: major :: minor :: _ =>
        tlsRecordTypes.contains type && major == 3 &&
          (minor == 1 || minor == 2 || minor == 3 || minor == 4)
    | _ => false
  else
    match data with
    | [] => false
    | first :: _ => (0x0F &&& first.toNat) ≤ coapTokenLen

/-- `none` stands for the result -1. -/
def coapTcpGetPacketSize (data : Bytes) : Option Nat :=
  match coapTcpParseMessageLength (.ofBytes data) data.length with
  | none => none
  | some (messageLength, extendedBytes) =>
      let tokenLen := 0x0F &&& (Mem.ofBytes data 0).toNat
      some (coapTcpDefaultHeaderLen + extendedBytes + tokenLen +
        messageLength)

def ocTlsHeaderSize : Nat := 5

/-- `none` stands for the result -1. -/
def ocTcpGetTotalLengthFromHeader (ocSecurity : Bool) (data : Bytes)
    (isTls : Bool) : Option Nat :=
  if !ocTcpIsValidHeader ocSecurity data isTls then none
  else if ocSecurity && isTls then
    if data.length < ocTlsHeaderSize then none
    else some (ocTlsHeaderSize +
      ((Mem.ofBytes data 3).toNat <<< 8 ||| (Mem.ofBytes data 4).toNat))
  else coapTcpGetPacketSize data

/-- A session and the buffers its messages are read into. -/
structure TcpReceiver where
  config : CoapConfig
  ocSecurity : Bool
  secured : Bool
  /-- `oc_message_buffer_size` -/
  bufferSize : Nat
  /-- a `size_t` -/
  sized : bufferSize < 2 ^ 64

def ocTcpIsValidMessage (receiver : TcpReceiver) (data : Bytes) : Bool :=
  receiver.ocSecurity && receiver.secured ||
    receiver.ocSecurity && receiver.config.ocOscore &&
      oscoreIsOscoreMessage receiver.config ⟨data, 0, true, false, []⟩ ||
    (coapTcpParseMessage receiver.config (.ofBytes data) data.length
      true).status == .noError

/-- The message that is being read. -/
structure TcpReading where
  /-- `message->data` up to `message->length` -/
  data : Bytes
  wantRead : Nat
  totalLength : Nat

/-- What `recv` is asked for while `received` bytes of the message have been
read. -/
structure RecvRequest where
  received : Nat
  wantRead : Nat
  deriving DecidableEq, Repr

/-- How a call of `tcp_session_receive_message_locked` ends. -/
inductive TcpReceived where
  | receive (message : Bytes) (requests : List RecvRequest)
  /-- the session was freed -/
  | closed
  /-- `recv` waits for bytes that have not arrived -/
  | waiting
  deriving DecidableEq, Repr

/-- The number of bytes `recv` returns: at least one, at most what was asked
for and what is there. -/
def recvCount (choice wantRead available : Nat) : Nat :=
  min (max 1 choice) (min wantRead available)

/-- The loop body after `recv` returned `count` bytes; `none` when the session
is freed. -/
def TcpReading.advance (receiver : TcpReceiver) (reading : TcpReading)
    (chunk : Bytes) : Option TcpReading :=
  let data := reading.data ++ chunk
  if reading.totalLength = 0 then
    match ocTcpGetTotalLengthFromHeader receiver.ocSecurity data
        receiver.secured with
    | none => none
    | some totalLength =>
        if totalLength > receiver.bufferSize then none
        else some ⟨data, sizeSub totalLength chunk.length, totalLength⟩
  else
    some ⟨data, sizeSub reading.wantRead chunk.length, reading.totalLength⟩

/-- `choices` says what the calls of `recv` return.  Every round takes a
byte, so the fuel is the number of bytes that are there. -/
def tcpReceiveLoop (receiver : TcpReceiver) : (fuel : Nat) →
    (choices : Nat → Nat) → (unread : Bytes) → TcpReading →
    (requests : List RecvRequest) → TcpReceived × Bytes
  | 0, _, unread, _, _ => (.waiting, unread)
  | fuel + 1, choices, unread, reading, requests =>
      let count := recvCount (choices 0) reading.wantRead unread.length
      if count = 0 then (.waiting, unread)
      else
        let requests := requests ++ [⟨reading.data.length, reading.wantRead⟩]
        let rest := unread.drop count
        match reading.advance receiver (unread.take count) with
        | none => (.closed, rest)
        | some reading =>
            if reading.totalLength > reading.data.length then
              tcpReceiveLoop receiver fuel (fun call => choices (call + 1))
                rest reading requests
            else if ocTcpIsValidMessage receiver reading.data then
              (.receive reading.data requests, rest)
            else (.closed, rest)

def tcpSessionReceiveMessage (receiver : TcpReceiver)
    (choices : Nat → Nat) (unread : Bytes) : TcpReceived × Bytes :=
  tcpReceiveLoop receiver unread.length choices unread
    ⟨[], ocTcpDefaultReceiveSize, 0⟩ []

/-- The session is read as long as it is open and has unread bytes.  The calls
of `recv` in the run number `run` return what `choices run` says. -/
def tcpReceiveMessages (receiver : TcpReceiver)
    (choices : Nat → Nat → Nat) : (fuel run : Nat) → (unread : Bytes) →
    List TcpReceived
  | 0, _, _ => []
  | fuel + 1, run, unread =>
      if unread = [] then []
      else
        match tcpSessionReceiveMessage receiver (choices run) unread with
        | (.receive message requests, rest) =>
            .receive message requests ::
              tcpReceiveMessages receiver choices fuel (run + 1) rest
        | (outcome, _) => [outcome]

end IotivityLite
