import IotivityLite.Coap.Parse
import IotivityLite.Oscore.PartialIv
import IotivityLite.Oscore.ReplayWindow

/-!
# Receiving OSCORE messages

`oc_oscore_recv_message` of `oc_oscore_engine.c` with the parsers of
`oscore.c` and the lookups of `oc_oscore_context.c`.  Authenticated decryption
is the only operation taken from outside: a function from key, nonce,
additional data and ciphertext with tag to the plaintext, if the tag fits.
The event queue behind the function is not part of the model.
-/

namespace IotivityLite

/-- The credential types that come with an OSCORE context. -/
inductive OscoreCredType where
  | oscore
  | oscoreMcastClient
  | oscoreMcastServer
  deriving DecidableEq, Repr

structure OscoreContext where
  device : Nat
  credtype : OscoreCredType
  subjectuuid : Bytes
  sendid : Bytes
  recvid : Bytes
  recvkey : Bytes
  commoniv : Bytes
  window : ReplayWindow

/-- A client callback or a transaction that waits for a response. -/
structure PendingRequest where
  token : Bytes
  mid : UInt16
  piv : Bytes
  di : Bytes

/-- `history` holds the message ids of recent requests with their device. -/
structure OscoreLayer where
  contexts : List OscoreContext
  clientCbs : List PendingRequest
  transactions : List PendingRequest
  history : List (UInt16 × Nat)

/-- A received message; `piv` is what its endpoint already carries. -/
structure IncomingMessage where
  data : Bytes
  device : Nat
  tcp : Bool
  multicast : Bool
  piv : Bytes

abbrev Decrypt := (key nonce aad ciphertext : Bytes) → Option Bytes

def ocPost : UInt8 := 2
def ocFetch : UInt8 := 5

def parseOuterOptions (config : CoapConfig) (memory : Mem) (packet : InPacket)
    (dataLen current : Nat) : ParseResult :=
  let tokenLen := 0x0F &&& (memory 0).toNat
  if tokenLen > coapTokenLen then ⟨.badRequest, memory, packet⟩
  else
    coapOscoreParseOptions config ⟨false, true, true, false⟩ memory
      { packet with token := memory.read current tokenLen } dataLen
      (current + tokenLen)

def oscoreParseOuterMessage (config : CoapConfig)
    (message : IncomingMessage) : ParseResult :=
  let memory := Mem.ofBytes message.data
  let dataLen := message.data.length
  let packet := CoapPacket.zero Span.null
  if config.ocTcp && message.tcp then
    let packet := { packet with transportType := .tcp }
    match coapTcpParseMessageLength memory dataLen with
    | none => ⟨.badRequest, memory, packet⟩
    | some (_, extendedBytes) =>
        parseOuterOptions config memory
          { packet with
            type := .non, mid := 0, code := memory (1 + extendedBytes) }
          dataLen (2 + extendedBytes)
  else
    let first := (memory 0).toNat
    let version := UInt8.ofNat ((0xC0 &&& first) >>> 6)
    let packet := { packet with transportType := .udp, version := version }
    if version ≠ 1 then ⟨.badRequest, memory, packet⟩
    else
      parseOuterOptions config memory
        { packet with
          type := .ofBits ((0x30 &&& first) >>> 4)
          mid := UInt16.ofNat ((memory 2).toNat <<< 8 ||| (memory 3).toNat)
          code := memory 1 }
        dataLen 4

def oscoreParseInnerMessage (config : CoapConfig) (memory : Mem)
    (dataLen : Nat) : ParseResult :=
  coapOscoreParseOptions config ⟨true, false, true, false⟩ memory
    { CoapPacket.zero Span.null with code := memory 0 } dataLen 1

/-- The loop of `oscore_is_oscore_message`. -/
def findOscoreOption (memory : Mem) (dataLen : Nat) :
    (fuel current number : Nat) → Bool
  | 0, _, _ => false
  | fuel + 1, current, number =>
      let first := (memory current).toNat
      if current < dataLen ∧ first &&& 0xF0 ≠ 0xF0 then
        let (delta, next) := readExtension memory (first >>> 4) (current + 1)
        let (length, next) := readExtension memory (first &&& 0x0F) next
        let number := (number + delta) % 2 ^ 32
        if number = CoapOption.oscore then true
        else findOscoreOption memory dataLen fuel (next + length) number
      else false

def oscoreIsOscoreMessage (config : CoapConfig) (message : IncomingMessage) :
    Bool :=
  let memory := Mem.ofBytes message.data
  let dataLen := message.data.length
  let tokenLen := 0x0F &&& (memory 0).toNat
  if config.ocTcp && message.tcp then
    match coapTcpParseMessageLength memory dataLen with
    | none => false
    | some (_, extendedBytes) =>
        findOscoreOption memory dataLen dataLen (2 + extendedBytes + tokenLen) 0
  else findOscoreOption memory dataLen dataLen (4 + tokenLen) 0

/-- The first context that satisfies the test, with its position. -/
def OscoreLayer.findContext (layer : OscoreLayer)
    (test : OscoreContext → Bool) : Option (Nat × OscoreContext) := do
  let index ← layer.contexts.findIdx? test
  let context ← layer.contexts[index]?
  return (index, context)

def ocOscoreFindContextByKid (layer : OscoreLayer) (device : Nat)
    (kid : Bytes) : Option (Nat × OscoreContext) :=
  layer.findContext fun context =>
    context.device == device && context.recvid == kid

/-- The context of a response and the Partial IV of its request. -/
def ocOscoreFindContextByTokenMid (layer : OscoreLayer) (device : Nat)
    (token : Bytes) (mid : UInt16) (tcp : Bool) :
    Option ((Nat × OscoreContext) × Bytes) := do
  let byToken := (layer.clientCbs.find? (·.token == token)).or
    (layer.transactions.find? (·.token == token))
  let pending ← byToken.or
    (if tcp then none else layer.transactions.find? (·.mid == mid))
  let found ← layer.findContext fun context =>
    context.subjectuuid == pending.di && context.device == device
  return (found, pending.piv)

def ocCoapCheckIfDuplicate (layer : OscoreLayer) (device : Nat)
    (mid : UInt16) : Bool :=
  layer.history.contains (mid, device)

/-- What a rejected message is answered with; multicasts are not. -/
def oscoreSendError (message : IncomingMessage) (code : UInt8) :
    Option UInt8 :=
  if message.multicast then none else some code

def badRequest400 : UInt8 := 128
def unauthorized401 : UInt8 := 129
def badOption402 : UInt8 := 130

/-- A message whose context is known. -/
structure Addressed where
  packet : InPacket
  memory : Mem
  index : Nat
  context : OscoreContext
  requestPiv : Bytes

/-- By kid, or for a response by the request it answers. -/
def oscoreFindContext (layer : OscoreLayer) (message : IncomingMessage)
    (packet : InPacket) : Option ((Nat × OscoreContext) × Bytes) :=
  if packet.kid = [] then
    ocOscoreFindContextByTokenMid layer message.device packet.token
      packet.mid message.tcp
  else
    (ocOscoreFindContextByKid layer message.device packet.kid).map (·, [])

/-- The part of `oscore_parse_message` before the replay check. -/
def oscoreAddress (config : CoapConfig) (layer : OscoreLayer)
    (message : IncomingMessage) : Except (Option UInt8) Addressed :=
  let ⟨status, memory, packet⟩ := oscoreParseOuterMessage config message
  if status ≠ .noError then
    .error (oscoreSendError message badOption402)
  else if packet.transportType = .udp ∧ packet.code ≤ ocFetch ∧
      ocCoapCheckIfDuplicate layer message.device packet.mid then
    .error none
  else if packet.kid = [] ∧ packet.code ≤ ocFetch then
    .error (oscoreSendError message badOption402)
  else
    match oscoreFindContext layer message packet with
    | none => .error (oscoreSendError message unauthorized401)
    | some ((index, context), requestPiv) =>
        if ¬ message.multicast ∧ context.credtype ≠ .oscore then .error none
        else .ok ⟨packet, memory, index, context, requestPiv⟩

/-- The Partial IV of a request, which is checked against the window. -/
def Addressed.replayPiv (addressed : Addressed) : Option UInt64 :=
  if addressed.packet.piv ≠ [] ∧ 1 ≤ addressed.packet.code ∧
      addressed.packet.code ≤ ocFetch then
    some (UInt64.ofNat (oscoreReadPiv addressed.packet.piv))
  else none

/-- CBOR byte strings of the lengths that occur. -/
def cborByteString (bytes : Bytes) : Bytes :=
  if bytes.length < 24 then UInt8.ofNat (0x40 + bytes.length) :: bytes
  else 0x58 :: UInt8.ofNat bytes.length :: bytes

def ocOscoreComposeAAD (kid piv : Bytes) : Bytes :=
  let aadArray := [0x85, 0x01, 0x81, 0x0A] ++ cborByteString kid ++
    cborByteString piv ++ cborByteString []
  [0x83, 0x68, 0x45, 0x6E, 0x63, 0x72, 0x79, 0x70, 0x74, 0x30] ++
    cborByteString [] ++ cborByteString aadArray

/-- The additional data: requests without Partial IV leave it empty. -/
def Addressed.aad (addressed : Addressed) : Bytes :=
  if addressed.packet.code > ocFetch then
    ocOscoreComposeAAD addressed.context.sendid addressed.requestPiv
  else if addressed.replayPiv.isSome then
    ocOscoreComposeAAD addressed.context.recvid addressed.packet.piv
  else []

/-- The nonce: from the Partial IV of the message, else for a response from
the one of its request, unless the endpoint already carries one. -/
def Addressed.nonce (addressed : Addressed) (message : IncomingMessage) :
    Bytes :=
  let context := addressed.context
  if addressed.packet.piv ≠ [] then
    ocOscoreAEADNonce context.recvid addressed.packet.piv context.commoniv
  else if addressed.packet.code > ocFetch ∧ message.piv = [] then
    ocOscoreAEADNonce context.sendid addressed.requestPiv context.commoniv
  else List.replicate oscoreAeadNonceLen 0

def Addressed.plaintext (decrypt : Decrypt) (message : IncomingMessage)
    (addressed : Addressed) : Option Bytes :=
  decrypt addressed.context.recvkey (addressed.nonce message) addressed.aad
    (addressed.memory.text addressed.packet.payload)

/-- The decrypted payload overwrites the ciphertext. -/
def Addressed.innerMemory (addressed : Addressed) (plaintext : Bytes) : Mem :=
  fun address =>
    if address < plaintext.length then plaintext.getD address 0
    else addressed.memory (addressed.packet.payload.start + address)

/-- The payload without its tag. -/
def Addressed.plaintextLength (addressed : Addressed) : Nat :=
  (addressed.packet.payload.length + 2 ^ 32 - 8) % 2 ^ 32

def Addressed.inner (config : CoapConfig) (addressed : Addressed)
    (plaintext : Bytes) : ParseResult :=
  oscoreParseInnerMessage config (addressed.innerMemory plaintext)
    addressed.plaintextLength

/-- What becomes of the parsed inner message. -/
def Addressed.process (message : IncomingMessage) (addressed : Addressed)
    (inner : ParseResult) : Except (Option UInt8) InPacket :=
  if inner.status ≠ .noError then
    .error (oscoreSendError message badOption402)
  else if addressed.context.credtype = .oscoreMcastServer ∧
      inner.packet.code ≠ ocPost then
    .error none
  else
    .ok { inner.packet with
      transportType := addressed.packet.transportType
      version := addressed.packet.version
      type := addressed.packet.type
      mid := addressed.packet.mid
      token := addressed.packet.token
      observe := addressed.packet.observe }

def oscoreParseAndProcessInnerMessage (config : CoapConfig)
    (message : IncomingMessage) (addressed : Addressed) (plaintext : Bytes) :
    Except (Option UInt8) InPacket :=
  addressed.process message (addressed.inner config plaintext)

/-- The part of `oscore_parse_message` after the replay check. -/
def Addressed.deliver (config : CoapConfig) (decrypt : Decrypt)
    (message : IncomingMessage) (addressed : Addressed) :
    Except (Option UInt8) InPacket :=
  match addressed.plaintext decrypt message with
  | none => .error (oscoreSendError message badRequest400)
  | some plaintext =>
      oscoreParseAndProcessInnerMessage config message addressed plaintext

/-- The check stores the Partial IV of a fresh request at once. -/
def OscoreLayer.storeWindow (layer : OscoreLayer) (addressed : Addressed)
    (window : ReplayWindow) : OscoreLayer :=
  { layer with
    contexts := layer.contexts.set addressed.index
      { addressed.context with window := window } }

def oscoreParseMessage (config : CoapConfig) (decrypt : Decrypt)
    (layer : OscoreLayer) (message : IncomingMessage) :
    Except (Option UInt8) InPacket × OscoreLayer :=
  match oscoreAddress config layer message with
  | .error answer => (.error answer, layer)
  | .ok addressed =>
      match addressed.replayPiv with
      | none => (addressed.deliver config decrypt message, layer)
      | some piv =>
          match checkIfReplayedRequest addressed.context.window piv with
          | (true, _) =>
              (.error (oscoreSendError message unauthorized401), layer)
          | (false, window) =>
              (addressed.deliver config decrypt message,
                layer.storeWindow addressed window)

/-- `none` for a message that is handed on as it is. -/
def ocOscoreRecvMessage (config : CoapConfig) (decrypt : Decrypt)
    (layer : OscoreLayer) (message : IncomingMessage) :
    Option (Except (Option UInt8) InPacket) × OscoreLayer :=
  if oscoreIsOscoreMessage config message then
    let (result, layer) := oscoreParseMessage config decrypt layer message
    (some result, layer)
  else (none, layer)

/-- The payload decrypts to an inner message that is accepted. -/
def Addressed.Genuine (config : CoapConfig) (decrypt : Decrypt)
    (message : IncomingMessage) (addressed : Addressed) : Prop :=
  ∃ plaintext, addressed.plaintext decrypt message = some plaintext ∧
    (addressed.inner config plaintext).status = .noError ∧
    (addressed.context.credtype = .oscoreMcastServer →
      (addressed.inner config plaintext).packet.code = ocPost)

/-- A request that finds its context with a Partial IV that is not in the
window is genuine. -/
def FreshIsGenuine (config : CoapConfig) (decrypt : Decrypt)
    (layer : OscoreLayer) (message : IncomingMessage) : Prop :=
  ∀ addressed piv, oscoreAddress config layer message = .ok addressed →
    addressed.replayPiv = some piv →
    (checkIfReplayedRequest addressed.context.window piv).1 = false →
    addressed.Genuine config decrypt message

section Atomicity

variable {config : CoapConfig} {decrypt : Decrypt} {layer : OscoreLayer}
  {message : IncomingMessage} {addressed : Addressed}

theorem Addressed.process_eq_ok_iff (inner : ParseResult) :
    (∃ packet, addressed.process message inner = .ok packet) ↔
      inner.status = .noError ∧
      (addressed.context.credtype = .oscoreMcastServer →
        inner.packet.code = ocPost) := by
  unfold Addressed.process
  by_cases failed : inner.status = .noError
  · by_cases ignored : addressed.context.credtype = .oscoreMcastServer ∧
        inner.packet.code ≠ ocPost
    · simp [failed, ignored]
    · simp only [failed, ne_eq, not_true_eq_false, if_false, ignored,
        Except.ok.injEq, exists_eq', true_and, true_iff]
      intro server
      by_contra other
      exact ignored ⟨server, other⟩
  · simp [failed]

theorem Addressed.genuine_iff_deliver :
    addressed.Genuine config decrypt message ↔
      ∃ packet, addressed.deliver config decrypt message = .ok packet := by
  unfold Addressed.Genuine Addressed.deliver
  generalize addressed.plaintext decrypt message = decrypted
  cases decrypted with
  | none => simp
  | some plaintext =>
      simp only [Option.some.injEq, exists_eq_left',
        oscoreParseAndProcessInnerMessage, process_eq_ok_iff]

theorem OscoreLayer.findContext_eq_some {test : OscoreContext → Bool}
    {index : Nat} {context : OscoreContext}
    (found : layer.findContext test = some (index, context)) :
    layer.contexts[index]? = some context := by
  simp only [OscoreLayer.findContext, Option.bind_eq_bind,
    Option.bind_eq_some_iff] at found
  obtain ⟨position, -, entry, here, same⟩ := found
  obtain ⟨rfl, rfl⟩ := Prod.mk.inj (Option.some.inj same)
  exact here

theorem oscoreFindContext_eq_some {packet : InPacket} {index : Nat}
    {context : OscoreContext} {requestPiv : Bytes}
    (found : oscoreFindContext layer message packet =
      some ((index, context), requestPiv)) :
    layer.contexts[index]? = some context := by
  unfold oscoreFindContext at found
  split_ifs at found
  · simp only [ocOscoreFindContextByTokenMid, Option.bind_eq_bind,
      Option.bind_eq_some_iff] at found
    obtain ⟨pending, -, entry, here, same⟩ := found
    obtain ⟨rfl, -⟩ := Prod.mk.inj (Option.some.inj same)
    exact OscoreLayer.findContext_eq_some here
  · obtain ⟨entry, here, same⟩ := Option.map_eq_some_iff.mp found
    obtain ⟨rfl, -⟩ := Prod.mk.inj same
    exact OscoreLayer.findContext_eq_some here

theorem oscoreAddress_eq_ok
    (addressing : oscoreAddress config layer message = .ok addressed) :
    layer.contexts[addressed.index]? = some addressed.context := by
  unfold oscoreAddress at addressing
  simp only at addressing
  split_ifs at addressing
  split at addressing
  · cases addressing
  · rename_i found
    split_ifs at addressing
    obtain rfl := Except.ok.inj addressing
    exact oscoreFindContext_eq_some found

theorem OscoreLayer.storeWindow_push_ne (piv : UInt64)
    (present : layer.contexts[addressed.index]? = some addressed.context) :
    layer.storeWindow addressed (addressed.context.window.push piv) ≠
      layer := by
  intro same
  have entry := congrArg (fun layer => layer.contexts[addressed.index]?) same
  simp only [OscoreLayer.storeWindow] at entry
  rw [List.getElem?_set_self (List.getElem?_eq_some_iff.mp present).1, present,
    Option.some.injEq] at entry
  have moved := congrArg (fun context => context.window.index) entry
  exact absurd moved (by simp [Ring.push])

theorem oscoreParseMessage_fresh {piv : UInt64}
    (addressing : oscoreAddress config layer message = .ok addressed)
    (request : addressed.replayPiv = some piv)
    (fresh : (checkIfReplayedRequest addressed.context.window piv).1 =
      false) :
    oscoreParseMessage config decrypt layer message =
      (addressed.deliver config decrypt message,
        layer.storeWindow addressed (addressed.context.window.push piv)) := by
  have stored := checkIfReplayedRequest_snd addressed.context.window piv
  unfold oscoreParseMessage
  rcases result : checkIfReplayedRequest addressed.context.window piv with
    ⟨replayed, window⟩
  rw [result] at fresh stored
  obtain rfl : replayed = false := fresh
  obtain rfl : window = addressed.context.window.push piv := stored
  simp only [addressing, request, result]

theorem oscoreParseMessage_snd_of_not_fresh
    (notFresh : ∀ addressed piv,
      oscoreAddress config layer message = .ok addressed →
      addressed.replayPiv = some piv →
      (checkIfReplayedRequest addressed.context.window piv).1 ≠ false) :
    (oscoreParseMessage config decrypt layer message).2 = layer := by
  unfold oscoreParseMessage
  cases addressing : oscoreAddress config layer message with
  | error answer => rfl
  | ok addressed =>
      cases request : addressed.replayPiv with
      | none => simp [request]
      | some piv =>
          have replayed := notFresh addressed piv addressing request
          rcases result : checkIfReplayedRequest addressed.context.window piv
            with ⟨found, window⟩
          rw [result] at replayed
          obtain rfl : found = true := by simpa using replayed
          simp [request, result]

/-- A rejected message leaves the layer as it was. -/
def KeepsLayer (config : CoapConfig) (decrypt : Decrypt)
    (layer : OscoreLayer) (message : IncomingMessage) : Prop :=
  ∀ answer,
    (ocOscoreRecvMessage config decrypt layer message).1 =
      some (.error answer) →
    (ocOscoreRecvMessage config decrypt layer message).2 = layer

/-- For every layer and message, rejection leaves the layer with all its
replay windows as it was if and only if the message is not an OSCORE request
with a fresh Partial IV, or is a genuine one. -/
theorem keepsLayer_iff (config : CoapConfig) (decrypt : Decrypt)
    (layer : OscoreLayer) (message : IncomingMessage) :
    KeepsLayer config decrypt layer message ↔
      (oscoreIsOscoreMessage config message = true →
        FreshIsGenuine config decrypt layer message) := by
  unfold KeepsLayer ocOscoreRecvMessage
  by_cases isOscore : oscoreIsOscoreMessage config message = true
  · simp only [isOscore, if_true, true_imp_iff, Option.some.injEq]
    constructor
    · intro kept addressed piv addressing request fresh
      rw [oscoreParseMessage_fresh addressing request fresh] at kept
      rw [Addressed.genuine_iff_deliver]
      cases opened : addressed.deliver config decrypt message with
      | ok packet => exact ⟨packet, rfl⟩
      | error answer =>
          have same := kept answer opened
          exact absurd same (OscoreLayer.storeWindow_push_ne piv
            (oscoreAddress_eq_ok addressing))
    · intro genuine answer rejected
      apply oscoreParseMessage_snd_of_not_fresh
      intro addressed piv addressing request fresh
      obtain ⟨packet, opened⟩ := Addressed.genuine_iff_deliver.mp
        (genuine addressed piv addressing request fresh)
      rw [oscoreParseMessage_fresh addressing request fresh, opened]
        at rejected
      cases rejected
  · simp [isOscore]

end Atomicity

section Forgery

private def plainConfig : CoapConfig :=
  ⟨false, true, false, false, false, false, false, false, false, 1024⟩

private def groupless : OscoreLayer where
  contexts := [⟨0, .oscore, [], [2], [1], [], List.replicate 13 0,
    Ring.initial⟩]
  clientCbs := []
  transactions := []
  history := []

/-- A request with Partial IV 5 for key identifier 1; its payload is the inner
code, POST, and a tag. -/
private def requestWithTag (mid lastByte : UInt8) : IncomingMessage where
  data := [0x40, 2, 0, mid, 0x93, 0x09, 5, 1, 0xFF, 2, 0, 0, 0, 0, 0, 0, 0,
    lastByte]
  device := 0
  tcp := false
  multicast := false
  piv := []

private def decryptTagged : Decrypt := fun _ _ _ ciphertext =>
  if ciphertext = [2, 0, 0, 0, 0, 0, 0, 0, 7] then some [2] else none

/-- A forged request moves the window, and the genuine request with the same
Partial IV, which would have been accepted, is rejected after it. -/
theorem forged_request_blocks_genuine :
    (ocOscoreRecvMessage plainConfig decryptTagged groupless
      (requestWithTag 1 0)).1 = some (.error (some badRequest400)) ∧
    ((ocOscoreRecvMessage plainConfig decryptTagged groupless
      (requestWithTag 1 0)).2.contexts.map fun context =>
        (context.window.index, context.window.slots 1)) = [(1, 5)] ∧
    (ocOscoreRecvMessage plainConfig decryptTagged
      (ocOscoreRecvMessage plainConfig decryptTagged groupless
        (requestWithTag 1 0)).2 (requestWithTag 2 7)).1 =
      some (.error (some unauthorized401)) ∧
    (ocOscoreRecvMessage plainConfig decryptTagged groupless
      (requestWithTag 2 7)).1.map Except.isOk = some true := by
  decide +kernel

end Forgery

end IotivityLite
