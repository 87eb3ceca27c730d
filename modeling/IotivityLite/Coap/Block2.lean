import IotivityLite.Coap.Blockwise
import IotivityLite.Foundation.Run

/-!
# Block2 responses

The server's part of a Block2 transfer: `coap_receive_blockwise_block2`, the
first response of `coap_receive_set_response_by_handler`, and what a
notification or a separate response starts.  The machine follows the one
response buffer of a client, a resource and a query.
-/

namespace IotivityLite

/-- A response with the bytes of the buffered representation from `start` on;
`block2` is the value of its Block2 option. -/
structure Block2Response where
  representation : Bytes
  start : Nat
  length : Nat
  block2 : Option UInt32
  deriving DecidableEq

def Block2Response.bytes (response : Block2Response) : Bytes :=
  (response.representation.drop response.start).take response.length

/-- `coap_options_set_block2` and the value that is serialized. -/
def block2Value (num : UInt32) (more : Bool) (size : UInt16) :
    Option UInt32 :=
  if num > 0xFFFFF ∨ size < 16 ∨ size > 2048 then none
  else some (coapOptionsBlockEncode num (if more then 1 else 0) size)

/-- The handler gives a payload, or a response without one. -/
inductive Representation where
  | absent
  | payload (bytes : Bytes) (length_lt : bytes.length < 2 ^ 32)

/-- A request with the value of its Block2 option. -/
structure Block2Request where
  block2 : Option UInt32
  hasPayload : Bool
  multicast : Bool
  representation : Representation

/-- `announce` is a notification or a separate response to a request with the
given option. -/
inductive Block2Event where
  | get (request : Block2Request)
  | announce (block2 : Option UInt32) (payload : Bytes)
      (length_lt : payload.length < 2 ^ 32)
  | timeout

section Block2

variable (device : OcBlockSize)

def blockOptions (value : Option UInt32) : CoapBlockOptions :=
  coapPacketGetBlockOptions device (value.map coapOptionsBlockDecode)

/-- The first block of a buffer, and what is left for the next ones. -/
def firstBlock (buffer : ResponseBuffer) (size : UInt16) :
    Nat × ResponseBuffer :=
  match buffer.ocBlockwiseDispatchBlock 0 size.toUInt32 with
  | none => (0, buffer)
  | some (length, buffer) => (length.toNat, buffer)

/-- `coap_receive_set_response_by_handler` for datagrams.  The buffer is kept
if there is a Block2 option. -/
def coapReceiveSetResponseByHandler (block : CoapBlockOptions) :
    Representation → Option ResponseBuffer × Option Block2Response
  | .absent => (none, none)
  | .payload payload length_lt =>
      let buffer := ResponseBuffer.filled payload length_lt
      let (length, left) := firstBlock buffer block.size
      let larger := block.size.toUInt32 < buffer.payloadSize
      if block.enabled ∨ larger then
        (some left,
          some ⟨payload, 0, length, block2Value 0 larger block.size⟩)
      else (none, some ⟨payload, 0, length, none⟩)

/-- `coap_receive_blockwise_block2` for a buffer that is there.  The
difference of the offsets wraps around. -/
def continueTransfer (buffer : ResponseBuffer) (block : CoapBlockOptions) :
    Option ResponseBuffer × Option Block2Response :=
  if buffer.nextBlockOffset - block.offset > block.size.toUInt32 then
    (some buffer, none)
  else match buffer.ocBlockwiseDispatchBlock block.offset
      block.size.toUInt32 with
    | none => (none, none)
    | some (length, left) =>
        let more := left.nextBlockOffset < left.payloadSize
        (if more then some left else none,
          some ⟨buffer.payload, block.offset.toNat, length.toNat,
            block2Value block.num more block.size⟩)

def coapReceiveBlockwiseBlock2 (state : Option ResponseBuffer)
    (block : CoapBlockOptions) (request : Block2Request) :
    Option ResponseBuffer × Option Block2Response :=
  if request.hasPayload then (state, none)
  else match state with
    | some buffer => continueTransfer buffer block
    | none =>
        if block.num ≠ 0 then (none, none)
        else coapReceiveSetResponseByHandler block request.representation

/-- A repeated multicast request does not end a transfer. -/
def coapReceiveMethodPayload (state : Option ResponseBuffer)
    (request : Block2Request) :
    Option ResponseBuffer × Option Block2Response :=
  let block := blockOptions device request.block2
  if block.enabled then coapReceiveBlockwiseBlock2 state block request
  else if request.multicast ∧ state.any fun buffer =>
      buffer.nextBlockOffset < buffer.payloadSize then (state, none)
  else coapReceiveSetResponseByHandler block request.representation

/-- `coap_prepare_notification_blockwise`, and the same in
`handle_separate_response_request`. -/
def announceTransfer (state : Option ResponseBuffer) (size : UInt16)
    (payload : Bytes) (length_lt : payload.length < 2 ^ 32) :
    Option ResponseBuffer × Option Block2Response :=
  let buffer := ResponseBuffer.filled payload length_lt
  if buffer.payloadSize > size.toUInt32 then
    if state.any fun running =>
        running.payloadSize != running.nextBlockOffset then (state, none)
    else
      let (length, left) := firstBlock buffer size
      (some left, some ⟨payload, 0, length, block2Value 0 true size⟩)
  else (state, some ⟨payload, 0, payload.length, none⟩)

def block2Step (state : Option ResponseBuffer) :
    Block2Event → Option ResponseBuffer × Option Block2Response
  | .get request => coapReceiveMethodPayload device state request
  | .announce block2 payload length_lt =>
      announceTransfer state (blockOptions device block2).size payload
        length_lt
  | .timeout => (none, none)

/-- The responses of a run. -/
def block2Responses (events : List Block2Event) : List Block2Response :=
  runOutputs (fun state event => (block2Step device state event).1)
    (fun state event => (block2Step device state event).2) none events

end Block2

end IotivityLite
