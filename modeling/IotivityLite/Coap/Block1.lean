import IotivityLite.Coap.Blockwise
import IotivityLite.Foundation.Run

/-!
# Block1 requests

The server's part of a Block1 transfer, `coap_receive_blockwise_block1`, and of
a request without block options.  The machine follows the one request buffer
of a client, a method, a resource and a query.  Beside the code's own state it
notes the transfer that the buffer was created for.
-/

namespace IotivityLite

/-- `bufferSize` is the size of the buffer that is allocated where a certain
size is asked for. -/
structure Block1Env where
  device : OcBlockSize
  maxAppDataSize : UInt32
  bufferSize : UInt32 → UInt32

/-- A request with the value of its Block1 option; `alloc` tells if there is
memory for a buffer. -/
structure Block1Request where
  block1 : UInt32
  payload : Bytes
  size1 : Option UInt32
  alloc : Bool

/-- A payload that is sent in blocks of one size. -/
structure Transfer where
  payload : Bytes
  szx : Nat
  deriving DecidableEq

def Transfer.size (transfer : Transfer) : Nat := 2 ^ (transfer.szx + 4)

/-- A block of a transfer.  The first one is there even if it is empty. -/
structure TransferBlock where
  transfer : Transfer
  num : Nat
  szx_le : transfer.szx ≤ 7
  num_le : num ≤ 0xFFFFF
  inside : num = 0 ∨ num * transfer.size < transfer.payload.length

namespace TransferBlock

def offset (block : TransferBlock) : Nat :=
  block.num * block.transfer.size

def more (block : TransferBlock) : Bool :=
  (block.num + 1) * block.transfer.size < block.transfer.payload.length

def bytes (block : TransferBlock) : Bytes :=
  (block.transfer.payload.drop block.offset).take block.transfer.size

/-- The request that carries the block. -/
def request (block : TransferBlock) (size1 : Option UInt32) (alloc : Bool) :
    Block1Request where
  block1 := coapOptionsBlockEncode (UInt32.ofNat block.num)
    (if block.more then 1 else 0) (UInt16.ofNat block.transfer.size)
  payload := block.bytes
  size1 := size1
  alloc := alloc

end TransferBlock

inductive Block1Event where
  | block (block : TransferBlock) (size1 : Option UInt32) (alloc : Bool)
  | plain (payload : Bytes) (size1 : Option UInt32) (alloc : Bool)
  | timeout

structure Block1State where
  buffer : Option RequestBuffer
  owner : Option Transfer

section Block1

variable (env : Block1Env)

def Block1Env.allocRequestBuffer (size1 : Option UInt32) (alloc : Bool) :
    Option RequestBuffer :=
  let size := match size1 with
    | none => env.maxAppDataSize
    | some size => if size = 0 then env.maxAppDataSize else size
  if alloc then some ⟨[], 0, env.bufferSize size⟩ else none

/-- A finished buffer is dropped, unless this was its last block. -/
def keptBuffer (buffer : Option RequestBuffer) (length offset : UInt32) :
    Option RequestBuffer :=
  buffer.filter fun buffer =>
    !(buffer.payloadSize == buffer.nextBlockOffset &&
      buffer.nextBlockOffset - length != offset)

/-- The buffer that a block goes into; the first block gets a new one. -/
def Block1Env.bufferForBlock (buffer : Option RequestBuffer)
    (block : CoapBlockOptions) (request : Block1Request) :
    Option RequestBuffer :=
  (keptBuffer buffer (UInt32.ofNat request.payload.length) block.offset).or
    (if block.num = 0 then env.allocRequestBuffer request.size1 request.alloc
    else none)

/-- The buffer after the request, and the payload that the handler is called
with.  After an error the buffer is freed, and after the handler has run. -/
def coapReceiveBlockwiseBlock1 (buffer : Option RequestBuffer)
    (request : Block1Request) : Option RequestBuffer × Option Bytes :=
  let block := coapPacketGetBlockOptions env.device
    (some (coapOptionsBlockDecode request.block1))
  let length := UInt32.ofNat request.payload.length
  match env.bufferForBlock buffer block request with
  | none => (none, none)
  | some buffer =>
      match buffer.ocBlockwiseHandleBlock block.offset
          (request.payload.take (min length.toUInt16 block.size).toNat) with
      | none => (none, none)
      | some buffer =>
          if block.more ≠ 0 then (some buffer, none)
          else (none, some buffer.data)

/-- A request without block options replaces a buffer, if it has a payload. -/
def coapReceivePlain (buffer : Option RequestBuffer) (payload : Bytes)
    (size1 : Option UInt32) (alloc : Bool) :
    Option RequestBuffer × Option Bytes :=
  if payload.length > env.device.size.toNat then (buffer, none)
  else if payload = [] then (buffer, some [])
  else match env.allocRequestBuffer size1 alloc with
    | none => (none, none)
    | some buffer =>
        match buffer.ocBlockwiseHandleBlock 0 payload with
        | none => (none, none)
        | some buffer => (none, some buffer.data)

/-- The payload with which the handler is called, if it is, and that of the
request. -/
def block1Output (state : Block1State) : Block1Event → Option (Bytes × Bytes)
  | .block block size1 alloc =>
      (coapReceiveBlockwiseBlock1 env state.buffer
        (block.request size1 alloc)).2.map (·, block.transfer.payload)
  | .plain payload size1 alloc =>
      (coapReceivePlain env state.buffer payload size1 alloc).2.map
        (·, payload)
  | .timeout => none

/-- A buffer that was there before keeps its owner. -/
def block1Step (state : Block1State) : Block1Event → Block1State
  | .block block size1 alloc =>
      let request := block.request size1 alloc
      let kept := keptBuffer state.buffer
        (UInt32.ofNat request.payload.length)
        (coapOptionsBlockDecode request.block1).offset
      ⟨(coapReceiveBlockwiseBlock1 env state.buffer request).1,
        if kept.isSome then state.owner else some block.transfer⟩
  | .plain payload size1 alloc =>
      { state with
        buffer := (coapReceivePlain env state.buffer payload size1 alloc).1 }
  | .timeout => { state with buffer := none }

/-- What the handler is called with in a run, beside what was sent. -/
def handedPayloads (events : List Block1Event) : List (Bytes × Bytes) :=
  runOutputs (block1Step env) (block1Output env) ⟨none, none⟩ events

end Block1

end IotivityLite
