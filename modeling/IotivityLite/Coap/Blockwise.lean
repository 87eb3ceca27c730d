import IotivityLite.Coap.Serialize

/-!
# Block-wise transfers

The buffers of `oc_blockwise.c` and the block options of a received packet.
An offset counts the bytes from the start of the whole payload; like the
sizes it has 32 bits.
-/

namespace IotivityLite

/-- `OC_BLOCK_SIZE`: a power of two that a block option can name. -/
structure OcBlockSize where
  size : UInt16
  isPower : ∃ szx ≤ 7, size.toNat = 2 ^ (szx + 4)

theorem isPower_512 : ∃ szx ≤ 7, (512 : UInt16).toNat = 2 ^ (szx + 4) :=
  ⟨5, by decide, rfl⟩

/-- `coap_block_options_t` -/
structure CoapBlockOptions where
  num : UInt32
  offset : UInt32
  size : UInt16
  more : UInt8
  enabled : Bool
  deriving DecidableEq, Repr

/-- The size is clamped to the device's, the number and the offset are not. -/
def coapPacketGetBlockOptions (device : OcBlockSize)
    (option : Option BlockOption) : CoapBlockOptions :=
  match option with
  | none => ⟨0, 0, device.size, 0, false⟩
  | some block =>
      ⟨block.num, block.offset, min block.size device.size, block.more, true⟩

/-- A buffer with the payload of a response; `buffer_size` has 32 bits. -/
structure ResponseBuffer where
  payload : Bytes
  nextBlockOffset : UInt32
  length_lt : payload.length < 2 ^ 32

namespace ResponseBuffer

def payloadSize (buffer : ResponseBuffer) : UInt32 :=
  UInt32.ofNat buffer.payload.length

/-- A new buffer that has been filled. -/
def filled (payload : Bytes) (length_lt : payload.length < 2 ^ 32) :
    ResponseBuffer := ⟨payload, 0, length_lt⟩

/-- `oc_blockwise_dispatch_block`: the number of bytes from the offset on. -/
def ocBlockwiseDispatchBlock (buffer : ResponseBuffer)
    (blockOffset requestedBlockSize : UInt32) :
    Option (UInt32 × ResponseBuffer) :=
  if blockOffset < buffer.payloadSize then
    let size :=
      if buffer.payloadSize < requestedBlockSize then buffer.payloadSize
      else min requestedBlockSize (buffer.payloadSize - blockOffset)
    some (size, { buffer with nextBlockOffset := blockOffset + size })
  else none

theorem toNat_payloadSize (buffer : ResponseBuffer) :
    buffer.payloadSize.toNat = buffer.payload.length :=
  UInt32.toNat_ofNat_of_lt' buffer.length_lt

end ResponseBuffer

/-- A buffer that is being filled: the bytes below `next_block_offset`. -/
structure RequestBuffer where
  data : Bytes
  payloadSize : UInt32
  bufferSize : UInt32
  deriving DecidableEq

namespace RequestBuffer

def nextBlockOffset (buffer : RequestBuffer) : UInt32 :=
  UInt32.ofNat buffer.data.length

/-- `oc_blockwise_handle_block`: a block before the next one is accepted and
not looked at. -/
def ocBlockwiseHandleBlock (buffer : RequestBuffer)
    (incomingBlockOffset : UInt32) (incomingBlock : Bytes) :
    Option RequestBuffer :=
  if incomingBlockOffset ≥ buffer.bufferSize ∨
      incomingBlock.length >
        (buffer.bufferSize - incomingBlockOffset).toNat ∨
      incomingBlockOffset > buffer.nextBlockOffset then none
  else if buffer.nextBlockOffset = incomingBlockOffset then
    some { buffer with data := buffer.data ++ incomingBlock }
  else some buffer

end RequestBuffer

end IotivityLite
