import IotivityLite.Coap.Block2Labels

/-!
# Blocks of a payload that is sent

`oc_blockwise_dispatch_block` cuts a block out of a payload, of a response or
of a client's request.  Where the whole payload is smaller than a block it
answers with the size of the whole payload, whatever the offset.  The callers
ask for an offset that is zero or not below the size of a block, and from
there the block ends with the payload at the latest.
-/

namespace IotivityLite

/-- Where a block is dispatched, with what the caller has received: the value
of a block option or of a Size1 option, or a size that was noted before. -/
inductive DispatchSite where
  | nextResponseBlock (block2 : UInt32)
  | firstResponseBlock (block2 : Option UInt32)
  | responseOverTcp
  | separateResponse (block2Size : UInt16)
  | notification (block2Size : UInt16)
  | firstRequestBlock
  | nextRequestBlock (block1 : UInt32)
  | rejectedRequest (size1 : Option UInt32)

/-- The offset and the size that the caller asks for. -/
def DispatchSite.arguments (device : OcBlockSize) (buffer : ResponseBuffer) :
    DispatchSite → UInt32 × UInt32
  -- `coap_receive_blockwise_block2`
  | .nextResponseBlock block2 =>
      let block := blockOptions device (some block2)
      (block.offset, block.size.toUInt32)
  -- `coap_receive_set_response_by_handler`
  | .firstResponseBlock block2 =>
      (0, (blockOptions device block2).size.toUInt32)
  | .responseOverTcp => (0, buffer.payloadSize + 1)
  -- `handle_separate_response_request`
  | .separateResponse block2Size => (0, block2Size.toUInt32)
  -- `coap_prepare_notification_blockwise`
  | .notification block2Size => (0, block2Size.toUInt32)
  -- `dispatch_coap_request_set_payload`
  | .firstRequestBlock => (0, device.size.toUInt32)
  -- `coap_receive_request_with_code`, with a Block1 option or after a 4.13
  | .nextRequestBlock block1 =>
      let block := blockOptions device (some block1)
      (block.offset + block.size.toUInt32, block.size.toUInt32)
  | .rejectedRequest none => (0, device.size.toUInt32)
  | .rejectedRequest (some peerMtu) =>
      (0, (min peerMtu.toUInt16 device.size).toUInt32)

namespace ResponseBuffer

/-- The block that a caller gets: its offset and its size. -/
def dispatchAt (buffer : ResponseBuffer) (offset size : UInt32) :
    Option (UInt32 × UInt32) :=
  (buffer.ocBlockwiseDispatchBlock offset size).map fun result =>
    (offset, result.1)

/-- At most `count` blocks, each from where the previous one ended. -/
def dispatches (size : UInt32) :
    Nat → ResponseBuffer → UInt32 → List (UInt32 × UInt32)
  | 0, _, _ => []
  | count + 1, buffer, offset =>
      match buffer.ocBlockwiseDispatchBlock offset size with
      | none => []
      | some (length, left) =>
          (offset, length) ::
            dispatches size count left left.nextBlockOffset

/-- The bytes of a block. -/
def slice (buffer : ResponseBuffer) (block : UInt32 × UInt32) : Bytes :=
  (buffer.payload.drop block.1.toNat).take block.2.toNat

end ResponseBuffer

/-- Blocks that follow each other from `start` on, none of them empty. -/
def Consecutive : Nat → List (UInt32 × UInt32) → Prop
  | _, [] => True
  | start, block :: blocks =>
      block.1.toNat = start ∧ 0 < block.2.toNat ∧
        Consecutive (start + block.2.toNat) blocks

/-- The number of blocks of a payload, the last one included. -/
def blockCount (length size : Nat) : Nat := (length + size - 1) / size

/-- An offset from which a block does not reach over the end. -/
def Aligned (offset size : UInt32) : Prop := offset = 0 ∨ size ≤ offset

theorem dispatchedLength_of_aligned {length : Nat} {offset size : UInt32}
    (aligned : Aligned offset size) (inside : offset.toNat < length) :
    dispatchedLength length offset.toNat size.toNat =
      min size.toNat (length - offset.toNat) := by
  unfold dispatchedLength
  split_ifs with short
  · rcases aligned with rfl | above
    · simp
      omega
    · have := UInt32.le_iff_toNat_le.mp above
      omega
  · rfl

section Options

variable (device : OcBlockSize) (value : UInt32)

theorem blockOptions_size_le :
    (blockOptions device (some value)).size.toNat ≤
      (coapOptionsBlockDecode value).size.toNat := by
  change (min (coapOptionsBlockDecode value).size device.size).toNat ≤ _
  by_cases fits : (coapOptionsBlockDecode value).size ≤ device.size
  · rw [show min _ device.size = _ from if_pos fits]
  · rw [show min _ device.size = _ from if_neg fits]
    exact UInt16.le_iff_toNat_le.mp (UInt16.le_of_lt (UInt16.not_le.mp fits))

theorem size_dvd_offset :
    (coapOptionsBlockDecode value).size.toNat ∣
      (coapOptionsBlockDecode value).offset.toNat := by
  have exponent : value.toNat % 8 < 8 := Nat.mod_lt _ (by decide)
  rw [toNat_coapOptionsBlockDecode_size, toNat_coapOptionsBlockDecode_offset]
  apply (Nat.dvd_mod_iff _).mpr
  · rw [Nat.pow_add, Nat.mul_comm, Nat.mul_assoc]
    exact Nat.dvd_mul_left _ _
  · exact Nat.pow_dvd_pow 2 (by omega)

theorem aligned_offset :
    Aligned (blockOptions device (some value)).offset
      (blockOptions device (some value)).size.toUInt32 := by
  by_cases zero : (coapOptionsBlockDecode value).offset = 0
  · exact .inl zero
  · right
    rw [UInt32.le_iff_toNat_le, UInt16.toNat_toUInt32]
    apply (blockOptions_size_le device value).trans
    apply Nat.le_of_dvd
    · apply Nat.pos_of_ne_zero
      intro none
      exact zero (UInt32.toNat_inj.mp none)
    · exact size_dvd_offset value

theorem aligned_next_offset :
    Aligned ((blockOptions device (some value)).offset +
        (blockOptions device (some value)).size.toUInt32)
      (blockOptions device (some value)).size.toUInt32 := by
  change Aligned ((coapOptionsBlockDecode value).offset + _) _
  have small := blockOptions_size_le device value
  have bounded := (coapOptionsBlockDecode value).offset.toNat_lt
  have last : (coapOptionsBlockDecode value).size.toNat ≤
      2 ^ 32 - (coapOptionsBlockDecode value).offset.toNat := by
    apply Nat.le_of_dvd (by omega)
    apply Nat.dvd_sub _ (size_dvd_offset value)
    rw [toNat_coapOptionsBlockDecode_size]
    have exponent : value.toNat % 8 < 8 := Nat.mod_lt _ (by decide)
    exact Nat.pow_dvd_pow 2 (by omega)
  have sum := UInt32.toNat_add (coapOptionsBlockDecode value).offset
    (blockOptions device (some value)).size.toUInt32
  rw [UInt16.toNat_toUInt32] at sum
  by_cases wraps : (coapOptionsBlockDecode value).offset.toNat +
      (blockOptions device (some value)).size.toNat = 2 ^ 32
  · left
    apply UInt32.toNat_inj.mp
    rw [sum, wraps, Nat.mod_self]
    rfl
  · right
    rw [UInt32.le_iff_toNat_le, sum, UInt16.toNat_toUInt32,
      Nat.mod_eq_of_lt (by omega)]
    exact Nat.le_add_left _ _

end Options

theorem DispatchSite.aligned (device : OcBlockSize) (buffer : ResponseBuffer)
    (site : DispatchSite) :
    Aligned (site.arguments device buffer).1
      (site.arguments device buffer).2 := by
  cases site with
  | nextResponseBlock block2 => exact aligned_offset device block2
  | nextRequestBlock block1 => exact aligned_next_offset device block1
  | firstResponseBlock | responseOverTcp | separateResponse | notification
  | firstRequestBlock => exact .inl rfl
  | rejectedRequest size1 => cases size1 <;> exact .inl rfl

namespace ResponseBuffer

variable {buffer : ResponseBuffer} {offset size : UInt32}

theorem dispatchBlock_of_aligned (aligned : Aligned offset size)
    (inside : offset.toNat < buffer.payload.length) :
    ∃ length left, buffer.ocBlockwiseDispatchBlock offset size =
        some (length, left) ∧
      length.toNat = min size.toNat
        (buffer.payload.length - offset.toNat) ∧
      left.payload = buffer.payload ∧
      left.nextBlockOffset.toNat = offset.toNat + length.toNat := by
  rcases dispatched : buffer.ocBlockwiseDispatchBlock offset size with
    - | ⟨length, left⟩
  · unfold ocBlockwiseDispatchBlock at dispatched
    rw [if_pos] at dispatched
    · cases dispatched
    · rw [UInt32.lt_iff_toNat_lt, buffer.toNat_payloadSize]
      exact inside
  · obtain ⟨-, lengthEq, payloadEq, nextEq⟩ :=
      ocBlockwiseDispatchBlock_eq_some dispatched
    rw [dispatchedLength_of_aligned aligned inside] at lengthEq
    refine ⟨length, left, rfl, lengthEq, payloadEq, ?_⟩
    have bounded := buffer.length_lt
    rw [nextEq, UInt32.toNat_add, Nat.mod_eq_of_lt (by omega)]

theorem dispatchBlock_of_le (outside : buffer.payload.length ≤ offset.toNat) :
    buffer.ocBlockwiseDispatchBlock offset size = none := by
  unfold ocBlockwiseDispatchBlock
  rw [if_neg]
  rw [UInt32.lt_iff_toNat_lt, buffer.toNat_payloadSize]
  omega

theorem dispatchAt_inside (aligned : Aligned offset size)
    {block : UInt32 × UInt32}
    (dispatched : buffer.dispatchAt offset size = some block) :
    block.1.toNat + block.2.toNat ≤ buffer.payloadSize.toNat := by
  rw [toNat_payloadSize]
  by_cases inside : offset.toNat < buffer.payload.length
  · obtain ⟨length, left, result, lengthEq, -, -⟩ :=
      dispatchBlock_of_aligned aligned inside
    rw [dispatchAt, result] at dispatched
    obtain rfl := Option.some.inj dispatched
    dsimp only
    omega
  · rw [dispatchAt, dispatchBlock_of_le (Nat.le_of_not_lt inside)]
      at dispatched
    cases dispatched

end ResponseBuffer

theorem blockCount_zero {size : Nat} (positive : 0 < size) :
    blockCount 0 size = 0 := by
  apply Nat.div_eq_of_lt
  omega

theorem blockCount_succ {length size : Nat} (positive : 0 < size)
    (some : 0 < length) :
    blockCount length size =
      blockCount (length - min size length) size + 1 := by
  unfold blockCount
  rcases Nat.le_total size length with whole | short
  · rw [Nat.min_eq_left whole, ← Nat.add_div_right _ positive]
    congr 1
    omega
  · rw [Nat.min_eq_right short, Nat.sub_self, ← Nat.add_div_right _ positive]
    rw [Nat.div_eq_of_lt_le (by omega : 1 * size ≤ _) (by omega),
      Nat.div_eq_of_lt_le (by omega : 1 * size ≤ _) (by omega)]

namespace ResponseBuffer

variable {buffer : ResponseBuffer} {offset size : UInt32}

/-- The blocks that should be sent from `start` on. -/
structure Covers (buffer : ResponseBuffer) (size : UInt32) (start : Nat)
    (blocks : List (UInt32 × UInt32)) : Prop where
  consecutive : Consecutive start blocks
  length_eq : blocks.length =
    blockCount (buffer.payload.length - start) size.toNat
  flatten_eq : (blocks.map buffer.slice).flatten = buffer.payload.drop start

theorem covers_nil (positive : 0 < size) {start : Nat}
    (outside : buffer.payload.length ≤ start) :
    buffer.Covers size start [] := by
  refine ⟨trivial, ?_, ?_⟩
  · rw [Nat.sub_eq_zero_of_le outside,
      blockCount_zero (UInt32.lt_iff_toNat_lt.mp positive)]
    rfl
  · rw [List.drop_eq_nil_of_le outside]
    rfl

theorem Covers.cons (positive : 0 < size) {length : UInt32}
    {blocks : List (UInt32 × UInt32)}
    (inside : offset.toNat < buffer.payload.length)
    (lengthEq : length.toNat =
      min size.toNat (buffer.payload.length - offset.toNat))
    (rest : buffer.Covers size (offset.toNat + length.toNat) blocks) :
    buffer.Covers size offset.toNat ((offset, length) :: blocks) := by
  have positive := UInt32.lt_iff_toNat_lt.mp positive
  refine ⟨⟨rfl, ?_, rest.consecutive⟩, ?_, ?_⟩
  · rw [lengthEq]
    exact lt_min positive (by omega)
  · rw [List.length_cons, rest.length_eq, ← Nat.sub_sub, lengthEq,
      ← blockCount_succ positive (by omega)]
  · rw [List.map_cons, List.flatten_cons, rest.flatten_eq, ← List.drop_drop]
    exact List.take_append_drop _ _

theorem Covers.of_payload_eq {other : ResponseBuffer} {start : Nat}
    {blocks : List (UInt32 × UInt32)} (covers : other.Covers size start blocks)
    (same : other.payload = buffer.payload) :
    buffer.Covers size start blocks := by
  obtain ⟨consecutive, length_eq, flatten_eq⟩ := covers
  have slices : other.slice = buffer.slice := by
    funext block
    rw [slice, slice, same]
  rw [same] at length_eq flatten_eq
  rw [slices] at flatten_eq
  exact ⟨consecutive, length_eq, flatten_eq⟩

theorem dispatches_covers (positive : 0 < size) (count : Nat)
    (aligned : Aligned offset size ∨ buffer.payload.length ≤ offset.toNat)
    (enough : blockCount (buffer.payload.length - offset.toNat)
      size.toNat ≤ count) :
    buffer.Covers size offset.toNat
      (dispatches size count buffer offset) := by
  have sizePos := UInt32.lt_iff_toNat_lt.mp positive
  induction count generalizing buffer offset with
  | zero =>
      apply covers_nil positive
      by_contra inside
      rw [blockCount_succ sizePos (by omega)] at enough
      omega
  | succ count ih =>
      by_cases inside : offset.toNat < buffer.payload.length
      · have here : Aligned offset size := aligned.resolve_right (by omega)
        obtain ⟨length, left, result, lengthEq, payloadEq, nextEq⟩ :=
          dispatchBlock_of_aligned here inside
        rw [dispatches, result]
        apply Covers.cons positive inside lengthEq
        have rest := @ih left left.nextBlockOffset ?_ ?_
        · rw [nextEq] at rest
          exact rest.of_payload_eq payloadEq
        · rw [payloadEq, nextEq]
          rcases Nat.le_total size.toNat
            (buffer.payload.length - offset.toNat) with whole | short
          · left; right
            rw [UInt32.le_iff_toNat_le, nextEq, lengthEq]
            omega
          · right
            omega
        · rw [payloadEq, nextEq, ← Nat.sub_sub, lengthEq]
          rw [blockCount_succ sizePos (by omega)] at enough
          omega
      · have outside := Nat.le_of_not_lt inside
        rw [dispatches, dispatchBlock_of_le outside]
        exact covers_nil positive outside

end ResponseBuffer

/-- Every block that a caller gets lies inside the payload.  Blocks of one
size from the start on follow each other, make up the payload, and end after
as many as the payload has. -/
theorem dispatch_inside_payload (device : OcBlockSize)
    (buffer : ResponseBuffer) :
    (∀ (site : DispatchSite) (block : UInt32 × UInt32),
        buffer.dispatchAt (site.arguments device buffer).1
          (site.arguments device buffer).2 = some block →
        block.1 = (site.arguments device buffer).1 ∧
          block.1.toNat + block.2.toNat ≤ buffer.payloadSize.toNat) ∧
      ∀ size : UInt32, 0 < size → ∀ count,
        blockCount buffer.payloadSize.toNat size.toNat ≤ count →
        Consecutive 0 (buffer.dispatches size count 0) ∧
          (buffer.dispatches size count 0).length =
            blockCount buffer.payloadSize.toNat size.toNat ∧
          ((buffer.dispatches size count 0).map buffer.slice).flatten =
            buffer.payload := by
  refine ⟨?_, ?_⟩
  · intro site block dispatched
    refine ⟨?_, ResponseBuffer.dispatchAt_inside
      (site.aligned device buffer) dispatched⟩
    obtain ⟨result, -, rfl⟩ := Option.map_eq_some_iff.mp dispatched
    rfl
  · intro size positive count enough
    rw [buffer.toNat_payloadSize] at enough ⊢
    obtain ⟨consecutive, length_eq, flatten_eq⟩ :=
      @ResponseBuffer.dispatches_covers buffer 0 size positive count
        (.inl (.inl rfl)) enough
    exact ⟨consecutive, length_eq, flatten_eq⟩

/-- Forty bytes in blocks of sixteen. -/
theorem dispatch_inside_payload_forty :
    let buffer := ResponseBuffer.filled (List.replicate 40 7) (by decide)
    (buffer.dispatches 16 5 0).length = 3 ∧
      ((buffer.dispatches 16 5 0).map buffer.slice).flatten =
        List.replicate 40 7 := by
  intro buffer
  obtain ⟨-, count, whole⟩ :=
    (dispatch_inside_payload ⟨512, isPower_512⟩ buffer).2 16 (by decide) 5
      (by decide)
  exact ⟨count.trans (by decide), whole⟩

end IotivityLite
