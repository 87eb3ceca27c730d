import IotivityLite.Coap.Block1
import IotivityLite.Coap.OptionCodec

/-!
# The payload of a Block1 transfer

The handler should be called with the payload that was sent, in full.  Blocks
are matched with a buffer by their offset only, so the buffer of a transfer
that was given up takes in the blocks of the next one.
-/

namespace IotivityLite

/-- The handler is called with what was sent in full. -/
def HandedInFull (handed : List (Bytes × Bytes)) : Prop :=
  ∀ payloads ∈ handed, payloads.1 = payloads.2

/-- A block does not fit into a buffer of another transfer, and a last block is
not cut short. -/
structure SingleTransfer (env : Block1Env) (state : Block1State)
    (block : TransferBlock) : Prop where
  apart : ∀ buffer, state.buffer = some buffer →
    state.owner ≠ some block.transfer → buffer.data.length < block.offset
  whole : block.more = false →
    block.bytes.length ≤ env.device.size.toNat

def OneTransferAtATime (env : Block1Env) (state : Block1State) :
    Block1Event → Prop
  | .block block _ _ => SingleTransfer env state block
  | _ => True

namespace TransferBlock

variable (block : TransferBlock)

theorem size_pos : 0 < block.transfer.size := Nat.two_pow_pos _

theorem size_le : block.transfer.size ≤ 2048 :=
  Nat.pow_le_pow_right (by decide) (by have := block.szx_le; omega :
    block.transfer.szx + 4 ≤ 11)

theorem toNat_size : (UInt16.ofNat block.transfer.size).toNat =
    block.transfer.size := by
  have small := block.size_le
  exact UInt16.toNat_ofNat_of_lt' (by
    rw [show UInt16.size = 65536 from rfl]
    omega)

theorem offset_lt : block.offset < 2 ^ 32 := by
  calc block.offset ≤ 0xFFFFF * 2048 :=
        Nat.mul_le_mul block.num_le block.size_le
    _ < 2 ^ 32 := by decide

theorem decode_request (size1 : Option UInt32) (alloc : Bool) :
    coapOptionsBlockDecode (block.request size1 alloc).block1 =
      ⟨UInt32.ofNat block.num, if block.more then 1 else 0,
        UInt16.ofNat block.transfer.size, UInt32.ofNat block.offset⟩ := by
  have num : (UInt32.ofNat block.num).toNat = block.num := by
    apply UInt32.toNat_ofNat_of_lt'
    have := block.num_le
    rw [show UInt32.size = 4294967296 from rfl]
    omega
  have bounded : (UInt32.ofNat block.num).toNat ≤ 0xFFFFF := by
    rw [num]
    exact block.num_le
  have decoded := @coapOptionsBlockDecode_encode
    ⟨UInt32.ofNat block.num, if block.more then 1 else 0,
      UInt16.ofNat block.transfer.size, UInt32.ofNat block.offset⟩ bounded
    ⟨⟨block.transfer.szx, block.szx_le, block.toNat_size⟩,
      by cases block.more <;> simp, by
        dsimp only
        rw [num, block.toNat_size]
        exact UInt32.toNat_ofNat_of_lt' block.offset_lt⟩
  exact decoded

theorem length_bytes : block.bytes.length =
    min block.transfer.size
      (block.transfer.payload.length - block.offset) := by
  rw [bytes, List.length_take, List.length_drop]

theorem of_more (more : block.more = true) :
    block.bytes.length = block.transfer.size ∧
      block.offset + block.transfer.size <
        block.transfer.payload.length := by
  have ends : (block.num + 1) * block.transfer.size <
      block.transfer.payload.length := by simpa [TransferBlock.more] using more
  rw [Nat.succ_mul] at ends
  refine ⟨?_, ends⟩
  rw [length_bytes]
  unfold offset
  omega

theorem bytes_of_last (last : block.more = false) :
    block.bytes = block.transfer.payload.drop block.offset := by
  have ends : block.transfer.payload.length ≤
      (block.num + 1) * block.transfer.size := by
    simpa [TransferBlock.more] using last
  rw [Nat.succ_mul] at ends
  rw [bytes, List.take_of_length_le]
  rw [List.length_drop]
  unfold offset
  omega

end TransferBlock

/-- The buffer has the first bytes of the transfer's payload, and ends before
one of its blocks. -/
structure PartOf (buffer : RequestBuffer) (transfer : Transfer) : Prop where
  taken : buffer.data = transfer.payload.take buffer.data.length
  fits : buffer.data.length ≤ buffer.bufferSize.toNat
  unfinished : ∃ blocks, buffer.data.length ≤ blocks * transfer.size ∧
    (blocks = 0 ∨ blocks * transfer.size < transfer.payload.length)
  payloadSize_eq : buffer.payloadSize = 0

theorem ocBlockwiseHandleBlock_eq_some {buffer left : RequestBuffer}
    {offset : UInt32} {incoming : Bytes}
    (fits : buffer.data.length ≤ buffer.bufferSize.toNat)
    (handled : buffer.ocBlockwiseHandleBlock offset incoming = some left) :
    (offset.toNat = buffer.data.length ∧
        left = { buffer with data := buffer.data ++ incoming } ∧
        left.data.length ≤ left.bufferSize.toNat) ∨
      (offset.toNat < buffer.data.length ∧ left = buffer) := by
  have next : buffer.nextBlockOffset.toNat = buffer.data.length := by
    apply UInt32.toNat_ofNat_of_lt'
    exact Nat.lt_of_le_of_lt fits buffer.bufferSize.toNat_lt
  unfold RequestBuffer.ocBlockwiseHandleBlock at handled
  split_ifs at handled with refused same
  · left
    rw [not_or, not_or] at refused
    obtain ⟨below, short, -⟩ := refused
    have start : offset.toNat = buffer.data.length := by rw [← same, next]
    have left_eq := Option.some.inj handled
    refine ⟨start, left_eq.symm, ?_⟩
    rw [← left_eq]
    rw [ge_iff_le, UInt32.not_le, UInt32.lt_iff_toNat_lt] at below
    rw [UInt32.toNat_sub_of_le _ _ (UInt32.le_of_lt
      (UInt32.lt_iff_toNat_lt.mpr below))] at short
    dsimp only
    rw [List.length_append]
    omega
  · right
    rw [not_or, not_or] at refused
    obtain ⟨-, -, reached⟩ := refused
    rw [gt_iff_lt, UInt32.lt_iff_toNat_lt, next] at reached
    refine ⟨?_, (Option.some.inj handled).symm⟩
    apply Nat.lt_of_le_of_ne (Nat.le_of_not_lt reached)
    intro start
    exact same (UInt32.toNat_inj.mp (by rw [next, start]))

namespace PartOf

variable {buffer left : RequestBuffer} {block : TransferBlock} {length : Nat}

theorem handle_more (part : PartOf buffer block.transfer)
    (more : block.more = true) (positive : 0 < length)
    (handled : buffer.ocBlockwiseHandleBlock (UInt32.ofNat block.offset)
      (block.bytes.take length) = some left) :
    PartOf left block.transfer ∧ 0 < left.data.length := by
  obtain ⟨full, inside⟩ := block.of_more more
  rcases ocBlockwiseHandleBlock_eq_some part.fits handled with
    ⟨start, left_eq, fits⟩ | ⟨start, left_eq⟩
  · rw [UInt32.toNat_ofNat_of_lt' block.offset_lt] at start
    have added : left.data.length =
        block.offset + min length block.transfer.size := by
      rw [left_eq]
      dsimp only
      rw [List.length_append, List.length_take, full, start]
    refine ⟨⟨?_, fits, ⟨block.num + 1, ?_, Or.inr ?_⟩, ?_⟩, ?_⟩
    · rw [added, List.take_add, left_eq]
      dsimp only
      rw [part.taken, ← start, TransferBlock.bytes, List.take_take]
    · rw [added, Nat.succ_mul]
      exact Nat.add_le_add_left (Nat.min_le_right _ _) _
    · rw [Nat.succ_mul]
      exact inside
    · rw [left_eq]
      exact part.payloadSize_eq
    · have := block.size_pos
      omega
  · rw [left_eq]
    exact ⟨part, by omega⟩

theorem handle_last (part : PartOf buffer block.transfer)
    (last : block.more = false) (whole : block.bytes.length ≤ length)
    (handled : buffer.ocBlockwiseHandleBlock (UInt32.ofNat block.offset)
      (block.bytes.take length) = some left) :
    left.data = block.transfer.payload := by
  rcases ocBlockwiseHandleBlock_eq_some part.fits handled with
    ⟨start, left_eq, -⟩ | ⟨start, -⟩
  · rw [UInt32.toNat_ofNat_of_lt' block.offset_lt] at start
    rw [left_eq]
    dsimp only
    rw [List.take_of_length_le whole, block.bytes_of_last last, part.taken,
      start, List.take_append_drop]
  · -- The buffer ends before a block, so it cannot reach into the last one.
    exfalso
    rw [UInt32.toNat_ofNat_of_lt' block.offset_lt] at start
    have ends : block.transfer.payload.length ≤
        (block.num + 1) * block.transfer.size := by
      simpa [TransferBlock.more] using last
    obtain ⟨blocks, below, rfl | before⟩ := part.unfinished
    · omega
    · have fewer : blocks < block.num + 1 :=
        Nat.lt_of_mul_lt_mul_right (Nat.lt_of_lt_of_le before ends)
      have reached : blocks * block.transfer.size ≤ block.offset :=
        Nat.mul_le_mul_right _ (Nat.le_of_lt_succ fewer)
      omega

end PartOf

section Steps

variable {env : Block1Env} {state : Block1State} {block : TransferBlock}
  {size1 : Option UInt32} {alloc : Bool}

/-- A buffer is never left behind empty, and it is part of its owner. -/
def OwnedPart (state : Block1State) : Prop :=
  ∀ buffer, state.buffer = some buffer → 0 < buffer.data.length ∧
    ∃ transfer, state.owner = some transfer ∧ PartOf buffer transfer

theorem PartOf.fresh {buffer : RequestBuffer} (transfer : Transfer)
    (allocated : env.allocRequestBuffer size1 alloc = some buffer) :
    PartOf buffer transfer := by
  unfold Block1Env.allocRequestBuffer at allocated
  dsimp only at allocated
  split_ifs at allocated
  rw [← Option.some.inj allocated]
  exact ⟨rfl, Nat.zero_le _, ⟨0, Nat.zero_le _, Or.inl rfl⟩, rfl⟩

theorem keptBuffer_eq {length offset : UInt32} (owned : OwnedPart state) :
    keptBuffer state.buffer length offset = state.buffer := by
  unfold keptBuffer
  cases there : state.buffer with
  | none => rfl
  | some buffer => ?_
  obtain ⟨positive, transfer, -, part⟩ := owned buffer there
  have next : buffer.nextBlockOffset ≠ 0 := by
    intro zero
    have length_eq : buffer.nextBlockOffset.toNat = buffer.data.length := by
      apply UInt32.toNat_ofNat_of_lt'
      exact Nat.lt_of_le_of_lt part.fits buffer.bufferSize.toNat_lt
    rw [zero] at length_eq
    exact Nat.ne_of_lt positive length_eq
  simp [part.payloadSize_eq, next.symm]

theorem toNat_min (first second : UInt16) :
    (min first second).toNat = min first.toNat second.toNat := by
  by_cases le : first ≤ second
  · rw [show min first second = first from if_pos le,
      Nat.min_eq_left (UInt16.le_iff_toNat_le.mp le)]
  · rw [show min first second = second from if_neg le, Nat.min_eq_right]
    rw [UInt16.le_iff_toNat_le] at le
    omega

theorem take_request_payload :
    (block.request size1 alloc).payload.take
        (min (UInt32.ofNat
          (block.request size1 alloc).payload.length).toUInt16
          (min (UInt16.ofNat block.transfer.size) env.device.size)).toNat =
      block.bytes.take env.device.size.toNat := by
  change block.bytes.take (min (UInt32.ofNat block.bytes.length).toUInt16
    (min (UInt16.ofNat block.transfer.size) env.device.size)).toNat = _
  have short : block.bytes.length ≤ block.transfer.size := by
    rw [block.length_bytes]
    exact Nat.min_le_left _ _
  have small := block.size_le
  have length_eq : (UInt32.ofNat block.bytes.length).toUInt16.toNat =
      block.bytes.length := by
    simp only [UInt32.toNat_toUInt16, UInt32.toNat_ofNat']
    omega
  rw [toNat_min, toNat_min, length_eq, block.toNat_size, ← Nat.min_assoc,
    Nat.min_eq_left short, Nat.min_comm, ← List.take_take, List.take_length]

variable (env) in
theorem coapReceiveBlockwiseBlock1_cases (owned : OwnedPart state) :
    coapReceiveBlockwiseBlock1 env state.buffer (block.request size1 alloc) =
        (none, none) ∨
      ∃ buffer left,
        (state.buffer = some buffer ∨ state.buffer = none ∧
          env.allocRequestBuffer size1 alloc = some buffer) ∧
        buffer.ocBlockwiseHandleBlock (UInt32.ofNat block.offset)
          (block.bytes.take env.device.size.toNat) = some left ∧
        coapReceiveBlockwiseBlock1 env state.buffer
            (block.request size1 alloc) =
          if block.more then (some left, none) else (none, some left.data) := by
  unfold coapReceiveBlockwiseBlock1
  simp only [block.decode_request, coapPacketGetBlockOptions,
    take_request_payload]
  cases found : env.bufferForBlock state.buffer
      ⟨UInt32.ofNat block.num, UInt32.ofNat block.offset,
        min (UInt16.ofNat block.transfer.size) env.device.size,
        if block.more then 1 else 0, true⟩ (block.request size1 alloc) with
  | none => exact Or.inl rfl
  | some buffer =>
      have source : state.buffer = some buffer ∨ state.buffer = none ∧
          env.allocRequestBuffer size1 alloc = some buffer := by
        rw [Block1Env.bufferForBlock, keptBuffer_eq owned,
          Option.or_eq_some_iff, Option.ite_none_right_eq_some] at found
        rcases found with there | ⟨gone, -, allocated⟩
        · exact Or.inl there
        · exact Or.inr ⟨gone, allocated⟩
      dsimp only
      cases handled : buffer.ocBlockwiseHandleBlock (UInt32.ofNat block.offset)
          (block.bytes.take env.device.size.toNat) with
      | none => exact Or.inl rfl
      | some filled =>
          refine Or.inr ⟨buffer, filled, source, handled, ?_⟩
          cases block.more <;> rfl

theorem partOf_of_handled {buffer left : RequestBuffer} {length : Nat}
    (owned : OwnedPart state) (single : SingleTransfer env state block)
    (source : state.buffer = some buffer ∨ state.buffer = none ∧
      env.allocRequestBuffer size1 alloc = some buffer)
    (handled : buffer.ocBlockwiseHandleBlock (UInt32.ofNat block.offset)
      (block.bytes.take length) = some left) :
    PartOf buffer block.transfer ∧
      (state.buffer.isSome → state.owner = some block.transfer) := by
  rcases source with there | ⟨gone, allocated⟩
  · obtain ⟨-, transfer, owner, part⟩ := owned buffer there
    have same : state.owner = some block.transfer := by
      by_contra other
      have beyond := single.apart buffer there other
      have offset_eq := UInt32.toNat_ofNat_of_lt' block.offset_lt
      rcases ocBlockwiseHandleBlock_eq_some part.fits handled with
        ⟨start, -⟩ | ⟨start, -⟩ <;> omega
    rw [owner] at same
    rw [← Option.some.inj same]
    exact ⟨part, fun _ => owner⟩
  · refine ⟨PartOf.fresh block.transfer allocated, ?_⟩
    rw [gone]
    exact nofun

theorem OwnedPart.of_none {state : Block1State} (none : state.buffer = none) :
    OwnedPart state := by
  intro buffer there
  rw [none] at there
  exact nomatch there

theorem OwnedPart.block1Step_block (owned : OwnedPart state)
    (single : SingleTransfer env state block) :
    OwnedPart (block1Step env state (.block block size1 alloc)) := by
  rcases coapReceiveBlockwiseBlock1_cases env owned with
    refused | ⟨buffer, left, source, handled, result⟩
  · apply OwnedPart.of_none
    exact congrArg Prod.fst refused
  · obtain ⟨part, owner⟩ := partOf_of_handled owned single source handled
    cases more : block.more with
    | false =>
        apply OwnedPart.of_none
        rw [more] at result
        exact congrArg Prod.fst result
    | true =>
        rw [more] at result
        intro there eq
        have left_eq : left = there := Option.some.inj
          ((congrArg Prod.fst result).symm.trans eq)
        have positive : 0 < env.device.size.toNat := by
          obtain ⟨szx, -, size_eq⟩ := env.device.isPower
          rw [size_eq]
          exact Nat.two_pow_pos _
        obtain ⟨grown, nonempty⟩ := part.handle_more more positive handled
        rw [← left_eq]
        refine ⟨nonempty, block.transfer, ?_, grown⟩
        unfold block1Step
        dsimp only
        rw [keptBuffer_eq owned]
        split_ifs with kept
        · exact owner kept
        · rfl

variable (env) in
theorem coapReceivePlain_cases (buffer : Option RequestBuffer)
    (payload : Bytes) (size1 : Option UInt32) (alloc : Bool) :
    ((coapReceivePlain env buffer payload size1 alloc).1 = buffer ∨
        (coapReceivePlain env buffer payload size1 alloc).1 = none) ∧
      ∀ data, (coapReceivePlain env buffer payload size1 alloc).2 = some data →
        data = payload := by
  unfold coapReceivePlain
  split_ifs with long empty
  · exact ⟨Or.inl rfl, nofun⟩
  · exact ⟨Or.inl rfl, fun data handed => by
      rw [← Option.some.inj handed, empty]⟩
  · cases allocated : env.allocRequestBuffer size1 alloc with
    | none => exact ⟨Or.inr rfl, nofun⟩
    | some fresh =>
        dsimp only
        cases handled : fresh.ocBlockwiseHandleBlock 0 payload with
        | none => exact ⟨Or.inr rfl, nofun⟩
        | some filled =>
            refine ⟨Or.inr rfl, ?_⟩
            intro data handed
            have part := PartOf.fresh ⟨[], 0⟩ allocated
            have none : fresh.data = [] := by
              rw [part.taken]
              exact List.take_nil
            rw [← Option.some.inj handed]
            rcases ocBlockwiseHandleBlock_eq_some part.fits handled with
              ⟨-, filled_eq, -⟩ | ⟨start, -⟩
            · rw [filled_eq, none, List.nil_append]
            · rw [none] at start
              exact nomatch start

theorem block1Step_ownedPart (event : Block1Event) (owned : OwnedPart state)
    (single : OneTransferAtATime env state event) :
    OwnedPart (block1Step env state event) := by
  cases event with
  | block block size1 alloc => exact owned.block1Step_block single
  | plain payload size1 alloc =>
      rcases (coapReceivePlain_cases env state.buffer payload size1
        alloc).1 with same | gone
      · intro buffer there
        exact owned buffer (same.symm.trans there)
      · exact OwnedPart.of_none gone
  | timeout => exact OwnedPart.of_none rfl

theorem block1Output_inFull (event : Block1Event) (owned : OwnedPart state)
    (single : OneTransferAtATime env state event) :
    ∀ payloads, block1Output env state event = some payloads →
      payloads.1 = payloads.2 := by
  intro payloads handed
  cases event with
  | block block size1 alloc =>
      rw [block1Output, Option.map_eq_some_iff] at handed
      obtain ⟨data, handed, rfl⟩ := handed
      rcases coapReceiveBlockwiseBlock1_cases env owned with
        refused | ⟨buffer, left, source, handled, result⟩
      · rw [refused] at handed
        exact nomatch handed
      · rw [result] at handed
        cases more : block.more with
        | true =>
            rw [more] at handed
            exact nomatch handed
        | false =>
            obtain ⟨part, -⟩ :=
              partOf_of_handled owned single source handled
            rw [more] at handed
            rw [← Option.some.inj handed]
            exact part.handle_last more (single.whole more) handled
  | plain payload size1 alloc =>
      rw [block1Output, Option.map_eq_some_iff] at handed
      obtain ⟨data, handed, rfl⟩ := handed
      exact (coapReceivePlain_cases _ _ _ _ _).2 data handed
  | timeout => exact nomatch handed

end Steps

/-- In every run in which the blocks of a transfer do not fit into a buffer of
another one, the handler is called with full payloads only. -/
theorem handedInFull_of_oneTransferAtATime (env : Block1Env)
    (events : List Block1Event)
    (along : Along (block1Step env) (OneTransferAtATime env) ⟨none, none⟩
      events) : HandedInFull (handedPayloads env events) := by
  unfold HandedInFull handedPayloads
  rw [forall_mem_runOutputs_iff]
  refine along.imp (OwnedPart.of_none rfl) ?_ ?_
  · intro before event owned single
    exact block1Step_ownedPart event owned single
  · intro before event owned single
    exact block1Output_inFull event owned single

section GivenUp

private def block1Server : Block1Env where
  device := ⟨512, isPower_512⟩
  maxAppDataSize := 8192
  bufferSize := id

private def twentyBytes (byte : UInt8) : Transfer :=
  ⟨List.replicate 20 byte, 0⟩

private def firstOf (byte : UInt8) : Block1Event :=
  .block ⟨twentyBytes byte, 0, Nat.zero_le 7, by decide, Or.inl rfl⟩ none true

private def lastOf (byte : UInt8) : Block1Event :=
  .block ⟨twentyBytes byte, 1, Nat.zero_le 7, by decide,
    Or.inr (by simp [twentyBytes, Transfer.size])⟩ none true

/-- A transfer that is sent twice in full, with a block that comes again. -/
theorem handedInFull_repeated :
    HandedInFull (handedPayloads block1Server
      [firstOf 1, firstOf 1, lastOf 1, firstOf 2, lastOf 2]) :=
  handedInFull_of_oneTransferAtATime block1Server _
    ⟨⟨nofun, fun _ => by decide⟩,
      ⟨fun _ _ other => absurd rfl other, fun _ => by decide⟩,
      ⟨fun _ _ other => absurd rfl other, fun _ => by decide⟩,
      ⟨nofun, fun _ => by decide⟩,
      ⟨fun _ _ other => absurd rfl other, fun _ => by decide⟩, trivial⟩

/-- The first transfer is given up after its first block.  The handler is
called with that block and the rest of the second payload, which is neither of
the two payloads. -/
theorem not_handedInFull :
    handedPayloads block1Server [firstOf 1, firstOf 2, lastOf 2] =
        [(List.replicate 16 1 ++ List.replicate 4 2,
          (twentyBytes 2).payload)] ∧
      List.replicate 16 1 ++ List.replicate 4 2 ≠ (twentyBytes 1).payload ∧
      ¬ HandedInFull
        (handedPayloads block1Server [firstOf 1, firstOf 2, lastOf 2]) := by
  have handed : handedPayloads block1Server [firstOf 1, firstOf 2, lastOf 2] =
      [(List.replicate 16 1 ++ List.replicate 4 2,
        (twentyBytes 2).payload)] := by decide +kernel
  refine ⟨handed, by decide, ?_⟩
  rw [handed]
  intro inFull
  exact absurd (inFull _ List.mem_cons_self) (by decide)

end GivenUp

end IotivityLite
