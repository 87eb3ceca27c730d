import IotivityLite.Coap.Blockwise
import IotivityLite.Foundation.Run

/-!
# The memory of a block-wise transfer

`oc_blockwise_state_t` with the memory that its payload is put together in.
A block is copied only where the previous one ended; one that comes too early
or that does not fit is refused, and one that was there before is accepted
without a look at its bytes.  So the memory below the next offset always has
the start of the payload, in whatever order its slices arrive.
-/

namespace IotivityLite

/-- `oc_blockwise_state_t`: there are `buffer_size` bytes at `buffer`. -/
structure OcBlockwiseState where
  buffer : Mem
  bufferSize : UInt32
  payloadSize : UInt32
  nextBlockOffset : UInt32

namespace OcBlockwiseState

/-- `blockwise_init_buffer`: the memory is not cleared. -/
def blockwiseInitBuffer (memory : Mem) (bufferSize : UInt32) :
    OcBlockwiseState :=
  ⟨memory, bufferSize, 0, 0⟩

/-- `oc_blockwise_handle_block` -/
def ocBlockwiseHandleBlock (state : OcBlockwiseState)
    (incomingBlockOffset : UInt32) (incomingBlock : Bytes)
    (incomingBlockSize : UInt32) : Bool × OcBlockwiseState :=
  if incomingBlockOffset ≥ state.bufferSize ∨
      incomingBlockSize > state.bufferSize - incomingBlockOffset ∨
      incomingBlockOffset > state.nextBlockOffset then (false, state)
  else if state.nextBlockOffset = incomingBlockOffset then
    (true, { state with
      buffer := state.buffer.write state.nextBlockOffset.toNat
        (incomingBlock.take incomingBlockSize.toNat)
      nextBlockOffset := state.nextBlockOffset + incomingBlockSize })
  else (true, state)

/-- The bytes that were taken in are the first ones of the payload, and they
lie inside the buffer. -/
structure Reassembles (state : OcBlockwiseState) (payload : Bytes) :
    Prop where
  taken : state.buffer.read 0 state.nextBlockOffset.toNat =
    payload.take state.nextBlockOffset.toNat
  inside : state.nextBlockOffset ≤ state.bufferSize

/-- How a block is answered: `offset` and `size` are compared as numbers. -/
structure Answers (state : OcBlockwiseState) (offset : UInt32)
    (block : Bytes) (size : UInt32) : Prop where
  advances : offset = state.nextBlockOffset →
    (state.ocBlockwiseHandleBlock offset block size).1 = true →
      (state.ocBlockwiseHandleBlock offset block size).2.nextBlockOffset.toNat =
        state.nextBlockOffset.toNat + size.toNat
  refuses : state.nextBlockOffset < offset ∨
      state.bufferSize.toNat < offset.toNat + size.toNat →
    state.ocBlockwiseHandleBlock offset block size = (false, state)
  accepts : offset ≤ state.nextBlockOffset → offset < state.bufferSize →
    offset.toNat + size.toNat ≤ state.bufferSize.toNat →
      (state.ocBlockwiseHandleBlock offset block size).1 = true
  ignores : offset < state.nextBlockOffset →
    (state.ocBlockwiseHandleBlock offset block size).2 = state

end OcBlockwiseState

/-- A part of a payload, as it is handed to `oc_blockwise_handle_block`. -/
structure Slice (payload : Bytes) where
  offset : UInt32
  size : UInt32
  inside : offset.toNat + size.toNat ≤ payload.length

def Slice.bytes {payload : Bytes} (slice : Slice payload) : Bytes :=
  payload.drop slice.offset.toNat

/-- The state after a call with a slice. -/
def takeSlice {payload : Bytes} (state : OcBlockwiseState)
    (slice : Slice payload) : OcBlockwiseState :=
  (state.ocBlockwiseHandleBlock slice.offset slice.bytes slice.size).2

namespace OcBlockwiseState

variable {state : OcBlockwiseState} {offset size : UInt32} {block : Bytes}

/-- What the code asks of a block, on numbers instead of 32-bit words. -/
structure Fits (state : OcBlockwiseState) (offset size : UInt32) : Prop where
  starts : offset < state.bufferSize
  ends : offset.toNat + size.toNat ≤ state.bufferSize.toNat
  due : offset ≤ state.nextBlockOffset

theorem refused_iff :
    (offset ≥ state.bufferSize ∨ size > state.bufferSize - offset ∨
        offset > state.nextBlockOffset) ↔ ¬state.Fits offset size := by
  by_cases starts : offset < state.bufferSize
  · have room : (state.bufferSize - offset).toNat =
        state.bufferSize.toNat - offset.toNat :=
      UInt32.toNat_sub_of_le _ _ (UInt32.le_of_lt starts)
    have position := UInt32.lt_iff_toNat_lt.mp starts
    constructor
    · rintro (outside | long | early) fits
      · exact absurd starts (UInt32.not_lt.mpr outside)
      · have := UInt32.lt_iff_toNat_lt.mp long
        have := fits.ends
        omega
      · exact absurd early (UInt32.not_lt.mpr fits.due)
    · intro unfit
      by_contra none
      obtain ⟨-, short, due⟩ := not_or.mp none |>.imp_right not_or.mp
      have short := UInt32.le_iff_toNat_le.mp (UInt32.not_lt.mp short)
      exact unfit ⟨starts, by omega, UInt32.not_lt.mp due⟩
  · exact ⟨fun _ fits => starts fits.starts,
      fun _ => .inl (UInt32.not_lt.mp starts)⟩

theorem handleBlock_cases (state : OcBlockwiseState) (offset : UInt32)
    (block : Bytes) (size : UInt32) :
    (¬state.Fits offset size ∧
        state.ocBlockwiseHandleBlock offset block size = (false, state)) ∨
      (state.Fits offset size ∧ offset = state.nextBlockOffset ∧
        state.ocBlockwiseHandleBlock offset block size =
          (true, { state with
            buffer := state.buffer.write state.nextBlockOffset.toNat
              (block.take size.toNat)
            nextBlockOffset := state.nextBlockOffset + size })) ∨
      (state.Fits offset size ∧ offset < state.nextBlockOffset ∧
        state.ocBlockwiseHandleBlock offset block size = (true, state)) := by
  unfold ocBlockwiseHandleBlock
  by_cases fits : state.Fits offset size
  · rw [if_neg (refused_iff.not.mpr (not_not.mpr fits))]
    by_cases same : state.nextBlockOffset = offset
    · rw [if_pos same]
      exact .inr (.inl ⟨fits, same.symm, rfl⟩)
    · rw [if_neg same]
      have before : offset < state.nextBlockOffset :=
        UInt32.lt_of_le_of_ne fits.due fun equal => same equal.symm
      exact .inr (.inr ⟨fits, before, rfl⟩)
  · rw [if_pos (refused_iff.mpr fits)]
    exact .inl ⟨fits, rfl⟩

theorem Fits.toNat_next (fits : state.Fits state.nextBlockOffset size) :
    (state.nextBlockOffset + size).toNat =
      state.nextBlockOffset.toNat + size.toNat := by
  rw [UInt32.toNat_add, Nat.mod_eq_of_lt]
  exact Nat.lt_of_le_of_lt fits.ends state.bufferSize.toNat_lt

theorem not_fits (beyond : state.nextBlockOffset < offset ∨
    state.bufferSize.toNat < offset.toNat + size.toNat) :
    ¬state.Fits offset size := by
  intro fits
  rcases beyond with early | long
  · exact absurd early (UInt32.not_lt.mpr fits.due)
  · have := fits.ends
    omega

theorem answers (state : OcBlockwiseState) (offset : UInt32) (block : Bytes)
    (size : UInt32) : state.Answers offset block size := by
  rcases handleBlock_cases state offset block size with
    ⟨unfit, handled⟩ | ⟨fits, rfl, handled⟩ | ⟨fits, before, handled⟩
  · refine ⟨?_, fun _ => handled, ?_, ?_⟩
    · intro _ accepted
      simp [handled] at accepted
    · intro due starts ends
      exact absurd ⟨starts, ends, due⟩ unfit
    · intro _
      rw [handled]
  · refine ⟨?_, fun beyond => absurd fits (not_fits beyond), ?_, ?_⟩
    · intro _ _
      rw [handled]
      exact fits.toNat_next
    · intro _ _ _
      rw [handled]
    · intro before
      exact absurd before (UInt32.lt_irrefl _)
  · refine ⟨?_, fun beyond => absurd fits (not_fits beyond), ?_, ?_⟩
    · rintro rfl
      exact absurd before (UInt32.lt_irrefl _)
    · intro _ _ _
      rw [handled]
    · intro _
      rw [handled]

theorem reassembles_init (memory : Mem) (bufferSize : UInt32)
    (payload : Bytes) :
    (blockwiseInitBuffer memory bufferSize).Reassembles payload :=
  ⟨by simp [blockwiseInitBuffer], UInt32.zero_le⟩

theorem Reassembles.append {payload : Bytes}
    (held : state.Reassembles payload) (slice : Slice payload)
    (next : slice.offset = state.nextBlockOffset)
    (fits : state.Fits state.nextBlockOffset slice.size) :
    Reassembles { state with
      buffer := state.buffer.write state.nextBlockOffset.toNat
        (slice.bytes.take slice.size.toNat)
      nextBlockOffset := state.nextBlockOffset + slice.size } payload := by
  have length : (slice.bytes.take slice.size.toNat).length =
      slice.size.toNat := by
    have := slice.inside
    rw [List.length_take, Slice.bytes, List.length_drop]
    omega
  refine ⟨?_, ?_⟩
  · dsimp only
    rw [fits.toNat_next, Mem.read_append, Nat.zero_add, List.take_add,
      ← held.taken, ← next]
    congr 1
    · apply Mem.read_congr
      intro address _ below
      exact Mem.write_outside (by omega)
    · have written := Mem.holds_write state.buffer slice.offset.toNat
        (slice.bytes.take slice.size.toNat)
      rw [Mem.Holds, length] at written
      exact written
  · rw [UInt32.le_iff_toNat_le]
    dsimp only
    rw [fits.toNat_next]
    exact fits.ends

theorem Reassembles.takeSlice {payload : Bytes}
    (held : state.Reassembles payload) (slice : Slice payload) :
    (takeSlice state slice).Reassembles payload := by
  unfold IotivityLite.takeSlice
  rcases handleBlock_cases state slice.offset slice.bytes slice.size with
    ⟨-, handled⟩ | ⟨fits, next, handled⟩ | ⟨-, -, handled⟩
  · rw [handled]
    exact held
  · rw [handled]
    rw [next] at fits
    exact held.append slice next fits
  · rw [handled]
    exact held

/-- The buffer as the block-wise engine sees it. -/
def requestBuffer (state : OcBlockwiseState) : RequestBuffer :=
  ⟨state.buffer.read 0 state.nextBlockOffset.toNat, state.payloadSize,
    state.bufferSize⟩

@[simp] theorem nextBlockOffset_requestBuffer (state : OcBlockwiseState) :
    state.requestBuffer.nextBlockOffset = state.nextBlockOffset := by
  simp [requestBuffer, RequestBuffer.nextBlockOffset]

theorem requestBuffer_append (length : block.length = size.toNat)
    (fits : state.Fits state.nextBlockOffset size) :
    requestBuffer { state with
        buffer := state.buffer.write state.nextBlockOffset.toNat
          (block.take size.toNat)
        nextBlockOffset := state.nextBlockOffset + size } =
      { state.requestBuffer with
        data := state.requestBuffer.data ++ block } := by
  have written := Mem.holds_write state.buffer state.nextBlockOffset.toNat block
  have before : (state.buffer.write state.nextBlockOffset.toNat block).read 0
      state.nextBlockOffset.toNat =
        state.buffer.read 0 state.nextBlockOffset.toNat := by
    apply Mem.read_congr
    intro address _ below
    exact Mem.write_outside (by omega)
  rw [Mem.Holds, length] at written
  simp only [requestBuffer, fits.toNat_next, ← length, List.take_length]
  rw [Mem.read_append, before, Nat.zero_add, length, written]

theorem handleBlock_requestBuffer (length : block.length = size.toNat) :
    state.requestBuffer.ocBlockwiseHandleBlock offset block =
      if (state.ocBlockwiseHandleBlock offset block size).1 then
        some (state.ocBlockwiseHandleBlock offset block size).2.requestBuffer
      else none := by
  have tests : (offset ≥ state.requestBuffer.bufferSize ∨
      block.length > (state.requestBuffer.bufferSize - offset).toNat ∨
      offset > state.requestBuffer.nextBlockOffset) ↔
        ¬state.Fits offset size := by
    rw [length, nextBlockOffset_requestBuffer, ← refused_iff]
    exact Iff.rfl
  unfold RequestBuffer.ocBlockwiseHandleBlock
  rw [nextBlockOffset_requestBuffer] at tests ⊢
  rcases handleBlock_cases state offset block size with
    ⟨unfit, handled⟩ | ⟨fits, rfl, handled⟩ | ⟨fits, before, handled⟩
  · rw [if_pos (tests.mpr unfit), handled]
    rfl
  · rw [if_neg (tests.not.mpr (not_not.mpr fits)), if_pos rfl, handled,
      requestBuffer_append length fits]
    rfl
  · have other : state.nextBlockOffset ≠ offset := by
      rintro rfl
      exact UInt32.lt_irrefl _ before
    rw [if_neg (tests.not.mpr (not_not.mpr fits)), if_neg other, handled]
    rfl

end OcBlockwiseState

/-- In whatever order the slices of a payload arrive, and however often, the
buffer has the start of the payload, and a block is answered by its place. -/
theorem block_reassembly (memory : Mem) (bufferSize : UInt32)
    (payload : Bytes) (slices : List (Slice payload)) :
    (runFrom takeSlice
        (OcBlockwiseState.blockwiseInitBuffer memory bufferSize)
        slices).Reassembles payload ∧
      ∀ (offset : UInt32) (block : Bytes) (size : UInt32),
        (runFrom takeSlice
          (OcBlockwiseState.blockwiseInitBuffer memory bufferSize)
          slices).Answers offset block size := by
  refine ⟨?_, OcBlockwiseState.answers _⟩
  refine @invariant_runFrom _ _ _ _
    (OcBlockwiseState.Reassembles · payload) slices ?_ ?_
  · exact OcBlockwiseState.reassembles_init memory bufferSize payload
  · intro state slice held
    exact held.takeSlice slice

end IotivityLite
