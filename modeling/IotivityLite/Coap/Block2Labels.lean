import IotivityLite.Coap.Block2
import IotivityLite.Coap.BlockDecoding

/-!
# The labels of Block2 responses

A Block2 option with a number, a size and a more flag promises certain bytes
of the representation.  The promise is kept as long as the offset of a request
is the number times the size that the server answers with; where the size was
clamped it is not.
-/

namespace IotivityLite

/-- The response has the bytes that its option names, and the flag tells if
there are more. -/
def Block2Response.Labelled (response : Block2Response) : Prop :=
  ∀ value, response.block2 = some value →
    let block := coapOptionsBlockDecode value
    response.start = block.num.toNat * block.size.toNat ∧
      response.start + response.length =
        min ((block.num.toNat + 1) * block.size.toNat)
          response.representation.length ∧
      (block.more ≠ 0 ↔ response.start + response.length <
        response.representation.length)

/-- Blocks of one representation, each labelled as the one after the
previous. -/
inductive InOrder (representation : Bytes) : Nat → List Block2Response → Prop
  | last {offset : Nat} {response : Block2Response} {value : UInt32}
      (same : response.representation = representation)
      (labelled : response.block2 = some value)
      (here : (coapOptionsBlockDecode value).num.toNat *
        (coapOptionsBlockDecode value).size.toNat = offset)
      (complete : (coapOptionsBlockDecode value).more = 0) :
      InOrder representation offset [response]
  | next {offset : Nat} {response : Block2Response} {value : UInt32}
      {later : List Block2Response}
      (same : response.representation = representation)
      (labelled : response.block2 = some value)
      (here : (coapOptionsBlockDecode value).num.toNat *
        (coapOptionsBlockDecode value).size.toNat = offset)
      (more : (coapOptionsBlockDecode value).more ≠ 0)
      (rest : InOrder representation
        (((coapOptionsBlockDecode value).num.toNat + 1) *
          (coapOptionsBlockDecode value).size.toNat) later) :
      InOrder representation offset (response :: later)

/-- Every response has the bytes of its label, so blocks that were requested
in order make up the representation. -/
structure Block2Correct (responses : List Block2Response) : Prop where
  labelled : ∀ response ∈ responses, response.Labelled
  whole : ∀ representation blocks, blocks.Sublist responses →
    InOrder representation 0 blocks →
      (blocks.map Block2Response.bytes).flatten = representation

theorem InOrder.flatten {representation : Bytes} {offset : Nat}
    {blocks : List Block2Response}
    (order : InOrder representation offset blocks)
    (labelled : ∀ response ∈ blocks, response.Labelled) :
    (blocks.map Block2Response.bytes).flatten =
      representation.drop offset := by
  induction order with
  | last same label here complete =>
      rename_i offset response value
      obtain ⟨start, stop, more⟩ :=
        labelled response List.mem_cons_self value label
      have ends : response.representation.length ≤
          response.start + response.length := by
        by_contra short
        exact more.mpr (Nat.lt_of_not_le short) complete
      rw [List.map_singleton, List.flatten_singleton, Block2Response.bytes,
        List.take_of_length_le, start, here, same]
      rw [List.length_drop]
      omega
  | next same label here more rest ih =>
      rename_i offset response value later
      rw [List.forall_mem_cons] at labelled
      obtain ⟨start, stop, flag⟩ := labelled.1 value label
      have unfinished := flag.mp more
      have size : response.start + response.length =
          ((coapOptionsBlockDecode value).num.toNat + 1) *
            (coapOptionsBlockDecode value).size.toNat := by omega
      rw [List.map_cons, List.flatten_cons, ih labelled.2, ← size,
        Block2Response.bytes, same, ← List.drop_drop, List.take_append_drop,
        start, here]

theorem block2Correct_iff {responses : List Block2Response} :
    Block2Correct responses ↔
      ∀ response ∈ responses, response.Labelled := by
  constructor
  · exact Block2Correct.labelled
  · intro labelled
    refine ⟨labelled, ?_⟩
    intro representation blocks sub order
    exact order.flatten fun response member =>
      labelled response (sub.subset member)

variable {device : OcBlockSize}

theorem blockOptions_size (device : OcBlockSize) (value : Option UInt32) :
    ∃ szx ≤ 7, (blockOptions device value).size.toNat = 2 ^ (szx + 4) := by
  cases value with
  | none => exact device.isPower
  | some value =>
      change ∃ szx ≤ 7, (min (coapOptionsBlockDecode value).size
        device.size).toNat = 2 ^ (szx + 4)
      by_cases fits : (coapOptionsBlockDecode value).size ≤ device.size
      · rw [show min _ device.size = _ from if_pos fits]
        exact coapOptionsBlockDecode_size value
      · rw [show min _ device.size = _ from if_neg fits]
        exact device.isPower

theorem decode_block2Value {num : UInt32} (more : Bool) {size : UInt16}
    (num_le : num.toNat ≤ 0xFFFFF)
    (power : ∃ szx ≤ 7, size.toNat = 2 ^ (szx + 4)) :
    ∃ value, block2Value num more size = some value ∧
      (coapOptionsBlockDecode value).num = num ∧
      (coapOptionsBlockDecode value).size = size ∧
      ((coapOptionsBlockDecode value).more ≠ 0 ↔ more = true) := by
  obtain ⟨szx, szx_le, size_eq⟩ := power
  have low : 16 ≤ size.toNat := by
    rw [size_eq, Nat.pow_add]
    exact Nat.le_mul_of_pos_left _ (Nat.two_pow_pos szx)
  have high : size.toNat ≤ 2048 := by
    rw [size_eq]
    exact Nat.pow_le_pow_right (by decide) (by omega : szx + 4 ≤ 11)
  have accepted : ¬ (num > 0xFFFFF ∨ size < 16 ∨ size > 2048) := by
    simp only [gt_iff_lt, UInt32.lt_iff_toNat_lt, UInt16.lt_iff_toNat_lt]
    simp
    omega
  let flag : UInt8 := if more then 1 else 0
  have decoded := @coapOptionsBlockDecode_encode
    ⟨num, flag, size, UInt32.ofNat (num.toNat * size.toNat)⟩ num_le
    ⟨⟨szx, szx_le, size_eq⟩, by cases more <;> simp [flag], by
      apply UInt32.toNat_ofNat_of_lt'
      calc num.toNat * size.toNat ≤ 0xFFFFF * 2048 :=
            Nat.mul_le_mul num_le high
        _ < UInt32.size := by decide⟩
  refine ⟨_, if_neg accepted, ?_⟩
  change (coapOptionsBlockDecode
    (coapOptionsBlockEncode num flag size)).num = num ∧ _
  rw [decoded]
  refine ⟨rfl, rfl, ?_⟩
  cases more <;> simp [flag]

variable {payload : Bytes}

theorem labelled_block2Value_iff {start length : Nat} {num : UInt32}
    {more : Bool} {size : UInt16} (num_le : num.toNat ≤ 0xFFFFF)
    (power : ∃ szx ≤ 7, size.toNat = 2 ^ (szx + 4)) :
    (⟨payload, start, length, block2Value num more size⟩ :
        Block2Response).Labelled ↔
      start = num.toNat * size.toNat ∧
        start + length = min ((num.toNat + 1) * size.toNat)
          payload.length ∧
        (more = true ↔ start + length < payload.length) := by
  obtain ⟨value, set, numEq, sizeEq, moreIff⟩ :=
    decode_block2Value more num_le power
  unfold Block2Response.Labelled
  simp only [set, Option.some.injEq, forall_eq']
  rw [numEq, sizeEq, moreIff]

/-- The bytes of a block, as the code counts them. -/
def dispatchedLength (length offset size : Nat) : Nat :=
  if length < size then length else min size (length - offset)

theorem ocBlockwiseDispatchBlock_eq_some {buffer left : ResponseBuffer}
    {offset size length : UInt32}
    (dispatched : buffer.ocBlockwiseDispatchBlock offset size =
      some (length, left)) :
    offset.toNat < buffer.payload.length ∧
      length.toNat = dispatchedLength buffer.payload.length offset.toNat
        size.toNat ∧
      left.payload = buffer.payload ∧
      left.nextBlockOffset = offset + length := by
  unfold ResponseBuffer.ocBlockwiseDispatchBlock at dispatched
  by_cases inside : offset < buffer.payloadSize
  case neg => rw [if_neg inside] at dispatched; cases dispatched
  rw [if_pos inside] at dispatched
  have result := Option.some.inj dispatched
  simp only [Prod.mk.injEq] at result
  obtain ⟨lengthEq, rfl⟩ := result
  rw [UInt32.lt_iff_toNat_lt, buffer.toNat_payloadSize] at inside
  refine ⟨inside, ?_, rfl, by rw [lengthEq]⟩
  have rest : (buffer.payloadSize - offset).toNat =
      buffer.payload.length - offset.toNat := by
    rw [UInt32.toNat_sub_of_le, buffer.toNat_payloadSize]
    rw [UInt32.le_iff_toNat_le, buffer.toNat_payloadSize]
    exact Nat.le_of_lt inside
  rw [← lengthEq, dispatchedLength]
  by_cases short : buffer.payloadSize < size
  · rw [if_pos short]
    rw [UInt32.lt_iff_toNat_lt, buffer.toNat_payloadSize] at short
    rw [if_pos short, buffer.toNat_payloadSize]
  · rw [if_neg short]
    rw [UInt32.lt_iff_toNat_lt, buffer.toNat_payloadSize] at short
    rw [if_neg short, ← rest]
    by_cases whole : size ≤ buffer.payloadSize - offset
    · rw [show min size _ = _ from if_pos whole, Nat.min_eq_left]
      exact UInt32.le_iff_toNat_le.mp whole
    · rw [show min size _ = _ from if_neg whole, Nat.min_eq_right]
      rw [UInt32.le_iff_toNat_le] at whole
      exact Nat.le_of_not_le whole

theorem add_dispatchedLength {length offset size num : Nat}
    (inside : offset < length) (aligned : offset = num * size) :
    offset + dispatchedLength length offset size =
      min ((num + 1) * size) length := by
  rw [Nat.succ_mul, ← aligned, dispatchedLength]
  split_ifs with short
  · have first : num = 0 := by
      by_contra later
      have : size ≤ num * size := Nat.le_mul_of_pos_left size (by omega)
      omega
    subst first
    omega
  · omega

theorem labelled_dispatched_iff {buffer left : ResponseBuffer}
    {offset length num : UInt32} {size : UInt16}
    (num_le : num.toNat ≤ 0xFFFFF)
    (power : ∃ szx ≤ 7, size.toNat = 2 ^ (szx + 4))
    (dispatched : buffer.ocBlockwiseDispatchBlock offset size.toUInt32 =
      some (length, left)) :
    (⟨buffer.payload, offset.toNat, length.toNat,
        block2Value num (left.nextBlockOffset < left.payloadSize) size⟩ :
        Block2Response).Labelled ↔
      offset.toNat = num.toNat * size.toNat := by
  obtain ⟨inside, lengthEq, payloadEq, nextEq⟩ :=
    ocBlockwiseDispatchBlock_eq_some dispatched
  rw [UInt16.toNat_toUInt32] at lengthEq
  rw [labelled_block2Value_iff num_le power]
  constructor
  · exact And.left
  · intro aligned
    have stop := add_dispatchedLength inside aligned
    rw [← lengthEq] at stop
    refine ⟨aligned, stop, ?_⟩
    have fits := buffer.length_lt
    have next : left.nextBlockOffset.toNat =
        offset.toNat + length.toNat := by
      rw [nextEq, UInt32.toNat_add, Nat.mod_eq_of_lt]
      omega
    rw [decide_eq_true_iff, UInt32.lt_iff_toNat_lt, next,
      left.toNat_payloadSize, payloadEq]

theorem payloadSize_filled (length_lt : payload.length < 2 ^ 32) :
    (ResponseBuffer.filled payload length_lt).payloadSize.toNat =
      payload.length :=
  (ResponseBuffer.filled payload length_lt).toNat_payloadSize

theorem labelled_firstBlock {payload : Bytes}
    {length_lt : payload.length < 2 ^ 32} {size : UInt16}
    (power : ∃ szx ≤ 7, size.toNat = 2 ^ (szx + 4)) :
    (⟨payload, 0, (firstBlock (.filled payload length_lt) size).1,
      block2Value 0 (size.toUInt32 <
        (ResponseBuffer.filled payload length_lt).payloadSize) size⟩ :
      Block2Response).Labelled := by
  have count : (firstBlock (.filled payload length_lt) size).1 =
      min size.toNat payload.length := by
    unfold firstBlock
    rcases dispatched : (ResponseBuffer.filled payload
      length_lt).ocBlockwiseDispatchBlock 0 size.toUInt32 with
      - | ⟨length, left⟩
    · unfold ResponseBuffer.ocBlockwiseDispatchBlock at dispatched
      split_ifs at dispatched with empty
      rw [UInt32.lt_iff_toNat_lt, payloadSize_filled] at empty
      simp at empty
      simp [empty]
    · obtain ⟨inside, lengthEq, -, -⟩ :=
        ocBlockwiseDispatchBlock_eq_some dispatched
      have stop := @add_dispatchedLength _ _ size.toNat 0 inside
        (by simp)
      rw [UInt32.toNat_zero, Nat.zero_add, Nat.zero_add, Nat.one_mul] at stop
      rw [UInt16.toNat_toUInt32] at lengthEq
      exact lengthEq.trans stop
  rw [labelled_block2Value_iff (by simp) power]
  refine ⟨by simp, ?_, ?_⟩
  · rw [count]
    simp
  · rw [decide_eq_true_iff, UInt32.lt_iff_toNat_lt, payloadSize_filled,
      UInt16.toNat_toUInt32, count]
    omega

/-- The offset that the option asks for is the one that the answer names. -/
def LabelFits (device : OcBlockSize) (option : BlockOption) : Prop :=
  option.offset.toNat =
    option.num.toNat * (min option.size device.size).toNat

/-- A request that the code answers from the buffer: the offset is not behind
or before the last block, and inside the payload. -/
def Continues (buffer : ResponseBuffer) (block : CoapBlockOptions) : Prop :=
  ¬ buffer.nextBlockOffset - block.offset > block.size.toUInt32 ∧
    block.offset < buffer.payloadSize

/-- Where a running transfer is continued, the label fits. -/
def ContinuesFitting (device : OcBlockSize) (state : Option ResponseBuffer) :
    Block2Event → Prop
  | .get request => ∀ buffer value, state = some buffer →
      request.block2 = some value → request.hasPayload = false →
        Continues buffer (blockOptions device (some value)) →
          LabelFits device (coapOptionsBlockDecode value)
  | _ => True

theorem labelled_setResponseByHandler (device : OcBlockSize)
    (value : Option UInt32) (representation : Representation)
    {response : Block2Response}
    (responds : (coapReceiveSetResponseByHandler (blockOptions device value)
      representation).2 = some response) : response.Labelled := by
  cases representation with
  | absent => cases responds
  | payload payload length_lt =>
      simp only [coapReceiveSetResponseByHandler] at responds
      split_ifs at responds
      · obtain rfl := Option.some.inj responds
        exact labelled_firstBlock (blockOptions_size device value)
      · obtain rfl := Option.some.inj responds
        exact fun _ impossible => nomatch impossible

theorem labelled_announceTransfer (device : OcBlockSize) (value : Option UInt32)
    {state : Option ResponseBuffer} {length_lt : payload.length < 2 ^ 32}
    {response : Block2Response}
    (responds : (announceTransfer state (blockOptions device value).size
      payload length_lt).2 = some response) : response.Labelled := by
  unfold announceTransfer at responds
  by_cases larger : (ResponseBuffer.filled payload length_lt).payloadSize >
      (blockOptions device value).size.toUInt32
  · rw [if_pos larger] at responds
    split_ifs at responds
    obtain rfl := Option.some.inj responds
    have labelled := @labelled_firstBlock payload length_lt _
      (blockOptions_size device value)
    rw [decide_eq_true larger] at labelled
    exact labelled
  · rw [if_neg larger] at responds
    obtain rfl := Option.some.inj responds
    exact fun _ impossible => nomatch impossible

theorem continueTransfer_labelled_iff {buffer : ResponseBuffer}
    {value : UInt32} :
    (∀ response, (continueTransfer buffer
        (blockOptions device (some value))).2 = some response →
          response.Labelled) ↔
      (Continues buffer (blockOptions device (some value)) →
        LabelFits device (coapOptionsBlockDecode value)) := by
  unfold continueTransfer Continues
  by_cases behind : buffer.nextBlockOffset -
      (blockOptions device (some value)).offset >
        (blockOptions device (some value)).size.toUInt32
  · rw [if_pos behind]
    simp [behind]
  · rw [if_neg behind]
    rcases dispatched : buffer.ocBlockwiseDispatchBlock
      (blockOptions device (some value)).offset
      (blockOptions device (some value)).size.toUInt32 with
      - | ⟨length, left⟩
    · have outside : ¬ (blockOptions device (some value)).offset <
          buffer.payloadSize := by
        intro inside
        unfold ResponseBuffer.ocBlockwiseDispatchBlock at dispatched
        rw [if_pos inside] at dispatched
        cases dispatched
      simp [outside]
    · have inside : (blockOptions device (some value)).offset <
          buffer.payloadSize := by
        rw [UInt32.lt_iff_toNat_lt, buffer.toNat_payloadSize]
        exact (ocBlockwiseDispatchBlock_eq_some dispatched).1
      have iff := @labelled_dispatched_iff buffer left _ length
        (coapOptionsBlockDecode value).num _
        (coapOptionsBlockDecode_num value)
        (blockOptions_size device (some value)) dispatched
      simp only [Option.some.injEq, forall_eq', behind, inside,
        not_false_eq_true, and_self, forall_const]
      exact iff

/-- The response of one step is labelled exactly under the condition. -/
theorem block2Step_labelled_iff (state : Option ResponseBuffer)
    (event : Block2Event) :
    (∀ response, (block2Step device state event).2 = some response →
      response.Labelled) ↔ ContinuesFitting device state event := by
  cases event with
  | timeout =>
      exact iff_of_true (fun _ impossible => nomatch impossible) trivial
  | announce value payload length_lt =>
      exact iff_of_true
        (fun _ responds => labelled_announceTransfer device value responds)
        trivial
  | get request =>
      obtain ⟨block2, hasPayload, multicast, representation⟩ := request
      cases block2 with
      | none =>
          refine iff_of_true ?_ (fun _ _ _ impossible => nomatch impossible)
          intro response responds
          change (if _ then (state, none) else
            coapReceiveSetResponseByHandler (blockOptions device none)
              representation).2 = some response at responds
          split_ifs at responds
          exact labelled_setResponseByHandler device none representation
            responds
      | some value =>
          change (∀ response, (coapReceiveBlockwiseBlock2 state
            (blockOptions device (some value))
            ⟨some value, hasPayload, multicast, representation⟩).2 =
              some response → response.Labelled) ↔ _
          unfold coapReceiveBlockwiseBlock2
          cases hasPayload with
          | true =>
              exact iff_of_true (fun _ impossible => nomatch impossible)
                (fun _ _ _ _ impossible => nomatch impossible)
          | false =>
              rw [if_neg (by simp)]
              cases state with
              | none =>
                  refine iff_of_true ?_
                    (fun _ _ impossible => nomatch impossible)
                  intro response responds
                  dsimp only at responds
                  split_ifs at responds
                  exact labelled_setResponseByHandler device (some value)
                    representation responds
              | some buffer =>
                  rw [continueTransfer_labelled_iff]
                  simp [ContinuesFitting]

/-- In every run all responses are labelled correctly, and blocks requested in
order make up the representation, exactly if no transfer is continued with a
label that does not fit. -/
theorem block2Correct_iff_continuesFitting (device : OcBlockSize)
    (events : List Block2Event) :
    Block2Correct (block2Responses device events) ↔
      Along (fun state event => (block2Step device state event).1)
        (ContinuesFitting device) none events := by
  rw [block2Correct_iff, block2Responses, forall_mem_runOutputs_iff]
  exact Along.congr_iff block2Step_labelled_iff

namespace Block2Labels

def smallDevice : OcBlockSize := ⟨512, isPower_512⟩

def representation : Bytes := List.replicate 2000 0

def get (block2 : UInt32) : Block2Event :=
  .get ⟨some block2, false, false, .payload representation (by
    rw [representation, List.length_replicate]
    decide)⟩

end Block2Labels

open Block2Labels in
/-- The second block of 1024 bytes is asked for after two blocks of 512. -/
theorem not_block2Correct :
    ¬ Block2Correct (block2Responses smallDevice
      [get (coapOptionsBlockEncode 0 0 512),
        get (coapOptionsBlockEncode 1 0 512),
        get (coapOptionsBlockEncode 1 0 1024)]) := by
  rintro ⟨labelled, -⟩
  have third := labelled ⟨representation, 1024, 512,
    some (coapOptionsBlockEncode 1 1 512)⟩ (by decide +kernel) _ rfl
  revert third
  decide +kernel

end IotivityLite
