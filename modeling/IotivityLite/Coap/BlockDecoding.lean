import IotivityLite.Coap.OptionCodec

/-!
# Decoding of block options

A block option packs the block number, the flag for more blocks and the size
exponent into at most 24 bits.  The parser accepts four bytes.  The number is
masked to its 20 bits, the offset is not, so that the bits beyond the 24th
reach the offset unless the shift by the size exponent drops them.
-/

namespace IotivityLite

open BigEndian

/-- A block whose offset is that of its number, with a size that is a power of
two between 16 and 2048 and a number of at most 20 bits. -/
structure BlockOption.Consistent (block : BlockOption) : Prop where
  offset_eq : block.offset.toNat = block.num.toNat * block.size.toNat
  size_eq : ∃ szx ≤ 7, block.size.toNat = 2 ^ (szx + 4)
  num_le : block.num.toNat ≤ 2 ^ 20 - 1

/-- The shift by the size exponent drops all bits of the value from the 24th
on. -/
def ExcessShiftedOut (value : Nat) : Prop :=
  value / 2 ^ 24 * 2 ^ (value % 8) % 2 ^ 8 = 0

private theorem offset_eq_iff (value : Nat) (bounded : value < 2 ^ 32) :
    value / 16 * 16 * 2 ^ (value % 8) % 2 ^ 32 =
        value / 16 % 2 ^ 20 * 2 ^ (value % 8 + 4) ↔
      ExcessShiftedOut value := by
  unfold ExcessShiftedOut
  have small : value % 8 < 8 := Nat.mod_lt _ (by decide)
  generalize value % 8 = szx at small
  interval_cases szx
  all_goals
    norm_num only
    omega

theorem coapOptionsBlockDecode_size (value : UInt32) :
    ∃ szx ≤ 7, (coapOptionsBlockDecode value).size.toNat =
      2 ^ (szx + 4) :=
  ⟨value.toNat % 8, by omega, toNat_coapOptionsBlockDecode_size value⟩

theorem coapOptionsBlockDecode_num (value : UInt32) :
    (coapOptionsBlockDecode value).num.toNat ≤ 0xFFFFF := by
  rw [toNat_coapOptionsBlockDecode_num]
  omega

theorem coapOptionsBlockDecode_consistent_iff (value : UInt32) :
    (coapOptionsBlockDecode value).Consistent ↔
      ExcessShiftedOut value.toNat := by
  rw [← offset_eq_iff value.toNat value.toNat_lt,
    ← toNat_coapOptionsBlockDecode_offset, ← toNat_coapOptionsBlockDecode_num,
    ← toNat_coapOptionsBlockDecode_size]
  constructor
  · intro consistent
    exact consistent.offset_eq
  · intro offset_eq
    have num_le := coapOptionsBlockDecode_num value
    exact ⟨offset_eq, coapOptionsBlockDecode_size value, by omega⟩

section Parser

variable (config : CoapConfig) (memory : Mem) (packet : InPacket)
  (option : Span) (validate : Bool)

private theorem coapParseIntOption_of_short {bytes : Bytes}
    (short : bytes.length ≤ 4) :
    ∃ value, coapParseIntOption bytes = some value ∧
      value.toNat = BigEndian.value bytes := by
  unfold coapParseIntOption
  rw [if_neg (Nat.not_lt_of_le short)]
  exact ⟨_, rfl, toNat_foldl_shiftLeft_or bytes short⟩

private theorem coapParseIntOption_of_long {bytes : Bytes}
    (long : 4 < bytes.length) : coapParseIntOption bytes = none := by
  unfold coapParseIntOption
  rw [if_pos long]

private theorem parseInt_accepted_iff {failure : CoapStatus}
    {store : InPacket → UInt32 → InPacket} (fails : failure ≠ .noError) :
    (parseInt memory packet option failure (fun _ => true) store).status =
        .noError ↔
      option.length ≤ 4 := by
  have length : (memory.text option).length = option.length :=
    Mem.length_read memory option.start option.length
  unfold parseInt
  by_cases short : option.length ≤ 4
  · obtain ⟨value, parsed, -⟩ :=
      coapParseIntOption_of_short (length.trans_le short)
    simp [parsed, short]
  · rw [coapParseIntOption_of_long (by omega)]
    simp [fails, short]

private theorem parseInt_packet {failure : CoapStatus}
    {store : InPacket → UInt32 → InPacket} (short : option.length ≤ 4) :
    ∃ value, value.toNat = BigEndian.value (memory.text option) ∧
      (parseInt memory packet option failure (fun _ => true) store).packet =
        store packet value := by
  have length : (memory.text option).length = option.length :=
    Mem.length_read memory option.start option.length
  obtain ⟨value, parsed, number⟩ :=
    coapParseIntOption_of_short (length.trans_le short)
  refine ⟨value, number, ?_⟩
  unfold parseInt
  simp [parsed]

/-- What the parser makes of a Block1 or a Block2 option. -/
def parsedBlock1 : ParseResult :=
  coapOscoreParseInnerOption config memory packet .block1 option validate

def parsedBlock2 : ParseResult :=
  coapOscoreParseInnerOption config memory packet .block2 option validate

private theorem parsedBlock1_consistent_iff
    (accepted : (parsedBlock1 config memory packet option validate).status =
      .noError) :
    (parsedBlock1 config memory packet option validate).packet.block1.Consistent
      ↔ ExcessShiftedOut (BigEndian.value (memory.text option)) := by
  have short := (parseInt_accepted_iff memory packet option
    (by decide : CoapStatus.badOption ≠ .noError)).mp accepted
  obtain ⟨value, number, stored⟩ := @parseInt_packet memory packet option
    .badOption coapOptionsBlock1Decode short
  have block : (parsedBlock1 config memory packet option validate).packet.block1
      = coapOptionsBlockDecode value := congrArg CoapPacket.block1 stored
  rw [block, coapOptionsBlockDecode_consistent_iff, number]

private theorem parsedBlock2_consistent_iff
    (accepted : (parsedBlock2 config memory packet option validate).status =
      .noError) :
    (parsedBlock2 config memory packet option validate).packet.block2.Consistent
      ↔ ExcessShiftedOut (BigEndian.value (memory.text option)) := by
  have short := (parseInt_accepted_iff memory packet option
    (by decide : CoapStatus.badOption ≠ .noError)).mp accepted
  obtain ⟨value, number, stored⟩ := @parseInt_packet memory packet option
    .badOption coapOptionsBlock2Decode short
  have block : (parsedBlock2 config memory packet option validate).packet.block2
      = coapOptionsBlockDecode value := congrArg CoapPacket.block2 stored
  rw [block, coapOptionsBlockDecode_consistent_iff, number]

end Parser

/-- The flag for more blocks, as it is stored by the parser. -/
def moreFlag (more : UInt8) : UInt8 := if more ≠ 0 then 1 else 0

private theorem coapOptionsBlockEncode_moreFlag (num : UInt32) (more : UInt8)
    (size : UInt16) :
    coapOptionsBlockEncode num (moreFlag more) size =
      coapOptionsBlockEncode num more size := by
  unfold coapOptionsBlockEncode moreFlag
  split_ifs
  all_goals first | rfl | contradiction

private theorem toNat_num_mul_size {num : UInt32} {size : UInt16}
    (num_le : num.toNat ≤ 0xFFFFF) (size_le : size.toNat ≤ 2048) :
    (num * size.toUInt32).toNat = num.toNat * size.toNat := by
  have product := Nat.mul_le_mul num_le size_le
  rw [UInt32.toNat_mul, UInt16.toNat_toUInt32]
  exact Nat.mod_eq_of_lt (by omega)

private theorem coapOptionsBlockDecode_coapOptionsBlockEncode {num : UInt32}
    (more : UInt8) {size : UInt16} (num_le : num.toNat ≤ 2 ^ 20 - 1)
    (size_eq : ∃ szx ≤ 7, size.toNat = 2 ^ (szx + 4)) :
    coapOptionsBlockDecode (coapOptionsBlockEncode num more size) =
      ⟨num, moreFlag more, size, num * size.toUInt32⟩ := by
  have numLe : num.toNat ≤ 0xFFFFF := by omega
  have sizeLe : size.toNat ≤ 2048 := by
    obtain ⟨szx, szx_le, size_eq⟩ := size_eq
    rw [size_eq]
    interval_cases szx <;> norm_num
  have flag : moreFlag more = 0 ∨ moreFlag more = 1 := by
    unfold moreFlag
    split_ifs
    · exact .inr rfl
    · exact .inl rfl
  have decoded := @coapOptionsBlockDecode_encode
    ⟨num, moreFlag more, size, num * size.toUInt32⟩ numLe
    ⟨size_eq, flag, toNat_num_mul_size numLe sizeLe⟩
  rw [coapOptionsBlockEncode_moreFlag] at decoded
  exact decoded

/-- An accepted block option is consistent exactly when the size exponent
shifts out what lies beyond its 24 bits, and number, flag and size survive
encoding and decoding. -/
theorem block_option_consistent_iff (config : CoapConfig) (memory : Mem) :
    (∀ packet option validate,
      (parsedBlock1 config memory packet option validate).status = .noError →
      ((parsedBlock1 config memory packet option
          validate).packet.block1.Consistent ↔
        ExcessShiftedOut (BigEndian.value (memory.text option)))) ∧
    (∀ packet option validate,
      (parsedBlock2 config memory packet option validate).status = .noError →
      ((parsedBlock2 config memory packet option
          validate).packet.block2.Consistent ↔
        ExcessShiftedOut (BigEndian.value (memory.text option)))) ∧
    ∀ (num : UInt32) (more : UInt8) (size : UInt16),
      num.toNat ≤ 2 ^ 20 - 1 →
      (∃ szx ≤ 7, size.toNat = 2 ^ (szx + 4)) →
      coapOptionsBlockDecode (coapOptionsBlockEncode num more size) =
        ⟨num, moreFlag more, size, num * size.toUInt32⟩ :=
  ⟨parsedBlock1_consistent_iff config memory,
    parsedBlock2_consistent_iff config memory, fun _ more _ num_le size_eq =>
      coapOptionsBlockDecode_coapOptionsBlockEncode more num_le size_eq⟩

private def smallestConfig : CoapConfig :=
  ⟨false, false, false, false, false, false, false, false, false, 0⟩

private def beyondFormat : ParseResult :=
  parsedBlock2 smallestConfig (.ofBytes [1, 0, 0, 0])
    (CoapPacket.zero Span.null) ⟨0, 4⟩ false

/-- The four bytes 01 00 00 00 are accepted as block zero at offset 2 ^ 24. -/
theorem block_option_beyond_format :
    beyondFormat.status = .noError ∧
      ¬ beyondFormat.packet.block2.Consistent := by
  refine ⟨by decide, ?_⟩
  intro consistent
  exact absurd consistent.offset_eq (by decide)

end IotivityLite
