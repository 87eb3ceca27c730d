import IotivityLite.Coap.Parse
import IotivityLite.Foundation.BigEndian

/-!
# The encodings inside one option

Integer values, block values and option headers: for each of them the reader
of `coap.c` undoes the writer.
-/

namespace IotivityLite

open BigEndian

theorem intMask_eq_zero_iff (value : UInt32) :
    (0xFF000000 &&& value = 0 ↔ value.toNat < 2 ^ 24) ∧
      (0xFFFF0000 &&& value = 0 ↔ value.toNat < 2 ^ 16) ∧
      (0xFFFFFF00 &&& value = 0 ↔ value.toNat < 2 ^ 8) ∧
      (0xFFFFFFFF &&& value = 0 ↔ value.toNat < 2 ^ 0) := by
  have bounded : value.toNat < 2 ^ 32 := value.toNat_lt
  simp only [← UInt32.toNat_inj, UInt32.toNat_and]
  refine ⟨?_, ?_, ?_, ?_⟩
  · simpa using mask_and_eq_zero_iff 24 8 bounded
  · simpa using mask_and_eq_zero_iff 16 16 bounded
  · simpa using mask_and_eq_zero_iff 8 24 bounded
  · simpa using mask_and_eq_zero_iff 0 32 bounded

theorem length_intOptionBytes_le (value : UInt32) :
    (intOptionBytes value).length ≤ 4 := by
  unfold intOptionBytes
  split_ifs <;> simp

theorem value_intOptionBytes (value : UInt32) :
    BigEndian.value (intOptionBytes value) = value.toNat := by
  have bounded : value.toNat < 2 ^ 32 := value.toNat_lt
  obtain ⟨mask24, mask16, mask8, mask0⟩ := intMask_eq_zero_iff value
  have byte24 := toNat_shiftRight_toUInt8 value 24 (by decide)
  have byte16 := toNat_shiftRight_toUInt8 value 16 (by decide)
  have byte8 := toNat_shiftRight_toUInt8 value 8 (by decide)
  have byte0 : value.toUInt8.toNat = value.toNat % 256 := by simp
  norm_num at byte24 byte16 byte8
  simp only [intOptionBytes, ne_eq, mask24, mask16, mask8, mask0]
  -- the four conditions are nested, so five of the sixteen cases remain
  split_ifs <;> simp [BigEndian.value, -UInt32.toNat_toUInt8, byte0] <;> omega

theorem coapParseIntOption_intOptionBytes (value : UInt32) :
    coapParseIntOption (intOptionBytes value) = some value := by
  have short := length_intOptionBytes_le value
  unfold coapParseIntOption
  rw [if_neg (by omega)]
  congr 1
  rw [← UInt32.toNat_inj, toNat_foldl_shiftLeft_or _ short,
    value_intOptionBytes]

/-- The blocks an option value can describe: the size is the power of two of
an exponent, and the offset is the one the block number stands for. -/
structure BlockOption.Encodable (block : BlockOption) : Prop where
  size_eq : ∃ szx ≤ 7, block.size.toNat = 2 ^ (szx + 4)
  more_eq : block.more = 0 ∨ block.more = 1
  offset_eq : block.offset.toNat = block.num.toNat * block.size.toNat

private theorem coapLog2_of_size {size : UInt16} {szx : Nat}
    (size_eq : size.toNat = 2 ^ (szx + 4)) : coapLog2 (size / 16) = szx := by
  have sixteen : UInt16.toNat 16 = 2 ^ 4 := rfl
  unfold coapLog2
  rw [UInt16.toNat_div, size_eq, pow_add, sixteen,
    Nat.mul_div_cancel _ (by positivity), Nat.log2_two_pow]

private theorem toNat_coapOptionsBlockEncode {num : UInt32} (more : UInt8)
    {size : UInt16} {szx : Nat} (szx_le : szx ≤ 7)
    (num_le : num.toNat ≤ 0xFFFFF)
    (size_eq : size.toNat = 2 ^ (szx + 4)) :
    (coapOptionsBlockEncode num more size).toNat =
      num.toNat * 16 + ((if more ≠ 0 then 8 else 0) + szx) := by
  have shifted : (num <<< 4).toNat = num.toNat * 16 := by
    rw [UInt32.toNat_shiftLeft, Nat.shiftLeft_eq]
    exact Nat.mod_eq_of_lt (by simp; omega)
  have exponent : (0xF &&& UInt32.ofNat szx).toNat = szx := by
    interval_cases szx <;> rfl
  have join : ∀ low < 2 ^ 4,
      num.toNat * 16 ||| low = num.toNat * 16 + low := by
    intro low small
    have joined := Nat.shiftLeft_add_eq_or_of_lt small num.toNat
    rw [Nat.shiftLeft_eq] at joined
    exact joined.symm
  unfold coapOptionsBlockEncode
  rw [coapLog2_of_size size_eq]
  by_cases set : more ≠ 0
  · have flagged : UInt32.toNat 8 ||| szx = 8 + szx := by
      interval_cases szx <;> rfl
    simp only [set, ne_eq, not_false_eq_true, if_true, UInt32.toNat_or,
      shifted, exponent]
    rw [Nat.or_assoc, flagged, join _ (by omega)]
  · simp only [set, if_false, UInt32.toNat_or, shifted, exponent]
    rw [join _ (by omega), Nat.zero_add]

section Decoding

variable (value : UInt32)

theorem toNat_blockExponent : (value &&& 0x07).toNat = value.toNat % 8 := by
  have masked := mask_and value.toNat 0 3
  rw [UInt32.toNat_and, Nat.and_comm]
  simpa using masked

theorem toNat_coapOptionsBlockDecode_num :
    (coapOptionsBlockDecode value).num.toNat = value.toNat / 16 % 2 ^ 20 := by
  have masked := mask_and (value.toNat >>> 4) 0 20
  change ((value >>> 4) &&& 0xFFFFF).toNat = _
  rw [UInt32.toNat_and, UInt32.toNat_shiftRight, Nat.and_comm]
  simpa [Nat.shiftRight_eq_div_pow] using masked

theorem toNat_coapOptionsBlockDecode_more :
    (coapOptionsBlockDecode value).more.toNat = value.toNat / 8 % 2 := by
  have masked := mask_and value.toNat 3 1
  change ((value &&& 0x08) >>> 3).toUInt8.toNat = _
  rw [UInt32.toNat_toUInt8, UInt32.toNat_shiftRight, UInt32.toNat_and,
    Nat.and_comm]
  simp [Nat.shiftRight_eq_div_pow] at masked ⊢
  omega

theorem toNat_coapOptionsBlockDecode_size :
    (coapOptionsBlockDecode value).size.toNat = 2 ^ (value.toNat % 8 + 4) := by
  have exponent := toNat_blockExponent value
  have small : value.toNat % 8 < 8 := Nat.mod_lt _ (by decide)
  change (((16 : UInt32) <<< (value &&& 0x07)).toUInt16).toNat = _
  rw [UInt32.toNat_toUInt16, UInt32.toNat_shiftLeft, exponent]
  generalize value.toNat % 8 = szx at small
  interval_cases szx <;> rfl

theorem toNat_coapOptionsBlockDecode_offset :
    (coapOptionsBlockDecode value).offset.toNat =
      value.toNat / 16 * 16 * 2 ^ (value.toNat % 8) % 2 ^ 32 := by
  have bounded : value.toNat < 2 ^ 32 := value.toNat_lt
  have high : (value &&& 0xFFFFFFF0).toNat = value.toNat / 16 * 16 := by
    have masked := mask_and value.toNat 4 28
    rw [UInt32.toNat_and, Nat.and_comm]
    simp at masked ⊢
    omega
  have amount : value.toNat % 8 % 32 = value.toNat % 8 := by omega
  change ((value &&& 0xFFFFFFF0) <<< (value &&& 0x07)).toNat = _
  rw [UInt32.toNat_shiftLeft, high, toNat_blockExponent, amount,
    Nat.shiftLeft_eq]

end Decoding

theorem coapOptionsBlockDecode_encode {block : BlockOption}
    (num_le : block.num.toNat ≤ 0xFFFFF) (encodable : block.Encodable) :
    coapOptionsBlockDecode
      (coapOptionsBlockEncode block.num block.more block.size) = block := by
  obtain ⟨⟨szx, szx_le, size_eq⟩, more_eq, offset_eq⟩ := encodable
  have total := toNat_coapOptionsBlockEncode block.more szx_le
    num_le size_eq
  have flag : (if block.more ≠ 0 then 8 else 0) = block.more.toNat * 8 := by
    rcases more_eq with none | one
    · simp [none]
    · simp [one]
  have more_le : block.more.toNat ≤ 1 := by
    rcases more_eq with none | one
    · simp [none]
    · simp [one]
  rw [flag] at total
  generalize coapOptionsBlockEncode block.num block.more block.size = value
    at total
  have exponent : value.toNat % 8 = szx := by omega
  have number : value.toNat / 16 = block.num.toNat := by omega
  have num : (coapOptionsBlockDecode value).num = block.num := by
    rw [← UInt32.toNat_inj, toNat_coapOptionsBlockDecode_num, number]
    omega
  have more : (coapOptionsBlockDecode value).more = block.more := by
    rw [← UInt8.toNat_inj, toNat_coapOptionsBlockDecode_more]
    omega
  have size : (coapOptionsBlockDecode value).size = block.size := by
    rw [← UInt16.toNat_inj, toNat_coapOptionsBlockDecode_size, exponent, size_eq]
  have offset : (coapOptionsBlockDecode value).offset = block.offset := by
    have fits : block.num.toNat * 16 * 2 ^ szx < 2 ^ 32 := by
      calc block.num.toNat * 16 * 2 ^ szx
          ≤ 0xFFFFF * 16 * 2 ^ 7 := by gcongr; norm_num
        _ < 2 ^ 32 := by norm_num
    rw [← UInt32.toNat_inj, toNat_coapOptionsBlockDecode_offset, number, exponent,
      Nat.mod_eq_of_lt fits, offset_eq, size_eq, pow_add]
    ring
  calc coapOptionsBlockDecode value
      = ⟨(coapOptionsBlockDecode value).num,
          (coapOptionsBlockDecode value).more,
          (coapOptionsBlockDecode value).size,
          (coapOptionsBlockDecode value).offset⟩ := rfl
    _ = block := by rw [num, more, size, offset]

theorem coapOptionNibble_lt (value : Nat) : coapOptionNibble value < 15 := by
  unfold coapOptionNibble
  split_ifs <;> omega

private theorem nibbles_of_first (delta length : Fin 15) :
    (UInt8.ofNat (delta.val <<< 4 ||| length.val)).toNat &&& 0xF0 ≠ 0xF0 ∧
      (UInt8.ofNat (delta.val <<< 4 ||| length.val)).toNat >>> 4 =
        delta.val ∧
      (UInt8.ofNat (delta.val <<< 4 ||| length.val)).toNat &&& 0x0F =
        length.val := by
  revert delta length
  decide

theorem readExtension_optionExtension {memory : Mem} {value current : Nat}
    (small : value < 65805)
    (held : memory.Holds current (optionExtension value)) :
    readExtension memory (coapOptionNibble value) current =
      (value, current + (optionExtension value).length) := by
  unfold optionExtension at held ⊢
  unfold coapOptionNibble readExtension
  by_cases short : value < 13
  · simp [short, show ¬ value > 268 by omega, show ¬ value > 12 by omega,
      show value ≠ 13 by omega, show value ≠ 14 by omega]
  · by_cases medium : value ≤ 268
    · simp only [show ¬ value > 268 by omega, show value > 12 by omega,
        if_false, if_true, Mem.holds_cons] at held
      simp [short, medium, show ¬ value > 268 by omega,
        show value > 12 by omega, held.1]
      omega
    · simp only [show value > 268 by omega, if_true, Mem.holds_cons] at held
      simp [short, medium, show value > 268 by omega, held.1, held.2.1,
        Nat.shiftRight_eq_div_pow, Nat.shiftLeft_eq]
      omega

/-- The bytes of an option header, as they are found by the reader. -/
structure HeaderRead (memory : Mem) (current delta length next : Nat) :
    Prop where
  marker : (memory current).toNat &&& 0xF0 ≠ 0xF0
  delta_eq : ∃ middle,
    readExtension memory ((memory current).toNat >>> 4) (current + 1) =
        (delta, middle) ∧
      readExtension memory ((memory current).toNat &&& 0x0F) middle =
        (length, next)

theorem headerRead_coapSetOptionHeader {memory : Mem}
    {current delta length : Nat} (deltaSmall : delta < 65805)
    (lengthSmall : length < 65805)
    (held : memory.Holds current (coapSetOptionHeader true delta length).bytes) :
    HeaderRead memory current delta length
      (current + (coapSetOptionHeader true delta length).size) := by
  simp only [coapSetOptionHeader, Chunk.bytes_emit_true, Chunk.size_emit,
    List.length_cons, List.length_append] at held ⊢
  rw [Mem.holds_cons, Mem.holds_append] at held
  obtain ⟨first, deltaHeld, lengthHeld⟩ := held
  obtain ⟨marker, high, low⟩ := nibbles_of_first
    ⟨coapOptionNibble delta, coapOptionNibble_lt delta⟩
    ⟨coapOptionNibble length, coapOptionNibble_lt length⟩
  rw [← first] at marker high low
  refine ⟨marker, current + 1 + (optionExtension delta).length, ?_, ?_⟩
  · rw [high]
    exact readExtension_optionExtension deltaSmall deltaHeld
  · rw [low, readExtension_optionExtension lengthSmall lengthHeld]
    congr 1
    omega

end IotivityLite
