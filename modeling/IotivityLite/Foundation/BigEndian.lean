import IotivityLite.Foundation.Memory
import Mathlib.Tactic

/-!
# Big-endian byte strings

The number a byte string stands for, most significant byte first, and the
byte string of a given width for a number.  The last lemmas connect the two
with the bit masks, shifts and disjunctions that byte-wise codecs are written
with.
-/

namespace IotivityLite

namespace BigEndian

def value (bytes : Bytes) : Nat :=
  bytes.foldl (fun total byte => total * 256 + byte.toNat) 0

/-- The lowest `width` bytes of a number. -/
def encode : (width number : Nat) → Bytes
  | 0, _ => []
  | width + 1, number =>
      encode width (number / 256) ++ [UInt8.ofNat (number % 256)]

@[simp] theorem value_nil : value [] = 0 := rfl

variable (bytes : Bytes)

@[simp] theorem value_concat (byte : UInt8) :
    value (bytes ++ [byte]) = value bytes * 256 + byte.toNat := by
  simp [value]

@[simp] theorem value_zero_cons :
    value (0 :: bytes) = value bytes := rfl

theorem value_lt : value bytes < 256 ^ bytes.length := by
  induction bytes using List.reverseRecOn with
  | nil => simp
  | append_singleton bytes byte ih =>
      have small : byte.toNat < 256 := byte.toNat_lt
      rw [value_concat, List.length_append, List.length_singleton, pow_succ]
      omega

@[simp] theorem length_encode (width number : Nat) :
    (encode width number).length = width := by
  induction width generalizing number with
  | zero => rfl
  | succ width ih => simp [encode, ih]

theorem value_encode (width number : Nat) :
    value (encode width number) = number % 256 ^ width := by
  induction width generalizing number with
  | zero => simp [encode, Nat.mod_one]
  | succ width ih =>
      have last : (UInt8.ofNat (number % 256)).toNat = number % 256 := by
        simp
      rw [encode, value_concat, ih, last, pow_succ, Nat.mul_comm (256 ^ width),
        Nat.mod_mul]
      omega

theorem encode_value :
    encode bytes.length (value bytes) = bytes := by
  induction bytes using List.reverseRecOn with
  | nil => rfl
  | append_singleton bytes byte ih =>
      have small : byte.toNat < 256 := byte.toNat_lt
      have high : (value bytes * 256 + byte.toNat) / 256 = value bytes := by
        omega
      have low : (value bytes * 256 + byte.toNat) % 256 = byte.toNat := by
        omega
      rw [List.length_append, List.length_singleton, value_concat, encode,
        high, low, ih, UInt8.ofNat_toNat]

theorem drop_encode (skipped width number : Nat) :
    (encode (skipped + width) number).drop skipped = encode width number := by
  induction width generalizing number with
  | zero => simp [encode]
  | succ width ih =>
      rw [← Nat.add_assoc, encode, List.drop_append_of_le_length (by simp), ih,
        encode]

theorem value_replicate_zero_append (count : Nat) (bytes : Bytes) :
    value (List.replicate count 0 ++ bytes) = value bytes := by
  induction count with
  | zero => rfl
  | succ count ih =>
      rw [List.replicate_succ, List.cons_append, value_zero_cons, ih]

theorem value_dropWhile_zero :
    value (bytes.dropWhile (· == 0)) = value bytes := by
  induction bytes with
  | nil => rfl
  | cons head tail ih =>
      by_cases zero : head = 0
      · subst zero
        simpa using ih
      · simp [zero]

theorem mask_and (number low width : Nat) :
    ((2 ^ width - 1) <<< low) &&& number =
      number / 2 ^ low % 2 ^ width * 2 ^ low := by
  rw [← Nat.shiftRight_eq_div_pow, ← Nat.shiftLeft_eq]
  apply Nat.eq_of_testBit_eq
  intro index
  by_cases above : low ≤ index
  · have split : low + (index - low) = index := by omega
    simp [Nat.testBit_shiftLeft, Nat.testBit_mod_two_pow, above, split]
  · simp [Nat.testBit_shiftLeft, above]

theorem mask_and_eq_zero_iff {number : Nat} (low width : Nat)
    (bounded : number < 2 ^ (low + width)) :
    ((2 ^ width - 1) <<< low) &&& number = 0 ↔ number < 2 ^ low := by
  have inside : number / 2 ^ low < 2 ^ width := by
    rw [Nat.div_lt_iff_lt_mul (by positivity), ← pow_add, Nat.add_comm]
    exact bounded
  rw [mask_and, Nat.mod_eq_of_lt inside, Nat.mul_eq_zero,
    Nat.div_eq_zero_iff]
  simp

theorem toNat_shiftLeft_or (total : UInt32) (byte : UInt8)
    (small : total.toNat < 2 ^ 24) :
    ((total <<< 8) ||| byte.toUInt32).toNat =
      total.toNat * 256 + byte.toNat := by
  have fits : total.toNat * 256 < 4294967296 := by omega
  have low : byte.toNat < 2 ^ 8 := byte.toNat_lt
  have joined := Nat.shiftLeft_add_eq_or_of_lt low total.toNat
  rw [Nat.shiftLeft_eq] at joined
  have shifted : (total <<< 8).toNat = total.toNat * 256 := by
    rw [UInt32.toNat_shiftLeft, Nat.shiftLeft_eq]
    exact Nat.mod_eq_of_lt fits
  rw [UInt32.toNat_or, shifted, UInt8.toNat_toUInt32]
  exact joined.symm

theorem toNat_foldl_shiftLeft_or (short : bytes.length ≤ 4) :
    (bytes.foldl
      (fun (total : UInt32) byte => (total <<< 8) ||| byte.toUInt32) 0).toNat =
        value bytes := by
  induction bytes using List.reverseRecOn with
  | nil => rfl
  | append_singleton bytes byte ih =>
      rw [List.length_append, List.length_singleton] at short
      have read := ih (by omega)
      have bound : value bytes < 2 ^ 24 := by
        calc value bytes < 256 ^ bytes.length := value_lt bytes
          _ ≤ 256 ^ 3 := Nat.pow_le_pow_right (by omega) (by omega)
      rw [List.foldl_concat, toNat_shiftLeft_or _ _ (by omega), read,
        value_concat]

theorem foldl_shiftLeft_or :
    bytes.foldl (fun total byte => total <<< 8 ||| byte.toNat) 0 =
      value bytes := by
  induction bytes using List.reverseRecOn with
  | nil => rfl
  | append_singleton bytes byte ih =>
      have low : byte.toNat < 2 ^ 8 := byte.toNat_lt
      have joined := Nat.shiftLeft_add_eq_or_of_lt low (value bytes)
      rw [List.foldl_concat, ih, value_concat, ← joined, Nat.shiftLeft_eq]

theorem map_shiftRight_eq_encode (width number : Nat) :
    (List.range' 1 width).map
        (fun index => UInt8.ofNat (number >>> (8 * (width - index)))) =
      encode width number := by
  induction width generalizing number with
  | zero => rfl
  | succ width ih =>
      rw [List.range'_concat, List.map_append, encode, ← ih]
      congr 1
      · apply List.map_congr_left
        intro index inside
        have last : index < 1 + width := (List.mem_range'_1.mp inside).2
        have shift : 8 * (width + 1 - index) = 8 + 8 * (width - index) := by
          omega
        rw [shift, Nat.shiftRight_add, Nat.shiftRight_eq_div_pow number 8]
      · have last : 8 * (width + 1 - (1 + 1 * width)) = 0 := by omega
        rw [List.map_singleton, last, Nat.shiftRight_zero]
        exact congrArg (fun byte => [byte]) UInt8.ofNat_mod_size.symm

theorem toNat_shiftRight_toUInt8 (word shift : UInt32)
    (inside : shift.toNat < 32) :
    ((word >>> shift).toUInt8).toNat =
      word.toNat / 2 ^ shift.toNat % 256 := by
  simp [UInt32.toNat_shiftRight, Nat.shiftRight_eq_div_pow,
    Nat.mod_eq_of_lt inside]

end BigEndian

end IotivityLite
