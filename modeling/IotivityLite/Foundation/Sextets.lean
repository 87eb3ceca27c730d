import IotivityLite.Foundation.Memory
import Mathlib.Tactic

/-!
# Groups of six bits

Three bytes have as many bits as four groups of six.  A byte string is cut
into such groups, the last of which is filled up with zeros, and groups are
put together to bytes again, where the bits that are left over are dropped.
-/

namespace IotivityLite

namespace Sextets

/-- The groups of a byte string. -/
def cut : Bytes → List UInt8
  | [] => []
  | [a] => [a >>> 2, (a <<< 4) &&& 0x30]
  | [a, b] =>
      [a >>> 2, ((a <<< 4) &&& (0x30 : UInt8)) ||| (b >>> 4), (b <<< 2) &&& 0x3C]
  | a :: b :: c :: rest =>
      (a >>> 2) :: (((a <<< 4) &&& (0x30 : UInt8)) ||| (b >>> 4)) ::
        (((b <<< 2) &&& (0x3C : UInt8)) ||| (c >>> 6)) :: (c &&& 0x3F) :: cut rest

/-- The bytes of groups. -/
def join : List UInt8 → Bytes
  | [] => []
  | [_] => []
  | [a, b] => [(a <<< 2) ||| (b >>> 4)]
  | [a, b, c] => [(a <<< 2) ||| (b >>> 4), (b <<< 4) ||| (c >>> 2)]
  | a :: b :: c :: d :: rest =>
      ((a <<< 2) ||| (b >>> 4)) :: ((b <<< 4) ||| (c >>> 2)) ::
        ((c <<< 6) ||| d) :: join rest

/-- The bits of the last group that belong to no byte are zero. -/
def clear : List UInt8 → List UInt8
  | [] => []
  | [a] => [a]
  | [a, b] => [a, b &&& 0x30]
  | [a, b, c] => [a, b, c &&& 0x3C]
  | a :: b :: c :: d :: rest => a :: b :: c :: d :: clear rest

/-- The values have six bits. -/
def SixBit (values : List UInt8) : Prop := ∀ value ∈ values, value < 64

variable {value : UInt8}

theorem sixBit_cons {values : List UInt8} :
    SixBit (value :: values) ↔ value < 64 ∧ SixBit values :=
  List.forall_mem_cons

theorem high_bits (small : value < 64) :
    value.toBitVec[6] = false ∧ value.toBitVec[7] = false := by
  have below : value.toNat < 2 ^ 6 := UInt8.lt_iff_toNat_lt.mp small
  have above : value.toNat < 2 ^ 7 := by omega
  exact ⟨Nat.testBit_lt_two_pow below, Nat.testBit_lt_two_pow above⟩

theorem small_of_high_bits (sixth : value.toBitVec[6] = false)
    (seventh : value.toBitVec[7] = false) : value < 64 := by
  have masked : value &&& 0x3F = value := by
    apply UInt8.eq_of_toBitVec_eq
    ext index below
    interval_cases index <;> simp [sixth, seventh]
  rw [← masked]
  exact UInt8.lt_iff_toNat_lt.mpr
    (lt_of_le_of_lt Nat.and_le_right (by decide))

theorem sixBit_cut (bytes : Bytes) : SixBit (cut bytes) := by
  induction bytes using cut.induct with
  | case1 => simp [cut, SixBit]
  | case2 a =>
      simp only [cut, sixBit_cons]
      refine ⟨?_, ?_, by simp [SixBit]⟩
      · exact small_of_high_bits (by simp) (by simp)
      · exact small_of_high_bits (by simp) (by simp)
  | case3 a b =>
      simp only [cut, sixBit_cons]
      refine ⟨?_, ?_, ?_, by simp [SixBit]⟩
      · exact small_of_high_bits (by simp) (by simp)
      · exact small_of_high_bits (by simp) (by simp)
      · exact small_of_high_bits (by simp) (by simp)
  | case4 a b c rest ih =>
      simp only [cut, sixBit_cons]
      refine ⟨?_, ?_, ?_, ?_, ih⟩
      · exact small_of_high_bits (by simp) (by simp)
      · exact small_of_high_bits (by simp) (by simp)
      · exact small_of_high_bits (by simp) (by simp)
      · exact small_of_high_bits (by simp) (by simp)

theorem join_cut (bytes : Bytes) : join (cut bytes) = bytes := by
  induction bytes using cut.induct with
  | case1 => rfl
  | case2 a =>
      have first : (a >>> 2) <<< 2 ||| ((a <<< 4) &&& (0x30 : UInt8)) >>> 4 =
          a := by
        apply UInt8.eq_of_toBitVec_eq
        ext index below
        interval_cases index <;> simp
      simp only [cut, join, first]
  | case3 a b =>
      have first : (a >>> 2) <<< 2 |||
          (((a <<< 4) &&& (0x30 : UInt8)) ||| b >>> 4) >>> 4 = a := by
        apply UInt8.eq_of_toBitVec_eq
        ext index below
        interval_cases index <;> simp
      have second : (((a <<< 4) &&& (0x30 : UInt8)) ||| b >>> 4) <<< 4 |||
          ((b <<< 2) &&& (0x3C : UInt8)) >>> 2 = b := by
        apply UInt8.eq_of_toBitVec_eq
        ext index below
        interval_cases index <;> simp
      simp only [cut, join, first, second]
  | case4 a b c rest ih =>
      have first : (a >>> 2) <<< 2 |||
          (((a <<< 4) &&& (0x30 : UInt8)) ||| b >>> 4) >>> 4 = a := by
        apply UInt8.eq_of_toBitVec_eq
        ext index below
        interval_cases index <;> simp
      have second : (((a <<< 4) &&& (0x30 : UInt8)) ||| b >>> 4) <<< 4 |||
          (((b <<< 2) &&& (0x3C : UInt8)) ||| c >>> 6) >>> 2 = b := by
        apply UInt8.eq_of_toBitVec_eq
        ext index below
        interval_cases index <;> simp
      have third : (((b <<< 2) &&& (0x3C : UInt8)) ||| c >>> 6) <<< 6 |||
          (c &&& (0x3F : UInt8)) = c := by
        apply UInt8.eq_of_toBitVec_eq
        ext index below
        interval_cases index <;> simp
      simp only [cut, join, first, second, third, ih]

section Groups

variable {a b c d : UInt8}

theorem first_group (smallA : a < 64) (smallB : b < 64) :
    ((a <<< 2) ||| (b >>> 4)) >>> 2 = a := by
  obtain ⟨a6, a7⟩ := high_bits smallA
  obtain ⟨b6, b7⟩ := high_bits smallB
  apply UInt8.eq_of_toBitVec_eq
  ext index below
  interval_cases index <;> simp [a6, a7, b6, b7]

theorem second_group (smallB : b < 64) (smallC : c < 64) :
    ((((a <<< 2) ||| (b >>> 4)) <<< 4) &&& (0x30 : UInt8)) |||
      (((b <<< 4) ||| (c >>> 2)) >>> 4) = b := by
  obtain ⟨b6, b7⟩ := high_bits smallB
  obtain ⟨c6, c7⟩ := high_bits smallC
  apply UInt8.eq_of_toBitVec_eq
  ext index below
  interval_cases index <;> simp [b6, b7, c6, c7]

theorem third_group (smallC : c < 64) (smallD : d < 64) :
    ((((b <<< 4) ||| (c >>> 2)) <<< 2) &&& (0x3C : UInt8)) |||
      (((c <<< 6) ||| d) >>> 6) = c := by
  obtain ⟨c6, c7⟩ := high_bits smallC
  obtain ⟨d6, d7⟩ := high_bits smallD
  apply UInt8.eq_of_toBitVec_eq
  ext index below
  interval_cases index <;> simp [c6, c7, d6, d7]

theorem fourth_group (smallD : d < 64) :
    ((c <<< 6) ||| d) &&& (0x3F : UInt8) = d := by
  obtain ⟨d6, d7⟩ := high_bits smallD
  apply UInt8.eq_of_toBitVec_eq
  ext index below
  interval_cases index <;> simp [d6, d7]

theorem last_of_two (a b : UInt8) :
    (((a <<< 2) ||| (b >>> 4)) <<< 4) &&& (0x30 : UInt8) =
      b &&& (0x30 : UInt8) := by
  apply UInt8.eq_of_toBitVec_eq
  ext index below
  interval_cases index <;> simp

theorem last_of_three (b c : UInt8) :
    (((b <<< 4) ||| (c >>> 2)) <<< 2) &&& (0x3C : UInt8) =
      c &&& (0x3C : UInt8) := by
  apply UInt8.eq_of_toBitVec_eq
  ext index below
  interval_cases index <;> simp

end Groups

theorem cut_join {values : List UInt8} (small : SixBit values)
    (possible : values.length % 4 ≠ 1) : cut (join values) = clear values := by
  induction values using join.induct with
  | case1 => rfl
  | case2 a => exact absurd rfl possible
  | case3 a b =>
      simp only [sixBit_cons] at small
      obtain ⟨smallA, smallB, -⟩ := small
      simp only [join, cut, clear, first_group smallA smallB, last_of_two]
  | case4 a b c =>
      simp only [sixBit_cons] at small
      obtain ⟨smallA, smallB, smallC, -⟩ := small
      simp only [join, cut, clear, first_group smallA smallB,
        second_group smallB smallC, last_of_three]
  | case5 a b c d rest ih =>
      simp only [sixBit_cons] at small
      obtain ⟨smallA, smallB, smallC, smallD, smallRest⟩ := small
      have possibleRest : rest.length % 4 ≠ 1 := by
        simp only [List.length_cons] at possible
        omega
      simp only [join, cut, clear, first_group smallA smallB,
        second_group smallB smallC, third_group smallC smallD,
        fourth_group smallD, ih smallRest possibleRest]

theorem length_join (values : List UInt8) :
    (join values).length = values.length * 3 / 4 := by
  induction values using join.induct with
  | case1 => rfl
  | case2 a => simp [join]
  | case3 a b => simp [join]
  | case4 a b c => simp [join]
  | case5 a b c d rest ih =>
      simp only [join, List.length_cons, ih]
      omega

theorem length_cut (bytes : Bytes) :
    (cut bytes).length = (bytes.length * 4 + 2) / 3 := by
  induction bytes using cut.induct with
  | case1 => rfl
  | case2 a => simp [cut]
  | case3 a b => simp [cut]
  | case4 a b c rest ih =>
      simp only [cut, List.length_cons, ih]
      omega

end Sextets

end IotivityLite
