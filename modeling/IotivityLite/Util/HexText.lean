import IotivityLite.Security.UuidText
import IotivityLite.Server.InstanceIndex

/-!
# Hexadecimal texts

The two conversions of `oc_helpers.c` between byte arrays and texts of
hexadecimal digits.  The reader hands every pair of characters to `sscanf`
and does not look at the result: where no number is found, the variable that
was to receive it keeps whatever it held.
-/

namespace IotivityLite

namespace HexText

/-- The number that a text of hexadecimal digits stands for. -/
def hexNumeral (digits : Bytes) : Nat :=
  digits.foldl (fun number digit => number * 16 + (uuidDigit digit).toNat) 0

/-- The digits behind an optional `0x`. -/
def hexSubject : Bytes → Bytes
  | 48 :: mark :: rest =>
      if mark = 120 ∨ mark = 88 then rest.takeWhile isHexDigit
      else (48 :: mark :: rest).takeWhile isHexDigit
  | body => body.takeWhile isHexDigit

/-- `sscanf` with a single conversion `%x` of the given width; `none` when
nothing is assigned.  White space in front does not count for the width. -/
def sscanfHex (width : Nat) (text : Bytes) : Option UInt32 :=
  let field := ((text.takeWhile (· ≠ 0)).dropWhile isSpace).take width
  let sign := splitSign field
  let digits := hexSubject sign.2
  if digits = [] then none
  else
    let number := UInt32.ofNat (hexNumeral digits)
    some (if sign.1 then -number else number)

/-- `oc_conv_byte_array_to_hex_string`; `none` stands for the result -1. -/
def convByteArrayToHexString (array : Bytes) (hexStrLen : Nat) :
    Option Bytes :=
  if hexStrLen < array.length * 2 + 1 then none
  else some (ocConvByteArrayToHexString array)

section Reader

/- The characters that follow the text in memory, and what `tmp` holds before
the conversion at an index. -/
variable (beyond : Bytes) (leftover : Nat → UInt32)

/-- The byte stored for the characters from an index on. -/
def convertedByte (width index : Nat) (text : Bytes) : UInt8 :=
  ((sscanfHex width (text ++ beyond)).getD (leftover index)).toUInt8

/-- The loop over the pairs. -/
def convertedPairs : (index : Nat) → Bytes → Bytes
  | index, high :: low :: rest =>
      convertedByte beyond leftover 2 index (high :: low :: rest) ::
        convertedPairs (index + 2) rest
  | _, _ => []

/-- `oc_conv_hex_string_to_byte_array`; `none` stands for the result -1,
which leaves the array and its length alone. -/
def convHexStringToByteArray (hexStr : Bytes) (arrayLen : Nat) :
    Option Bytes :=
  if hexStr.length < 1 then none
  else if arrayLen < hexStr.length / 2 + hexStr.length % 2 then none
  else if hexStr.length % 2 ≠ 0 then
    some (convertedByte beyond leftover 1 0 hexStr ::
      convertedPairs beyond leftover 1 hexStr.tail)
  else some (convertedPairs beyond leftover 0 hexStr)

end Reader

variable {digit : UInt8}

theorem of_isHexDigit (isHex : isHexDigit digit = true) :
    digit ≠ 0 ∧ isSpace digit = false ∧ digit ≠ 43 ∧ digit ≠ 45 ∧
      digit ≠ 120 ∧ digit ≠ 88 ∧ (uuidDigit digit).toNat < 16 := by
  revert isHex
  apply forall_byte (fun number below => ?_) digit
  revert number
  decide +kernel

variable {digits : Bytes}

theorem splitSign_digits (hex : ∀ digit ∈ digits, isHexDigit digit = true) :
    splitSign digits = (false, digits) := by
  cases digits with
  | nil => rfl
  | cons first rest =>
      obtain ⟨-, -, plus, minus, -⟩ := of_isHexDigit (hex first (by simp))
      simp only [splitSign, plus, minus, if_false]

theorem hexSubject_digits (hex : ∀ digit ∈ digits, isHexDigit digit = true) :
    hexSubject digits = digits := by
  have whole : digits.takeWhile isHexDigit = digits :=
    List.takeWhile_eq_self_iff.mpr hex
  unfold hexSubject
  split
  next mark rest =>
    obtain ⟨-, -, -, -, lower, upper, -⟩ :=
      of_isHexDigit (hex mark (by simp))
    simp only [lower, upper, or_self, if_false]
    exact whole
  · exact whole

theorem sscanfHex_digits (rest : Bytes) (some_digit : digits ≠ [])
    (hex : ∀ digit ∈ digits, isHexDigit digit = true) :
    sscanfHex digits.length (digits ++ rest) =
      some (UInt32.ofNat (hexNumeral digits)) := by
  have visible : (digits ++ rest).takeWhile (· ≠ 0) =
      digits ++ rest.takeWhile (· ≠ 0) := by
    apply List.takeWhile_append_of_pos
    intro digit member
    simpa using (of_isHexDigit (hex digit member)).1
  have start : (digits ++ rest.takeWhile (· ≠ 0)).dropWhile isSpace =
      digits ++ rest.takeWhile (· ≠ 0) := by
    cases digits with
    | nil => exact absurd rfl some_digit
    | cons first others =>
        have solid := (of_isHexDigit (hex first (by simp))).2.1
        rw [List.cons_append, List.dropWhile_cons_of_neg (by simp [solid])]
  unfold sscanfHex
  simp only [visible, start, List.take_left, splitSign_digits hex,
    hexSubject_digits hex, some_digit, if_false, Bool.false_eq_true]

variable {high low : UInt8}

theorem hexNumeral_pair_lt (highHex : isHexDigit high = true)
    (lowHex : isHexDigit low = true) : hexNumeral [high, low] < 256 := by
  have highSmall := (of_isHexDigit highHex).2.2.2.2.2.2
  have lowSmall := (of_isHexDigit lowHex).2.2.2.2.2.2
  simp only [hexNumeral, List.foldl_cons, List.foldl_nil]
  omega

section Digits

variable (beyond : Bytes) (leftover : Nat → UInt32)

theorem toNat_convertedByte (index : Nat) (rest : Bytes)
    (some_digit : digits ≠ []) (hex : ∀ digit ∈ digits, isHexDigit digit = true)
    (small : hexNumeral digits < 256) :
    (convertedByte beyond leftover digits.length index
      (digits ++ rest)).toNat = hexNumeral digits := by
  unfold convertedByte
  rw [List.append_assoc, sscanfHex_digits _ some_digit hex,
    Option.getD_some, UInt32.toNat_toUInt8, UInt32.toNat_ofNat']
  omega

theorem toNat_convertedByte_single (index : Nat) (rest : Bytes)
    (isHex : isHexDigit digit = true) :
    (convertedByte beyond leftover 1 index (digit :: rest)).toNat =
      (uuidDigit digit).toNat := by
  have small := (of_isHexDigit isHex).2.2.2.2.2.2
  have single : hexNumeral [digit] = (uuidDigit digit).toNat := by
    simp [hexNumeral]
  have byte := toNat_convertedByte beyond leftover index rest
    (List.cons_ne_nil digit []) (by simpa using isHex)
    (by rw [single]; omega)
  rwa [single] at byte

theorem foldl_convertedPairs (text : Bytes) :
    ∀ (index start : Nat), text.length % 2 = 0 →
      (∀ digit ∈ text, isHexDigit digit = true) →
      (convertedPairs beyond leftover index text).foldl
          (fun total byte => total * 256 + byte.toNat) start =
        text.foldl
          (fun number digit => number * 16 + (uuidDigit digit).toNat)
          start := by
  induction text using List.twoStepInduction with
  | nil => exact fun _ _ _ _ => rfl
  | singleton digit =>
      intro index start even
      simp at even
  | cons_cons high low rest ih =>
      intro index start even hex
      have highHex := hex high (by simp)
      have lowHex := hex low (by simp)
      have byte := toNat_convertedByte beyond leftover index rest
        (List.cons_ne_nil high [low]) (by simp [highHex, lowHex])
        (hexNumeral_pair_lt highHex lowHex)
      have further := ih (index + 2)
        (start * 256 + hexNumeral [high, low])
        (by simp only [List.length_cons] at even; omega)
        (fun digit member => hex digit (by simp [member]))
      simp only [List.length_cons, List.length_nil, List.cons_append,
        List.nil_append] at byte
      rw [convertedPairs, List.foldl_cons, byte, further, List.foldl_cons,
        List.foldl_cons]
      congr 1
      simp only [hexNumeral, List.foldl_cons, List.foldl_nil]
      omega

theorem length_convertedPairs (text : Bytes) :
    ∀ index, (convertedPairs beyond leftover index text).length =
      text.length / 2 := by
  induction text using List.twoStepInduction with
  | nil => exact fun _ => rfl
  | singleton digit =>
      intro index
      simp [convertedPairs]
  | cons_cons high low rest ih =>
      intro index
      simp only [convertedPairs, List.length_cons, ih]
      omega

theorem convHexStringToByteArray_digits {hexStr : Bytes} {arrayLen : Nat}
    (some_digit : hexStr ≠ [])
    (hex : ∀ digit ∈ hexStr, isHexDigit digit = true)
    (room : hexStr.length / 2 + hexStr.length % 2 ≤ arrayLen) :
    convHexStringToByteArray beyond leftover hexStr arrayLen =
      some (BigEndian.encode (hexStr.length / 2 + hexStr.length % 2)
        (hexNumeral hexStr)) := by
  have positive : ¬ hexStr.length < 1 := by
    have := List.length_pos_iff.mpr some_digit
    omega
  unfold convHexStringToByteArray
  rw [if_neg positive, if_neg (Nat.not_lt_of_le room)]
  by_cases odd : hexStr.length % 2 ≠ 0
  · rw [if_pos odd]
    cases hexStr with
    | nil => exact absurd rfl some_digit
    | cons first rest =>
        rw [List.length_cons] at odd
        have firstHex := hex first (by simp)
        have byte := toNat_convertedByte_single beyond leftover 0 rest
          firstHex
        have pairs := foldl_convertedPairs beyond leftover rest 1
          (uuidDigit first).toNat (by omega)
          (fun digit member => hex digit (by simp [member]))
        have width : (first :: rest).length / 2 +
            (first :: rest).length % 2 =
            (convertedByte beyond leftover 1 0 (first :: rest) ::
              convertedPairs beyond leftover 1 rest).length := by
          rw [List.length_cons, List.length_cons, length_convertedPairs]
          omega
        have value : hexNumeral (first :: rest) = BigEndian.value
            (convertedByte beyond leftover 1 0 (first :: rest) ::
              convertedPairs beyond leftover 1 rest) := by
          rw [BigEndian.value, List.foldl_cons, Nat.zero_mul, Nat.zero_add,
            byte, pairs, hexNumeral, List.foldl_cons, Nat.zero_mul,
            Nat.zero_add]
        rw [width, value, BigEndian.encode_value]
        rfl
  · rw [if_neg odd]
    have even : hexStr.length % 2 = 0 := by omega
    have width : hexStr.length / 2 + hexStr.length % 2 =
        (convertedPairs beyond leftover 0 hexStr).length := by
      rw [length_convertedPairs]
      omega
    have value : hexNumeral hexStr = BigEndian.value
        (convertedPairs beyond leftover 0 hexStr) :=
      (foldl_convertedPairs beyond leftover hexStr 0 0 even hex).symm
    rw [width, value, BigEndian.encode_value]

end Digits

section Dependence

variable (beyond : Bytes)

/-- Every pair of the loop gives a number. -/
def PairsFound : Bytes → Prop
  | high :: low :: rest =>
      (sscanfHex 2 (high :: low :: rest ++ beyond)).isSome = true ∧
        PairsFound rest
  | _ => True

/-- Every conversion gives a number. -/
def AllFound (hexStr : Bytes) : Prop :=
  if hexStr.length % 2 ≠ 0 then
    (sscanfHex 1 (hexStr ++ beyond)).isSome = true ∧
      PairsFound beyond hexStr.tail
  else PairsFound beyond hexStr

theorem convertedByte_congr_iff (width index : Nat) (text : Bytes) :
    (∀ first second : Nat → UInt32,
      convertedByte beyond first width index text =
        convertedByte beyond second width index text) ↔
      (sscanfHex width (text ++ beyond)).isSome = true := by
  unfold convertedByte
  cases sscanfHex width (text ++ beyond) with
  | none =>
      simp only [Option.getD_none, Option.isSome_none, Bool.false_eq_true,
        iff_false]
      intro same
      exact absurd (same (fun _ => 0) (fun _ => 1)) (by decide)
  | some number => simp

theorem convertedPairs_congr_iff (text : Bytes) :
    ∀ index, (∀ first second : Nat → UInt32,
      convertedPairs beyond first index text =
        convertedPairs beyond second index text) ↔
      PairsFound beyond text := by
  induction text using List.twoStepInduction with
  | nil => simp [convertedPairs, PairsFound]
  | singleton digit => simp [convertedPairs, PairsFound]
  | cons_cons high low rest ih =>
      intro index
      rw [PairsFound, ← convertedByte_congr_iff beyond 2 index
        (high :: low :: rest), ← ih (index + 2)]
      simp only [convertedPairs, List.cons.injEq, forall_and]

theorem convHexStringToByteArray_congr_iff (hexStr : Bytes)
    (arrayLen : Nat) :
    (∀ first second : Nat → UInt32,
      convHexStringToByteArray beyond first hexStr arrayLen =
        convHexStringToByteArray beyond second hexStr arrayLen) ↔
      hexStr = [] ∨ arrayLen < hexStr.length / 2 + hexStr.length % 2 ∨
        AllFound beyond hexStr := by
  unfold convHexStringToByteArray AllFound
  by_cases empty : hexStr = []
  · simp [empty]
  · have positive : ¬ hexStr.length < 1 := by
      have := List.length_pos_iff.mpr empty
      omega
    by_cases narrow : arrayLen < hexStr.length / 2 + hexStr.length % 2
    · simp [positive, narrow]
    · simp only [positive, narrow, empty, if_false, false_or]
      by_cases even : hexStr.length % 2 = 0
      · simp only [even, ne_eq, not_true_eq_false, if_false,
          Option.some.injEq]
        exact convertedPairs_congr_iff beyond hexStr 0
      · simp only [even, ne_eq, not_false_eq_true, if_true,
          Option.some.injEq, List.cons.injEq, forall_and,
          convertedByte_congr_iff, convertedPairs_congr_iff]

end Dependence

theorem toNat_shiftLeft_four_or (highSmall : high.toNat < 16)
    (lowSmall : low.toNat < 16) :
    (high <<< 4 ||| low).toNat = high.toNat * 16 + low.toNat := by
  have every : ∀ high < 16, ∀ low < 16,
      (UInt8.ofNat high <<< 4 ||| UInt8.ofNat low).toNat = high * 16 + low := by
    decide
  have pair := every high.toNat highSmall low.toNat lowSmall
  rwa [UInt8.ofNat_toNat, UInt8.ofNat_toNat] at pair

section Checked

variable (beyond : Bytes) (leftover : Nat → UInt32)

theorem convertedByte_pair (index : Nat) (rest : Bytes)
    (highHex : isHexDigit high = true) (lowHex : isHexDigit low = true) :
    convertedByte beyond leftover 2 index (high :: low :: rest) =
      (uuidDigit high <<< 4 ||| uuidDigit low) := by
  have highSmall := (of_isHexDigit highHex).2.2.2.2.2.2
  have lowSmall := (of_isHexDigit lowHex).2.2.2.2.2.2
  have byte := toNat_convertedByte beyond leftover index rest
    (List.cons_ne_nil high [low]) (by simp [highHex, lowHex])
    (hexNumeral_pair_lt highHex lowHex)
  rw [← UInt8.toNat_inj, toNat_shiftLeft_four_or highSmall lowSmall]
  refine byte.trans ?_
  simp [hexNumeral]

theorem convertedPairs_eq_ocConvHexStringToByteArray (text : Bytes) :
    ∀ index, (∀ digit ∈ text, isHexDigit digit = true) →
      convertedPairs beyond leftover index text =
        ocConvHexStringToByteArray text := by
  induction text using List.twoStepInduction with
  | nil =>
      intro index hex
      simp [convertedPairs, ocConvHexStringToByteArray]
  | singleton digit =>
      intro index hex
      simp [convertedPairs, ocConvHexStringToByteArray]
  | cons_cons high low rest ih =>
      intro index hex
      have byte := convertedByte_pair beyond leftover index rest
        (hex high (by simp)) (hex low (by simp))
      have further := ih (index + 2)
        fun digit member => hex digit (by simp [member])
      rw [convertedPairs, ocConvHexStringToByteArray, byte, further]

theorem convHexStringToByteArray_eq_ocConv {hexStr : Bytes} {arrayLen : Nat}
    (some_digit : hexStr ≠ [])
    (hex : ∀ digit ∈ hexStr, isHexDigit digit = true)
    (even : hexStr.length % 2 = 0) (room : hexStr.length / 2 ≤ arrayLen) :
    convHexStringToByteArray beyond leftover hexStr arrayLen =
      some (ocConvHexStringToByteArray hexStr) := by
  have positive := List.length_pos_iff.mpr some_digit
  unfold convHexStringToByteArray
  rw [if_neg (by omega), if_neg (by omega), if_neg (by omega),
    convertedPairs_eq_ocConvHexStringToByteArray beyond leftover hexStr 0 hex]

theorem isHexDigit_of_mem_toHexString {array : Bytes}
    (member : digit ∈ ocConvByteArrayToHexString array) :
    isHexDigit digit = true := by
  obtain ⟨byte, -, here⟩ := List.mem_flatMap.mp member
  exact ((digitsReadBack byte).2 digit here).2.2.2

theorem length_toHexString (array : Bytes) :
    (ocConvByteArrayToHexString array).length = array.length * 2 := by
  simp [ocConvByteArrayToHexString, List.length_flatMap]

theorem convHexStringToByteArray_toHexString {array : Bytes}
    {hexStrLen arrayLen : Nat} (some_byte : array ≠ [])
    (textRoom : array.length * 2 + 1 ≤ hexStrLen)
    (arrayRoom : array.length ≤ arrayLen) :
    (convByteArrayToHexString array hexStrLen).bind
        (convHexStringToByteArray beyond leftover · arrayLen) =
      some array := by
  have length := length_toHexString array
  have positive := List.length_pos_iff.mpr some_byte
  unfold convByteArrayToHexString
  rw [if_neg (Nat.not_lt_of_le textRoom), Option.bind_some,
    convHexStringToByteArray_eq_ocConv beyond leftover
      (List.length_pos_iff.mp (by omega))
      (fun digit member => isHexDigit_of_mem_toHexString member) (by omega)
      (by omega),
    ocConvHexStringToByteArray_toHexString]

end Checked

/-- What is expected of the reader for a text and an array. -/
structure HexStringContract (hexStr : Bytes) (arrayLen : Nat) : Prop where
  /-- Digits give the bytes of their numeral. -/
  numeral : hexStr ≠ [] → (∀ digit ∈ hexStr, isHexDigit digit = true) →
    hexStr.length / 2 + hexStr.length % 2 ≤ arrayLen →
    ∀ beyond leftover,
      convHexStringToByteArray beyond leftover hexStr arrayLen =
        some (BigEndian.encode (hexStr.length / 2 + hexStr.length % 2)
          (hexNumeral hexStr))
  /-- Any other character makes it fail. -/
  rejects : (∃ character ∈ hexStr, isHexDigit character = false) →
    ∀ beyond leftover,
      convHexStringToByteArray beyond leftover hexStr arrayLen = none
  /-- The result is a function of the text. -/
  inputOnly : ∀ beyond beyond' leftover leftover',
    convHexStringToByteArray beyond leftover hexStr arrayLen =
      convHexStringToByteArray beyond' leftover' hexStr arrayLen

theorem convHexStringToByteArray_isSome_iff (beyond : Bytes)
    (leftover : Nat → UInt32) (hexStr : Bytes) (arrayLen : Nat) :
    (convHexStringToByteArray beyond leftover hexStr arrayLen).isSome ↔
      hexStr ≠ [] ∧ hexStr.length / 2 + hexStr.length % 2 ≤ arrayLen := by
  have positive := @List.length_pos_iff _ hexStr
  unfold convHexStringToByteArray
  split_ifs with empty narrow odd
  · simp [show hexStr = [] from List.length_eq_zero_iff.mp (by omega)]
  · simp only [Option.isSome_none, Bool.false_eq_true, false_iff]
    omega
  · simp only [Option.isSome_some, true_iff]
    exact ⟨positive.mp (by omega), by omega⟩
  · simp only [Option.isSome_some, true_iff]
    exact ⟨positive.mp (by omega), by omega⟩

theorem hexStringContract_iff (hexStr : Bytes) (arrayLen : Nat) :
    HexStringContract hexStr arrayLen ↔
      hexStr = [] ∨ arrayLen < hexStr.length / 2 + hexStr.length % 2 ∨
        ∀ digit ∈ hexStr, isHexDigit digit = true := by
  have accepted := convHexStringToByteArray_isSome_iff [] (fun _ => 0)
    hexStr arrayLen
  by_cases refused : hexStr = [] ∨
      arrayLen < hexStr.length / 2 + hexStr.length % 2
  · have fails : ∀ beyond leftover,
        convHexStringToByteArray beyond leftover hexStr arrayLen = none := by
      intro beyond leftover
      rw [← Option.not_isSome_iff_eq_none,
        convHexStringToByteArray_isSome_iff]
      rintro ⟨text, room⟩
      rcases refused with empty | narrow
      · exact text empty
      · omega
    have contract : HexStringContract hexStr arrayLen :=
      ⟨fun text _ room => absurd refused (by simp [text, room]),
        fun _ => fails,
        fun beyond beyond' leftover leftover' => by
          rw [fails beyond leftover, fails beyond' leftover']⟩
    simp only [contract, true_iff]
    exact refused.imp_right Or.inl
  · obtain ⟨text, room⟩ := not_or.mp refused
    have wide := Nat.le_of_not_lt room
    simp only [text, room, false_or]
    constructor
    · intro contract digit member
      by_contra other
      have failed := contract.rejects
        ⟨digit, member, Bool.eq_false_iff.mpr other⟩ [] fun _ => 0
      rw [failed] at accepted
      exact absurd (accepted.mpr ⟨text, wide⟩) (by simp)
    · intro hex
      refine ⟨fun _ _ _ beyond leftover =>
        convHexStringToByteArray_digits beyond leftover text hex wide, ?_, ?_⟩
      · rintro ⟨character, member, other⟩
        rw [hex character member] at other
        cases other
      · intro beyond beyond' leftover leftover'
        rw [convHexStringToByteArray_digits beyond leftover text hex wide,
          convHexStringToByteArray_digits beyond' leftover' text hex wide]

/-- Arrays come back from their texts; the reader keeps its contract exactly
for the texts of digits and for those it refuses unread; and its output
depends on the uninitialised variable exactly where it accepts a text in
which a conversion finds no number. -/
theorem hex_string_conversion (beyond : Bytes) :
    (∀ array ≠ [], ∀ hexStrLen ≥ array.length * 2 + 1,
      ∀ arrayLen ≥ array.length, ∀ leftover,
        (convByteArrayToHexString array hexStrLen).bind
            (convHexStringToByteArray beyond leftover · arrayLen) =
          some array) ∧
      (∀ hexStr arrayLen, HexStringContract hexStr arrayLen ↔
        hexStr = [] ∨ arrayLen < hexStr.length / 2 + hexStr.length % 2 ∨
          ∀ digit ∈ hexStr, isHexDigit digit = true) ∧
      ∀ hexStr arrayLen, (∀ first second : Nat → UInt32,
        convHexStringToByteArray beyond first hexStr arrayLen =
          convHexStringToByteArray beyond second hexStr arrayLen) ↔
        hexStr = [] ∨ arrayLen < hexStr.length / 2 + hexStr.length % 2 ∨
          AllFound beyond hexStr := by
  refine ⟨?_, hexStringContract_iff, convHexStringToByteArray_congr_iff beyond⟩
  intro array some_byte hexStrLen textRoom arrayLen arrayRoom leftover
  exact convHexStringToByteArray_toHexString beyond leftover some_byte
    textRoom arrayRoom

/-- Two letters that are no digits are accepted, and the byte stored for them
is the one the variable held. -/
theorem not_hexStringContract_letters : ¬ HexStringContract (ascii "zz") 1 := by
  intro contract
  have same := contract.inputOnly [] [] (fun _ => 0) (fun _ => 1)
  revert same
  decide

end HexText

end IotivityLite
