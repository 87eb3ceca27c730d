import IotivityLite.Foundation.Sextets
import IotivityLite.Util.Base64

/-!
# The codec for Base64

What the encoder writes and what the decoder accepts are texts that spell
groups of six bits.  The decoder does not ask for the unused bits of the last
group to be zero, so a text that it accepts is encoded again to one that may
differ in the last letter.
-/

namespace IotivityLite

open Sextets

section Alphabet

variable (encoding : Base64Encoding)

theorem base64_alphabet (byte : UInt8) :
    (byte < 64 →
      base64DecodeChar encoding (base64EncodeChar encoding byte) = some byte ∧
        base64EncodeChar encoding byte ≠ 61) ∧
      (base64DecodeChar encoding byte).all (fun value =>
        value < 64 && base64EncodeChar encoding value == byte) = true := by
  apply forall_byte (fun number below => ?_) byte
  cases encoding <;> revert number <;> decide +kernel

theorem base64DecodeChar_encode {value : UInt8} (small : value < 64) :
    base64DecodeChar encoding (base64EncodeChar encoding value) =
      some value :=
  ((base64_alphabet encoding value).1 small).1

theorem base64EncodeChar_ne_pad {value : UInt8} (small : value < 64) :
    base64EncodeChar encoding value ≠ 61 :=
  ((base64_alphabet encoding value).1 small).2

theorem base64DecodeChar_some {char value : UInt8}
    (decoded : base64DecodeChar encoding char = some value) :
    value < 64 ∧ base64EncodeChar encoding value = char := by
  have checked := (base64_alphabet encoding char).2
  rw [decoded, Option.all_some, Bool.and_eq_true, decide_eq_true_iff,
    beq_iff_eq] at checked
  exact checked

end Alphabet

theorem mask_second (byte : UInt8) :
    (byte <<< 2) &&& (0x3D : UInt8) = (byte <<< 2) &&& (0x3C : UInt8) := by
  apply UInt8.eq_of_toBitVec_eq
  ext index below
  interval_cases index <;> simp

section Encoder

variable {encoding : Base64Encoding} {byte val : UInt8} {rest : Bytes}
  {i : Nat}

theorem base64EncodeLoop_first (first : i % 3 = 0) :
    base64EncodeLoop encoding (byte :: rest) i val =
      base64EncodeChar encoding (byte >>> 2) ::
        base64EncodeLoop encoding rest (i + 1)
          ((byte <<< 4) &&& (0x30 : UInt8)) := by
  rw [base64EncodeLoop, first]
  rfl

theorem base64EncodeLoop_second (second : i % 3 = 1) :
    base64EncodeLoop encoding (byte :: rest) i val =
      base64EncodeChar encoding (val ||| (byte >>> 4)) ::
        base64EncodeLoop encoding rest (i + 1)
          ((byte <<< 2) &&& (0x3C : UInt8)) := by
  rw [base64EncodeLoop, second]
  simp only [mask_second]

theorem base64EncodeLoop_third (third : i % 3 = 2) :
    base64EncodeLoop encoding (byte :: rest) i val =
      base64EncodeChar encoding (val ||| (byte >>> 6)) ::
        base64EncodeChar encoding (byte &&& (0x3F : UInt8)) ::
          base64EncodeLoop encoding rest (i + 1)
            (byte &&& (0x3F : UInt8)) := by
  rw [base64EncodeLoop, third]
  rfl

theorem base64EncodeLoop_cut (encoding : Base64Encoding) (input : Bytes)
    {i : Nat} (first : i % 3 = 0) (val : UInt8) :
    base64EncodeLoop encoding input i val =
      (cut input).map (base64EncodeChar encoding) := by
  induction input using cut.induct generalizing i val with
  | case1 => simp [base64EncodeLoop, first, cut]
  | case2 a =>
      have second : (i + 1) % 3 ≠ 0 := by omega
      rw [base64EncodeLoop_first first, base64EncodeLoop, if_pos second]
      rfl
  | case3 a b =>
      have second : (i + 1) % 3 = 1 := by omega
      have third : (i + 1 + 1) % 3 ≠ 0 := by omega
      rw [base64EncodeLoop_first first, base64EncodeLoop_second second,
        base64EncodeLoop, if_pos third]
      rfl
  | case4 a b c rest ih =>
      have second : (i + 1) % 3 = 1 := by omega
      have third : (i + 1 + 1) % 3 = 2 := by omega
      have again : (i + 1 + 1 + 1) % 3 = 0 := by omega
      rw [base64EncodeLoop_first first, base64EncodeLoop_second second,
        base64EncodeLoop_third third, ih again]
      rfl

end Encoder

/-- The number of padding characters behind so many letters. -/
def padCount (padding : Bool) (letters : Nat) : Nat :=
  if padding then (4 - letters % 4) % 4 else 0

/-- The text of groups. -/
def base64Spelling (encoding : Base64Encoding) (padding : Bool)
    (values : List UInt8) : Bytes :=
  values.map (base64EncodeChar encoding) ++
    List.replicate (padCount padding values.length) 61

/-- The text spells groups of six bits, and their number is one that whole
bytes have. -/
structure Spells (encoding : Base64Encoding) (padding : Bool)
    (values : List UInt8) (text : Bytes) : Prop where
  small : SixBit values
  possible : values.length % 4 ≠ 1
  text : text = base64Spelling encoding padding values

theorem length_base64Spelling (encoding : Base64Encoding) (padding : Bool)
    (values : List UInt8) :
    (base64Spelling encoding padding values).length =
      values.length + padCount padding values.length := by
  simp [base64Spelling]

theorem possible_cut (bytes : Bytes) : (cut bytes).length % 4 ≠ 1 := by
  rw [length_cut]
  omega

theorem ocBase64EncodedOutputSize_eq (padding : Bool) (bytes : Bytes) :
    ocBase64EncodedOutputSize bytes.length padding =
      (cut bytes).length + padCount padding (cut bytes).length := by
  rw [length_cut]
  cases padding with
  | false => simp [ocBase64EncodedOutputSize, padCount]
  | true =>
      simp only [ocBase64EncodedOutputSize, padCount, if_true]
      split <;> omega

theorem ocBase64EncodeV1_eq (encoding : Base64Encoding) (padding : Bool)
    {input : Bytes} {outputBufferSize : Nat}
    (room : ocBase64EncodedOutputSize input.length padding ≤
      outputBufferSize) :
    ocBase64EncodeV1 encoding padding input outputBufferSize =
      some (base64Spelling encoding padding (cut input)) := by
  by_cases nothing : input = []
  · subst nothing
    cases padding <;> rfl
  · have letters := base64EncodeLoop_cut encoding input (Nat.zero_mod 3) 0
    have size := ocBase64EncodedOutputSize_eq padding input
    rw [ocBase64EncodeV1, if_neg nothing]
    simp only [if_neg (Nat.not_lt.mpr room), letters, List.length_map]
    cases padding with
    | true =>
        rw [if_pos rfl, size, Nat.add_sub_cancel_left]
        rfl
    | false =>
        rw [if_neg Bool.false_ne_true, base64Spelling, padCount,
          if_neg Bool.false_ne_true, List.replicate_zero, List.append_nil]

section Decoder

variable {encoding : Base64Encoding} {padding : Bool} {inputSize i : Nat}
  {value valC : UInt8} {rest output : Bytes}

theorem not_pad (small : value < 64) :
    ¬(padding = true ∧ base64EncodeChar encoding value = 61) :=
  fun pad => base64EncodeChar_ne_pad encoding small pad.2

theorem mask_first (value : UInt8) :
    (value <<< 2) &&& (0xFD : UInt8) = value <<< 2 := by
  apply UInt8.eq_of_toBitVec_eq
  ext index below
  interval_cases index <;> simp

theorem mask_nibble (value : UInt8) :
    (value <<< 4) &&& (0xF0 : UInt8) = value <<< 4 := by
  apply UInt8.eq_of_toBitVec_eq
  ext index below
  interval_cases index <;> simp

theorem mask_third (value : UInt8) :
    (value <<< 6) &&& (0xD0 : UInt8) = value <<< 6 := by
  apply UInt8.eq_of_toBitVec_eq
  ext index below
  interval_cases index <;> simp

theorem base64DecodeLoop_letter (small : value < 64) :
    base64DecodeLoop encoding padding inputSize
        (base64EncodeChar encoding value :: rest) i valC output =
      match i % 4 with
      | 0 =>
          base64DecodeLoop encoding padding inputSize rest (i + 1)
            ((value <<< 2) &&& 0xFD) output
      | 1 =>
          base64DecodeLoop encoding padding inputSize rest (i + 1)
            ((value <<< 4) &&& 0xF0) (output ++ [valC ||| value >>> 4])
      | 2 =>
          base64DecodeLoop encoding padding inputSize rest (i + 1)
            ((value <<< 6) &&& 0xD0) (output ++ [valC ||| value >>> 2])
      | _ =>
          base64DecodeLoop encoding padding inputSize rest (i + 1)
            (valC ||| value) (output ++ [valC ||| value]) := by
  rewrite [base64DecodeLoop, if_neg (not_pad small),
    base64DecodeChar_encode encoding small]
  rfl

theorem base64DecodeLoop_first (small : value < 64) (first : i % 4 = 0) :
    base64DecodeLoop encoding padding inputSize
        (base64EncodeChar encoding value :: rest) i valC output =
      base64DecodeLoop encoding padding inputSize rest (i + 1) (value <<< 2)
        output := by
  rw [base64DecodeLoop_letter small, first]
  simp only [mask_first]

theorem base64DecodeLoop_second (small : value < 64) (second : i % 4 = 1) :
    base64DecodeLoop encoding padding inputSize
        (base64EncodeChar encoding value :: rest) i valC output =
      base64DecodeLoop encoding padding inputSize rest (i + 1) (value <<< 4)
        (output ++ [valC ||| (value >>> 4)]) := by
  rw [base64DecodeLoop_letter small, second]
  simp only [mask_nibble]

theorem base64DecodeLoop_third (small : value < 64) (third : i % 4 = 2) :
    base64DecodeLoop encoding padding inputSize
        (base64EncodeChar encoding value :: rest) i valC output =
      base64DecodeLoop encoding padding inputSize rest (i + 1) (value <<< 6)
        (output ++ [valC ||| (value >>> 2)]) := by
  rw [base64DecodeLoop_letter small, third]
  simp only [mask_third]

theorem base64DecodeLoop_fourth (small : value < 64) (fourth : i % 4 = 3) :
    base64DecodeLoop encoding padding inputSize
        (base64EncodeChar encoding value :: rest) i valC output =
      base64DecodeLoop encoding padding inputSize rest (i + 1)
        (valC ||| value) (output ++ [valC ||| value]) := by
  rw [base64DecodeLoop_letter small, fourth]
  rfl

/-- The end of the text, or padding in the last places. -/
def Ends (padding : Bool) (inputSize i : Nat) (pads : Bytes) : Prop :=
  pads = [] ∧ i = inputSize ∨
    padding = true ∧ 2 ≤ inputSize ∧
      (pads = [61] ∧ i + 1 = inputSize ∨ pads = [61, 61] ∧ i + 2 = inputSize)

theorem base64DecodeLoop_ends {pads : Bytes}
    (ends : Ends padding inputSize i pads) :
    base64DecodeLoop encoding padding inputSize pads i valC output =
      some output := by
  obtain ⟨rfl, -⟩ | ⟨rfl, several, ⟨rfl, last⟩ | ⟨rfl, last⟩⟩ := ends
  · rfl
  · have notEarly : ¬i < inputSize - 2 := by omega
    have notFirst : ¬i = inputSize - 2 := by omega
    rw [base64DecodeLoop, if_pos ⟨rfl, rfl⟩, if_neg notEarly,
      if_neg fun pad => notFirst pad.1]
  · have notEarly : ¬i < inputSize - 2 := by omega
    rw [base64DecodeLoop, if_pos ⟨rfl, rfl⟩, if_neg notEarly,
      if_neg fun pad => pad.2 rfl]

theorem base64DecodeLoop_join {values : List UInt8} {pads : Bytes}
    (small : SixBit values) (first : i % 4 = 0)
    (ends : Ends padding inputSize (i + values.length) pads) :
    base64DecodeLoop encoding padding inputSize
        (values.map (base64EncodeChar encoding) ++ pads) i valC output =
      some (output ++ join values) := by
  have second : (i + 1) % 4 = 1 := by omega
  have third : (i + 1 + 1) % 4 = 2 := by omega
  have fourth : (i + 1 + 1 + 1) % 4 = 3 := by omega
  induction values using join.induct generalizing i valC output with
  | case1 =>
      rw [join, List.append_nil]
      exact base64DecodeLoop_ends ends
  | case2 a =>
      simp only [sixBit_cons] at small
      simp only [List.map_cons, List.cons_append]
      rw [base64DecodeLoop_first small.1 first, join, List.append_nil]
      exact base64DecodeLoop_ends ends
  | case3 a b =>
      simp only [sixBit_cons] at small
      obtain ⟨smallA, smallB, -⟩ := small
      simp only [List.map_cons, List.cons_append]
      rw [base64DecodeLoop_first smallA first,
        base64DecodeLoop_second smallB second]
      exact base64DecodeLoop_ends ends
  | case4 a b c =>
      simp only [sixBit_cons] at small
      obtain ⟨smallA, smallB, smallC, -⟩ := small
      simp only [List.map_cons, List.cons_append]
      rw [base64DecodeLoop_first smallA first,
        base64DecodeLoop_second smallB second,
        base64DecodeLoop_third smallC third]
      refine (base64DecodeLoop_ends ends).trans ?_
      simp [join]
  | case5 a b c d rest ih =>
      simp only [sixBit_cons] at small
      obtain ⟨smallA, smallB, smallC, smallD, smallRest⟩ := small
      have again : (i + 1 + 1 + 1 + 1) % 4 = 0 := by omega
      have later : Ends padding inputSize (i + 1 + 1 + 1 + 1 + rest.length)
          pads := by
        have same : i + 1 + 1 + 1 + 1 + rest.length =
            i + (a :: b :: c :: d :: rest).length := by
          simp only [List.length_cons]
          omega
        rw [same]
        exact ends
      simp only [List.map_cons, List.cons_append]
      rw [base64DecodeLoop_first smallA first,
        base64DecodeLoop_second smallB second,
        base64DecodeLoop_third smallC third,
        base64DecodeLoop_fourth smallD fourth,
        ih smallRest again later (by omega) (by omega) (by omega)]
      simp [join]

theorem exists_letters {result : Bytes} (behind : i + rest.length = inputSize)
    (accepted : base64DecodeLoop encoding padding inputSize rest i valC
      output = some result) :
    ∃ values pads, rest = values.map (base64EncodeChar encoding) ++ pads ∧
      SixBit values ∧
        Ends padding inputSize (i + values.length) pads := by
  induction rest generalizing i valC output with
  | nil => exact ⟨[], [], rfl, by simp [SixBit], .inl ⟨rfl, behind⟩⟩
  | cons char rest ih =>
      rw [List.length_cons] at behind
      by_cases pad : padding = true ∧ char = 61
      · obtain ⟨padded, rfl⟩ := pad
        rw [base64DecodeLoop, if_pos ⟨padded, rfl⟩] at accepted
        refine ⟨[], 61 :: rest, rfl, by simp [SixBit], .inr ⟨padded, ?_⟩⟩
        split_ifs at accepted with early first
        cases rest with
        | nil =>
            rw [List.length_nil] at behind
            have several : i ≠ inputSize - 2 := fun place =>
              first ⟨place, by simp⟩
            exact ⟨by omega, .inl ⟨rfl, behind⟩⟩
        | cons next rest =>
            rw [List.length_cons] at behind
            have place : i = inputSize - 2 := by omega
            have isLast : rest = [] := by
              apply List.length_eq_zero_iff.mp
              omega
            subst isLast
            have isPad : next = 61 := by
              by_contra other
              exact first ⟨place, by simpa using other⟩
            subst isPad
            exact ⟨by omega, .inr ⟨rfl, behind⟩⟩
      · rw [base64DecodeLoop, if_neg pad] at accepted
        cases decoded : base64DecodeChar encoding char with
        | none =>
            rw [decoded] at accepted
            cases accepted
        | some value =>
            rw [decoded] at accepted
            obtain ⟨smallValue, isChar⟩ := base64DecodeChar_some encoding decoded
            have later : ∃ valC output, base64DecodeLoop encoding padding
                inputSize rest (i + 1) valC output = some result := by
              simp only at accepted
              split at accepted
              · exact ⟨_, _, accepted⟩
              · exact ⟨_, _, accepted⟩
              · exact ⟨_, _, accepted⟩
              · exact ⟨_, _, accepted⟩
            obtain ⟨valC, output, later⟩ := later
            obtain ⟨values, pads, rfl, small, ends⟩ :=
              ih (by omega) later
            refine ⟨value :: values, pads, ?_, sixBit_cons.mpr
              ⟨smallValue, small⟩, ?_⟩
            · rw [List.map_cons, isChar]
              rfl
            · rw [List.length_cons]
              rwa [Nat.add_right_comm, Nat.add_assoc] at ends

end Decoder

section Spelled

variable {encoding : Base64Encoding} {padding : Bool} {values : List UInt8}
  {text : Bytes}

theorem count_pads (small : SixBit values) (pads : Nat) (few : pads ≤ 2) :
    ((values.map (base64EncodeChar encoding) ++
        List.replicate pads 61).drop
      ((values.map (base64EncodeChar encoding) ++
        List.replicate pads 61).length - 2)).count 61 = pads := by
  have noPad : ∀ skipped, ((values.map
      (base64EncodeChar encoding)).drop skipped).count 61 = 0 := by
    intro skipped
    rw [List.count_eq_zero]
    intro member
    obtain ⟨value, isValue, isPad⟩ :=
      List.mem_map.mp (List.mem_of_mem_drop member)
    exact base64EncodeChar_ne_pad encoding (small value isValue) isPad
  rw [List.drop_append, List.count_append, noPad, Nat.zero_add,
    List.drop_replicate, List.count_replicate_self]
  simp only [List.length_append, List.length_map, List.length_replicate]
  omega

theorem ocBase64DecodedOutputSize_eq
    (spells : Spells encoding padding values text) :
    ocBase64DecodedOutputSize text padding = some (join values).length := by
  obtain ⟨small, possible, rfl⟩ := spells
  have size := length_base64Spelling encoding padding values
  by_cases nothing : values = []
  · subst nothing
    cases padding <;> rfl
  · have some_letter : values.length ≠ 0 :=
      fun none => nothing (List.length_eq_zero_iff.mp none)
    have present : base64Spelling encoding padding values ≠ [] := by
      intro none
      rw [none, List.length_nil] at size
      omega
    rw [ocBase64DecodedOutputSize, if_neg present, length_join]
    cases padding with
    | true =>
        have whole : padCount true values.length = (4 - values.length % 4) % 4 :=
          rfl
        have few : padCount true values.length ≤ 2 := by omega
        have counted := @count_pads encoding values small
          (padCount true values.length) few
        simp only [if_true]
        rw [if_neg (by omega), base64Spelling, counted, Option.some_inj]
        rw [base64Spelling] at size
        omega
    | false =>
        have whole : padCount false values.length = 0 := rfl
        rw [if_neg Bool.false_ne_true, if_neg (by omega)]
        simp only [size, whole, Nat.add_zero, Option.some_inj]
        split <;> omega

theorem ends_spelling (possible : values.length % 4 ≠ 1) :
    Ends padding (base64Spelling encoding padding values).length
      (0 + values.length)
      (List.replicate (padCount padding values.length) 61) := by
  have size := length_base64Spelling encoding padding values
  cases padding with
  | false =>
      have none : padCount false values.length = 0 := rfl
      refine .inl ⟨by rw [none]; rfl, ?_⟩
      omega
  | true =>
      have whole : padCount true values.length = (4 - values.length % 4) % 4 :=
        rfl
      by_cases none : padCount true values.length = 0
      · refine .inl ⟨by rw [none]; rfl, ?_⟩
        omega
      · refine .inr ⟨rfl, by omega, ?_⟩
        by_cases one : padCount true values.length = 1
        · refine .inl ⟨by rw [one]; rfl, ?_⟩
          omega
        · have two : padCount true values.length = 2 := by omega
          refine .inr ⟨by rw [two]; rfl, ?_⟩
          omega

theorem ocBase64DecodeV1_of_spells
    (spells : Spells encoding padding values text) {outputBufferSize : Nat}
    (room : (join values).length ≤ outputBufferSize) :
    ocBase64DecodeV1 encoding padding text outputBufferSize =
      some (join values) := by
  have size := ocBase64DecodedOutputSize_eq spells
  obtain ⟨small, possible, rfl⟩ := spells
  rw [ocBase64DecodeV1, size]
  simp only
  rw [if_neg (Nat.not_lt.mpr room)]
  exact base64DecodeLoop_join small (Nat.zero_mod 4) (ends_spelling possible)

theorem spells_of_ends {pads : Bytes} (small : SixBit values)
    (sized : (ocBase64DecodedOutputSize
      (values.map (base64EncodeChar encoding) ++ pads) padding).isSome = true)
    (ends : Ends padding
      (values.map (base64EncodeChar encoding) ++ pads).length
      (0 + values.length) pads) :
    Spells encoding padding values
      (values.map (base64EncodeChar encoding) ++ pads) := by
  have size : (values.map (base64EncodeChar encoding) ++ pads).length =
      values.length + pads.length := by simp
  by_cases nothing : values.map (base64EncodeChar encoding) ++ pads = []
  · obtain ⟨noLetter, rfl⟩ := List.append_eq_nil_iff.mp nothing
    obtain rfl := List.map_eq_nil_iff.mp noLetter
    exact ⟨small, by decide, by cases padding <;> rfl⟩
  · rw [ocBase64DecodedOutputSize, if_neg nothing] at sized
    cases padding with
    | false =>
        obtain ⟨rfl, -⟩ | ⟨padded, -⟩ := ends
        · rw [if_neg Bool.false_ne_true] at sized
          split at sized
          · cases sized
          next possible =>
            rw [size] at possible
            exact ⟨small, possible, by simp [base64Spelling, padCount]⟩
        · cases padded
    | true =>
        rw [if_pos rfl] at sized
        split at sized
        · cases sized
        next possible =>
          have isPads : pads = List.replicate pads.length 61 := by
            obtain ⟨rfl, -⟩ | ⟨-, -, ⟨rfl, -⟩ | ⟨rfl, -⟩⟩ := ends <;> rfl
          have few : pads.length ≤ 2 := by
            obtain ⟨rfl, -⟩ | ⟨-, -, ⟨rfl, -⟩ | ⟨rfl, -⟩⟩ := ends <;> simp
          have count : padCount true values.length = pads.length := by
            rw [padCount, if_pos rfl]
            omega
          refine ⟨small, by omega, ?_⟩
          rw [base64Spelling, count, ← isPads]

theorem exists_spells {outputBufferSize : Nat} {output : Bytes}
    (accepted : ocBase64DecodeV1 encoding padding text outputBufferSize =
      some output) :
    ∃ values, Spells encoding padding values text ∧ output = join values := by
  rw [ocBase64DecodeV1] at accepted
  cases sized : ocBase64DecodedOutputSize text padding with
  | none =>
      rw [sized] at accepted
      cases accepted
  | some size =>
      rw [sized] at accepted
      simp only at accepted
      split at accepted
      · cases accepted
      next room =>
        obtain ⟨values, pads, rfl, small, ends⟩ :=
          exists_letters (Nat.zero_add _) accepted
        rw [base64DecodeLoop_join small (Nat.zero_mod 4) ends] at accepted
        refine ⟨values, spells_of_ends small ?_ ends,
          (Option.some.inj accepted).symm⟩
        rw [sized]
        rfl

end Spelled

/-- The loop of the decoder when the output overwrites the input, which starts
at `start`; `remaining` characters are still to be read, and `j` bytes are
written. -/
def base64DecodeInPlaceLoop (encoding : Base64Encoding) (padding : Bool)
    (start inputSize : Nat) : (remaining i j : Nat) → (valC : UInt8) → Mem →
    Option Nat × Mem
  | 0, _, j, _, memory => (some j, memory)
  | remaining + 1, i, j, valC, memory =>
      let c := memory (start + i)
      if padding ∧ c = 61 then
        if i < inputSize - 2 then (none, memory)
        else if i = inputSize - 2 ∧ memory (start + i + 1) ≠ 61 then
          (none, memory)
        else (some j, memory)
      else match base64DecodeChar encoding c with
        | none => (none, memory)
        | some valS =>
            let next := base64DecodeInPlaceLoop encoding padding start
              inputSize remaining (i + 1)
            match i % 4 with
            | 0 => next j ((valS <<< 2) &&& 0xFD) memory
            | 1 =>
                next (j + 1) ((valS <<< 4) &&& 0xF0)
                  (memory.store (start + j) (valC ||| valS >>> 4))
            | 2 =>
                next (j + 1) ((valS <<< 6) &&& 0xD0)
                  (memory.store (start + j) (valC ||| valS >>> 2))
            | _ =>
                next (j + 1) (valC ||| valS)
                  (memory.store (start + j) (valC ||| valS))

/-- `oc_base64_decode_v1` with one buffer for the input and the output -/
def base64DecodeInPlace (encoding : Base64Encoding) (padding : Bool)
    (memory : Mem) (start inputSize outputBufferSize : Nat) :
    Option Nat × Mem :=
  match ocBase64DecodedOutputSize (memory.read start inputSize) padding with
  | none => (none, memory)
  | some size =>
      if outputBufferSize < size then (none, memory)
      else
        base64DecodeInPlaceLoop encoding padding start inputSize inputSize 0 0
          0 memory

/-- Decoding in place returns what decoding to a separate buffer does, leaves
the same bytes, and does not touch what is not in the buffer. -/
structure SameAs (result : Option Bytes) (start inputSize : Nat)
    (before : Mem) (inPlace : Option Nat × Mem) : Prop where
  returns : inPlace.1 = result.map List.length
  bytes : ∀ output, result = some output → inPlace.2.Holds start output
  outside : ∀ address, address < start ∨ start + inputSize ≤ address →
    inPlace.2 address = before address

section InPlace

variable {encoding : Base64Encoding} {padding : Bool}
  {start inputSize remaining i : Nat} {valC : UInt8} {output : Bytes}
  {memory : Mem}

theorem SameAs.stop (holds : memory.Holds start output) :
    SameAs (some output) start inputSize memory
      (some output.length, memory) := by
  refine ⟨rfl, ?_, fun _ _ => rfl⟩
  intro output same
  cases same
  exact holds

theorem SameAs.reject : SameAs none start inputSize memory (none, memory) := by
  refine ⟨rfl, ?_, fun _ _ => rfl⟩
  intro output same
  cases same

theorem SameAs.store {result : Option Bytes} {byte : UInt8} {j : Nat}
    {inPlace : Option Nat × Mem} (inside : j < inputSize)
    (same : SameAs result start inputSize
      (memory.store (start + j) byte) inPlace) :
    SameAs result start inputSize memory inPlace := by
  refine ⟨same.returns, same.bytes, ?_⟩
  intro address outside
  rw [same.outside address outside]
  exact Mem.store_other (by omega)

theorem holds_store_concat {byte : UInt8}
    (holds : memory.Holds start output) :
    (memory.store (start + output.length) byte).Holds start
      (output ++ [byte]) := by
  rw [Mem.holds_append, Mem.holds_cons]
  exact ⟨holds.store (.inl (Nat.le_refl _)), Mem.store_same _ _ _,
    Mem.holds_nil _ _⟩

theorem read_store_before {byte : UInt8} {address first count : Nat}
    (before : address < first) :
    (memory.store address byte).read first count = memory.read first count :=
  Mem.read_congr fun _ above _ => Mem.store_other (by omega)

theorem base64DecodeInPlaceLoop_same
    (several : padding = true → inputSize ≠ 1)
    (behind : i + remaining = inputSize)
    (written : output.length ≤ i) (holds : memory.Holds start output) :
    SameAs
      (base64DecodeLoop encoding padding inputSize
        (memory.read (start + i) remaining) i valC output)
      start inputSize memory
      (base64DecodeInPlaceLoop encoding padding start inputSize remaining i
        output.length valC memory) := by
  induction remaining generalizing i valC output memory with
  | zero => exact SameAs.stop holds
  | succ remaining ih =>
      have inside : output.length < inputSize := by omega
      have next : i + 1 + remaining = inputSize := by omega
      -- a byte is written behind the output and in front of the rest
      have later : ∀ (byte valC : UInt8), SameAs
          (base64DecodeLoop encoding padding inputSize
            (memory.read (start + i + 1) remaining) (i + 1) valC
            (output ++ [byte]))
          start inputSize memory
          (base64DecodeInPlaceLoop encoding padding start inputSize remaining
            (i + 1) (output.length + 1) valC
            (memory.store (start + output.length) byte)) := by
        intro byte valC
        have same := @ih (i + 1) valC (output ++ [byte])
          (memory.store (start + output.length) byte) next
          (by rw [List.length_append, List.length_singleton]; omega)
          (holds_store_concat holds)
        rw [← Nat.add_assoc, read_store_before (by omega),
          List.length_append, List.length_singleton] at same
        exact same.store inside
      rw [Mem.read, base64DecodeLoop, base64DecodeInPlaceLoop]
      by_cases pad : padding = true ∧ memory (start + i) = 61
      · rw [if_pos pad]
        simp only [if_pos pad]
        by_cases early : i < inputSize - 2
        · rw [if_pos early, if_pos early]
          exact SameAs.reject
        · rw [if_neg early, if_neg early]
          have same : (i = inputSize - 2 ∧
              (memory.read (start + i + 1) remaining).head? ≠ some 61) ↔
                i = inputSize - 2 ∧ memory (start + i + 1) ≠ 61 := by
            apply and_congr_right
            intro place
            have more : remaining ≠ 0 := by
              have notOne := several pad.1
              omega
            obtain ⟨count, rfl⟩ := Nat.exists_eq_succ_of_ne_zero more
            simp [Mem.read]
          by_cases alone : i = inputSize - 2 ∧ memory (start + i + 1) ≠ 61
          · rw [if_pos (same.mpr alone), if_pos alone]
            exact SameAs.reject
          · rw [if_neg fun other => alone (same.mp other), if_neg alone]
            exact SameAs.stop holds
      · rw [if_neg pad]
        simp only [if_neg pad]
        cases decoded : base64DecodeChar encoding (memory (start + i)) with
        | none => exact SameAs.reject
        | some valS =>
            have residue : i % 4 = 0 ∨ i % 4 = 1 ∨ i % 4 = 2 ∨ i % 4 = 3 := by
              omega
            rcases residue with first | second | third | fourth
            · simp only [first]
              exact @ih (i + 1) ((valS <<< 2) &&& 0xFD) output memory next
                (by omega) holds
            · simp only [second]
              exact later _ _
            · simp only [third]
              exact later _ _
            · simp only [fourth]
              exact later _ _

theorem base64DecodeInPlace_same (encoding : Base64Encoding) (padding : Bool)
    (memory : Mem) (start inputSize outputBufferSize : Nat) :
    SameAs
      (ocBase64DecodeV1 encoding padding (memory.read start inputSize)
        outputBufferSize)
      start inputSize memory
      (base64DecodeInPlace encoding padding memory start inputSize
        outputBufferSize) := by
  rw [ocBase64DecodeV1, base64DecodeInPlace, Mem.length_read]
  cases sized : ocBase64DecodedOutputSize (memory.read start inputSize)
      padding with
  | none => exact SameAs.reject
  | some size =>
      simp only
      by_cases small : outputBufferSize < size
      · rw [if_pos small, if_pos small]
        exact SameAs.reject
      · rw [if_neg small, if_neg small]
        have several : padding = true → inputSize ≠ 1 := by
          rintro rfl rfl
          cases sized
        exact base64DecodeInPlaceLoop_same several (Nat.zero_add _)
          (Nat.le_refl 0) (Mem.holds_nil memory start)

end InPlace

/-- The codec for one alphabet, with padding or without. -/
structure Base64Contract (encoding : Base64Encoding) (padding : Bool) :
    Prop where
  /-- What is written has the size that is announced for the encoder, and it
  is the input to the decoder, in a buffer of the announced size. -/
  encodes : ∀ (input : Bytes) (outputBufferSize : Nat),
    ocBase64EncodedOutputSize input.length padding ≤ outputBufferSize →
    ∃ text, ocBase64EncodeV1 encoding padding input outputBufferSize =
        some text ∧
      text.length = ocBase64EncodedOutputSize input.length padding ∧
      ocBase64DecodedOutputSize text padding = some input.length ∧
      ∀ bufferSize, input.length ≤ bufferSize →
        ocBase64DecodeV1 encoding padding text bufferSize = some input
  inPlace : ∀ (memory : Mem) (start inputSize outputBufferSize : Nat),
    SameAs
      (ocBase64DecodeV1 encoding padding (memory.read start inputSize)
        outputBufferSize)
      start inputSize memory
      (base64DecodeInPlace encoding padding memory start inputSize
        outputBufferSize)
  /-- What is accepted spells whole bytes, and it is encoded again to the
  text in which the unused bits of the last letter are cleared. -/
  accepts : ∀ (text output : Bytes) (outputBufferSize : Nat),
    ocBase64DecodeV1 encoding padding text outputBufferSize = some output →
    ocBase64DecodedOutputSize text padding = some output.length ∧
      ∃ values, Spells encoding padding values text ∧
        ∀ bufferSize,
          ocBase64EncodedOutputSize output.length padding ≤ bufferSize →
          ocBase64EncodeV1 encoding padding output bufferSize =
            some (base64Spelling encoding padding (clear values))

theorem base64_codec (encoding : Base64Encoding) (padding : Bool) :
    Base64Contract encoding padding where
  encodes := by
    intro input outputBufferSize room
    have spells : Spells encoding padding (cut input)
        (base64Spelling encoding padding (cut input)) :=
      ⟨sixBit_cut input, possible_cut input, rfl⟩
    refine ⟨_, ocBase64EncodeV1_eq encoding padding room, ?_, ?_, ?_⟩
    · rw [length_base64Spelling, ocBase64EncodedOutputSize_eq]
    · rw [ocBase64DecodedOutputSize_eq spells, join_cut]
    · intro bufferSize roomBehind
      have decoded := @ocBase64DecodeV1_of_spells _ _ _ _ spells bufferSize
      rw [join_cut] at decoded
      exact decoded roomBehind
  inPlace := base64DecodeInPlace_same encoding padding
  accepts := by
    intro text output outputBufferSize accepted
    obtain ⟨values, spells, rfl⟩ := exists_spells accepted
    refine ⟨ocBase64DecodedOutputSize_eq spells, values, spells, ?_⟩
    intro bufferSize room
    rw [ocBase64EncodeV1_eq encoding padding room,
      cut_join spells.small spells.possible]

/-- An accepted text is encoded again to itself. -/
def EncodesAgain (encoding : Base64Encoding) (padding : Bool) : Prop :=
  ∀ (text output : Bytes) (outputBufferSize : Nat),
    ocBase64DecodeV1 encoding padding text outputBufferSize = some output →
    ∀ bufferSize, ocBase64EncodedOutputSize output.length padding ≤ bufferSize →
      ocBase64EncodeV1 encoding padding output bufferSize = some text

/-- `AB==` is accepted, and the byte is encoded as `AA==`. -/
theorem not_encodesAgain : ¬EncodesAgain .std true := by
  intro again
  have encoded := again [65, 66, 61, 61] [0] 3 (by decide) 4 (by decide)
  revert encoded
  decide

end IotivityLite
