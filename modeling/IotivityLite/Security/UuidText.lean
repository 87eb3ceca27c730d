import IotivityLite.Foundation.CaseFolding
import IotivityLite.Security.CredIds
import Mathlib.Data.List.TakeWhile

/-!
# The texts of UUIDs

`oc_uuid_to_str_v1` with its buffer, and the texts that `oc_str_to_uuid_v1`
accepts.  The parser counts the characters other than dashes; it does not ask
where the dashes are and reads any character as a digit.
-/

namespace IotivityLite

/-- `oc_conv_byte_array_to_hex_string` -/
def ocConvByteArrayToHexString (array : Bytes) : Bytes :=
  array.flatMap fun byte : UInt8 =>
    [hexDigit (byte >>> 4), hexDigit (byte &&& 15)]

/-- The digits of a byte give the byte, and are neither a dash nor a star nor
a zero. -/
def DigitsReadBack (byte : UInt8) : Prop :=
  (uuidDigit (hexDigit (byte >>> 4)) <<< 4 |||
      uuidDigit (hexDigit (byte &&& 15))) = byte ∧
    ∀ digit ∈ [hexDigit (byte >>> 4), hexDigit (byte &&& 15)],
      digit ≠ 45 ∧ digit ≠ 42 ∧ digit ≠ 0 ∧
        ((48 ≤ digit && digit ≤ 57) || (65 ≤ digit && digit ≤ 70) ||
          (97 ≤ digit && digit ≤ 102)) = true

instance (byte : UInt8) : Decidable (DigitsReadBack byte) :=
  @instDecidableAnd _ _ inferInstance (List.decidableBAll _ _)

theorem digitsReadBack (byte : UInt8) : DigitsReadBack byte := by
  have every : ∀ number : Fin 256,
      DigitsReadBack (UInt8.ofNat number.val) := by
    decide +kernel
  have small : byte.toNat < 256 := byte.toNat_lt
  simpa using every ⟨byte.toNat, small⟩

theorem ocConvHexStringToByteArray_toHexString (array : Bytes) :
    ocConvHexStringToByteArray (ocConvByteArrayToHexString array) =
      array := by
  induction array with
  | nil => rfl
  | cons byte array ih =>
      have first := (digitsReadBack byte).1
      simp only [ocConvByteArrayToHexString, List.flatMap_cons,
        List.cons_append, List.nil_append, ocConvHexStringToByteArray]
      rw [first]
      exact congrArg (byte :: ·) ih

variable (uuid : Uuid)

theorem Uuid.ofBytes_id : Uuid.ofBytes uuid.id = uuid := by
  obtain ⟨id, size⟩ := uuid
  simp only [Uuid.ofBytes, Uuid.mk.injEq, size]
  simp [← size]

/-- What `oc_uuid_to_str` writes of a byte and its place. -/
def uuidPart (part : UInt8 × Nat) : Bytes :=
  let digits := [hexDigit (part.1 >>> 4), hexDigit (part.1 &&& 15)]
  if part.2 = 4 ∨ part.2 = 6 ∨ part.2 = 8 ∨ part.2 = 10 then 45 :: digits
  else digits

theorem ocUuidToStr_of_ne {uuid : Uuid} (other : uuid ≠ Uuid.ofBytes [42]) :
    ocUuidToStr uuid = uuid.id.zipIdx.flatMap uuidPart :=
  if_neg other

variable (parts : List (UInt8 × Nat))

theorem strToUuidLoop_parts (bytes : Bytes)
    (room : bytes.length + parts.length ≤ 16) :
    strToUuidLoop (parts.flatMap uuidPart) bytes none =
      some (bytes ++ parts.map Prod.fst) := by
  induction parts generalizing bytes with
  | nil => simp [strToUuidLoop]
  | cons part parts ih =>
      simp only [List.length_cons] at room
      have next := ih (bytes ++ [part.1]) (by simp; omega)
      obtain ⟨value, digits⟩ := digitsReadBack part.1
      simp only [List.forall_mem_cons] at digits
      obtain ⟨high, low, -⟩ := digits
      have short : bytes.length ≠ 16 := by omega
      have read : strToUuidLoop
          (hexDigit (part.1 >>> 4) :: hexDigit (part.1 &&& 15) ::
            parts.flatMap uuidPart) bytes none =
          some (bytes ++ (part :: parts).map Prod.fst) := by
        simp only [strToUuidLoop, high.1, low.1, short, if_false, value]
        rw [next]
        simp
      rw [List.flatMap_cons, uuidPart]
      split
      · simpa [strToUuidLoop] using read
      · exact read

theorem ne_zero_of_mem_uuidPart {part : UInt8 × Nat} {character : UInt8}
    (member : character ∈ uuidPart part) : character ≠ 0 := by
  have digits := (digitsReadBack part.1).2
  rw [uuidPart] at member
  split at member
  · rcases List.mem_cons.mp member with rfl | digit
    · decide
    · exact (digits character digit).2.2.1
  · exact (digits character member).2.2.1

theorem length_uuidParts {id : Bytes} (size : id.length = 16) :
    (id.zipIdx.flatMap uuidPart).length = 36 := by
  have places : id.zipIdx.map (fun part => (uuidPart part).length) =
      (List.range' 0 16).map fun place =>
        if place = 4 ∨ place = 6 ∨ place = 8 ∨ place = 10 then 3 else 2 := by
    rw [← size, ← List.zipIdx_map_snd 0 id, List.map_map]
    apply List.map_congr_left
    intro part _
    simp only [uuidPart, Function.comp_apply]
    split <;> rfl
  rw [List.length_flatMap, places]
  rfl

theorem strToUuid_parts :
    strToUuid (uuid.id.zipIdx.flatMap uuidPart) = some (16, uuid) := by
  have size := length_uuidParts uuid.length_id
  have loop := strToUuidLoop_parts uuid.id.zipIdx [] (by
    simp [uuid.length_id])
  have no_star : uuid.id.zipIdx.flatMap uuidPart ≠ [42] := by
    intro same
    rw [same] at size
    cases size
  rw [strToUuid, if_neg no_star, List.take_of_length_le (by omega), loop]
  simp only [List.nil_append, List.zipIdx_map_fst, Option.map_some,
    uuid.length_id, Uuid.ofBytes_id]

theorem ocStrToUuid_ocUuidToStr (uuid before : Uuid) :
    ocStrToUuid (ocUuidToStr uuid) before = uuid := by
  by_cases wildcard : uuid = Uuid.ofBytes [42]
  · subst wildcard
    rfl
  · have size := length_uuidParts uuid.length_id
    have clean : (uuid.id.zipIdx.flatMap uuidPart).takeWhile (· ≠ 0) =
        uuid.id.zipIdx.flatMap uuidPart := by
      rw [List.takeWhile_eq_self_iff]
      intro character member
      obtain ⟨part, -, here⟩ := List.mem_flatMap.mp member
      simpa using ne_zero_of_mem_uuidPart here
    rw [ocUuidToStr_of_ne wildcard, ocStrToUuid, clean,
      List.take_of_length_le (by omega), strToUuid_parts]

theorem ocStrToUuidV1_ocUuidToStr :
    ocStrToUuidV1 (ocUuidToStr uuid) = some uuid := by
  by_cases wildcard : uuid = Uuid.ofBytes [42]
  · subst wildcard
    rfl
  · rw [ocUuidToStr_of_ne wildcard, ocStrToUuidV1, strToUuid_parts]
    exact if_pos (.inr rfl)

/-- The loop of `oc_uuid_to_str_v1` over the bytes and their places; `none`
stands for the result -1. -/
def uuidToStrLoop : List (UInt8 × Nat) → (buflen : Nat) → (buffer : Bytes) →
    Option Bytes
  | [], _, buffer => some buffer
  | (byte, i) :: parts, buflen, buffer =>
      let digits := [hexDigit (byte >>> 4), hexDigit (byte &&& 15)]
      if i = 4 ∨ i = 6 ∨ i = 8 ∨ i = 10 then
        if buflen ≤ 1 then none
        else if buflen - 1 ≤ 2 then none
        else uuidToStrLoop parts (buflen - 1 - 2) (buffer ++ [45] ++ digits)
      else if buflen ≤ 2 then none
      else uuidToStrLoop parts (buflen - 2) (buffer ++ digits)

def ocUuidToStrV1 (uuid : Uuid) (buflen : Nat) : Option Bytes :=
  if uuid = Uuid.ofBytes [42] then if buflen < 2 then none else some [42]
  else uuidToStrLoop uuid.id.zipIdx buflen []

theorem uuidToStrLoop_eq (buflen : Nat) (buffer : Bytes)
    (terminated : 0 < buflen) :
    uuidToStrLoop parts buflen buffer =
      if (parts.flatMap uuidPart).length < buflen then
        some (buffer ++ parts.flatMap uuidPart)
      else none := by
  induction parts generalizing buflen buffer with
  | nil => simp [uuidToStrLoop, terminated]
  | cons part parts ih =>
      obtain ⟨byte, i⟩ := part
      rw [uuidToStrLoop, List.flatMap_cons, uuidPart]
      simp only
      by_cases dashed : i = 4 ∨ i = 6 ∨ i = 8 ∨ i = 10
      · simp only [if_pos dashed, List.cons_append, List.length_cons,
          List.nil_append, List.append_assoc]
        by_cases room : 3 < buflen
        · rw [if_neg (by omega), if_neg (by omega), ih _ _ (by omega)]
          have same : (parts.flatMap uuidPart).length < buflen - 1 - 2 ↔
              (parts.flatMap uuidPart).length + 1 + 1 + 1 < buflen := by omega
          simp only [same, List.append_assoc, List.cons_append,
            List.nil_append]
        · rw [if_neg (show ¬(parts.flatMap uuidPart).length + 1 + 1 + 1 <
            buflen by omega)]
          split
          · rfl
          · rw [if_pos (by omega)]
      · simp only [if_neg dashed, List.cons_append, List.length_cons,
          List.nil_append]
        by_cases room : 2 < buflen
        · rw [if_neg (by omega), ih _ _ (by omega)]
          have same : (parts.flatMap uuidPart).length < buflen - 2 ↔
              (parts.flatMap uuidPart).length + 1 + 1 < buflen := by omega
          simp only [same, List.append_assoc, List.cons_append,
            List.nil_append]
        · rw [if_pos (by omega), if_neg (by omega)]

theorem ocUuidToStrV1_eq {buflen : Nat} (terminated : 0 < buflen) :
    ocUuidToStrV1 uuid buflen =
      if (ocUuidToStr uuid).length < buflen then some (ocUuidToStr uuid)
      else none := by
  by_cases wildcard : uuid = Uuid.ofBytes [42]
  · have text : ocUuidToStr uuid = [42] := if_pos wildcard
    rw [ocUuidToStrV1, if_pos wildcard, text]
    by_cases room : buflen < 2
    · rw [if_pos room, if_neg (by simp; omega)]
    · rw [if_neg room, if_pos (by simp; omega)]
  · rw [ocUuidToStrV1, if_neg wildcard, ocUuidToStr_of_ne wildcard,
      uuidToStrLoop_eq _ _ _ terminated, List.nil_append]

theorem length_ocUuidToStr_le :
    (ocUuidToStr uuid).length ≤ 36 := by
  by_cases wildcard : uuid = Uuid.ofBytes [42]
  · have text : ocUuidToStr uuid = [42] := if_pos wildcard
    rw [text]
    decide
  · rw [ocUuidToStr_of_ne wildcard, length_uuidParts uuid.length_id]

/-- The characters that the parser looks at, which are those other than dashes
among the first 36. -/
def uuidCharacters (text : Bytes) : Bytes :=
  (text.take 36).filter (· ≠ 45)

/-- The number of bytes that so many characters give. -/
def bytesRead (characters : Nat) : Option Nat :=
  if characters < 34 then some (characters / 2) else none

theorem strToUuidLoop_count (text bytes : Bytes) (started : Option UInt8)
    (room : bytes.length ≤ 16) :
    (strToUuidLoop text bytes started).map List.length =
      bytesRead (bytes.length * 2 + started.toList.length +
        (text.filter (· ≠ 45)).length) := by
  induction text generalizing bytes started with
  | nil =>
      rw [strToUuidLoop]
      cases started with
      | none =>
          simp [bytesRead]
          omega
      | some high =>
          simp [bytesRead]
          omega
  | cons character text ih =>
      rw [strToUuidLoop.eq_def]
      simp only
      by_cases dash : character = 45
      · rw [if_pos dash, ih bytes started room]
        simp [dash]
      · rw [if_neg dash]
        have counted : ((character :: text).filter (· ≠ 45)).length =
            (text.filter (· ≠ 45)).length + 1 := by
          simp [dash]
        cases started with
        | none =>
            simp only
            rw [ih bytes (some (uuidDigit character <<< 4)) room, counted]
            simp only [Option.toList_some, Option.toList_none,
              List.length_singleton, List.length_nil, Nat.add_zero]
            rw [Nat.add_assoc, Nat.add_comm 1]
        | some high =>
            simp only
            by_cases full : bytes.length = 16
            · rw [if_pos full, counted, bytesRead, if_neg]
              · rfl
              · simp only [Option.toList_some, List.length_singleton]
                omega
            · have more : (bytes ++ [high ||| uuidDigit character]).length =
                  bytes.length + 1 := by simp
              rw [if_neg full, ih _ none (by omega), counted, more]
              simp only [Option.toList_some, Option.toList_none,
                List.length_singleton, List.length_nil, Nat.add_zero]
              have same : (bytes.length + 1) * 2 +
                  (text.filter (· ≠ 45)).length =
                bytes.length * 2 + 1 +
                  ((text.filter (· ≠ 45)).length + 1) := by omega
              rw [same]

theorem isSome_ocStrToUuidV1_iff (text : Bytes) :
    (ocStrToUuidV1 text).isSome = true ↔
      text = [42] ∨ (uuidCharacters text).length = 32 ∨
        (uuidCharacters text).length = 33 := by
  by_cases star : text = [42]
  · subst star
    decide
  · have count := strToUuidLoop_count (text.take 36) [] none (Nat.zero_le _)
    simp only [List.length_nil, Option.toList_none, Nat.zero_mul,
      Nat.zero_add] at count
    rw [ocStrToUuidV1, strToUuid, if_neg star]
    have same : ((text.take 36).filter (· ≠ 45)).length =
        (uuidCharacters text).length := rfl
    rw [same, bytesRead] at count
    cases loop : strToUuidLoop (text.take 36) [] none with
    | none =>
        rw [loop] at count
        split at count
        · cases count
        · simp only [Option.map_none, Option.isSome_none,
            Bool.false_eq_true, star, false_or, false_iff]
          omega
    | some bytes =>
        rw [loop] at count
        split at count
        next few =>
          have length : bytes.length = (uuidCharacters text).length / 2 :=
            Option.some.inj count
          simp only [Option.map_some, star, false_or]
          by_cases whole : bytes.length = 16
          · rw [if_pos whole]
            simp only [Option.isSome_some, true_iff]
            omega
          · rw [if_neg whole]
            simp only [Option.isSome_none, Bool.false_eq_true, false_iff]
            omega
        · cases count

def isHexDigit (character : UInt8) : Bool :=
  (48 ≤ character && character ≤ 57) || (65 ≤ character && character ≤ 70) ||
    (97 ≤ character && character ≤ 102)

/-- Which of the 36 places are those of dashes. -/
def uuidPlaces : List Bool :=
  (List.range 36).map fun place =>
    place == 8 || place == 13 || place == 18 || place == 23

def FitsPlace (isDash : Bool) (character : UInt8) : Prop :=
  if isDash then character = 45 else isHexDigit character = true

/-- 36 characters, which are dashes and hexadecimal digits. -/
def CanonicalUuid (text : Bytes) : Prop :=
  List.Forall₂ FitsPlace uuidPlaces text

/-- The places of the characters for a byte. -/
def bytePlaces (i : Nat) : List Bool :=
  if i = 4 ∨ i = 6 ∨ i = 8 ∨ i = 10 then [true, false, false]
  else [false, false]

theorem uuidPlaces_eq : uuidPlaces = (List.range 16).flatMap bytePlaces := by
  decide

theorem hexDigit_uuidDigit {character : UInt8}
    (isHex : isHexDigit character = true) :
    uuidDigit character < 16 ∧ character ≠ 45 ∧
      hexDigit (uuidDigit character) = toLower character := by
  revert isHex
  apply forall_byte (fun number below => ?_) character
  revert number
  decide +kernel

theorem fitsPlace_toLower (isDash : Bool) (character : UInt8) :
    FitsPlace isDash (toLower character) ↔ FitsPlace isDash character := by
  apply forall_byte (fun number below => ?_) character
  unfold FitsPlace
  cases isDash <;> revert number <;> decide +kernel

theorem SameFolded.canonicalUuid {first second : Bytes}
    (same : SameFolded first second) (canonical : CanonicalUuid first) :
    CanonicalUuid second := by
  have folded : ∀ text, CanonicalUuid (text.map toLower) ↔
      CanonicalUuid text := by
    intro text
    unfold CanonicalUuid
    rw [List.forall₂_map_right_iff]
    simp only [fitsPlace_toLower]
  rw [← folded, ← same]
  exact (folded first).mpr canonical

theorem forall₂_uuidParts :
    List.Forall₂ FitsPlace (parts.flatMap fun part => bytePlaces part.2)
      (parts.flatMap uuidPart) := by
  induction parts with
  | nil => exact .nil
  | cons part parts ih =>
      have digits := (digitsReadBack part.1).2
      have high := (digits (hexDigit (part.1 >>> 4)) (by simp)).2.2.2
      have low := (digits (hexDigit (part.1 &&& 15)) (by simp)).2.2.2
      rw [List.flatMap_cons, List.flatMap_cons, bytePlaces, uuidPart]
      split
      · exact .cons rfl (.cons high (.cons low ih))
      · exact .cons high (.cons low ih)

theorem canonicalUuid_ocUuidToStr {uuid : Uuid}
    (other : uuid ≠ Uuid.ofBytes [42]) : CanonicalUuid (ocUuidToStr uuid) := by
  have places : uuid.id.zipIdx.flatMap (fun part => bytePlaces part.2) =
      uuidPlaces := by
    have indices := List.zipIdx_map_snd 0 uuid.id
    rw [uuid.length_id] at indices
    rw [← List.flatMap_map, indices, uuidPlaces_eq]
    rfl
  rw [ocUuidToStr_of_ne other, CanonicalUuid, ← places]
  exact forall₂_uuidParts uuid.id.zipIdx

theorem nibbles {high low : UInt8} (smallHigh : high < 16)
    (smallLow : low < 16) :
    (high <<< 4 ||| low) >>> 4 = high ∧ (high <<< 4 ||| low) &&& 15 = low := by
  have masked : ∀ value : UInt8, value < 16 → value &&& 15 = value := by
    intro value
    apply forall_byte (fun number below => ?_) value
    revert number
    decide +kernel
  rw [← masked high smallHigh, ← masked low smallLow]
  constructor
  · apply UInt8.eq_of_toBitVec_eq
    ext index below
    interval_cases index <;> simp
  · apply UInt8.eq_of_toBitVec_eq
    ext index below
    interval_cases index <;> simp

/-- The two digits of a byte and its place. -/
structure DigitPair where
  high : UInt8
  low : UInt8
  place : Nat

namespace DigitPair

def text (pair : DigitPair) : Bytes :=
  if pair.place = 4 ∨ pair.place = 6 ∨ pair.place = 8 ∨ pair.place = 10 then
    [45, pair.high, pair.low]
  else [pair.high, pair.low]

def byte (pair : DigitPair) : UInt8 :=
  (uuidDigit pair.high <<< 4) ||| uuidDigit pair.low

def IsHex (pair : DigitPair) : Prop :=
  isHexDigit pair.high = true ∧ isHexDigit pair.low = true

theorem uuidPart_byte {pair : DigitPair} (isHex : pair.IsHex) :
    uuidPart (pair.byte, pair.place) = pair.text.map toLower := by
  obtain ⟨smallHigh, -, printedHigh⟩ := hexDigit_uuidDigit isHex.1
  obtain ⟨smallLow, -, printedLow⟩ := hexDigit_uuidDigit isHex.2
  obtain ⟨first, second⟩ := nibbles smallHigh smallLow
  simp only [uuidPart, text, byte, first, second, printedHigh, printedLow]
  split_ifs
  · rfl
  · rfl

theorem strToUuidLoop_pairs (pairs : List DigitPair) (bytes : Bytes)
    (room : bytes.length + pairs.length ≤ 16)
    (isHex : ∀ pair ∈ pairs, pair.IsHex) :
    strToUuidLoop (pairs.flatMap text) bytes none =
      some (bytes ++ pairs.map byte) := by
  induction pairs generalizing bytes with
  | nil => simp [strToUuidLoop]
  | cons pair pairs ih =>
      simp only [List.length_cons] at room
      obtain ⟨here, later⟩ := List.forall_mem_cons.mp isHex
      have next := ih (bytes ++ [pair.byte]) (by simp; omega) later
      have notDashHigh := (hexDigit_uuidDigit here.1).2.1
      have notDashLow := (hexDigit_uuidDigit here.2).2.1
      have short : bytes.length ≠ 16 := by omega
      have read : strToUuidLoop (pair.high :: pair.low :: pairs.flatMap text)
          bytes none = some (bytes ++ (pair :: pairs).map byte) := by
        simp only [strToUuidLoop, notDashHigh, notDashLow, short, if_false]
        rw [byte] at next
        rw [next]
        simp [byte]
      rw [List.flatMap_cons, text]
      split
      · simpa [strToUuidLoop] using read
      · exact read

theorem exists_pairs (indices : List Nat) {characters : Bytes}
    (fits : List.Forall₂ FitsPlace (indices.flatMap bytePlaces) characters) :
    ∃ pairs : List DigitPair, pairs.map place = indices ∧
      (∀ pair ∈ pairs, pair.IsHex) ∧ characters = pairs.flatMap text := by
  induction indices generalizing characters with
  | nil =>
      cases fits
      exact ⟨[], rfl, by simp, rfl⟩
  | cons i indices ih =>
      rw [List.flatMap_cons, bytePlaces] at fits
      split at fits
      next dashed =>
        obtain _ | ⟨isDash, _ | ⟨isHigh, _ | ⟨isLow, later⟩⟩⟩ := fits
        obtain ⟨pairs, rfl, isHex, rfl⟩ := ih later
        refine ⟨⟨_, _, i⟩ :: pairs, rfl,
          List.forall_mem_cons.mpr ⟨⟨isHigh, isLow⟩, isHex⟩, ?_⟩
        rw [List.flatMap_cons, text, if_pos dashed, show _ = _ from isDash]
        rfl
      next plain =>
        obtain _ | ⟨isHigh, _ | ⟨isLow, later⟩⟩ := fits
        obtain ⟨pairs, rfl, isHex, rfl⟩ := ih later
        refine ⟨⟨_, _, i⟩ :: pairs, rfl,
          List.forall_mem_cons.mpr ⟨⟨isHigh, isLow⟩, isHex⟩, ?_⟩
        rw [List.flatMap_cons, text, if_neg plain]
        rfl

end DigitPair

theorem CanonicalUuid.read {text : Bytes} {uuid : Uuid}
    (canonical : CanonicalUuid text) (read : ocStrToUuidV1 text = some uuid) :
    uuid.id.zipIdx.flatMap uuidPart = text.map toLower := by
  rw [CanonicalUuid, uuidPlaces_eq] at canonical
  have length : text.length = 36 := by
    rw [← canonical.length_eq]
    rfl
  have noStar : text ≠ [42] := by
    rintro rfl
    cases length
  obtain ⟨pairs, places, isHex, rfl⟩ := DigitPair.exists_pairs _ canonical
  have count : pairs.length = 16 := by
    have lengths := congrArg List.length places
    rwa [List.length_map, List.length_range] at lengths
  have loop := DigitPair.strToUuidLoop_pairs pairs []
    (by rw [count]; rfl) isHex
  rw [ocStrToUuidV1, strToUuid, if_neg noStar,
    List.take_of_length_le (by omega), loop, List.nil_append] at read
  simp only [Option.map_some, List.length_map, count] at read
  rw [if_pos (.inr trivial)] at read
  obtain rfl := Option.some.inj read
  have bytes : (Uuid.ofBytes (pairs.map DigitPair.byte)).id =
      pairs.map DigitPair.byte := by
    simp [Uuid.ofBytes, count]
  have parts : (pairs.map DigitPair.byte).zipIdx =
      pairs.map fun pair => (pair.byte, pair.place) := by
    rw [List.zipIdx_eq_zip_range', List.length_map, count,
      ← List.range_eq_range', ← places, List.zip_map']
  rw [bytes, parts, List.flatMap_map, List.map_flatMap]
  apply List.flatMap_congr
  intro pair member
  exact DigitPair.uuidPart_byte (isHex pair member)

/-- The codec for the texts of UUIDs. -/
structure UuidTextContract : Prop where
  readBack : ∀ (uuid before : Uuid) (buflen : Nat), 37 ≤ buflen →
    ∃ text, ocUuidToStrV1 uuid buflen = some text ∧
      ocStrToUuidV1 text = some uuid ∧ ocStrToUuid text before = uuid
  accepts : ∀ text : Bytes, (ocStrToUuidV1 text).isSome = true ↔
    text = [42] ∨ (uuidCharacters text).length = 32 ∨
      (uuidCharacters text).length = 33
  /-- The texts that are printed again are the star and those of the usual
  form, but for that of the wildcard, which is printed as a star. -/
  printsBack : ∀ (text : Bytes) (uuid : Uuid),
    ocStrToUuidV1 text = some uuid →
    (SameFolded (ocUuidToStr uuid) text ↔
      text = [42] ∨ CanonicalUuid text ∧ uuid ≠ Uuid.ofBytes [42])

theorem sameFolded_star {text : Bytes} (same : SameFolded [42] text) :
    text = [42] := by
  have onlyStar : ∀ character : UInt8, toLower character = 42 →
      character = 42 := by
    intro character
    apply forall_byte (fun number below => ?_) character
    revert number
    decide +kernel
  obtain ⟨character, rfl⟩ := List.length_eq_one_iff.mp same.length.symm
  have equal : toLower 42 = toLower character := (List.cons.inj same).1
  rw [onlyStar character equal.symm]

theorem uuid_text : UuidTextContract where
  readBack := by
    intro uuid before buflen room
    have short := length_ocUuidToStr_le uuid
    refine ⟨ocUuidToStr uuid, ?_, ocStrToUuidV1_ocUuidToStr uuid,
      ocStrToUuid_ocUuidToStr uuid before⟩
    rw [ocUuidToStrV1_eq uuid (by omega), if_pos (by omega)]
  accepts := isSome_ocStrToUuidV1_iff
  printsBack := by
    intro text uuid read
    by_cases wildcard : uuid = Uuid.ofBytes [42]
    · have printed : ocUuidToStr uuid = [42] := if_pos wildcard
      rw [printed]
      constructor
      · intro same
        exact .inl (sameFolded_star same)
      · rintro (rfl | ⟨-, other⟩)
        · exact SameFolded.refl _
        · exact absurd wildcard other
    · constructor
      · intro same
        exact .inr ⟨same.canonicalUuid (canonicalUuid_ocUuidToStr wildcard),
          wildcard⟩
      · rintro (rfl | ⟨canonical, -⟩)
        · cases read
          exact absurd rfl wildcard
        · have printed := canonical.read read
          rw [← ocUuidToStr_of_ne wildcard] at printed
          have lower : (ocUuidToStr uuid).map toLower = ocUuidToStr uuid := by
            rw [printed, List.map_map]
            exact List.map_congr_left fun character _ =>
              toLower_toLower character
          exact lower.trans printed

/-- Accepted texts are a star or have the usual form. -/
def AcceptsCanonical : Prop :=
  ∀ text : Bytes, (ocStrToUuidV1 text).isSome = true →
    text = [42] ∨ CanonicalUuid text

/-- Letters beyond `f` and no dash at all. -/
theorem not_acceptsCanonical : ¬AcceptsCanonical := by
  intro accepts
  rcases accepts (ascii "0123456789ABCDEFGHIJKLMNOPQRSTUV") (by decide) with
    star | canonical
  · revert star
    decide
  · have length := canonical.length_eq
    revert length
    decide

end IotivityLite
