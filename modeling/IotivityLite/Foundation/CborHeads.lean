import IotivityLite.Foundation.BigEndian
import IotivityLite.Foundation.Cbor

/-!
# Heads of CBOR items

The bytes of single tokens.  A head is one byte for the major type and the
additional information, and the bytes of an argument as far as the information
asks for them.  Numbers are written in the shortest form.  Every token that is
written is read back, so that the heads make up a codec.
-/

namespace IotivityLite

inductive CborMajor where
  | unsigned
  | negative
  | byteString
  | textString
  | array
  | map
  | tag
  | simple
  deriving DecidableEq

namespace CborMajor

def code : CborMajor → Nat
  | unsigned => 0
  | negative => 1
  | byteString => 2
  | textString => 3
  | array => 4
  | map => 5
  | tag => 6
  | simple => 7

def ofCode : Nat → CborMajor
  | 0 => unsigned
  | 1 => negative
  | 2 => byteString
  | 3 => textString
  | 4 => array
  | 5 => map
  | 6 => tag
  | _ => simple

@[simp] theorem ofCode_code (major : CborMajor) :
    ofCode major.code = major := by
  cases major <;> rfl

theorem code_lt (major : CborMajor) : major.code < 8 := by
  cases major <;> decide

end CborMajor

/-- The argument is the number in the bytes after the first one. -/
structure CborHead where
  major : CborMajor
  info : Nat
  argument : Nat

namespace CborHead

/-- The number of bytes of the argument. -/
def width : (info : Nat) → Nat
  | 24 => 1
  | 25 => 2
  | 26 => 4
  | 27 => 8
  | _ => 0

def indefinite : Nat := 31

/-- A head that fits its bytes. -/
structure Fits (head : CborHead) : Prop where
  info_lt : head.info < 32
  argument_lt : head.argument < 256 ^ width head.info

def write (head : CborHead) : Bytes :=
  UInt8.ofNat (head.major.code * 32 + head.info) ::
    BigEndian.encode (width head.info) head.argument

def read : Bytes → Option (CborHead × Bytes)
  | [] => none
  | first :: rest =>
      let info := first.toNat % 32
      if rest.length < width info then none
      else some (⟨.ofCode (first.toNat / 32), info,
        BigEndian.value (rest.take (width info))⟩, rest.drop (width info))

theorem read_write {head : CborHead} (fits : head.Fits) (rest : Bytes) :
    read (head.write ++ rest) = some (head, rest) := by
  have small := fits.info_lt
  have major := head.major.code_lt
  have first : (UInt8.ofNat (head.major.code * 32 + head.info)).toNat =
      head.major.code * 32 + head.info := by
    rw [UInt8.toNat_ofNat']
    exact Nat.mod_eq_of_lt (by omega)
  have info : (head.major.code * 32 + head.info) % 32 = head.info := by omega
  have code : (head.major.code * 32 + head.info) / 32 = head.major.code := by
    omega
  have argument := BigEndian.value_encode (width head.info) head.argument
  rw [Nat.mod_eq_of_lt fits.argument_lt] at argument
  have length := BigEndian.length_encode (width head.info) head.argument
  rw [write, List.cons_append, read]
  simp only [first, info, code]
  rw [if_neg (by rw [List.length_append, length]; omega),
    List.take_left' length, List.drop_left' length, argument,
    CborMajor.ofCode_code]

/-- The shortest head with this number. -/
def ofNumber (major : CborMajor) (number : Nat) : CborHead :=
  if number < 24 then ⟨major, number, 0⟩
  else if number < 256 ^ 1 then ⟨major, 24, number⟩
  else if number < 256 ^ 2 then ⟨major, 25, number⟩
  else if number < 256 ^ 4 then ⟨major, 26, number⟩
  else ⟨major, 27, number⟩

def number (head : CborHead) : Option Nat :=
  if head.info < 24 then some head.info
  else if head.info < 28 then some head.argument
  else none

/-- The length of a container; an indefinite one is no number. -/
def length (head : CborHead) : Option (Option Nat) :=
  if head.info = indefinite then some none else head.number.map some

variable (major : CborMajor)

theorem ofNumber_cases (number : Nat) :
    (number < 24 ∧ ofNumber major number = ⟨major, number, 0⟩) ∨
      ∃ info, 24 ≤ info ∧ info < 28 ∧
        (number < 256 ^ 8 → number < 256 ^ width info) ∧
        ofNumber major number = ⟨major, info, number⟩ := by
  unfold ofNumber
  split
  · next small => exact .inl ⟨small, rfl⟩
  split
  · next small => exact .inr ⟨24, by omega, by omega, fun _ => small, rfl⟩
  split
  · next small => exact .inr ⟨25, by omega, by omega, fun _ => small, rfl⟩
  split
  · next small => exact .inr ⟨26, by omega, by omega, fun _ => small, rfl⟩
  · exact .inr ⟨27, by omega, by omega, id, rfl⟩

@[simp] theorem major_ofNumber (number : Nat) :
    (ofNumber major number).major = major := by
  rcases ofNumber_cases major number with ⟨-, head⟩ | ⟨info, -, -, -, head⟩
  · rw [head]
  · rw [head]

@[simp] theorem number_ofNumber (value : Nat) :
    (ofNumber major value).number = some value := by
  rcases ofNumber_cases major value with
    ⟨small, head⟩ | ⟨info, low, high, -, head⟩
  · rw [head, number, if_pos small]
  · rw [head, number, if_neg (Nat.not_lt.mpr low), if_pos high]

@[simp] theorem length_ofNumber (value : Nat) :
    (ofNumber major value).length = some (some value) := by
  have definite : (ofNumber major value).info ≠ indefinite := by
    rcases ofNumber_cases major value with
      ⟨small, head⟩ | ⟨info, -, high, -, head⟩
    · rw [head]
      exact Nat.ne_of_lt (Nat.lt_trans small (by decide))
    · rw [head]
      exact Nat.ne_of_lt (Nat.lt_trans high (by decide))
  rw [length, if_neg definite, number_ofNumber, Option.map_some]

theorem fits_ofNumber {number : Nat} (bounded : number < 2 ^ 64) :
    (ofNumber major number).Fits := by
  rcases ofNumber_cases major number with
    ⟨small, head⟩ | ⟨info, low, high, fits, head⟩
  · rw [head]
    exact ⟨Nat.lt_trans small (by decide), by positivity⟩
  · rw [head]
    exact ⟨Nat.lt_trans high (by decide), fits bounded⟩

/-- The tokens of major type 7. -/
def simpleToken (head : CborHead) : Option CborToken :=
  match head.info with
  | 20 => some (.scalar (.bool false))
  | 21 => some (.scalar (.bool true))
  | 22 => some (.scalar .null)
  | 23 => some (.scalar .undefined)
  | 25 => some (.scalar (.halfFloat (.ofNat head.argument)))
  | 26 => some (.scalar (.float (.ofNat head.argument)))
  | 27 => some (.scalar (.double (.ofNat head.argument)))
  | 31 => some .stop
  | _ => none

end CborHead

namespace CborToken

open CborHead CborMajor

def head : CborToken → CborHead
  | .scalar (.int value) =>
      if value < 0 then ofNumber negative (~~~value).toUInt64.toNat
      else ofNumber unsigned value.toUInt64.toNat
  | .scalar (.bool value) => ⟨simple, if value then 21 else 20, 0⟩
  | .scalar .null => ⟨simple, 22, 0⟩
  | .scalar .undefined => ⟨simple, 23, 0⟩
  | .scalar (.halfFloat bits) => ⟨simple, 25, bits.toNat⟩
  | .scalar (.float bits) => ⟨simple, 26, bits.toNat⟩
  | .scalar (.double bits) => ⟨simple, 27, bits.toNat⟩
  | .scalar (.byteString value) =>
      ofNumber CborMajor.byteString value.length
  | .scalar (.textString value) =>
      ofNumber CborMajor.textString value.length
  | .tag number => ofNumber CborMajor.tag number.toNat
  | .array (some length) => ofNumber CborMajor.array length
  | .array none => ⟨CborMajor.array, indefinite, 0⟩
  | .map (some length) => ofNumber CborMajor.map length
  | .map none => ⟨CborMajor.map, indefinite, 0⟩
  | .stop => ⟨simple, indefinite, 0⟩

/-- What follows the head. -/
def content : CborToken → Bytes
  | .scalar (.byteString value) => value
  | .scalar (.textString value) => value
  | _ => []

def write (token : CborToken) : Bytes := token.head.write ++ token.content

/-- A string of known length; strings in chunks are not read. -/
def readString (head : CborHead) (rest : Bytes) : Option (Bytes × Bytes) :=
  match head.number with
  | none => none
  | some length =>
      if rest.length < length then none
      else some (rest.take length, rest.drop length)

def ofHead (head : CborHead) (rest : Bytes) : Option (CborToken × Bytes) :=
  match head.major with
  | .unsigned => head.number.map fun number =>
      (.scalar (.int (UInt64.ofNat number).toInt64), rest)
  | .negative => head.number.map fun number =>
      (.scalar (.int (~~~(UInt64.ofNat number).toInt64)), rest)
  | .byteString => (readString head rest).map fun (value, rest) =>
      (.scalar (.byteString value), rest)
  | .textString => (readString head rest).map fun (value, rest) =>
      (.scalar (.textString value), rest)
  | .array => head.length.map fun length => (.array length, rest)
  | .map => head.length.map fun length => (.map length, rest)
  | .tag => head.number.map fun number => (.tag (UInt64.ofNat number), rest)
  | .simple => head.simpleToken.map fun token => (token, rest)

def read (bytes : Bytes) : Option (CborToken × Bytes) :=
  match CborHead.read bytes with
  | none => none
  | some (head, rest) => ofHead head rest

theorem head_fits {token : CborToken} (writable : token.Writable) :
    token.head.Fits := by
  cases token with
  | scalar value =>
      cases value with
      | int value =>
          rw [head]
          split
          · exact fits_ofNumber _ (UInt64.toNat_lt _)
          · exact fits_ofNumber _ (UInt64.toNat_lt _)
      | bool value => cases value <;> exact ⟨by decide, by decide⟩
      | null => exact ⟨by decide, by decide⟩
      | undefined => exact ⟨by decide, by decide⟩
      | halfFloat bits => exact ⟨(by decide : 25 < 32), bits.toNat_lt⟩
      | float bits => exact ⟨(by decide : 26 < 32), bits.toNat_lt⟩
      | double bits => exact ⟨(by decide : 27 < 32), bits.toNat_lt⟩
      | byteString value => exact fits_ofNumber _ writable
      | textString value => exact fits_ofNumber _ writable
  | tag number => exact fits_ofNumber _ number.toNat_lt
  | array length =>
      cases length with
      | none => exact ⟨by decide, by decide⟩
      | some length => exact fits_ofNumber _ writable
  | map length =>
      cases length with
      | none => exact ⟨by decide, by decide⟩
      | some length => exact fits_ofNumber _ writable
  | stop => exact ⟨by decide, by decide⟩

theorem readString_ofNumber (major : CborMajor) (value rest : Bytes) :
    readString (ofNumber major value.length) (value ++ rest) =
      some (value, rest) := by
  rw [readString, number_ofNumber]
  simp only [List.length_append, List.take_left, List.drop_left]
  exact if_neg (Nat.not_lt.mpr (Nat.le_add_right _ _))

theorem ofHead_head (token : CborToken) (rest : Bytes) :
    ofHead token.head (token.content ++ rest) = some (token, rest) := by
  cases token with
  | scalar value =>
      cases value with
      | int value =>
          rw [head]
          split
          · simp only [ofHead, content, major_ofNumber, number_ofNumber,
              Option.map_some, UInt64.ofNat_toNat, Int64.toInt64_toUInt64,
              Int64.not_not, List.nil_append]
          · simp only [ofHead, content, major_ofNumber, number_ofNumber,
              Option.map_some, UInt64.ofNat_toNat, Int64.toInt64_toUInt64,
              List.nil_append]
      | bool value => cases value <;> rfl
      | null => rfl
      | undefined => rfl
      | halfFloat bits => simp [ofHead, head, content, simpleToken]
      | float bits => simp [ofHead, head, content, simpleToken]
      | double bits => simp [ofHead, head, content, simpleToken]
      | byteString value =>
          simp [ofHead, head, content, readString_ofNumber]
      | textString value =>
          simp [ofHead, head, content, readString_ofNumber]
  | tag number => simp [ofHead, head, content]
  | array length =>
      cases length with
      | none => rfl
      | some length => simp [ofHead, head, content]
  | map length =>
      cases length with
      | none => rfl
      | some length => simp [ofHead, head, content]
  | stop => rfl

theorem read_write (token : CborToken) (rest : Bytes)
    (writable : token.Writable) :
    read (token.write ++ rest) = some (token, rest) := by
  rw [read, write, List.append_assoc, CborHead.read_write (head_fits writable)]
  exact ofHead_head token rest

end CborToken

/-- The codec with the shortest heads. -/
def shortestHeads : CborCodec where
  write := CborToken.write
  read := CborToken.read
  read_write := CborToken.read_write
  write_ne_nil _ := List.append_ne_nil_of_left_ne_nil (List.cons_ne_nil _ _) _

end IotivityLite
