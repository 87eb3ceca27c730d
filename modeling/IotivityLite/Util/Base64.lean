import IotivityLite.Foundation.Memory

/-!
# Base64

The decoder and the encoder of `oc_base64.c`.  The decoder reads its input
left to right and never writes ahead of the character it reads, so decoding in
place gives the same bytes as decoding into another buffer.
-/

namespace IotivityLite

inductive Base64Encoding where
  | std
  | url
  deriving DecidableEq, Repr

def base64DecodeChar (encoding : Base64Encoding) (c : UInt8) : Option UInt8 :=
  if 65 ≤ c ∧ c ≤ 90 then some (c - 65)
  else if 97 ≤ c ∧ c ≤ 122 then some (c - 71)
  else if 48 ≤ c ∧ c ≤ 57 then some (c + 4)
  else match encoding with
    | .std =>
        if c = 43 then some 62 else if c = 47 then some 63 else none
    | .url =>
        if c = 45 then some 62 else if c = 95 then some 63 else none

/-- `none` stands for the result -1. -/
def ocBase64DecodedOutputSize (input : Bytes) (padding : Bool) : Option Nat :=
  if input = [] then some 0
  else if padding then
    if input.length % 4 ≠ 0 then none
    else
      let paddingCount := (input.drop (input.length - 2)).count 61
      some (input.length * 3 / 4 - paddingCount)
  else if input.length % 4 = 1 then none
  else
    let paddingCount :=
      if input.length % 4 ≠ 0 then 4 - input.length % 4 else 0
    some ((input.length + paddingCount) * 3 / 4 - paddingCount)

/-- The loop from position `i` on; `valC` is the byte that is being put
together. -/
def base64DecodeLoop (encoding : Base64Encoding) (padding : Bool)
    (inputSize : Nat) : (rest : Bytes) → (i : Nat) → (valC : UInt8) →
    (output : Bytes) → Option Bytes
  | [], _, _, output => some output
  | c :: rest, i, valC, output =>
      if padding ∧ c = 61 then
        if i < inputSize - 2 then none
        else if i = inputSize - 2 ∧ rest.head? ≠ some 61 then none
        else some output
      else match base64DecodeChar encoding c with
        | none => none
        | some valS =>
            let next := base64DecodeLoop encoding padding inputSize rest (i + 1)
            match i % 4 with
            | 0 => next ((valS <<< 2) &&& 0xFD) output
            | 1 =>
                next ((valS <<< 4) &&& 0xF0) (output ++ [valC ||| valS >>> 4])
            | 2 =>
                next ((valS <<< 6) &&& 0xD0) (output ++ [valC ||| valS >>> 2])
            | _ => next (valC ||| valS) (output ++ [valC ||| valS])

def ocBase64DecodeV1 (encoding : Base64Encoding) (padding : Bool)
    (input : Bytes) (outputBufferSize : Nat) : Option Bytes :=
  match ocBase64DecodedOutputSize input padding with
  | none => none
  | some size =>
      if outputBufferSize < size then none
      else base64DecodeLoop encoding padding input.length input 0 0 []

/-- `oc_base64_decode`, in place. -/
def ocBase64Decode (text : Bytes) : Option Bytes :=
  ocBase64DecodeV1 .std true text text.length

example : ocBase64Decode [65, 81, 73, 61] = some [1, 2] := by decide

/-- The alphabet. -/
def base64EncodeChar (encoding : Base64Encoding) (val : UInt8) : UInt8 :=
  if val < 26 then val + 65
  else if val < 52 then val + 71
  else if val < 62 then val - 4
  else match encoding with
    | .std => if val = 62 then 43 else 47
    | .url => if val = 62 then 45 else 95

def ocBase64EncodedOutputSize (size : Nat) (padding : Bool) : Nat :=
  if padding then size / 3 * 4 + (if size % 3 ≠ 0 then 4 else 0)
  else (size * 4 + 2) / 3

/-- The loop from position `i` on; `val` keeps the bits that are left of the
byte before. -/
def base64EncodeLoop (encoding : Base64Encoding) :
    (rest : Bytes) → (i : Nat) → (val : UInt8) → Bytes
  | [], i, val => if i % 3 ≠ 0 then [base64EncodeChar encoding val] else []
  | byte :: rest, i, val =>
      let char := base64EncodeChar encoding
      let next := base64EncodeLoop encoding rest (i + 1)
      match i % 3 with
      | 0 => char (byte >>> 2) :: next ((byte <<< 4) &&& 0x30)
      | 1 => char (val ||| byte >>> 4) :: next ((byte <<< 2) &&& 0x3D)
      | _ =>
          char (val ||| byte >>> 6) :: char (byte &&& 0x3F) ::
            next (byte &&& 0x3F)

/-- `none` stands for the result -1. -/
def ocBase64EncodeV1 (encoding : Base64Encoding) (padding : Bool)
    (input : Bytes) (outputBufferSize : Nat) : Option Bytes :=
  if input = [] then some []
  else
    let outputLen := ocBase64EncodedOutputSize input.length padding
    if outputBufferSize < outputLen then none
    else
      let output := base64EncodeLoop encoding input 0 0
      if padding then
        some (output ++ List.replicate (outputLen - output.length) 61)
      else some output

end IotivityLite
