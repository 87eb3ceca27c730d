import IotivityLite.Rep.Decode

/-!
# Encoding of payloads

The encoder functions of `oc_rep_encode.c` and the macros of `oc_rep.h`, for
the global encoder of CBOR.  All encoders of a payload share one buffer, which
grows when a token does not fit.  A failed call leaves its mark in `g_err`, and
a payload with a mark is not sent; the first failure therefore ends the
writing here.  A tree is encoded as an application does it, one call of a
macro after the other.
-/

namespace IotivityLite

/-- `oc_rep_encoder_buffer_t` with the bytes that were written.  `hasMemory`
is the outcome of `realloc`. -/
structure RepBuffer where
  written : Bytes
  size : Nat
  maxSize : Nat
  enableRealloc : Bool
  hasMemory : Bool

abbrev RepWriter := StateT RepBuffer (Except CborError)

namespace RepBuffer

/-- `oc_rep_encoder_buffer_realloc_init` -/
def ofRealloc (size maxSize : Nat) (hasMemory : Bool) : RepBuffer :=
  ⟨[], size, maxSize, true, hasMemory⟩

/-- `oc_rep_encoder_buffer_init` -/
def ofFixed (size : Nat) : RepBuffer := ⟨[], size, size, false, false⟩

/-- The number of bytes the buffer can take in the end. -/
def capacity (buffer : RepBuffer) : Nat :=
  if buffer.enableRealloc && buffer.hasMemory then
    max buffer.size buffer.maxSize
  else buffer.size

/-- A call of tinycbor; the bytes are written if they fit. -/
def append (bytes : Bytes) (buffer : RepBuffer) : Except CborError RepBuffer :=
  if buffer.written.length + bytes.length ≤ buffer.size then
    .ok { buffer with written := buffer.written ++ bytes }
  else .error .outOfMemory

/-- `rep_buffer_realloc` -/
def realloc (needed : Nat) (buffer : RepBuffer) : Except CborError RepBuffer :=
  if !buffer.enableRealloc then .error .outOfMemory
  else if buffer.size + needed > buffer.maxSize then .error .outOfMemory
  else
    -- preallocate buffer to avoid reallocation
    let needed :=
      if 2 * (buffer.size + needed) < buffer.maxSize / 4 then
        needed + (buffer.size + needed)
      else buffer.maxSize - buffer.size
    if !buffer.hasMemory then .error .outOfMemory
    else .ok { buffer with size := buffer.size + needed }

end RepBuffer

/-- The common part of the functions `oc_rep_encoder_write_*`: a call that does
not fit is repeated after the buffer has grown. -/
def writeBytes (bytes : Bytes) : RepWriter Unit := fun buffer =>
  match buffer.append bytes with
  | .ok after => .ok ((), after)
  | .error _ => do
      let needed := buffer.written.length + bytes.length - buffer.size
      let grown ← buffer.realloc needed
      let after ← grown.append bytes
      return ((), after)

/-- A `CborEncoder`: for a container of known length one more than the number
of items to come. -/
structure CborEncoder where
  remaining : Option Nat

/-- An encoder of a container of indefinite length. -/
def CborEncoder.open : CborEncoder := ⟨none⟩

section Functions

variable (codec : CborCodec)

def writeToken (encoder : CborEncoder) (token : CborToken) :
    RepWriter CborEncoder := do
  writeBytes (codec.write token)
  return ⟨encoder.remaining.map (· - 1)⟩

def ocRepEncodeNull (encoder : CborEncoder) : RepWriter CborEncoder :=
  writeToken codec encoder (.scalar .null)

def ocRepEncodeBoolean (encoder : CborEncoder) (value : Bool) :
    RepWriter CborEncoder :=
  writeToken codec encoder (.scalar (.bool value))

def ocRepEncodeInt (encoder : CborEncoder) (value : Int64) :
    RepWriter CborEncoder :=
  writeToken codec encoder (.scalar (.int value))

def ocRepEncodeDouble (encoder : CborEncoder) (bits : UInt64) :
    RepWriter CborEncoder :=
  writeToken codec encoder (.scalar (.double bits))

def ocRepEncodeTextString (encoder : CborEncoder) (value : Bytes) :
    RepWriter CborEncoder :=
  writeToken codec encoder (.scalar (.textString value))

def ocRepEncodeByteString (encoder : CborEncoder) (value : Bytes) :
    RepWriter CborEncoder :=
  writeToken codec encoder (.scalar (.byteString value))

/-- The encoders of the parent and of the container; `none` is
`CborIndefiniteLength`. -/
def ocRepEncoderCreateArray (parent : CborEncoder) (length : Option Nat) :
    RepWriter (CborEncoder × CborEncoder) := do
  let parent ← writeToken codec parent (.array length)
  return (parent, ⟨length.map (· + 1)⟩)

def ocRepEncoderCreateMap (parent : CborEncoder) (length : Option Nat) :
    RepWriter (CborEncoder × CborEncoder) := do
  let parent ← writeToken codec parent (.map length)
  return (parent, ⟨length.map (2 * · + 1)⟩)

/-- The number of items of a container of known length is checked. -/
def ocRepEncoderCloseContainer (container : CborEncoder) : RepWriter Unit :=
  match container.remaining with
  | none => writeBytes (codec.write .stop)
  | some 0 => throw .tooManyItems
  | some 1 => return ()
  | some (_ + 2) => throw .tooFewItems

/-- A key and a value, as in `oc_rep_object_set_int` and its siblings. -/
def ocRepObjectSet (object : CborEncoder) (key : Bytes)
    (encode : CborEncoder → RepWriter CborEncoder) : RepWriter CborEncoder := do
  let object ← ocRepEncodeTextString codec object key
  encode object

/-- The items of an array, one call after the other. -/
def addItems {Value : Type}
    (encode : CborEncoder → Value → RepWriter CborEncoder) :
    CborEncoder → List Value → RepWriter CborEncoder
  | array, [] => return array
  | array, value :: values => do
      let array ← encode array value
      addItems encode array values

/-- A key and an array.  With a length this is `oc_rep_set_int_array` and its
siblings, without one it is what stands between `oc_rep_open_array` and
`oc_rep_close_array`. -/
def ocRepSetArray {Value : Type} (object : CborEncoder) (key : Bytes)
    (length : Option Nat)
    (encode : CborEncoder → Value → RepWriter CborEncoder)
    (values : List Value) : RepWriter CborEncoder := do
  let object ← ocRepEncodeTextString codec object key
  let (object, array) ← ocRepEncoderCreateArray codec object length
  let array ← addItems encode array values
  ocRepEncoderCloseContainer codec array
  return object

variable (definite : Bool)

mutual

/-- One member of an object.  Arrays of numbers and truth values are encoded
with a length or without. -/
def encodeMember (object : CborEncoder) (name : Bytes) :
    OcRepValue → RepWriter CborEncoder
  | .nil => ocRepObjectSet codec object name (ocRepEncodeNull codec)
  | .int value =>
      ocRepObjectSet codec object name (ocRepEncodeInt codec · value)
  | .double bits =>
      ocRepObjectSet codec object name (ocRepEncodeDouble codec · bits)
  | .bool value =>
      ocRepObjectSet codec object name (ocRepEncodeBoolean codec · value)
  | .byteString value =>
      ocRepObjectSet codec object name (ocRepEncodeByteString codec · value)
  | .string value =>
      ocRepObjectSet codec object name (ocRepEncodeTextString codec · value)
  | .intArray values =>
      ocRepSetArray codec object name (announced definite values.length)
        (ocRepEncodeInt codec) values
  | .doubleArray values =>
      ocRepSetArray codec object name (announced definite values.length)
        (ocRepEncodeDouble codec) values
  | .boolArray values =>
      ocRepSetArray codec object name (announced definite values.length)
        (ocRepEncodeBoolean codec) values
  | .byteStringArray values =>
      ocRepSetArray codec object name none (ocRepEncodeByteString codec) values
  | .stringArray values =>
      ocRepSetArray codec object name none (ocRepEncodeTextString codec) values
  | .object members => do
      let object ← ocRepEncodeTextString codec object name
      let (object, map) ← ocRepEncoderCreateMap codec object none
      let map ← encodeMembers map members
      ocRepEncoderCloseContainer codec map
      return object
  | .objectArray items => do
      let object ← ocRepEncodeTextString codec object name
      let (object, array) ← ocRepEncoderCreateArray codec object none
      let array ← encodeObjects array items
      ocRepEncoderCloseContainer codec array
      return object

def encodeMembers (object : CborEncoder) :
    List (Bytes × OcRepValue) → RepWriter CborEncoder
  | [] => return object
  | (name, value) :: members => do
      let object ← encodeMember object name value
      encodeMembers object members

/-- The items of an array of objects, each between
`oc_rep_object_array_begin_item` and `oc_rep_object_array_end_item`. -/
def encodeObjects (array : CborEncoder) :
    List (List (Bytes × OcRepValue)) → RepWriter CborEncoder
  | [] => return array
  | members :: items => do
      let (array, map) ← ocRepEncoderCreateMap codec array none
      let map ← encodeMembers map members
      ocRepEncoderCloseContainer codec map
      encodeObjects array items

end

/-- A payload: the root object, or an array of objects as for links. -/
inductive RepRoot where
  | object (members : OcRep)
  | array (items : List OcRep)

/-- The encoder of the payload as a whole. -/
def encodeRoot (root : RepRoot) : RepWriter Unit :=
  match root with
  | .object members => do
      let (_, map) ← ocRepEncoderCreateMap codec .open none
      let map ← encodeMembers codec definite map members
      ocRepEncoderCloseContainer codec map
  | .array items => do
      let (_, array) ← ocRepEncoderCreateArray codec .open none
      let array ← encodeObjects codec definite array items
      ocRepEncoderCloseContainer codec array

end Functions

end IotivityLite
