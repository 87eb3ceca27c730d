import IotivityLite.Foundation.Cbor

/-!
# Decoding of payloads

`oc_rep_decode.c`: a payload is parsed to the tree `oc_rep_t`.  The iterator
of tinycbor stands before the items that remain in a container; it is modelled
by the list of these items, so that a loop over a container is a recursion
over the list.  Memory for the tree is taken to be there.
-/

namespace IotivityLite

/-- A value of `oc_rep_t`.  Doubles are their bits.  An item of a string array
is what stands in its place before the terminator. -/
inductive OcRepValue where
  | nil
  | int (value : Int64)
  | double (bits : UInt64)
  | bool (value : Bool)
  | byteString (value : Bytes)
  | string (value : Bytes)
  | object (members : List (Bytes × OcRepValue))
  | intArray (values : List Int64)
  | doubleArray (values : List UInt64)
  | boolArray (values : List Bool)
  | byteStringArray (values : List Bytes)
  | stringArray (values : List Bytes)
  | objectArray (items : List (List (Bytes × OcRepValue)))

/-- A list of `oc_rep_t` nodes: their names and values. -/
abbrev OcRep := List (Bytes × OcRepValue)

/-- The errors that are told apart.  `assertion` stands for a call of tinycbor
on an item of the wrong type, `malformed` for bytes that are no CBOR. -/
inductive CborError where
  | outOfMemory
  | illegalType
  | internalError
  | tooManyItems
  | tooFewItems
  | assertion
  | malformed
  deriving DecidableEq

/-- `oc_rep_parse_result_t` -/
inductive RepParseResult where
  | rep (rep : OcRep)
  | emptyArray
  | null

def stringArrayItemMaxLen : Nat := 128

/-- `cbor_type_to_oc_rep_value_type` -/
def cborTypeToOcRepValueType : CborItem → Option UInt8
  | .scalar (.int _) => some 0x01
  | .scalar (.double _) => some 0x02
  | .scalar (.bool _) => some 0x03
  | .map _ _ => some 0x06
  | .array _ _ => some 0x08
  | .scalar (.byteString _) => some 0x04
  | .scalar (.textString _) => some 0x05
  | _ => none

/-- A round of `rep_parse_simple_array`: the type of the item has to be part
of the type of the array. -/
def repParseItem {Value : Type} (arrayType : UInt8)
    (get : CborItem → Except CborError Value) (item : CborItem) :
    Except CborError Value :=
  match cborTypeToOcRepValueType item with
  | none => .error .illegalType
  | some type =>
      if arrayType &&& type ≠ type then .error .illegalType else get item

def cborValueGetInt64 : CborItem → Except CborError Int64
  | .scalar (.int value) => .ok value
  | _ => .error .assertion

def cborValueGetDouble : CborItem → Except CborError UInt64
  | .scalar (.double bits) => .ok bits
  | _ => .error .assertion

def cborValueGetBoolean : CborItem → Except CborError Bool
  | .scalar (.bool value) => .ok value
  | _ => .error .assertion

/-- The place of a byte string starts with its length. -/
def copyByteStringItem : CborItem → Except CborError Bytes
  | .scalar (.byteString value) =>
      if value.length ≤ stringArrayItemMaxLen - 1 then .ok value
      else .error .outOfMemory
  | _ => .error .assertion

/-- The place of a text ends with a zero, if there is room for it. -/
def copyTextStringItem : CborItem → Except CborError Bytes
  | .scalar (.textString value) =>
      if value.length ≤ stringArrayItemMaxLen then
        .ok (value.takeWhile (· ≠ 0))
      else .error .outOfMemory
  | _ => .error .assertion

/-- `rep_parse_array`, with the outcome of `rep_parse_object_array`.  The first
item decides on the type of the array; an empty array leaves the type of the
node at `OC_REP_NIL`. -/
def repParseArray (items : List CborItem)
    (objects : Except CborError (List OcRep)) : Except CborError OcRepValue :=
  match items with
  | [] => .ok .nil
  | first :: _ =>
      match (cborTypeToOcRepValueType first).map
          (fun type : UInt8 => type ||| 0x08) with
      | none => .error .illegalType
      | some 0x09 =>
          (items.mapM (repParseItem 0x09 cborValueGetInt64)).map .intArray
      | some 0x0A =>
          (items.mapM (repParseItem 0x0A cborValueGetDouble)).map .doubleArray
      | some 0x0B =>
          (items.mapM (repParseItem 0x0B cborValueGetBoolean)).map .boolArray
      | some 0x0C =>
          (items.mapM (repParseItem 0x0C copyByteStringItem)).map
            .byteStringArray
      | some 0x0D =>
          (items.mapM (repParseItem 0x0D copyTextStringItem)).map .stringArray
      | some 0x0E => objects.map .objectArray
      | some _ => .error .internalError

/-- A string of `oc_string_t`: its size counts the terminator. -/
def repParseString (value : Bytes) : Except CborError Bytes :=
  if (value.length + 1) % 2 ^ 64 = 0 then .error .internalError else .ok value

/-- `rep_parse_key` -/
def repParseKey : CborItem → Except CborError Bytes
  | .scalar (.textString name) => repParseString name
  | _ => .error .illegalType

mutual

/-- `oc_parse_rep_value`; the node keeps the type `OC_REP_NIL` for the types
that are not looked at. -/
def ocParseRepValue : CborItem → Except CborError OcRepValue
  | .tag _ item => ocParseRepValue item
  | .scalar (.int value) => .ok (.int value)
  | .scalar (.bool value) => .ok (.bool value)
  | .scalar (.double bits) => .ok (.double bits)
  | .scalar (.byteString value) => (repParseString value).map .byteString
  | .scalar (.textString value) => (repParseString value).map .string
  | .scalar _ => .ok .nil
  | .map _ entries => (repParseObjects entries).map .object
  | .array _ items => repParseArray items (repParseObjectArray items)

/-- A loop of `rep_parse_object` over the entries of a map. -/
def repParseObjects : List (CborItem × CborItem) → Except CborError OcRep
  | [] => .ok []
  | (key, value) :: entries => do
      let name ← repParseKey key
      let parsed ← ocParseRepValue value
      let members ← repParseObjects entries
      return (name, parsed) :: members

/-- `rep_parse_object_array` -/
def repParseObjectArray : List CborItem → Except CborError (List OcRep)
  | [] => .ok []
  | .map _ entries :: items => do
      let members ← repParseObjects entries
      let objects ← repParseObjectArray items
      return members :: objects
  | _ :: _ => .error .illegalType

end

theorem toUInt8_ofNat (value : UInt8) :
    (Int64.ofNat value.toNat).toUInt64.toUInt8 = value := by
  have bits : (Int64.ofNat value.toNat).toUInt64 =
    UInt64.ofNat value.toNat := rfl
  have small := value.toNat_lt
  apply UInt8.toNat_inj.mp
  rw [bits, UInt64.toNat_toUInt8, UInt64.toNat_ofNat']
  omega

/-- Items taken as keys and values in turn. -/
def pairUp : List CborItem → Option (List (CborItem × CborItem))
  | [] => some []
  | [_] => none
  | key :: value :: items => (pairUp items).map ((key, value) :: ·)

/-- `rep_parse_root_array`: every item is entered as a container, and becomes
a node without a name. -/
def repParseRootArray : List CborItem → Except CborError OcRep
  | [] => .ok []
  | item :: items => do
      let members ← match item with
        | .map _ entries => repParseObjects entries
        | .array _ inner =>
            match pairUp inner with
            | some entries => repParseObjects entries
            | none => .error .malformed
        | _ => .error .assertion
      let nodes ← repParseRootArray items
      return ([], .object members) :: nodes

/-- `oc_rep_parse_cbor` for an item. -/
def repParseRoot : CborItem → Except CborError RepParseResult
  | .map _ entries => (repParseObjects entries).map .rep
  | .array _ [] => .ok .emptyArray
  | .array _ items => (repParseRootArray items).map .rep
  | .scalar .null => .ok .null
  | _ => .error .internalError

/-- `oc_rep_parse_cbor` -/
def ocRepParseCbor (codec : CborCodec) (payload : Bytes) :
    Except CborError RepParseResult :=
  match codec.readItem (2 * payload.length) payload with
  | none => .error .malformed
  | some (item, _) => repParseRoot item

/-- `oc_parse_rep`; the empty list is the null pointer. -/
def ocParseRep (codec : CborCodec) (payload : Bytes) : OcRep :=
  match ocRepParseCbor codec payload with
  | .ok (.rep rep) => rep
  | _ => []

end IotivityLite
