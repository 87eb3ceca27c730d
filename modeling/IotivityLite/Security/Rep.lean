import IotivityLite.Foundation.Memory

/-!
# Decoded payloads and UUIDs

The tree `oc_rep_t` that a request payload is decoded to, and the UUIDs of
`oc_uuid.c` that its strings are read as.  Texts are byte strings; `ascii`
spells out the names of properties.
-/

namespace IotivityLite

def ascii (literal : String) : Bytes :=
  literal.toList.map fun character => UInt8.ofNat character.toNat

/-- A value of `oc_rep_t`.  The types that no decoder of the security
resources looks at are `other`. -/
inductive RepValue where
  | nil
  | int (value : Int)
  | bool (value : Bool)
  | byteString (value : Bytes)
  | string (value : Bytes)
  | object (entries : List (Bytes × RepValue))
  | array
  | intArray (values : List Int)
  | stringArray (values : List Bytes)
  | objectArray (items : List (List (Bytes × RepValue)))
  | other

/-- The entries of a map in the order of the payload; names may repeat. -/
abbrev Rep := List (Bytes × RepValue)

structure Uuid where
  id : Bytes
  length_id : id.length = 16
  deriving DecidableEq

namespace Uuid

def nil : Uuid := ⟨List.replicate 16 0, rfl⟩

/-- The given bytes, filled up with zeros. -/
def ofBytes (bytes : Bytes) : Uuid where
  id := bytes.take 16 ++ List.replicate (16 - bytes.length) 0
  length_id := by
    rw [List.length_append, List.length_take, List.length_replicate]
    omega

instance : Inhabited Uuid := ⟨nil⟩

end Uuid

/-- The value a character of a UUID adds to the current byte: letters beyond
`f` add nothing, other characters their distance from zero. -/
def uuidDigit (character : UInt8) : UInt8 :=
  let isAlpha := (65 ≤ character && character ≤ 90) ||
    (97 ≤ character && character ≤ 122)
  if isAlpha then
    if 65 ≤ character && character ≤ 70 then character - 55
    else if 97 ≤ character && character ≤ 102 then character - 87
    else 0
  else character - 48

/-- The loop of `str_to_uuid`: the complete bytes, and the started one.
`none` stands for the result -1. -/
def strToUuidLoop : (text : Bytes) → (bytes : Bytes) → (started : Option UInt8) →
    Option Bytes
  | [], bytes, _ => some bytes
  | character :: text, bytes, started =>
      if character = 45 then strToUuidLoop text bytes started
      else match started with
        | none =>
            strToUuidLoop text bytes (some (uuidDigit character <<< 4))
        | some high =>
            if bytes.length = 16 then none
            else strToUuidLoop text (bytes ++ [high ||| uuidDigit character])
              none

/-- The number of bytes read, and the UUID that is stored even when they are
too few. -/
def strToUuid (text : Bytes) : Option (Nat × Uuid) :=
  if text = [42] then some (1, Uuid.ofBytes [42])
  else (strToUuidLoop (text.take 36) [] none).map fun bytes =>
    (bytes.length, Uuid.ofBytes bytes)

/-- `none` stands for the result -1. -/
def ocStrToUuidV1 (text : Bytes) : Option Uuid :=
  match strToUuid text with
  | some (count, uuid) => if text = [42] ∨ count = 16 then some uuid else none
  | none => none

/-- What `oc_str_to_uuid` leaves in a variable: a malformed text overwrites
it with the bytes that could be read. -/
def ocStrToUuid (text : Bytes) (before : Uuid) : Uuid :=
  match strToUuid ((text.takeWhile (· ≠ 0)).take 37) with
  | some (_, uuid) => uuid
  | none => before

def hexDigit (value : UInt8) : UInt8 :=
  if value < 10 then value + 48 else value + 87

/-- `oc_uuid_to_str` without the terminating zero. -/
def ocUuidToStr (uuid : Uuid) : Bytes :=
  if uuid = Uuid.ofBytes [42] then [42]
  else uuid.id.zipIdx.flatMap fun (byte, i) =>
    let digits := [hexDigit (byte >>> 4), hexDigit (byte &&& 15)]
    if i = 4 ∨ i = 6 ∨ i = 8 ∨ i = 10 then 45 :: digits else digits

example : ocStrToUuidV1 (ascii "00000000-0000-0000-0000-00000000000f") =
    some (Uuid.ofBytes (List.replicate 15 0 ++ [15])) := by decide

end IotivityLite
