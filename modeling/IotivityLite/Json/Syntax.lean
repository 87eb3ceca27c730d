import IotivityLite.Json.Decode

/-!
# The texts of JSON

A syntax tree of JSON with the white space that stands between its parts, the
text it is written as, and the nodes that it stands for.  Numbers are integers
here, and texts of strings are those that the tokenizer reads to their ends.
-/

namespace IotivityLite

/-- White space. -/
structure JsonSpace where
  bytes : Bytes
  isSpace : ∀ byte ∈ bytes, isJsonSpace byte = true

/-- The text between quotes: no bare quote, no zero, and no backslash that is
not part of an escape. -/
def isStringText : Bytes → Bool
  | [] => true
  | byte :: rest =>
      if byte = 0 ∨ byte = 34 then false
      else if byte = 92 then
        match rest with
        | [] => false
        | escaped :: rest =>
            if escaped = 117 then
              match rest with
              | first :: second :: third :: fourth :: rest =>
                  [first, second, third, fourth].all isXdigit &&
                    isStringText rest
              | _ => false
            else isJsonEscape escaped && isStringText rest
      else isStringText rest

structure JsonString where
  raw : Bytes
  isText : isStringText raw = true

def isDigit (byte : UInt8) : Bool := 48 ≤ byte && byte ≤ 57

/-- An integer: its digits do not start with a zero unless it is zero. -/
structure JsonInteger where
  negative : Bool
  digits : Bytes
  areDigits : ∀ byte ∈ digits, isDigit byte = true
  nonempty : digits ≠ []
  canonical : digits.head? = some 48 → digits = [48]

namespace JsonInteger

def text (number : JsonInteger) : Bytes :=
  (if number.negative then [45] else []) ++ number.digits

/-- The number that the digits stand for. -/
def ofDigits (digits : Bytes) : Nat :=
  digits.foldl (fun number (byte : UInt8) =>
    10 * number + (byte.toNat - 48)) 0

/-- The number with its sign. -/
def signed (negative : Bool) (digits : Bytes) : Int :=
  if negative then -(ofDigits digits : Int) else ofDigits digits

/-- A number as one of 64 bits, if it is one. -/
def inRange (value : Int) : Option Int64 :=
  if -2 ^ 63 ≤ value ∧ value < 2 ^ 63 then some (Int64.ofInt value) else none

def toInt64 (number : JsonInteger) : Option Int64 :=
  inRange (signed number.negative number.digits)

end JsonInteger

/-- A key with the white space around it. -/
structure JsonKey where
  before : JsonSpace
  name : JsonString
  after : JsonSpace

/-- Items and members come with the white space around them; `inner` is that
of a container without any. -/
inductive JsonSyntax where
  | null
  | bool (value : Bool)
  | int (number : JsonInteger)
  | string (value : JsonString)
  | array (inner : JsonSpace)
      (items : List (JsonSpace × JsonSyntax × JsonSpace))
  | object (inner : JsonSpace)
      (members : List (JsonKey × JsonSpace × JsonSyntax × JsonSpace))

abbrev JsonItems := List (JsonSpace × JsonSyntax × JsonSpace)

abbrev JsonMembers := List (JsonKey × JsonSpace × JsonSyntax × JsonSpace)

/-- A comma, unless nothing follows. -/
def comma {Part : Type} : List Part → Bytes
  | [] => []
  | _ :: _ => [44]

def JsonKey.text (key : JsonKey) : Bytes :=
  key.before.bytes ++ (34 :: (key.name.raw ++ (34 :: key.after.bytes)))

mutual

def JsonSyntax.text : JsonSyntax → Bytes
  | .null => ascii "null"
  | .bool value => if value then ascii "true" else ascii "false"
  | .int number => number.text
  | .string value => 34 :: (value.raw ++ [34])
  | .array inner [] => 91 :: (inner.bytes ++ [93])
  | .array _ items => 91 :: (itemsText items ++ [93])
  | .object inner [] => 123 :: (inner.bytes ++ [125])
  | .object _ members => 123 :: (membersText members ++ [125])

def itemsText : List (JsonSpace × JsonSyntax × JsonSpace) → Bytes
  | [] => []
  | (before, value, after) :: items =>
      before.bytes ++ (value.text ++ (after.bytes ++
        (comma items ++ itemsText items)))

def membersText :
    List (JsonKey × JsonSpace × JsonSyntax × JsonSpace) → Bytes
  | [] => []
  | (key, before, value, after) :: members =>
      key.text ++ (58 :: (before.bytes ++ (value.text ++ (after.bytes ++
        (comma members ++ membersText members)))))

end

/-- The text inside of an array. -/
def arrayText (inner : JsonSpace) (items : JsonItems) : Bytes :=
  if items.isEmpty then inner.bytes else itemsText items

/-- The text inside of an object. -/
def objectText (inner : JsonSpace) (members : JsonMembers) : Bytes :=
  if members.isEmpty then inner.bytes else membersText members

@[simp] theorem JsonSyntax.text_array (inner : JsonSpace) (items : JsonItems) :
    (JsonSyntax.array inner items).text =
      91 :: (arrayText inner items ++ [93]) := by
  cases items <;> simp [JsonSyntax.text, arrayText]

@[simp] theorem JsonSyntax.text_object (inner : JsonSpace)
    (members : JsonMembers) :
    (JsonSyntax.object inner members).text =
      123 :: (objectText inner members ++ [125]) := by
  cases members <;> simp [JsonSyntax.text, objectText]

/-- The type of an item; a number that is out of range has none. -/
def JsonSyntax.itemType : JsonSyntax → Option JsonItemType
  | .null => some .nil
  | .bool _ => some .bool
  | .int number => number.toInt64.map fun _ => .int
  | .string _ => some .string
  | .array _ _ => some .array
  | .object _ _ => some .object

/-- The common type of the items, or nothing for an empty array; `none` when
they have none. -/
def itemsType (items : JsonItems) : Option (Option JsonItemType) :=
  match items with
  | [] => some none
  | (_, first, _) :: rest =>
      first.itemType.bind fun type =>
        if rest.all fun (_, item, _) => item.itemType == some type then
          some (some type)
        else none

def JsonSyntax.boolValue : JsonSyntax → Option Bool
  | .bool value => some value
  | _ => none

def JsonSyntax.intValue : JsonSyntax → Option Int64
  | .int number => number.toInt64
  | _ => none

def JsonSyntax.stringValue : JsonSyntax → Option Bytes
  | .string value => some value.raw
  | _ => none

mutual

/-- The node that a value stands for; `none` when it is not supported.  Empty
arrays and arrays of nulls are null, items of string arrays are cut off, and
strings are the texts between their quotes. -/
def JsonSyntax.node : JsonSyntax → Option JsonNode
  | .null => some .nil
  | .bool value => some (.bool value)
  | .int number => number.toInt64.map .int
  | .string value => some (.string value.raw)
  | .object _ members => (membersNodes members).map .object
  | .array _ items =>
      match itemsType items with
      | none => none
      | some none => some .nil
      | some (some .nil) => some .nil
      | some (some .bool) =>
          some (.boolArray
            (items.filterMap fun (_, item, _) => item.boolValue))
      | some (some .int) =>
          some (.intArray (items.filterMap fun (_, item, _) => item.intValue))
      | some (some .string) =>
          some (.stringArray ((items.filterMap fun (_, item, _) =>
            item.stringValue).map (·.take (stringArrayItemMaxLen - 1))))
      | some (some .object) => (itemsNodes items).map .objectArray
      | some (some .array) => none

def itemsNodes :
    List (JsonSpace × JsonSyntax × JsonSpace) → Option JsonNodes
  | [] => some []
  | (_, value, _) :: items =>
      value.node.bind fun node =>
        (itemsNodes items).map ((none, node) :: ·)

def membersNodes :
    List (JsonKey × JsonSpace × JsonSyntax × JsonSpace) → Option JsonNodes
  | [] => some []
  | (key, _, value, _) :: members =>
      value.node.bind fun node =>
        (membersNodes members).map ((some key.name.raw, node) :: ·)

end

end IotivityLite
