import IotivityLite.Json.Jsmn
import IotivityLite.Rep.Decode

/-!
# Decoding of JSON payloads

`oc_rep_decode_json.c`: the nodes of a tree are made while the tokens come in.
A key is a node that waits for its value.  Memory for the tree is taken to be
there.
-/

namespace IotivityLite

/-- The value of a node.  The nodes of a list have a name or none, and
`unknown` is the type of a node that has got no value. -/
inductive JsonNode where
  | unknown
  | nil
  | bool (value : Bool)
  | int (value : Int64)
  | string (value : Bytes)
  | boolArray (values : List Bool)
  | intArray (values : List Int64)
  | stringArray (values : List Bytes)
  | object (nodes : List (Option Bytes × JsonNode))
  | objectArray (nodes : List (Option Bytes × JsonNode))

abbrev JsonNodes := List (Option Bytes × JsonNode)

mutual

/-- The number of nodes that are behind a node. -/
def JsonNode.size : JsonNode → Nat
  | .object nodes => nodesSize nodes
  | .objectArray nodes => nodesSize nodes
  | _ => 0

def nodesSize : List (Option Bytes × JsonNode) → Nat
  | [] => 0
  | (_, node) :: nodes => 1 + node.size + nodesSize nodes

end

/-- `rep_data_t`: the nodes that have their value, and the name of a last one
that waits for it.  `emptyArray` tells that the first node was an empty array,
and `leaked` counts the nodes that cannot be reached any more. -/
structure JsonData where
  nodes : JsonNodes := []
  cur : Option Bytes := none
  emptyArray : Bool := false
  leaked : Nat := 0

namespace JsonData

/-- The list of all nodes. -/
def list (data : JsonData) : JsonNodes :=
  data.nodes ++ data.cur.toList.map fun name => (some name, .unknown)

/-- The value of the node that waits for it, or of a new node. -/
def put (node : JsonNode) (data : JsonData) : JsonData :=
  { data with nodes := data.nodes ++ [(data.cur, node)], cur := none }

def leak (count : Nat) (data : JsonData) : JsonData :=
  { data with leaked := data.leaked + count }

end JsonData

/-- `strtoll` with base 10, for a text without white space; `none` when there
are no digits or when the number is out of range. -/
def strtoll (text : Bytes) : Option Int64 :=
  let (negative, text) := match text with
    | byte :: rest =>
        if byte = 45 then (true, rest)
        else if byte = 43 then (false, rest)
        else (false, text)
    | [] => (false, [])
  let digits := text.takeWhile fun byte => 48 ≤ byte && byte ≤ 57
  let number := digits.foldl (fun number (byte : UInt8) =>
    10 * number + (byte.toNat - 48)) 0
  let value : Int := if negative then -number else number
  if digits = [] then none
  else if -2 ^ 63 ≤ value ∧ value < 2 ^ 63 then some (Int64.ofInt value)
  else none

/-- `json_parse_int`; the buffer has room for 31 bytes. -/
def jsonParseInt (text : Bytes) : Option Int64 := strtoll (text.take 31)

/-- `json_parse_bool` -/
def jsonParseBool (text : Bytes) : Option Bool :=
  if text = ascii "true" then some true
  else if text = ascii "false" then some false
  else none

/-- The value of a primitive. -/
def primitiveValue (text : Bytes) : Option JsonNode :=
  if text = ascii "null" then some .nil
  else match jsonParseBool text with
    | some value => some (.bool value)
    | none => (jsonParseInt text).map .int

/-- `json_parse_primitive` -/
def jsonParsePrimitive (text : Bytes) (data : JsonData) : Bool × JsonData :=
  match data.cur, primitiveValue text with
  | some _, some value => (true, data.put value)
  | _, _ => (false, data)

/-- `json_parse_string`: a value, or the key of a new node. -/
def jsonParseString (text : Bytes) (data : JsonData) : Bool × JsonData :=
  match data.cur with
  | some _ => (true, data.put (.string text))
  | none => (true, { data with cur := some text })

/-- The types of array items. -/
inductive JsonItemType where
  | nil
  | bool
  | int
  | string
  | object
  | array
  deriving DecidableEq

/-- The type that `json_scan_array_type` finds for a token. -/
def jsonItemType (token : JsmnToken) : Option JsonItemType :=
  match token.type with
  | .primitive =>
      if token.text = ascii "null" then some .nil
      else if (jsonParseBool token.text).isSome then some .bool
      else if (jsonParseInt token.text).isSome then some .int
      else none
  | .string => some .string
  | .object => some .object
  | .array => some .array

/-- `json_scan_array_type` -/
def jsonScanArrayType (token : JsmnToken) (found : Option JsonItemType) :
    Bool × Option JsonItemType :=
  match jsonItemType token with
  | none => (false, found)
  | some type =>
      if found = none ∨ found = some type then (true, some type)
      else (false, found)

/-- `jsmn_parse` with `json_scan_array_type`: the type of all items, or
nothing for an empty array; `none` when it fails. -/
def scanArray (text : Bytes) :
    Option (Option JsonItemType × List JsmnToken) :=
  let (tokens, complete) := jsmnParse text
  match runTokens jsonScanArrayType tokens none with
  | (true, type) => if complete then some (type, tokens) else none
  | (false, _) => none

section Tokens

-- the outcome of `jsmn_parse` with `json_parse_token` for an inner text
variable (body : Bytes → Bool × JsonData)

/-- `json_parse_object`; of its nodes only the first one is checked. -/
def jsonParseObject (text : Bytes) (data : JsonData) : Bool × JsonData :=
  let (complete, inner) := body text
  let data := data.leak inner.leaked
  if complete then
    match inner.list with
    | (none, _) :: _ => (false, data)
    | (some _, .unknown) :: _ => (false, data)
    | nodes => (true, data.put (.object nodes))
  else (false, data)

/-- `json_parse_array_object`: whatever happens, the result is not zero. -/
def jsonParseArrayObject (tokens : List JsmnToken) (data : JsonData) :
    JsonData :=
  match runTokens (fun token => jsonParseObject body token.text) tokens {} with
  | (true, objects) =>
      (data.leak objects.leaked).put (.objectArray objects.nodes)
  | (false, objects) =>
      { data with
        nodes := data.list
        cur := none
        leaked := data.leaked + objects.leaked + nodesSize objects.list }

/-- `json_parse_array` -/
def jsonParseArray (text : Bytes) (data : JsonData) : Bool × JsonData :=
  let empty := { data.put .nil with
    emptyArray := data.emptyArray || data.list.isEmpty }
  match scanArray text with
  | none => (false, data)
  | some (none, _) => (true, empty)
  | some (some .nil, _) => (true, empty)
  | some (some .array, _) => (false, data)
  | some (some .bool, tokens) =>
      (true, data.put (.boolArray
        (tokens.filterMap fun token => jsonParseBool token.text)))
  | some (some .int, tokens) =>
      (true, data.put (.intArray
        (tokens.filterMap fun token => jsonParseInt token.text)))
  | some (some .string, tokens) =>
      (true, data.put (.stringArray (tokens.map fun token =>
        token.text.take (stringArrayItemMaxLen - 1))))
  | some (some .object, tokens) =>
      (true, jsonParseArrayObject body tokens data)

/-- `json_parse_token` -/
def jsonParseToken (token : JsmnToken) (data : JsonData) : Bool × JsonData :=
  match token.type with
  | .primitive => jsonParsePrimitive token.text data
  | .string => jsonParseString token.text data
  | .array => jsonParseArray body token.text data
  | .object => jsonParseObject body token.text data

end Tokens

/-- `jsmn_parse` with `json_parse_token`; `fuel` bounds the nesting. -/
def jsonBody : (fuel : Nat) → Bytes → Bool × JsonData
  | 0, _ => (false, {})
  | fuel + 1, text =>
      let (tokens, complete) := jsmnParse text
      let (done, data) := runTokens (jsonParseToken (jsonBody fuel)) tokens {}
      (done && complete, data)

/-- What `oc_rep_parse_json` does: it returns an error and loses nodes, it sets
the result, or it dereferences a null pointer. -/
inductive JsonOutcome where
  | error (leaked : Nat)
  | rep (nodes : JsonNodes)
  | emptyArray
  | nullDereference

/-- `oc_rep_parse_json` -/
def ocRepParseJson (json : Bytes) : JsonOutcome :=
  let (complete, data) := jsonBody (json.length + 1) json
  if complete && !(jsmnParse json).1.isEmpty then
    if data.emptyArray then .emptyArray
    else match data.list with
      | [] => .nullDereference
      | [(none, .objectArray nodes)] => .rep nodes
      | [(none, .object nodes)] => .rep nodes
      | nodes => .rep nodes
  else .error (data.leaked + nodesSize data.list)

end IotivityLite
