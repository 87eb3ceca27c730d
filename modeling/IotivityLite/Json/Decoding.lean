import IotivityLite.Json.Values

/-!
# Decoding of values

A token that has a value is parsed to it: the tree that is made is the value,
and nothing is lost on the way.
-/

namespace IotivityLite

variable (number : JsonInteger)

theorem JsonInteger.text_head {byte : UInt8}
    (isHead : number.text.head? = some byte) :
    byte = 45 ∨ isDigit byte = true := by
  have areDigits := number.areDigits
  cases isDigits : number.digits with
  | nil => exact absurd isDigits number.nonempty
  | cons first digits =>
      rw [isDigits] at areDigits
      cases negative : number.negative with
      | true =>
          simp only [JsonInteger.text, negative, if_true, List.singleton_append,
            List.head?_cons, Option.some.injEq] at isHead
          exact .inl isHead.symm
      | false =>
          simp only [JsonInteger.text, negative, isDigits, Bool.false_eq_true,
            if_false, List.nil_append, List.head?_cons,
            Option.some.injEq] at isHead
          cases isHead
          exact .inr (areDigits byte (by simp))

theorem JsonInteger.text_ne {text : Bytes} {byte : UInt8}
    (isHead : text.head? = some byte)
    (noNumber : ¬(byte = 45 ∨ isDigit byte = true)) : number.text ≠ text := by
  intro isText
  rw [← isText] at isHead
  exact noNumber (number.text_head isHead)

theorem JsonInteger.text_ne_null :
    number.text ≠ ascii "null" :=
  number.text_ne rfl (by decide)

theorem jsonParseBool_number :
    jsonParseBool number.text = none := by
  have notTrue : number.text ≠ ascii "true" := number.text_ne rfl (by decide)
  have notFalse : number.text ≠ ascii "false" := number.text_ne rfl (by decide)
  simp only [jsonParseBool, if_neg notTrue, if_neg notFalse]

theorem jsonParseBool_bool (value : Bool) :
    jsonParseBool (boolToken value).text = some value := by
  cases value <;> decide

theorem primitiveValue_bool (value : Bool) :
    primitiveValue (boolToken value).text = some (.bool value) := by
  have notNull : (boolToken value).text ≠ ascii "null" := by
    cases value <;> decide
  simp only [primitiveValue, if_neg notNull, jsonParseBool_bool]

theorem primitiveValue_int {number : JsonInteger} {value : Int64}
    (isValue : number.toInt64 = some value) :
    primitiveValue number.text = some (.int value) := by
  simp only [primitiveValue, if_neg number.text_ne_null,
    jsonParseBool_number, jsonParseInt_text, isValue, Option.map_some]

theorem jsonItemType_bool (value : Bool) :
    jsonItemType (boolToken value) = some .bool := by
  cases value <;> decide

theorem jsonItemType_int {number : JsonInteger} {value : Int64}
    (isValue : number.toInt64 = some value) :
    jsonItemType number.token = some .int := by
  simp only [jsonItemType, JsonInteger.token, if_neg number.text_ne_null,
    jsonParseBool_number, jsonParseInt_text, isValue]
  rfl

variable {tokens : List JsmnToken}

theorem runTokens_scan {type : JsonItemType}
    (same : ∀ token ∈ tokens, jsonItemType token = some type) :
    runTokens jsonScanArrayType tokens (some type) = (true, some type) := by
  induction tokens with
  | nil => rfl
  | cons token tokens ih =>
      have first := same token (by simp)
      simp only [runTokens, jsonScanArrayType, first, or_true, if_true]
      exact ih fun other member => same other (by simp [member])

theorem scanArray_same {token : JsmnToken} {type : JsonItemType}
    (inside : Inside .array token tokens) (nonempty : tokens ≠ [])
    (same : ∀ token ∈ tokens, jsonItemType token = some type) :
    scanArray token.text = some (some type, tokens) := by
  cases tokens with
  | nil => exact absurd rfl nonempty
  | cons first tokens =>
      have isFirst := same first (by simp)
      have rest := runTokens_scan fun other member =>
        same other (List.mem_cons_of_mem first member)
      simp only [scanArray, inside.2, runTokens, jsonScanArrayType, isFirst,
        true_or, if_true, rest]

theorem scanArray_empty {token : JsmnToken}
    (inside : Inside .array token []) :
    scanArray token.text = some (none, []) := by
  simp only [scanArray, inside.2, runTokens, if_true]

section Arrays

variable (body : Bytes → Bool × JsonData) {token : JsmnToken} (data : JsonData)

theorem jsonParseArray_nil (inside : Inside .array token tokens)
    (nulls : ∀ item ∈ tokens, item = nullToken) :
    jsonParseArray body token.text data =
      (true, { data.put .nil with
        emptyArray := data.emptyArray || data.list.isEmpty }) := by
  cases tokens with
  | nil => simp only [jsonParseArray, scanArray_empty inside]
  | cons first tokens =>
      have types : ∀ item ∈ first :: tokens, jsonItemType item = some .nil := by
        intro item member
        rw [nulls item member]
        decide
      simp only [jsonParseArray,
        scanArray_same inside (List.cons_ne_nil _ _) types]

theorem jsonParseArray_bools {values : List Bool} (nonempty : values ≠ [])
    (inside : Inside .array token (values.map boolToken)) :
    jsonParseArray body token.text data =
      (true, data.put (.boolArray values)) := by
  have types : ∀ item ∈ values.map boolToken,
      jsonItemType item = some .bool := by
    intro item member
    obtain ⟨value, -, rfl⟩ := List.mem_map.mp member
    exact jsonItemType_bool value
  have read : (values.map boolToken).filterMap
      (fun token => jsonParseBool token.text) = values := by
    rw [List.filterMap_map]
    simp only [Function.comp_def, jsonParseBool_bool, List.filterMap_some]
  simp only [jsonParseArray, scanArray_same inside (by simpa using nonempty)
    types, read]

theorem jsonParseArray_ints {values : List Int64} {numbers : List JsonInteger}
    (nonempty : values ≠ [])
    (areValues : numbers.map JsonInteger.toInt64 = values.map some)
    (inside : Inside .array token (numbers.map JsonInteger.token)) :
    jsonParseArray body token.text data =
      (true, data.put (.intArray values)) := by
  have some_numbers : numbers.map JsonInteger.token ≠ [] := by
    rintro empty
    rw [List.map_eq_nil_iff.mp empty, List.map_nil] at areValues
    exact nonempty (List.map_eq_nil_iff.mp areValues.symm)
  have types : ∀ item ∈ numbers.map JsonInteger.token,
      jsonItemType item = some .int := by
    intro item member
    obtain ⟨number, inNumbers, rfl⟩ := List.mem_map.mp member
    have inValues : number.toInt64 ∈ values.map some := by
      rw [← areValues]
      exact List.mem_map_of_mem inNumbers
    obtain ⟨value, -, isValue⟩ := List.mem_map.mp inValues
    exact jsonItemType_int isValue.symm
  have read : (numbers.map JsonInteger.token).filterMap
      (fun token => jsonParseInt token.text) = values := by
    calc (numbers.map JsonInteger.token).filterMap
          (fun token => jsonParseInt token.text)
        = (numbers.map JsonInteger.toInt64).filterMap id := by
          rw [List.filterMap_map, List.filterMap_map]
          refine List.filterMap_congr fun number _ => ?_
          exact jsonParseInt_text number
      _ = values := by
          rw [areValues, List.filterMap_map]
          exact List.filterMap_some
  simp only [jsonParseArray, scanArray_same inside some_numbers types, read]

theorem jsonParseArray_strings {texts : List Bytes} (nonempty : texts ≠ [])
    (inside : Inside .array token (texts.map fun text => ⟨.string, text⟩)) :
    jsonParseArray body token.text data =
      (true, data.put (.stringArray
        (texts.map (·.take (stringArrayItemMaxLen - 1))))) := by
  have types : ∀ item ∈ texts.map (fun text => JsmnToken.mk .string text),
      jsonItemType item = some .string := by
    intro item member
    obtain ⟨text, -, rfl⟩ := List.mem_map.mp member
    rfl
  simp only [jsonParseArray, scanArray_same inside (by simpa using nonempty)
    types, List.map_map, Function.comp_def]

end Arrays

namespace JsonData

/-- The nodes of a list, appended to those that are there. -/
def append (data : JsonData) (nodes : JsonNodes) : JsonData :=
  { data with nodes := data.nodes ++ nodes }

theorem append_nil (data : JsonData) : data.append [] = data := by
  simp [append]

theorem put_append {data : JsonData} (noKey : data.cur = none)
    (name : Option Bytes) (node : JsonNode) (nodes : JsonNodes) :
    (put node { data with cur := name }).append nodes =
      data.append ((name, node) :: nodes) := by
  obtain ⟨list, cur, emptyArray, leaked⟩ := data
  cases noKey
  simp [append, put]

end JsonData

/-- The fuel is enough for the container. -/
def Enough (fuel : Nat) (token : JsmnToken) : Prop :=
  token.type = .object ∨ token.type = .array → token.text.length < fuel

theorem Enough.inside {fuel : Nat} {token : JsmnToken} {type : JsmnType}
    {tokens : List JsmnToken} (enough : token.text.length < fuel + 1)
    (inside : Inside type token tokens) : ∀ item ∈ tokens, Enough fuel item := by
  intro item member isContainer
  have found : item ∈ (jsmnParse token.text).1 := by
    rw [inside.2]
    exact member
  have shorter := jsmnTokens_length found isContainer
  omega

variable {nodes : JsonNodes}

theorem AreMembers.head_name (members : AreMembers nodes tokens) :
    nodes = [] ∨ ∃ key node rest, nodes = (some key, node) :: rest ∧
      node ≠ .unknown := by
  cases nodes with
  | nil => exact .inl rfl
  | cons first nodes =>
      obtain ⟨name, node⟩ := first
      rw [AreMembers] at members
      obtain ⟨key, token, rest, -, rfl, isValue, -⟩ := members
      refine .inr ⟨key, node, nodes, rfl, ?_⟩
      rintro rfl
      rw [JsonNode.IsValue] at isValue
      exact isValue

theorem AreObjects.nil (objects : AreObjects nodes []) : nodes = [] := by
  cases nodes with
  | nil => rfl
  | cons first nodes =>
      obtain ⟨name, node⟩ := first
      rw [AreObjects] at objects
      obtain ⟨token, rest, empty, -⟩ := objects
      cases empty

theorem AreObjects.types {tokens : List JsmnToken}
    (objects : AreObjects nodes tokens) :
    ∀ item ∈ tokens, item.type = .object := by
  induction nodes generalizing tokens with
  | nil =>
      rw [AreObjects] at objects
      rw [objects]
      nofun
  | cons first nodes ih =>
      obtain ⟨name, node⟩ := first
      rw [AreObjects] at objects
      obtain ⟨token, rest, rfl, -, isObject, -, objects⟩ := objects
      intro item member
      rcases List.mem_cons.mp member with rfl | inRest
      · exact isObject
      · exact ih objects item inRest

theorem jsonParseObject_members {fuel : Nat} {token : JsmnToken}
    (data : JsonData) (inside : Inside .object token tokens)
    (members : AreMembers nodes tokens)
    (parsed : runTokens (jsonParseToken (jsonBody fuel)) tokens {} =
      (true, JsonData.append {} nodes)) :
    jsonParseObject (jsonBody (fuel + 1)) token.text data =
      (true, data.put (.object nodes)) := by
  have list : (JsonData.append {} nodes).list = nodes := by
    simp [JsonData.append, JsonData.list]
  have noLeak : data.leak (JsonData.append {} nodes).leaked = data := rfl
  simp only [jsonParseObject, jsonBody, inside.2, parsed, Bool.and_self,
    if_true, list, noLeak]
  rcases members.head_name with rfl | ⟨key, node, rest, rfl, known⟩
  · rfl
  · cases node <;> first | rfl | exact absurd rfl known

theorem jsonParseArray_objects {body : Bytes → Bool × JsonData}
    {token : JsmnToken} (data : JsonData) (inside : Inside .array token tokens)
    (nonempty : nodes ≠ []) (objects : AreObjects nodes tokens)
    (parsed : runTokens (fun token => jsonParseObject body token.text)
      tokens {} = (true, JsonData.append {} nodes)) :
    jsonParseArray body token.text data =
      (true, data.put (.objectArray nodes)) := by
  have some_tokens : tokens ≠ [] := by
    rintro rfl
    exact nonempty objects.nil
  have types : ∀ item ∈ tokens, jsonItemType item = some .object := by
    intro item member
    simp only [jsonItemType, objects.types item member]
  simp only [jsonParseArray, scanArray_same inside some_tokens types,
    jsonParseArrayObject, parsed]
  rfl

mutual

/-- An object is parsed to its value, whether it has a key or not. -/
theorem JsonNode.parse_object (fuel : Nat) {token : JsmnToken}
    (data : JsonData) (enough : token.text.length < fuel)
    (isObject : token.type = .object) : (node : JsonNode) →
    node.IsValue token →
    jsonParseObject (jsonBody fuel) token.text data = (true, data.put node)
  | .unknown, isValue => by
      rw [JsonNode.IsValue] at isValue
      exact isValue.elim
  | .nil, isValue => by
      rw [JsonNode.IsValue] at isValue
      rcases isValue with rfl | ⟨tokens, inside, -⟩
      · cases isObject
      · cases isObject.symm.trans inside.1
  | .bool value, isValue => by
      rw [JsonNode.IsValue] at isValue
      cases isValue
      cases isObject
  | .int value, isValue => by
      rw [JsonNode.IsValue] at isValue
      obtain ⟨number, -, rfl⟩ := isValue
      cases isObject
  | .string text, isValue => by
      rw [JsonNode.IsValue] at isValue
      cases isValue
      cases isObject
  | .boolArray values, isValue => by
      rw [JsonNode.IsValue] at isValue
      cases isObject.symm.trans isValue.2.1
  | .intArray values, isValue => by
      rw [JsonNode.IsValue] at isValue
      obtain ⟨-, numbers, -, inside⟩ := isValue
      cases isObject.symm.trans inside.1
  | .stringArray values, isValue => by
      rw [JsonNode.IsValue] at isValue
      obtain ⟨-, texts, -, inside⟩ := isValue
      cases isObject.symm.trans inside.1
  | .objectArray nodes, isValue => by
      rw [JsonNode.IsValue] at isValue
      obtain ⟨-, tokens, inside, -⟩ := isValue
      cases isObject.symm.trans inside.1
  | .object nodes, isValue => by
      rw [JsonNode.IsValue] at isValue
      obtain ⟨tokens, inside, members⟩ := isValue
      cases fuel with
      | zero => cases enough
      | succ fuel =>
          exact jsonParseObject_members data inside members
            (parse_members fuel rfl nodes (Enough.inside enough inside)
              members)

/-- A token in the place of a value is parsed to its value. -/
theorem JsonNode.parse_value (fuel : Nat) {token : JsmnToken} {data : JsonData}
    {key : Bytes} (enough : Enough fuel token) (waits : data.cur = some key) :
    (node : JsonNode) → node.IsValue token →
    jsonParseToken (jsonBody fuel) token data = (true, data.put node)
  | .unknown, isValue => by
      rw [JsonNode.IsValue] at isValue
      exact isValue.elim
  | .nil, isValue => by
      rw [JsonNode.IsValue] at isValue
      rcases isValue with rfl | ⟨tokens, inside, nulls⟩
      · simp only [jsonParseToken, nullToken, jsonParsePrimitive, waits]
        rfl
      · have more : data.list.isEmpty = false := by
          simp [JsonData.list, waits]
        simp only [jsonParseToken, inside.1,
          jsonParseArray_nil _ data inside nulls, more, Bool.or_false]
        rfl
  | .bool value, isValue => by
      rw [JsonNode.IsValue] at isValue
      cases isValue
      simp only [jsonParseToken, jsonParsePrimitive, waits,
        primitiveValue_bool]
      rfl
  | .int value, isValue => by
      rw [JsonNode.IsValue] at isValue
      obtain ⟨number, isValue, rfl⟩ := isValue
      simp only [jsonParseToken, JsonInteger.token, jsonParsePrimitive, waits,
        primitiveValue_int isValue]
  | .string text, isValue => by
      rw [JsonNode.IsValue] at isValue
      cases isValue
      simp only [jsonParseToken, jsonParseString, waits]
  | .boolArray values, isValue => by
      rw [JsonNode.IsValue] at isValue
      simp only [jsonParseToken, isValue.2.1,
        jsonParseArray_bools _ data isValue.1 isValue.2]
  | .intArray values, isValue => by
      rw [JsonNode.IsValue] at isValue
      obtain ⟨nonempty, numbers, areValues, inside⟩ := isValue
      simp only [jsonParseToken, inside.1,
        jsonParseArray_ints _ data nonempty areValues inside]
  | .stringArray values, isValue => by
      rw [JsonNode.IsValue] at isValue
      obtain ⟨nonempty, texts, rfl, inside⟩ := isValue
      have some_texts : texts ≠ [] := by
        rintro rfl
        exact nonempty rfl
      simp only [jsonParseToken, inside.1,
        jsonParseArray_strings _ data some_texts inside]
  | .object nodes, isValue => by
      rw [JsonNode.IsValue] at isValue
      obtain ⟨tokens, inside, members⟩ := isValue
      simp only [jsonParseToken, inside.1]
      have enough := enough (.inl inside.1)
      cases fuel with
      | zero => cases enough
      | succ fuel =>
          exact jsonParseObject_members data inside members
            (parse_members fuel rfl nodes (Enough.inside enough inside)
              members)
  | .objectArray nodes, isValue => by
      rw [JsonNode.IsValue] at isValue
      obtain ⟨nonempty, tokens, inside, objects⟩ := isValue
      have items := Enough.inside
        (Nat.lt_succ_of_lt (enough (.inr inside.1))) inside
      simp only [jsonParseToken, inside.1]
      exact jsonParseArray_objects data inside nonempty objects
        (parse_objects fuel rfl nodes items objects)

theorem parse_members (fuel : Nat) {tokens : List JsmnToken} {data : JsonData}
    (noKey : data.cur = none) : (nodes : JsonNodes) →
    (∀ token ∈ tokens, Enough fuel token) → AreMembers nodes tokens →
    runTokens (jsonParseToken (jsonBody fuel)) tokens data =
      (true, data.append nodes)
  | [], _, members => by
      rw [AreMembers] at members
      rw [members, data.append_nil, runTokens]
  | (name, node) :: nodes, enough, members => by
      rw [AreMembers] at members
      obtain ⟨key, token, rest, rfl, rfl, isValue, members⟩ := members
      have isKey : jsonParseToken (jsonBody fuel) ⟨.string, key⟩ data =
          (true, { data with cur := some key }) := by
        simp only [jsonParseToken, jsonParseString, noKey]
      have value := @JsonNode.parse_value fuel token
        { data with cur := some key } key (enough token (by simp)) rfl node
        isValue
      have next := @parse_members fuel rest
        (JsonData.put node { data with cur := some key }) rfl nodes
        (fun other member => enough other (by simp [member])) members
      simp only [runTokens, isKey, value, next]
      rw [JsonData.put_append noKey]

/-- Objects are parsed to their nodes. -/
theorem parse_objects (fuel : Nat) {tokens : List JsmnToken} {data : JsonData}
    (noKey : data.cur = none) : (nodes : JsonNodes) →
    (∀ token ∈ tokens, Enough fuel token) → AreObjects nodes tokens →
    runTokens (fun token => jsonParseObject (jsonBody fuel) token.text)
      tokens data = (true, data.append nodes)
  | [], _, objects => by
      rw [AreObjects] at objects
      rw [objects, data.append_nil, runTokens]
  | (name, node) :: nodes, enough, objects => by
      rw [AreObjects] at objects
      obtain ⟨token, rest, rfl, rfl, isObject, isValue, objects⟩ := objects
      have value := JsonNode.parse_object fuel data
        (enough token (by simp) (.inl isObject)) isObject node isValue
      have next := @parse_objects fuel rest (data.put node) rfl nodes
        (fun other member => enough other (by simp [member])) objects
      have appended := JsonData.put_append noKey none node nodes
      simp only [runTokens, value, next]
      rw [← appended, ← noKey]

end

/-- The value is null, which empty arrays are taken for. -/
def JsonNode.isNil : JsonNode → Bool
  | .nil => true
  | _ => false

theorem emptyArray_of_not_nil {node : JsonNode} (notNil : node.isNil = false)
    (data : JsonData) :
    (data.emptyArray || (node.isNil && data.list.isEmpty)) =
      data.emptyArray := by
  rw [notNil, Bool.false_and, Bool.or_false]

theorem JsonNode.parse_array (fuel : Nat) {token : JsmnToken} {node : JsonNode}
    (data : JsonData) (enough : token.text.length < fuel)
    (isArray : token.type = .array) (isValue : node.IsValue token) :
    jsonParseArray (jsonBody fuel) token.text data =
      (true, { data.put node with
        emptyArray := data.emptyArray || (node.isNil && data.list.isEmpty) }) := by
  cases node with
  | unknown =>
      rw [JsonNode.IsValue] at isValue
      exact isValue.elim
  | nil =>
      rw [JsonNode.IsValue] at isValue
      rcases isValue with rfl | ⟨tokens, inside, nulls⟩
      · cases isArray
      · exact jsonParseArray_nil _ data inside nulls
  | bool value =>
      rw [JsonNode.IsValue] at isValue
      cases isValue
      cases isArray
  | int value =>
      rw [JsonNode.IsValue] at isValue
      obtain ⟨number, -, rfl⟩ := isValue
      cases isArray
  | string text =>
      rw [JsonNode.IsValue] at isValue
      cases isValue
      cases isArray
  | boolArray values =>
      rw [JsonNode.IsValue] at isValue
      rw [emptyArray_of_not_nil rfl data]
      exact jsonParseArray_bools _ data isValue.1 isValue.2
  | intArray values =>
      rw [JsonNode.IsValue] at isValue
      obtain ⟨nonempty, numbers, areValues, inside⟩ := isValue
      rw [emptyArray_of_not_nil rfl data]
      exact jsonParseArray_ints _ data nonempty areValues inside
  | stringArray values =>
      rw [JsonNode.IsValue] at isValue
      obtain ⟨nonempty, texts, rfl, inside⟩ := isValue
      have some_texts : texts ≠ [] := by
        rintro rfl
        exact nonempty rfl
      rw [emptyArray_of_not_nil rfl data]
      exact jsonParseArray_strings _ data some_texts inside
  | object nodes =>
      rw [JsonNode.IsValue] at isValue
      obtain ⟨tokens, inside, -⟩ := isValue
      cases isArray.symm.trans inside.1
  | objectArray nodes =>
      rw [JsonNode.IsValue] at isValue
      obtain ⟨nonempty, tokens, inside, objects⟩ := isValue
      have items := Enough.inside (Nat.lt_succ_of_lt enough) inside
      rw [emptyArray_of_not_nil rfl data]
      exact jsonParseArray_objects data inside nonempty objects
        (parse_objects fuel rfl nodes items objects)

end IotivityLite
