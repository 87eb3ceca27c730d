import IotivityLite.Json.Decoding

/-!
# What is decoded is a value

Where a text is proper, every token that is parsed has a value and is parsed to
it, and a token that has none makes the parser fail without losing a node.
-/

namespace IotivityLite

def JsmnToken.IsContainer (token : JsmnToken) : Prop :=
  token.type = .object ∨ token.type = .array

/-- The token is somewhere in the text. -/
inductive Occurs (text : Bytes) : JsmnToken → Prop where
  | level {token : JsmnToken} :
      token ∈ (jsmnParse text).1 → Occurs text token
  | inner {outer token : JsmnToken} :
      Occurs text outer → outer.IsContainer →
      token ∈ (jsmnParse outer.text).1 → Occurs text token

/-- Where a key has to be stands no container, and the last key of a text that
was read to its end has a value. -/
def Paired (complete : Bool) : List JsmnToken → Prop
  | [] => True
  | [last] => ¬last.IsContainer ∧ (complete = true → last.type ≠ .string)
  | key :: _ :: rest => ¬key.IsContainer ∧ Paired complete rest

/-- A token that the parser does not mistake for another one: nothing follows
the digits of a number, keys and values behind the first ones of an object are
paired, and the objects of an array have values. -/
def JsmnToken.Proper (token : JsmnToken) : Prop :=
  match token.type with
  | .primitive =>
      (jsonParseInt token.text).isSome = true →
        ∃ number : JsonInteger, token = number.token
  | .string => True
  | .object =>
      ∀ key value rest, (jsmnParse token.text).1 = key :: value :: rest →
        Paired (jsmnParse token.text).2 rest
  | .array =>
      (jsmnParse token.text).2 = true →
      (∀ item ∈ (jsmnParse token.text).1, item.type = .object) →
        ∀ item ∈ (jsmnParse token.text).1, ∃ node : JsonNode, node.IsValue item

/-- The token and those that are in it are proper. -/
def JsmnToken.AllProper (token : JsmnToken) : Prop :=
  token.Proper ∧ (token.IsContainer → ∀ inner, Occurs token.text inner →
    inner.Proper)

variable {text : Bytes}

theorem Occurs.trans {outer token : JsmnToken} (isOuter : Occurs text outer)
    (isContainer : outer.IsContainer) (occurs : Occurs outer.text token) :
    Occurs text token := by
  induction occurs with
  | level found => exact .inner isOuter isContainer found
  | inner _ isContainer found ih => exact .inner ih isContainer found

theorem JsmnToken.AllProper.inside {token item : JsmnToken}
    (proper : token.AllProper) (isContainer : token.IsContainer)
    (found : item ∈ (jsmnParse token.text).1) : item.AllProper := by
  constructor
  · exact proper.2 isContainer item (.level found)
  · intro itemContainer inner occurs
    exact proper.2 isContainer inner ((Occurs.level found).trans itemContainer
      occurs)

/-- What the parser does with a token: it reads a value or a key, or it fails
and leaves everything as it was. -/
inductive Settled (token : JsmnToken) (data : JsonData) :
    Bool × JsonData → Prop where
  | value {node : JsonNode} (empty : Bool) :
      node.IsValue token → (data.cur = none → token.IsContainer) →
      Settled token data (true, { data.put node with emptyArray := empty })
  | key {text : Bytes} :
      token = ⟨.string, text⟩ → data.cur = none →
      Settled token data (true, { data with cur := some text })
  | failed : Settled token data (false, data)

theorem jsonParseBool_some {value : Bool}
    (parsed : jsonParseBool text = some value) :
    text = (boolToken value).text := by
  unfold jsonParseBool at parsed
  split_ifs at parsed with isTrue isFalse
  · cases parsed
    exact isTrue
  · cases parsed
    exact isFalse

theorem primitiveValue_isValue {node : JsonNode}
    (proper : JsmnToken.Proper ⟨.primitive, text⟩)
    (isValue : primitiveValue text = some node) :
    node.IsValue ⟨.primitive, text⟩ := by
  unfold primitiveValue at isValue
  split_ifs at isValue with isNull
  · cases isValue
    rw [JsonNode.IsValue, isNull]
    exact .inl rfl
  · cases isBool : jsonParseBool text with
    | some value =>
        rw [isBool] at isValue
        cases isValue
        rw [JsonNode.IsValue, jsonParseBool_some isBool]
        rfl
    | none =>
        rw [isBool] at isValue
        obtain ⟨value, isInt, rfl⟩ := Option.map_eq_some_iff.mp isValue
        obtain ⟨number, isNumber⟩ := proper (by rw [isInt]; rfl)
        have isText : text = number.text := congrArg JsmnToken.text isNumber
        rw [isText, jsonParseInt_text] at isInt
        rw [JsonNode.IsValue]
        exact ⟨number, isInt, isNumber⟩

variable (data : JsonData)

theorem settled_primitive (proper : JsmnToken.Proper ⟨.primitive, text⟩) :
    Settled ⟨.primitive, text⟩ data (jsonParsePrimitive text data) := by
  unfold jsonParsePrimitive
  cases isCur : data.cur with
  | none => exact .failed
  | some key =>
      cases isValue : primitiveValue text with
      | none => exact .failed
      | some node =>
          exact .value data.emptyArray (primitiveValue_isValue proper isValue)
            fun noKey => absurd noKey (by rw [isCur]; exact Option.some_ne_none key)

theorem settled_string (text : Bytes) (data : JsonData) :
    Settled ⟨.string, text⟩ data (jsonParseString text data) := by
  unfold jsonParseString
  cases isCur : data.cur with
  | none => exact .key rfl isCur
  | some key =>
      have isValue : (JsonNode.string text).IsValue ⟨.string, text⟩ := by
        rw [JsonNode.IsValue]
      exact .value data.emptyArray isValue
        fun noKey => absurd noKey (by rw [isCur]; exact Option.some_ne_none key)

variable {tokens : List JsmnToken}

theorem runTokens_scan_some {found result : Option JsonItemType}
    (scanned : runTokens jsonScanArrayType tokens found = (true, result)) :
    (tokens = [] ∧ result = found) ∨
      ∃ type, result = some type ∧ (found = none ∨ found = some type) ∧
        ∀ token ∈ tokens, jsonItemType token = some type := by
  induction tokens generalizing found with
  | nil =>
      cases scanned
      exact .inl ⟨rfl, rfl⟩
  | cons token tokens ih =>
      refine .inr ?_
      cases isType : jsonItemType token with
      | none =>
          simp only [runTokens, jsonScanArrayType, isType] at scanned
          cases scanned
      | some type =>
          simp only [runTokens, jsonScanArrayType, isType] at scanned
          split_ifs at scanned with known
          · rcases ih scanned with ⟨rfl, rfl⟩ | ⟨other, rfl, same, types⟩
            · refine ⟨type, rfl, known, fun item member => ?_⟩
              rw [List.mem_singleton.mp member]
              exact isType
            · have same : type = other := by
                rcases same with none | same
                · exact absurd none (Option.some_ne_none type)
                · exact Option.some.inj same
              cases same
              refine ⟨type, rfl, known, fun item member => ?_⟩
              rcases List.mem_cons.mp member with rfl | inRest
              · exact isType
              · exact types item inRest
          · cases scanned

theorem scanArray_some {type : Option JsonItemType}
    (scanned : scanArray text = some (type, tokens)) :
    jsmnParse text = (tokens, true) ∧
      ((tokens = [] ∧ type = none) ∨
        ∃ one, tokens ≠ [] ∧ type = some one ∧
          ∀ token ∈ tokens, jsonItemType token = some one) := by
  unfold scanArray at scanned
  cases run : runTokens jsonScanArrayType (jsmnParse text).1 none with
  | mk done result =>
      simp only [run] at scanned
      cases done with
      | false => cases scanned
      | true =>
          simp only at scanned
          split_ifs at scanned with complete
          cases scanned
          refine ⟨Prod.ext rfl complete, ?_⟩
          rcases runTokens_scan_some run with ⟨empty, rfl⟩ |
            ⟨one, rfl, -, types⟩
          · exact .inl ⟨empty, rfl⟩
          · by_cases empty : (jsmnParse text).1 = []
            · rw [empty] at run
              cases run
            · exact .inr ⟨one, empty, rfl, types⟩

theorem exists_map_eq {Item Source : Type} {image : Source → Item}
    {property : Source → Prop} {items : List Item}
    (each : ∀ item ∈ items, ∃ source, property source ∧ item = image source) :
    ∃ sources : List Source, (∀ source ∈ sources, property source) ∧
      items = sources.map image := by
  induction items with
  | nil => exact ⟨[], nofun, rfl⟩
  | cons item items ih =>
      obtain ⟨source, holds, rfl⟩ := each item (by simp)
      obtain ⟨sources, hold, rfl⟩ := ih fun other member =>
        each other (List.mem_cons_of_mem _ member)
      refine ⟨source :: sources, fun other member => ?_, rfl⟩
      rcases List.mem_cons.mp member with rfl | inRest
      · exact holds
      · exact hold other inRest

section Items

variable {item : JsmnToken}

theorem jsonItemType_cases {type : JsonItemType}
    (isType : jsonItemType item = some type) :
    (type = .nil ∧ item = nullToken) ∨
      (type = .bool ∧ ∃ value, item = boolToken value) ∨
      (type = .int ∧ item.type = .primitive ∧
        ∃ value, jsonParseInt item.text = some value) ∨
      (type = .string ∧ item.type = .string) ∨
      (type = .object ∧ item.type = .object) ∨
      (type = .array ∧ item.type = .array) := by
  obtain ⟨kind, text⟩ := item
  cases kind with
  | primitive =>
      simp only [jsonItemType] at isType
      split_ifs at isType with isNull isBool isInt
      · cases isType
        exact .inl ⟨rfl, by rw [isNull]; rfl⟩
      · cases isType
        obtain ⟨value, parsed⟩ := Option.isSome_iff_exists.mp isBool
        refine .inr (.inl ⟨rfl, value, ?_⟩)
        rw [jsonParseBool_some parsed]
        rfl
      · cases isType
        obtain ⟨value, parsed⟩ := Option.isSome_iff_exists.mp isInt
        exact .inr (.inr (.inl ⟨rfl, rfl, value, parsed⟩))
  | string =>
      cases isType
      exact .inr (.inr (.inr (.inl ⟨rfl, rfl⟩)))
  | object =>
      cases isType
      exact .inr (.inr (.inr (.inr (.inl ⟨rfl, rfl⟩))))
  | array =>
      cases isType
      exact .inr (.inr (.inr (.inr (.inr ⟨rfl, rfl⟩))))

theorem jsonItemType_eq_int (proper : item.Proper)
    (isType : jsonItemType item = some .int) :
    ∃ source : JsonInteger × Int64,
      source.1.toInt64 = some source.2 ∧ item = source.1.token := by
  rcases jsonItemType_cases isType with ⟨no, _⟩ | ⟨no, _⟩ |
    ⟨-, isPrimitive, value, parsed⟩ | ⟨no, _⟩ | ⟨no, _⟩ | ⟨no, _⟩
  · cases no
  · cases no
  · simp only [JsmnToken.Proper, isPrimitive] at proper
    obtain ⟨number, rfl⟩ := proper (by rw [parsed]; rfl)
    exact ⟨(number, value), (jsonParseInt_text number).symm.trans parsed, rfl⟩
  · cases no
  · cases no
  · cases no

end Items

theorem exists_areObjects (types : ∀ item ∈ tokens, item.type = .object)
    (values : ∀ item ∈ tokens, ∃ node : JsonNode, node.IsValue item) :
    ∃ nodes, AreObjects nodes tokens := by
  induction tokens with
  | nil => exact ⟨[], by rw [AreObjects]⟩
  | cons token tokens ih =>
      obtain ⟨node, isValue⟩ := values token (by simp)
      obtain ⟨nodes, objects⟩ := ih
        (fun item member => types item (List.mem_cons_of_mem _ member))
        (fun item member => values item (List.mem_cons_of_mem _ member))
      refine ⟨(none, node) :: nodes, ?_⟩
      rw [AreObjects]
      exact ⟨token, tokens, rfl, rfl, types token (by simp), isValue, objects⟩

variable {token : JsmnToken}

theorem array_value (isArray : token.type = .array) (proper : token.AllProper)
    {type : Option JsonItemType}
    (scanned : scanArray token.text = some (type, tokens)) :
    type = some .array ∨ ∃ node : JsonNode, node.IsValue token := by
  obtain ⟨parsed, types⟩ := scanArray_some scanned
  have inside : Inside .array token tokens := ⟨isArray, parsed⟩
  rcases types with ⟨rfl, -⟩ | ⟨one, nonempty, rfl, types⟩
  · refine .inr ⟨.nil, ?_⟩
    rw [JsonNode.IsValue]
    exact .inr ⟨[], inside, nofun⟩
  · have items : ∀ item ∈ tokens, item.AllProper := by
      intro item member
      refine proper.inside (.inr isArray) ?_
      rw [parsed]
      exact member
    cases one with
    | array => exact .inl rfl
    | nil =>
        refine .inr ⟨.nil, ?_⟩
        rw [JsonNode.IsValue]
        refine .inr ⟨tokens, inside, fun item member => ?_⟩
        have isType := jsonItemType_cases (types item member)
        simpa using isType
    | bool =>
        have sources : ∀ item ∈ tokens,
            ∃ value : Bool, True ∧ item = boolToken value := by
          intro item member
          have isType := jsonItemType_cases (types item member)
          simpa using isType
        obtain ⟨values, -, rfl⟩ := exists_map_eq sources
        refine .inr ⟨.boolArray values, ?_⟩
        rw [JsonNode.IsValue]
        exact ⟨by simpa using nonempty, inside⟩
    | int =>
        have sources : ∀ item ∈ tokens, ∃ source : JsonInteger × Int64,
            source.1.toInt64 = some source.2 ∧ item = source.1.token :=
          fun item member => jsonItemType_eq_int (items item member).1
            (types item member)
        obtain ⟨pairs, inRange, rfl⟩ := exists_map_eq sources
        refine .inr ⟨.intArray (pairs.map Prod.snd), ?_⟩
        rw [JsonNode.IsValue]
        refine ⟨by simpa using nonempty, pairs.map Prod.fst, ?_, ?_⟩
        · rw [List.map_map, List.map_map]
          exact List.map_congr_left inRange
        · rw [List.map_map]
          exact inside
    | string =>
        have sources : ∀ item ∈ tokens,
            ∃ text : Bytes, True ∧ item = ⟨.string, text⟩ := by
          intro item member
          have isType := jsonItemType_cases (types item member)
          have isString : item.type = .string := by simpa using isType
          exact ⟨item.text, trivial, by rw [← isString]⟩
        obtain ⟨texts, -, rfl⟩ := exists_map_eq sources
        refine .inr ⟨.stringArray (texts.map
          (·.take (stringArrayItemMaxLen - 1))), ?_⟩
        rw [JsonNode.IsValue]
        exact ⟨by simpa using nonempty, texts, rfl, inside⟩
    | object =>
        have areObjects : ∀ item ∈ tokens, item.type = .object := by
          intro item member
          have isType := jsonItemType_cases (types item member)
          simpa using isType
        have isProper := proper.1
        simp only [JsmnToken.Proper, isArray, parsed] at isProper
        obtain ⟨nodes, objects⟩ := exists_areObjects areObjects
          (isProper trivial areObjects)
        refine .inr ⟨.objectArray nodes, ?_⟩
        rw [JsonNode.IsValue]
        refine ⟨?_, tokens, inside, objects⟩
        rintro rfl
        rw [AreObjects] at objects
        exact nonempty objects

variable {fuel : Nat}

theorem settled_array (enough : token.text.length < fuel)
    (isArray : token.type = .array) (proper : token.AllProper) :
    Settled token data (jsonParseArray (jsonBody fuel) token.text data) := by
  cases scanned : scanArray token.text with
  | none =>
      unfold jsonParseArray
      rw [scanned]
      exact .failed
  | some pair =>
      obtain ⟨type, tokens⟩ := pair
      rcases array_value isArray proper scanned with rfl | ⟨node, isValue⟩
      · unfold jsonParseArray
        rw [scanned]
        exact .failed
      · rw [JsonNode.parse_array fuel data enough isArray isValue]
        exact .value _ isValue fun _ => .inr isArray

section Runs

variable {callback : JsmnToken → JsonData → Bool × JsonData}

theorem runTokens_settled
    (settled : ∀ token ∈ tokens, ∀ data,
      Settled token data (callback token data)) (data : JsonData) :
    (runTokens callback tokens data).2.leaked = data.leaked ∧
      data.nodes <+: (runTokens callback tokens data).2.nodes := by
  induction tokens generalizing data with
  | nil => exact ⟨rfl, List.prefix_refl _⟩
  | cons token tokens ih =>
      have first := settled token (by simp) data
      have rest := ih fun other member => settled other (by simp [member])
      simp only [runTokens]
      generalize callback token data = result at first ⊢
      cases first with
      | value empty _ _ =>
          obtain ⟨leaked, isPrefix⟩ := rest _
          refine ⟨leaked, List.IsPrefix.trans ?_ isPrefix⟩
          exact List.prefix_append _ _
      | key _ _ => exact rest _
      | failed => exact ⟨rfl, List.prefix_refl _⟩

theorem Settled.place_of_key {data : JsonData} {result : Bool × JsonData}
    (settled : Settled token data result) (noContainer : ¬token.IsContainer)
    (noKey : data.cur = none) :
    result = (false, data) ∨ ∃ text, token = ⟨.string, text⟩ ∧
      result = (true, { data with cur := some text }) := by
  cases settled with
  | value empty isValue isContainer =>
      exact absurd (isContainer noKey) noContainer
  | key isKey _ => exact .inr ⟨_, isKey, rfl⟩
  | failed => exact .inl rfl

theorem Settled.place_of_value {data : JsonData} {result : Bool × JsonData}
    (settled : Settled token data result) {key : Bytes}
    (isKey : data.cur = some key) :
    result = (false, data) ∨ ∃ node empty, node.IsValue token ∧
      result = (true, { data.put node with emptyArray := empty }) := by
  cases settled with
  | value empty isValue _ => exact .inr ⟨_, empty, isValue, rfl⟩
  | key _ noKey =>
      rw [isKey] at noKey
      exact absurd noKey (Option.some_ne_none key)
  | failed => exact .inl rfl

theorem runTokens_paired {tokens : List JsmnToken} {data : JsonData}
    (settled : ∀ token ∈ tokens, ∀ data,
      Settled token data (callback token data))
    (paired : Paired true tokens) (noKey : data.cur = none)
    (done : (runTokens callback tokens data).1 = true) :
    ∃ nodes, AreMembers nodes tokens ∧
      (runTokens callback tokens data).2.nodes = data.nodes ++ nodes ∧
      (runTokens callback tokens data).2.cur = none := by
  fun_induction Paired true tokens generalizing data with
  | case1 =>
      exact ⟨[], by rw [AreMembers], (List.append_nil _).symm, noKey⟩
  | case2 last =>
      obtain ⟨noContainer, noString⟩ := paired
      rcases (settled last (by simp) data).place_of_key noContainer noKey with
        failed | ⟨text, rfl, -⟩
      · simp only [runTokens, failed] at done
        cases done
      · exact absurd rfl (noString rfl)
  | case3 key value rest ih =>
      obtain ⟨noContainer, paired⟩ := paired
      rcases (settled key (by simp) data).place_of_key noContainer noKey with
        failed | ⟨text, rfl, isKey⟩
      · simp only [runTokens, failed] at done
        cases done
      · rcases (settled value (by simp) { data with
            cur := some text }).place_of_value rfl with
          failed | ⟨node, empty, isValue, isNode⟩
        · simp only [runTokens, isKey, failed] at done
          cases done
        · simp only [runTokens, isKey, isNode] at done ⊢
          obtain ⟨nodes, members, isNodes, noKey⟩ := ih
            (fun other member => settled other (by simp [member])) paired rfl
            done
          refine ⟨(some text, node) :: nodes, ?_, ?_, noKey⟩
          · rw [AreMembers]
            exact ⟨text, value, rest, rfl, rfl, isValue, members⟩
          · rw [isNodes]
            exact List.append_assoc _ _ _

end Runs

/-- The first node has a name and a value. -/
def FirstNamed : JsonNodes → Prop
  | [] => True
  | (none, _) :: _ => False
  | (some _, .unknown) :: _ => False
  | _ => True

theorem members_of_firstNamed
    {callback : JsmnToken → JsonData → Bool × JsonData}
    (settled : ∀ token ∈ tokens, ∀ data,
      Settled token data (callback token data))
    (paired : ∀ key value rest, tokens = key :: value :: rest →
      Paired true rest) (done : (runTokens callback tokens {}).1 = true)
    (named : FirstNamed (runTokens callback tokens {}).2.list) :
    ∃ nodes, AreMembers nodes tokens := by
  cases tokens with
  | nil => exact ⟨[], by rw [AreMembers]⟩
  | cons first rest =>
      have isFirst := settled first (by simp) {}
      have others : ∀ token ∈ rest, ∀ data,
          Settled token data (callback token data) :=
        fun other member => settled other (by simp [member])
      simp only [runTokens] at done named
      generalize callback first {} = result at isFirst done named
      cases isFirst with
      | failed => cases done
      | @value node empty _ _ =>
          -- a container that has no name stays the first node
          obtain ⟨more, isMore⟩ := (runTokens_settled others
            { JsonData.put node {} with emptyArray := empty }).2
          simp only [JsonData.list, ← isMore] at named
          exact named.elim
      | @key text isKey _ =>
          cases rest with
          | nil => exact named.elim
          | cons value rest =>
              rcases (others value (by simp) { cur := some text }).place_of_value
                rfl with failed | ⟨node, empty, isValue, isNode⟩
              · simp only [runTokens, failed] at done
                cases done
              · simp only [runTokens, isNode] at done
                obtain ⟨nodes, members, -⟩ := runTokens_paired
                  (fun other member => others other (by simp [member]))
                  (paired first value rest rfl) rfl done
                refine ⟨(some text, node) :: nodes, ?_⟩
                rw [AreMembers, isKey]
                exact ⟨text, value, rest, rfl, rfl, isValue, members⟩

theorem settled_object (enough : token.text.length < fuel + 1)
    (isObject : token.type = .object) (proper : token.AllProper)
    (settled : ∀ item ∈ (jsmnParse token.text).1, ∀ data,
      Settled item data (jsonParseToken (jsonBody fuel) item data)) :
    Settled token data
      (jsonParseObject (jsonBody (fuel + 1)) token.text data) := by
  by_cases hasValue : ∃ node : JsonNode, node.IsValue token
  · obtain ⟨node, isValue⟩ := hasValue
    rw [JsonNode.parse_object (fuel + 1) data enough isObject node isValue]
    exact .value data.emptyArray isValue fun _ => .inl isObject
  · have noLeak := (runTokens_settled settled {}).1
    have isProper := proper.1
    simp only [JsmnToken.Proper, isObject] at isProper
    have noMembers (complete : (jsmnParse token.text).2 = true)
        (done : (runTokens (jsonParseToken (jsonBody fuel))
          (jsmnParse token.text).1 {}).1 = true) :
        ¬FirstNamed (runTokens (jsonParseToken (jsonBody fuel))
          (jsmnParse token.text).1 {}).2.list := by
      intro named
      rw [complete] at isProper
      obtain ⟨nodes, members⟩ := members_of_firstNamed settled isProper done
        named
      refine hasValue ⟨.object nodes, ?_⟩
      rw [JsonNode.IsValue]
      exact ⟨_, ⟨isObject, Prod.ext rfl complete⟩, members⟩
    have failed : jsonParseObject (jsonBody (fuel + 1)) token.text data =
        (false, data) := by
      simp only [jsonParseObject, jsonBody, noLeak]
      split_ifs with both
      · obtain ⟨done, complete⟩ := Bool.and_eq_true_iff.mp both
        have unnamed := noMembers complete done
        generalize (runTokens (jsonParseToken (jsonBody fuel))
          (jsmnParse token.text).1 {}).2.list = nodes at unnamed ⊢
        rcases nodes with _ | ⟨⟨_ | name, node⟩, nodes⟩
        · exact absurd trivial unnamed
        · rfl
        · cases node <;> first | rfl | exact absurd trivial unnamed
      · rfl
    rw [failed]
    exact .failed

theorem settled_token (enough : Enough fuel token) (proper : token.AllProper) :
    Settled token data (jsonParseToken (jsonBody fuel) token data) := by
  induction fuel generalizing token data with
  | zero =>
      obtain ⟨type, text⟩ := token
      cases type with
      | primitive => exact settled_primitive data proper.1
      | string => exact settled_string text data
      | array => exact absurd (enough (.inr rfl)) (Nat.not_lt_zero _)
      | object => exact absurd (enough (.inl rfl)) (Nat.not_lt_zero _)
  | succ fuel ih =>
      obtain ⟨type, text⟩ := token
      cases type with
      | primitive => exact settled_primitive data proper.1
      | string => exact settled_string text data
      | array => exact settled_array data (enough (.inr rfl)) rfl proper
      | object =>
          refine settled_object data (enough (.inl rfl)) rfl proper ?_
          intro item member data
          have shorter : item.IsContainer → item.text.length < text.length :=
            jsmnTokens_length member
          refine ih data ?_ (proper.inside (.inl rfl) member)
          intro isContainer
          exact Nat.lt_of_lt_of_le (shorter isContainer)
            (Nat.le_of_lt_succ (enough (.inl rfl)))

/-- Nothing stands behind the outermost container, and no string in front. -/
def Sole (json : Bytes) : Prop :=
  match jsmnParse json with
  | ([], _) => True
  | (first :: rest, complete) =>
      first.type = .primitive ∨
        (first.IsContainer ∧ rest = [] ∧ complete = true)

/-- The text is a container that has this value. -/
def IsRoot (json : Bytes) (node : JsonNode) : Prop :=
  ∃ token, jsmnParse json = ([token], true) ∧ token.IsContainer ∧
    node.IsValue token

/-- The list that a payload is given as. -/
def JsonNode.rootNodes : JsonNode → JsonNodes
  | .object nodes => nodes
  | .objectArray nodes => nodes
  | node => [(none, node)]

theorem ocRepParseJson_root {json : Bytes} {node : JsonNode}
    (isRoot : IsRoot json node) :
    ocRepParseJson json =
      if node.isNil then .emptyArray else .rep node.rootNodes := by
  obtain ⟨token, parsed, isContainer, isValue⟩ := isRoot
  have found : token ∈ (jsmnParse json).1 := by
    rw [parsed]
    exact List.mem_singleton_self token
  have shorter : token.text.length < json.length :=
    jsmnTokens_length found isContainer
  have result : jsonParseToken (jsonBody json.length) token {} =
      (true, { JsonData.put node {} with emptyArray := node.isNil }) := by
    rcases isContainer with isObject | isArray
    · have notNil : node.isNil = false := by
        cases node with
        | nil =>
            rw [JsonNode.IsValue] at isValue
            rcases isValue with rfl | ⟨tokens, inside, -⟩
            · cases isObject
            · cases isObject.symm.trans inside.1
        | _ => rfl
      simp only [jsonParseToken, isObject, notNil]
      exact JsonNode.parse_object json.length {} shorter isObject node isValue
    · simp only [jsonParseToken, isArray]
      rw [JsonNode.parse_array json.length {} shorter isArray isValue]
      simp [JsonData.list]
  simp only [ocRepParseJson, jsonBody, parsed, runTokens, result]
  cases node <;> rfl

theorem ocRepParseJson_sound (json : Bytes) (sole : Sole json)
    (proper : ∀ token, Occurs json token → token.Proper) :
    (∃ node, IsRoot json node ∧ ocRepParseJson json =
      if node.isNil then .emptyArray else .rep node.rootNodes) ∨
    ((∀ node, ¬IsRoot json node) ∧ ocRepParseJson json = .error 0) := by
  by_cases hasValue : ∃ node, IsRoot json node
  · obtain ⟨node, isRoot⟩ := hasValue
    exact .inl ⟨node, isRoot, ocRepParseJson_root isRoot⟩
  · refine .inr ⟨not_exists.mp hasValue, ?_⟩
    cases parsed : jsmnParse json with
    | mk tokens complete =>
        rw [Sole, parsed] at sole
        cases tokens with
        | nil => simp [ocRepParseJson, jsonBody, parsed, runTokens,
            JsonData.list, nodesSize]
        | cons first rest =>
            have found : first ∈ (jsmnParse json).1 := by
              rw [parsed]
              exact List.mem_cons_self
            have allProper : first.AllProper := by
              constructor
              · exact proper first (.level found)
              · intro isContainer inner occurs
                exact proper inner ((Occurs.level found).trans isContainer
                  occurs)
            have settled := settled_token {} (fun isContainer =>
              jsmnTokens_length found isContainer) allProper
            have failed : jsonParseToken (jsonBody json.length) first {} =
                (false, {}) := by
              generalize jsonParseToken (jsonBody json.length) first {} = result
                at settled
              cases settled with
              | failed => rfl
              | @value node empty isValue isContainer =>
                  rcases sole with isPrimitive | ⟨isContainer, rfl, rfl⟩
                  · rcases isContainer rfl with isObject | isArray
                    · cases isPrimitive.symm.trans isObject
                    · cases isPrimitive.symm.trans isArray
                  · exact absurd ⟨node, first, parsed, isContainer, isValue⟩
                      hasValue
              | key isKey _ =>
                  cases isKey
                  rcases sole with isPrimitive | ⟨isContainer, -⟩
                  · cases isPrimitive
                  · rcases isContainer with isObject | isArray
                    · cases isObject
                    · cases isArray
            simp [ocRepParseJson, jsonBody, parsed, runTokens, failed,
              JsonData.list, nodesSize]

end IotivityLite
