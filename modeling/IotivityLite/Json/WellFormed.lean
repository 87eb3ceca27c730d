import IotivityLite.Json.Soundness

/-!
# Texts of JSON

The texts of JSON are proper as far as their values are supported: the value
that the syntax tree stands for is the value of its token.
-/

namespace IotivityLite

theorem itemsType_none {items : JsonItems}
    (isType : itemsType items = some none) : items = [] := by
  cases items with
  | nil => rfl
  | cons item items =>
      obtain ⟨before, value, after⟩ := item
      simp only [itemsType] at isType
      obtain ⟨type, -, isType⟩ := Option.bind_eq_some_iff.mp isType
      split_ifs at isType
      cases isType

theorem itemsType_some {items : JsonItems} {type : JsonItemType}
    (isType : itemsType items = some (some type)) :
    items ≠ [] ∧ ∀ item ∈ items, item.2.1.itemType = some type := by
  cases items with
  | nil => cases isType
  | cons item items =>
      obtain ⟨before, value, after⟩ := item
      simp only [itemsType] at isType
      obtain ⟨one, first, isType⟩ := Option.bind_eq_some_iff.mp isType
      split_ifs at isType with same
      cases isType
      refine ⟨List.cons_ne_nil _ _, fun item member => ?_⟩
      rcases List.mem_cons.mp member with rfl | inRest
      · exact first
      · exact beq_iff_eq.mp (List.all_eq_true.mp same item inRest)

section Items

variable {value : JsonSyntax}

theorem JsonSyntax.itemType_int
    (isType : value.itemType = some .int) :
    ∃ number result, value = .int number ∧ number.toInt64 = some result := by
  cases value with
  | int number =>
      obtain ⟨result, isResult, -⟩ := Option.map_eq_some_iff.mp isType
      exact ⟨number, result, rfl, isResult⟩
  | _ => cases isType

end Items

section Lists

variable {items : JsonItems}

theorem bool_tokens
    (types : ∀ item ∈ items, item.2.1.itemType = some .bool) :
    items.map (fun item => item.2.1.token) =
      (items.filterMap fun (_, item, _) => item.boolValue).map boolToken := by
  induction items with
  | nil => rfl
  | cons item items ih =>
      obtain ⟨before, value, after⟩ := item
      have rest := ih fun item member => types item (by simp [member])
      have first := types (before, value, after) (by simp)
      cases value with
      | bool value =>
          simp only [List.map_cons, List.filterMap_cons, JsonSyntax.boolValue,
            rest]
          rfl
      | int number =>
          obtain ⟨result, -, no⟩ := Option.map_eq_some_iff.mp first
          cases no
      | _ => cases first

theorem string_tokens
    (types : ∀ item ∈ items, item.2.1.itemType = some .string) :
    items.map (fun item => item.2.1.token) =
      (items.filterMap fun (_, item, _) => item.stringValue).map
        fun text => ⟨.string, text⟩ := by
  induction items with
  | nil => rfl
  | cons item items ih =>
      obtain ⟨before, value, after⟩ := item
      have rest := ih fun item member => types item (by simp [member])
      have first := types (before, value, after) (by simp)
      cases value with
      | string value =>
          simp only [List.map_cons, List.filterMap_cons, JsonSyntax.stringValue,
            rest]
          rfl
      | int number =>
          obtain ⟨result, -, no⟩ := Option.map_eq_some_iff.mp first
          cases no
      | _ => cases first

theorem int_tokens
    (types : ∀ item ∈ items, item.2.1.itemType = some .int) :
    ∃ numbers : List JsonInteger,
      numbers.map JsonInteger.toInt64 =
        (items.filterMap fun (_, item, _) => item.intValue).map some ∧
      items.map (fun item => item.2.1.token) =
        numbers.map JsonInteger.token := by
  induction items with
  | nil => exact ⟨[], rfl, rfl⟩
  | cons item items ih =>
      obtain ⟨before, value, after⟩ := item
      obtain ⟨numbers, areValues, areTokens⟩ := ih fun item member =>
        types item (by simp [member])
      have first := types (before, value, after) (by simp)
      obtain ⟨number, result, isNumber, isResult⟩ :=
        JsonSyntax.itemType_int first
      cases isNumber
      refine ⟨number :: numbers, ?_, ?_⟩
      · simp only [List.map_cons, List.filterMap_cons, JsonSyntax.intValue,
          isResult, areValues]
      · simp only [List.map_cons, areTokens]
        rfl

theorem null_tokens
    (types : ∀ item ∈ items, item.2.1.itemType = some .nil) :
    ∀ token ∈ items.map (fun item => item.2.1.token), token = nullToken := by
  intro token member
  obtain ⟨⟨before, value, after⟩, inItems, rfl⟩ := List.mem_map.mp member
  have isType := types _ inItems
  cases value with
  | null => rfl
  | int number =>
      obtain ⟨result, -, no⟩ := Option.map_eq_some_iff.mp isType
      cases no
  | _ => cases isType

end Lists

theorem inside_array (inner : JsonSpace) (items : JsonItems) :
    Inside .array (JsonSyntax.array inner items).token
      (items.map fun item => item.2.1.token) :=
  ⟨rfl, jsmnParse_arrayText inner items⟩

theorem JsonSyntax.object_of_itemType {value : JsonSyntax}
    (isType : value.itemType = some .object) : value.token.type = .object := by
  cases value with
  | object inner members => rfl
  | int number =>
      obtain ⟨result, -, no⟩ := Option.map_eq_some_iff.mp isType
      cases no
  | _ => cases isType

mutual

/-- The value of a syntax tree is the value of its token. -/
theorem JsonSyntax.isValue_token {node : JsonNode} : (value : JsonSyntax) →
    value.node = some node → node.IsValue value.token
  | .null, isNode => by
      rw [JsonSyntax.node] at isNode
      cases isNode
      rw [JsonNode.IsValue]
      exact .inl rfl
  | .bool value, isNode => by
      rw [JsonSyntax.node] at isNode
      cases isNode
      rw [JsonNode.IsValue]
      rfl
  | .int number, isNode => by
      rw [JsonSyntax.node] at isNode
      obtain ⟨value, isValue, rfl⟩ := Option.map_eq_some_iff.mp isNode
      rw [JsonNode.IsValue]
      exact ⟨number, isValue, rfl⟩
  | .string value, isNode => by
      rw [JsonSyntax.node] at isNode
      cases isNode
      rw [JsonNode.IsValue]
      rfl
  | .object inner members, isNode => by
      rw [JsonSyntax.node] at isNode
      obtain ⟨nodes, areNodes, rfl⟩ := Option.map_eq_some_iff.mp isNode
      rw [JsonNode.IsValue]
      exact ⟨memberTokens members, ⟨rfl, jsmnParse_objectText inner members⟩,
        areMembers members areNodes⟩
  | .array inner items, isNode => by
      rw [JsonSyntax.node] at isNode
      have inside := inside_array inner items
      have objects (types : ∀ item ∈ items, item.2.1.itemType = some .object)
          (nodes : JsonNodes) (areNodes : itemsNodes items = some nodes) :
          AreObjects nodes (items.map fun item => item.2.1.token) :=
        areObjects items types areNodes
      cases isType : itemsType items with
      | none =>
          rw [isType] at isNode
          cases isNode
      | some found =>
          rw [isType] at isNode
          cases found with
          | none =>
              cases isNode
              cases itemsType_none isType
              rw [JsonNode.IsValue]
              exact .inr ⟨[], inside, nofun⟩
          | some type =>
              obtain ⟨nonempty, types⟩ := itemsType_some isType
              cases type with
              | nil =>
                  cases isNode
                  rw [JsonNode.IsValue]
                  exact .inr ⟨_, inside, null_tokens types⟩
              | bool =>
                  cases isNode
                  rw [bool_tokens types] at inside
                  rw [JsonNode.IsValue]
                  refine ⟨?_, inside⟩
                  intro empty
                  have noTokens := bool_tokens types
                  rw [empty, List.map_nil] at noTokens
                  exact nonempty (List.map_eq_nil_iff.mp noTokens)
              | int =>
                  cases isNode
                  obtain ⟨numbers, areValues, areTokens⟩ := int_tokens types
                  rw [areTokens] at inside
                  rw [JsonNode.IsValue]
                  refine ⟨?_, numbers, areValues, inside⟩
                  intro empty
                  rw [empty, List.map_nil] at areValues
                  rw [List.map_eq_nil_iff.mp areValues, List.map_nil]
                    at areTokens
                  exact nonempty (List.map_eq_nil_iff.mp areTokens)
              | string =>
                  cases isNode
                  rw [string_tokens types] at inside
                  rw [JsonNode.IsValue]
                  refine ⟨?_, _, rfl, inside⟩
                  intro empty
                  have noTokens := string_tokens types
                  rw [List.map_eq_nil_iff.mp empty, List.map_nil] at noTokens
                  exact nonempty (List.map_eq_nil_iff.mp noTokens)
              | array => cases isNode
              | object =>
                  obtain ⟨nodes, areNodes, rfl⟩ :=
                    Option.map_eq_some_iff.mp isNode
                  have isObjects := objects types nodes areNodes
                  rw [JsonNode.IsValue]
                  refine ⟨?_, _, inside, isObjects⟩
                  rintro rfl
                  rw [AreObjects] at isObjects
                  exact nonempty (List.map_eq_nil_iff.mp isObjects)

theorem areObjects {nodes : JsonNodes} : (items : JsonItems) →
    (∀ item ∈ items, item.2.1.itemType = some .object) →
    itemsNodes items = some nodes →
    AreObjects nodes (items.map fun item => item.2.1.token)
  | [], _, areNodes => by
      rw [itemsNodes] at areNodes
      cases areNodes
      rw [AreObjects]
      rfl
  | (before, value, after) :: items, types, areNodes => by
      rw [itemsNodes] at areNodes
      obtain ⟨node, isNode, areNodes⟩ := Option.bind_eq_some_iff.mp areNodes
      obtain ⟨others, areOthers, rfl⟩ := Option.map_eq_some_iff.mp areNodes
      rw [AreObjects]
      refine ⟨value.token, items.map fun item => item.2.1.token, rfl, rfl,
        ?_, value.isValue_token isNode, ?_⟩
      · exact JsonSyntax.object_of_itemType
          (types (before, value, after) (by simp))
      · exact areObjects items (fun item member => types item
          (by simp [member])) areOthers

theorem areMembers {nodes : JsonNodes} : (members : JsonMembers) →
    membersNodes members = some nodes → AreMembers nodes (memberTokens members)
  | [], areNodes => by
      rw [membersNodes] at areNodes
      cases areNodes
      rw [AreMembers]
      rfl
  | (key, before, value, after) :: members, areNodes => by
      rw [membersNodes] at areNodes
      obtain ⟨node, isNode, areNodes⟩ := Option.bind_eq_some_iff.mp areNodes
      obtain ⟨others, areOthers, rfl⟩ := Option.map_eq_some_iff.mp areNodes
      rw [AreMembers]
      exact ⟨key.name.raw, value.token, memberTokens members, rfl, rfl,
        value.isValue_token isNode, areMembers members areOthers⟩

end

/-- The text of a JSON array or object, with white space around it. -/
structure JsonText where
  before : JsonSpace
  value : JsonSyntax
  after : JsonSpace
  isContainer : value.token.IsContainer

def JsonText.text (json : JsonText) : Bytes :=
  json.before.bytes ++ (json.value.text ++ json.after.bytes)

theorem JsonText.isRoot {json : JsonText} {node : JsonNode}
    (isNode : json.value.node = some node) : IsRoot json.text node := by
  have follows : EndsPrimitive (json.after.bytes ++ []) :=
    .separators json.after.isSeparator endsPrimitive_nil
  have spaces := @jsmnParse_separators [] json.after.bytes
    json.after.isSeparator
  rw [List.append_nil] at follows spaces
  refine ⟨json.value.token, ?_, json.isContainer,
    json.value.isValue_token isNode⟩
  rw [JsonText.text, jsmnParse_separators json.before.isSeparator,
    json.value.jsmnParse_text follows, spaces]
  rfl

/-- An error is returned and there is no tree, or the tree is the value of a
JSON text. -/
def IsJsonSound (json : Bytes) : Prop :=
  ocRepParseJson json = .error 0 ∨
    ∃ (text : JsonText) (node : JsonNode), json = text.text ∧
      text.value.node = some node ∧ ocRepParseJson json =
        if node.isNil then .emptyArray else .rep node.rootNodes

/-- `\x7b"a" 1\x7d`, where the colon is missing -/
def missingColon : Bytes := [123, 34, 97, 34, 32, 49, 125]

theorem JsonSpace.not_mem (space : JsonSpace) {byte : UInt8}
    (noSpace : isJsonSpace byte = false) : byte ∉ space.bytes := by
  intro member
  have isSpace := space.isSpace byte member
  rw [noSpace] at isSpace
  cases isSpace

theorem JsonText.not_text {json : Bytes} (quote : 34 ∈ json)
    (noColon : 58 ∉ json) (noBracket : 91 ∉ json) (text : JsonText) :
    json ≠ text.text := by
  rintro rfl
  obtain ⟨before, value, after, isContainer⟩ := text
  simp only [JsonText.text, List.mem_append, not_or] at quote noColon noBracket
  have notBefore : 34 ∉ before.bytes := before.not_mem (by decide)
  have notAfter : 34 ∉ after.bytes := after.not_mem (by decide)
  cases value with
  | array inner items =>
      rw [JsonSyntax.text_array] at noBracket
      exact noBracket.2.1 List.mem_cons_self
  | object inner members =>
      cases members with
      | nil =>
          have notInner : 34 ∉ inner.bytes := inner.not_mem (by decide)
          simp [JsonSyntax.text, notBefore, notAfter, notInner] at quote
      | cons member members =>
          obtain ⟨key, before, value, after⟩ := member
          simp [JsonSyntax.text_object, objectText, membersText] at noColon
  | _ => rcases isContainer with no | no <;> cases no

theorem not_isJsonSound_missingColon : ¬IsJsonSound missingColon := by
  rintro (error | ⟨text, node, isText, -⟩)
  · have result : ocRepParseJson missingColon = .rep [(some [97], .int 1)] := by
      rfl
    rw [result] at error
    cases error
  · exact JsonText.not_text (by decide) (by decide) (by decide) text isText

/-- For every proper text the tree is the value of the text, or there is no
value, an error is returned and no node is lost; and the texts of JSON have the
values of their syntax trees. -/
theorem json_decoder_sound (json : Bytes) (sole : Sole json)
    (proper : ∀ token, Occurs json token → token.Proper) :
    ((∃ node, IsRoot json node ∧ ocRepParseJson json =
        if node.isNil then .emptyArray else .rep node.rootNodes) ∨
      ((∀ node, ¬IsRoot json node) ∧ ocRepParseJson json = .error 0)) ∧
    ∀ (text : JsonText) (node : JsonNode), json = text.text →
      text.value.node = some node → IsRoot json node := by
  refine ⟨ocRepParseJson_sound json sole proper, ?_⟩
  rintro text node rfl isNode
  exact JsonText.isRoot isNode

theorem occurs_missingColon {token : JsmnToken}
    (occurs : Occurs missingColon token) :
    token ∈ [⟨.object, [34, 97, 34, 32, 49]⟩, ⟨.string, [97]⟩,
      (⟨.primitive, [49]⟩ : JsmnToken)] := by
  induction occurs with
  | level found =>
      have tokens : (jsmnParse missingColon).1 =
          [⟨.object, [34, 97, 34, 32, 49]⟩] := by rfl
      rw [tokens] at found
      rw [List.mem_singleton.mp found]
      exact List.mem_cons_self
  | @inner outer token _ isContainer found ih =>
      have tokens : (jsmnParse [34, 97, 34, 32, 49]).1 =
          [⟨.string, [97]⟩, ⟨.primitive, [49]⟩] := by rfl
      simp only [List.mem_cons, List.not_mem_nil, or_false] at ih
      rcases ih with rfl | rfl | rfl
      · rw [tokens] at found
        exact List.mem_cons_of_mem _ found
      · rcases isContainer with no | no <;> cases no
      · rcases isContainer with no | no <;> cases no

theorem one_areDigits : ∀ byte ∈ ([49] : Bytes), isDigit byte = true :=
  List.all_eq_true.mp rfl

theorem one_canonical (zero : ([49] : Bytes).head? = some 48) :
    ([49] : Bytes) = [48] := by
  exact absurd zero (by decide)

def JsonInteger.one : JsonInteger where
  negative := false
  digits := [49]
  areDigits := one_areDigits
  nonempty := List.cons_ne_nil _ _
  canonical := one_canonical

theorem proper_missingColon (token : JsmnToken)
    (occurs : Occurs missingColon token) : token.Proper := by
  have cases := occurs_missingColon occurs
  simp only [List.mem_cons, List.not_mem_nil, or_false] at cases
  rcases cases with rfl | rfl | rfl
  · intro key value rest isTokens
    have tokens : (jsmnParse [34, 97, 34, 32, 49]).1 =
        [⟨.string, [97]⟩, ⟨.primitive, [49]⟩] := by rfl
    rw [tokens] at isTokens
    cases isTokens
    exact trivial
  · exact trivial
  · exact fun _ => ⟨.one, rfl⟩

/-- A member without a colon has its value. -/
theorem json_decoder_sound_missingColon :
    ((∃ node, IsRoot missingColon node ∧ ocRepParseJson missingColon =
        if node.isNil then .emptyArray else .rep node.rootNodes) ∨
      ((∀ node, ¬IsRoot missingColon node) ∧
        ocRepParseJson missingColon = .error 0)) ∧
    ∀ (text : JsonText) (node : JsonNode), missingColon = text.text →
      text.value.node = some node → IsRoot missingColon node :=
  json_decoder_sound missingColon (.inr ⟨.inl rfl, rfl, rfl⟩)
    proper_missingColon

end IotivityLite
