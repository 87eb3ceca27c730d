import IotivityLite.Json.Encoding
import IotivityLite.Json.WellFormed

/-!
# JSON round trip

The text that the encoder writes for a tree is the text of a syntax tree that
stands for this tree, so the decoder gives it back.
-/

namespace IotivityLite

theorem JsonInteger.ofDigits_append (digits : Bytes) (byte : UInt8) :
    ofDigits (digits ++ [byte]) = 10 * ofDigits digits + (byte.toNat - 48) := by
  simp [ofDigits]

/-- The digits of a number. -/
structure AreDigitsOf (number : Nat) (digits : Bytes) : Prop where
  areDigits : ∀ byte ∈ digits, isDigit byte = true
  nonempty : digits ≠ []
  value : JsonInteger.ofDigits digits = number
  first : digits.head? = some 48 → number = 0 ∧ digits = [48]

theorem toNat_digit (number : Nat) :
    (48 + number % 10).toUInt8.toNat = 48 + number % 10 := by
  have small : 48 + number % 10 < 256 := by omega
  simp only [Nat.toUInt8_eq, UInt8.toNat_ofNat']
  omega

theorem isDigit_digit (number : Nat) :
    isDigit (48 + number % 10).toUInt8 = true := by
  have value := toNat_digit number
  simp only [isDigit, Bool.and_eq_true, decide_eq_true_eq,
    UInt8.le_iff_toNat_le, value, UInt8.reduceToNat]
  omega

theorem AreDigitsOf.single {number : Nat} (less : number < 10) :
    AreDigitsOf number [(48 + number % 10).toUInt8] := by
  have value := toNat_digit number
  refine ⟨?_, List.cons_ne_nil _ _, ?_, ?_⟩
  · intro byte member
    rw [List.mem_singleton.mp member]
    exact isDigit_digit number
  · simp only [JsonInteger.ofDigits, List.foldl_cons, List.foldl_nil, value]
    omega
  · intro isZero
    have isZero : (48 + number % 10).toUInt8 = 48 := Option.some.inj isZero
    refine ⟨?_, by rw [isZero]⟩
    rw [isZero] at value
    have value : 48 = 48 + number % 10 := value
    omega

theorem AreDigitsOf.append {number : Nat} {digits : Bytes} (large : 10 ≤ number)
    (areDigits : AreDigitsOf (number / 10) digits) :
    AreDigitsOf number (digits ++ [(48 + number % 10).toUInt8]) := by
  have value := toNat_digit number
  refine ⟨?_, List.append_ne_nil_of_left_ne_nil areDigits.nonempty _, ?_, ?_⟩
  · intro byte member
    rcases List.mem_append.mp member with inDigits | isLast
    · exact areDigits.areDigits byte inDigits
    · rw [List.mem_singleton.mp isLast]
      exact isDigit_digit number
  · rw [JsonInteger.ofDigits_append, areDigits.value, value]
    omega
  · intro isZero
    rw [List.head?_append_of_ne_nil _ areDigits.nonempty] at isZero
    have isZero := (areDigits.first isZero).1
    omega

theorem areDigitsOf_decimalDigits {count number : Nat}
    (small : number < 10 ^ (count + 1)) :
    AreDigitsOf number (decimalDigits (count + 1) number) := by
  induction count generalizing number with
  | zero =>
      have less : number < 10 := by simpa using small
      simp only [decimalDigits, if_pos less, List.nil_append]
      exact .single less
  | succ count ih =>
      rw [decimalDigits]
      split_ifs with less
      · exact .single less
      · refine .append (Nat.le_of_not_lt less) (ih ?_)
        rw [Nat.pow_succ] at small
        exact Nat.div_lt_of_lt_mul (by omega)

theorem exists_integer (value : Int64) :
    ∃ number : JsonInteger, number.text = intText value ∧
      number.toInt64 = some value := by
  have bounds := And.intro value.le_toInt value.toInt_lt
  have small : value.toInt.natAbs < 10 ^ (19 + 1) := by omega
  have digits := areDigitsOf_decimalDigits small
  refine ⟨⟨value.toInt < 0, decimalDigits 20 value.toInt.natAbs,
    digits.areDigits, digits.nonempty, fun isZero => (digits.first isZero).2⟩,
    ?_, ?_⟩
  · simp [JsonInteger.text, intText, decimal]
  · have isValue : JsonInteger.signed (value.toInt < 0)
        (decimalDigits 20 value.toInt.natAbs) = value.toInt := by
      simp only [JsonInteger.signed, digits.value, decide_eq_true_eq]
      split_ifs <;> omega
    simp only [JsonInteger.toInt64, isValue, JsonInteger.inRange]
    rw [if_pos (by omega), Int64.ofInt_toInt]

mutual

/-- The trees that the decoder gives back: empty arrays are read as null, items
of string arrays must not be too long, and the texts of strings have to be what
may stand between quotes. -/
def JsonNode.Plain : JsonNode → Prop
  | .string text => isStringText text = true
  | .boolArray values => values ≠ []
  | .intArray values => values ≠ []
  | .stringArray values =>
      values ≠ [] ∧ ∀ text ∈ values, isStringText text = true ∧
        text.length < stringArrayItemMaxLen
  | .object nodes => nodesPlain nodes
  | .objectArray nodes => nodes ≠ [] ∧ nodesPlain nodes
  | _ => True

def nodesPlain : List (Option Bytes × JsonNode) → Prop
  | [] => True
  | (name, node) :: nodes =>
      (∀ key, name = some key → isStringText key = true) ∧ node.Plain ∧
        nodesPlain nodes

end

theorem no_space : ∀ byte ∈ ([] : Bytes), isJsonSpace byte = true := by
  intro byte member
  cases member

def noSpace : JsonSpace := ⟨[], no_space⟩

/-- A value as an item without white space. -/
def tight (value : JsonSyntax) : JsonSpace × JsonSyntax × JsonSpace :=
  (noSpace, value, noSpace)

theorem comma_of_length {First Second : Type} {first : List First}
    {second : List Second} (same : first.length = second.length) :
    comma first = comma second := by
  cases first <;> cases second <;> simp_all [comma]

theorem itemsText_tight (values : List JsonSyntax) :
    itemsText (values.map tight) = separated (values.map JsonSyntax.text) := by
  induction values with
  | nil => rw [List.map_nil, itemsText]; rfl
  | cons value values ih =>
      have commas : comma (values.map tight) =
          comma (values.map JsonSyntax.text) := comma_of_length (by simp)
      rw [List.map_cons, List.map_cons, tight, itemsText, ih, separated, commas]
      rfl

theorem text_tight (values : List JsonSyntax) :
    (JsonSyntax.array noSpace (values.map tight)).text =
      bracketed (values.map JsonSyntax.text) := by
  rw [JsonSyntax.text_array, bracketed, ← itemsText_tight]
  cases values with
  | nil => rfl
  | cons value values => rfl

theorem itemsType_tight {values : List JsonSyntax} {type : JsonItemType}
    (nonempty : values ≠ [])
    (types : ∀ value ∈ values, value.itemType = some type) :
    itemsType (values.map tight) = some (some type) := by
  cases values with
  | nil => exact absurd rfl nonempty
  | cons value values =>
      have first := types value (by simp)
      have rest : (values.map tight).all
          (fun item => item.2.1.itemType == some type) = true := by
        refine List.all_eq_true.mpr fun item member => ?_
        obtain ⟨value, inValues, rfl⟩ := List.mem_map.mp member
        exact beq_iff_eq.mpr (types value (List.mem_cons_of_mem _ inValues))
      simp only [List.map_cons, tight, itemsType, first, Option.bind_some]
      exact if_pos rest

theorem exists_bools {values : List Bool} (nonempty : values ≠ []) :
    ∃ value : JsonSyntax, value.text = bracketed (values.map boolText) ∧
      value.node = some (.boolArray values) := by
  refine ⟨.array noSpace ((values.map .bool).map tight), ?_, ?_⟩
  · rw [text_tight, List.map_map]
    refine congrArg bracketed (List.map_congr_left fun value _ => ?_)
    rw [Function.comp_apply, JsonSyntax.text]
    cases value <;> rfl
  · have type : itemsType ((values.map .bool).map tight) =
        some (some .bool) := by
      apply itemsType_tight (by simpa using nonempty)
      intro value member
      obtain ⟨_, -, rfl⟩ := List.mem_map.mp member
      rfl
    rw [JsonSyntax.node, type]
    simp only [List.filterMap_map, Option.some.injEq,
      JsonNode.boolArray.injEq]
    exact List.filterMap_some

theorem exists_ints {values : List Int64} (nonempty : values ≠ []) :
    ∃ value : JsonSyntax, value.text = bracketed (values.map intText) ∧
      value.node = some (.intArray values) := by
  have each : ∀ value ∈ values, ∃ source : JsonInteger × Int64,
      (source.1.text = intText source.2 ∧
        source.1.toInt64 = some source.2) ∧ value = source.2 := by
    intro value _
    obtain ⟨number, isText, isValue⟩ := exists_integer value
    exact ⟨(number, value), ⟨isText, isValue⟩, rfl⟩
  obtain ⟨pairs, hold, rfl⟩ := exists_map_eq each
  let numbers := pairs.map fun pair => JsonSyntax.int pair.1
  refine ⟨.array noSpace (numbers.map tight), ?_, ?_⟩
  · rw [text_tight, List.map_map, List.map_map]
    refine congrArg bracketed (List.map_congr_left fun pair member => ?_)
    rw [Function.comp_apply, JsonSyntax.text]
    exact (hold pair member).1
  · have type : itemsType (numbers.map tight) = some (some .int) := by
      apply itemsType_tight (by simpa [numbers] using nonempty)
      intro value member
      obtain ⟨pair, inPairs, rfl⟩ := List.mem_map.mp member
      rw [JsonSyntax.itemType, (hold pair inPairs).2]
      rfl
    rw [JsonSyntax.node, type]
    simp only [numbers, List.filterMap_map, Option.some.injEq,
      JsonNode.intArray.injEq]
    calc pairs.filterMap _
        = pairs.filterMap (some ∘ Prod.snd) := by
          refine List.filterMap_congr fun pair member => ?_
          exact (hold pair member).2
      _ = pairs.map Prod.snd := by rw [List.filterMap_eq_map]

theorem exists_strings {values : List Bytes} (nonempty : values ≠ [])
    (texts : ∀ text ∈ values, isStringText text = true ∧
      text.length < stringArrayItemMaxLen) :
    ∃ value : JsonSyntax, value.text = bracketed (values.map quoted) ∧
      value.node = some (.stringArray values) := by
  have each : ∀ text ∈ values, ∃ source : JsonString,
      source.raw.length < stringArrayItemMaxLen ∧ text = source.raw := by
    intro text member
    obtain ⟨isText, short⟩ := texts text member
    exact ⟨⟨text, isText⟩, short, rfl⟩
  obtain ⟨strings, short, rfl⟩ := exists_map_eq each
  refine ⟨.array noSpace ((strings.map .string).map tight), ?_, ?_⟩
  · rw [text_tight, List.map_map, List.map_map]
    rfl
  · have type : itemsType ((strings.map .string).map tight) =
        some (some .string) := by
      apply itemsType_tight (by simpa using nonempty)
      intro value member
      obtain ⟨_, -, rfl⟩ := List.mem_map.mp member
      rfl
    rw [JsonSyntax.node, type]
    have read : ((strings.map JsonSyntax.string).map tight).filterMap
        (fun item => item.2.1.stringValue) = strings.map JsonString.raw := by
      rw [List.filterMap_map, List.filterMap_map, ← List.filterMap_eq_map]
      rfl
    simp only [read, Option.some.injEq, JsonNode.stringArray.injEq,
      List.map_map]
    refine List.map_congr_left fun string member => ?_
    have short := short string member
    exact List.take_of_length_le (by omega)

theorem length_nodeTexts (nodes : JsonNodes) :
    (nodeTexts nodes).length = nodes.length := by
  induction nodes with
  | nil => rw [nodeTexts]; rfl
  | cons first nodes ih =>
      obtain ⟨name, node⟩ := first
      rw [nodeTexts, List.length_cons, ih, List.length_cons]

theorem itemType_of_isObject {value : JsonSyntax} {node : JsonNode}
    (isNode : value.node = some node) (isObject : node.isObject = true) :
    value.itemType = some .object := by
  cases value with
  | object inner members => rfl
  | array inner items =>
      have isValue := (JsonSyntax.array inner items).isValue_token isNode
      cases node with
      | object nodes =>
          rw [JsonNode.IsValue] at isValue
          obtain ⟨tokens, inside, -⟩ := isValue
          cases inside.1
      | _ => cases isObject
  | int number =>
      rw [JsonSyntax.node] at isNode
      obtain ⟨value, -, rfl⟩ := Option.map_eq_some_iff.mp isNode
      cases isObject
  | _ =>
      rw [JsonSyntax.node] at isNode
      cases isNode
      cases isObject

mutual

/-- What is written for a tree is the text of a syntax tree for it. -/
theorem JsonNode.exists_syntax : (node : JsonNode) → node.Encodable →
    node.Plain → ∃ value : JsonSyntax, value.text = node.text ∧
      value.node = some node
  | .unknown, encodable, _ => by
      rw [JsonNode.Encodable] at encodable
      exact encodable.elim
  | .nil, _, _ => by
      refine ⟨.null, ?_, ?_⟩
      · rw [JsonSyntax.text, JsonNode.text]
      · rw [JsonSyntax.node]
  | .bool value, _, _ => by
      refine ⟨.bool value, ?_, ?_⟩
      · rw [JsonSyntax.text, JsonNode.text]
        cases value <;> rfl
      · rw [JsonSyntax.node]
  | .int value, _, _ => by
      obtain ⟨number, isText, isValue⟩ := exists_integer value
      refine ⟨.int number, ?_, ?_⟩
      · rw [JsonSyntax.text, JsonNode.text, isText]
      · rw [JsonSyntax.node, isValue]
        rfl
  | .string text, _, plain => by
      rw [JsonNode.Plain] at plain
      refine ⟨.string ⟨text, plain⟩, ?_, ?_⟩
      · rw [JsonSyntax.text, JsonNode.text, quoted]
      · rw [JsonSyntax.node]
  | .boolArray values, _, plain => by
      rw [JsonNode.Plain] at plain
      rw [JsonNode.text]
      exact exists_bools plain
  | .intArray values, _, plain => by
      rw [JsonNode.Plain] at plain
      rw [JsonNode.text]
      exact exists_ints plain
  | .stringArray values, _, plain => by
      rw [JsonNode.Plain] at plain
      rw [JsonNode.text]
      exact exists_strings plain.1 plain.2
  | .object nodes, encodable, plain => by
      rw [JsonNode.Encodable] at encodable
      rw [JsonNode.Plain] at plain
      obtain ⟨members, isText, areNodes, same⟩ :=
        exists_members nodes encodable plain
      refine ⟨.object noSpace members, ?_, ?_⟩
      · rw [JsonSyntax.text_object, JsonNode.text, ← isText]
        cases members with
        | nil => rw [membersText]; rfl
        | cons member members => rfl
      · rw [JsonSyntax.node, areNodes]
        rfl
  | .objectArray nodes, encodable, plain => by
      rw [JsonNode.Encodable] at encodable
      rw [JsonNode.Plain] at plain
      obtain ⟨values, isText, areNodes, types, same⟩ :=
        exists_objects nodes encodable plain.2
      have nonempty : values ≠ [] := by
        rintro rfl
        exact plain.1 (List.length_eq_zero_iff.mp same.symm)
      refine ⟨.array noSpace (values.map tight), ?_, ?_⟩
      · rw [text_tight, JsonNode.text, bracketed, isText]
        rfl
      · rw [JsonSyntax.node, itemsType_tight nonempty types]
        simp only [areNodes]
        rfl

theorem exists_members : (nodes : JsonNodes) → nodesEncodable true nodes →
    nodesPlain nodes → ∃ members : JsonMembers,
      membersText members = separated (nodeTexts nodes) ∧
      membersNodes members = some nodes ∧
      members.length = nodes.length
  | [], _, _ => by
      refine ⟨[], ?_, ?_, rfl⟩
      · rw [membersText, nodeTexts, separated]
      · rw [membersNodes]
  | (name, node) :: nodes, encodable, plain => by
      rw [nodesEncodable] at encodable
      rw [nodesPlain] at plain
      obtain ⟨named, -, encodable, others⟩ := encodable
      obtain ⟨isKey, plain, plains⟩ := plain
      obtain ⟨value, isText, isNode⟩ := node.exists_syntax encodable plain
      obtain ⟨members, areTexts, areNodes, same⟩ :=
        exists_members nodes others plains
      cases name with
      | none => cases named
      | some key =>
          let name : JsonKey := ⟨noSpace, ⟨key, isKey key rfl⟩, noSpace⟩
          refine ⟨(name, noSpace, value, noSpace) :: members, ?_, ?_, ?_⟩
          · have commas : comma members = comma (nodeTexts nodes) :=
              comma_of_length (by rw [same, length_nodeTexts])
            rw [membersText, nodeTexts, separated, areTexts, isText, commas]
            simp [name, JsonKey.text, noSpace, quoted]
          · rw [membersNodes, isNode, areNodes]
            rfl
          · rw [List.length_cons, List.length_cons, same]

theorem exists_objects : (nodes : JsonNodes) → nodesEncodable false nodes →
    nodesPlain nodes → ∃ values : List JsonSyntax,
      separated (values.map JsonSyntax.text) = separated (nodeTexts nodes) ∧
      itemsNodes (values.map tight) = some nodes ∧
      (∀ value ∈ values, value.itemType = some .object) ∧
      values.length = nodes.length
  | [], _, _ => by
      refine ⟨[], ?_, ?_, nofun, rfl⟩
      · rw [nodeTexts]
        rfl
      · rw [List.map_nil, itemsNodes]
  | (name, node) :: nodes, encodable, plain => by
      rw [nodesEncodable] at encodable
      rw [nodesPlain] at plain
      obtain ⟨named, isObject, encodable, others⟩ := encodable
      obtain ⟨-, plain, plains⟩ := plain
      obtain ⟨value, isText, isNode⟩ := node.exists_syntax encodable plain
      obtain ⟨values, areTexts, areNodes, types, same⟩ :=
        exists_objects nodes others plains
      cases name with
      | some key => cases named
      | none =>
          refine ⟨value :: values, ?_, ?_, ?_, ?_⟩
          · have commas : comma (values.map JsonSyntax.text) =
                comma (nodeTexts nodes) :=
              comma_of_length (by rw [List.length_map, same, length_nodeTexts])
            rw [List.map_cons, separated, nodeTexts, separated, areTexts, isText,
              commas]
            rfl
          · rw [List.map_cons, tight, itemsNodes, isNode, areNodes]
            rfl
          · intro other member
            rcases List.mem_cons.mp member with rfl | inRest
            · exact itemType_of_isObject isNode (isObject rfl)
            · exact types other inRest
          · rw [List.length_cons, List.length_cons, same]

end

variable {calls : List RepCall}

theorem results_within {impl : EncoderImpl} {plain : PlainEncoder}
    {maxSize : Nat} (free : plain.Free)
    (fine : Along (PlainEncoder.step impl none)
      (fun plain call => (plain.call impl none call).1 = .noError) plain calls)
    (fits : (runFrom (PlainEncoder.step impl none) plain calls).extent ≤
      maxSize) :
    ∀ result ∈ plain.results impl (some maxSize) calls, result = .noError := by
  induction calls generalizing plain with
  | nil => nofun
  | cons call calls ih =>
      obtain ⟨isFine, later⟩ := fine
      have only := @limitOnly_call impl plain maxSize free call
      have more := (@free_run impl _ only.free calls).2
      have same := only.within (Nat.le_trans more fits)
      intro result member
      have outputs : plain.results impl (some maxSize) (call :: calls) =
          (plain.call impl (some maxSize) call).1 ::
            (plain.step impl (some maxSize) call).results impl
              (some maxSize) calls := rfl
      rw [outputs, PlainEncoder.step, same] at member
      rcases List.mem_cons.mp member with rfl | inRest
      · exact isFine
      · exact ih only.free later fits result inRest

theorem gErr_noError (calls : List RepCall) {results : List RepResult}
    (fine : ∀ result ∈ results, result = .noError) :
    gErr calls results false = false := by
  induction calls generalizing results with
  | nil => rfl
  | cons call calls ih =>
      cases results with
      | nil => cases call <;> rfl
      | cons result results =>
          have first := fine result List.mem_cons_self
          have rest := ih fun other member =>
            fine other (List.mem_cons_of_mem _ member)
          cases call <;> simpa [gErr, first] using rest

def RepCall.isRaw : RepCall → Bool
  | .raw _ => true
  | _ => false

theorem enclosed_noRaw {encoder : Nat} {isMap : Bool}
    (noRaw : ∀ call ∈ calls, call.isRaw = false) :
    ∀ call ∈ enclosed encoder isMap calls, call.isRaw = false := by
  intro call member
  rcases List.mem_cons.mp member with rfl | inside
  · rfl
  · rcases List.mem_append.mp inside with inCalls | isClose
    · exact noRaw call inCalls
    · rw [List.mem_singleton.mp isClose]
      rfl

theorem arrayCalls_noRaw (encoder : Nat) (items : List RepItem) :
    ∀ call ∈ arrayCalls encoder items, call.isRaw = false := by
  refine enclosed_noRaw fun call member => ?_
  obtain ⟨item, -, rfl⟩ := List.mem_map.mp member
  rfl

theorem write_noRaw (encoder : Nat) (item : RepItem) :
    ∀ call ∈ [RepCall.write encoder item], call.isRaw = false := by
  intro call member
  rw [List.mem_singleton.mp member]
  rfl

mutual

theorem JsonNode.calls_noRaw (encoder : Nat) : (node : JsonNode) →
    ∀ call ∈ node.calls encoder, call.isRaw = false
  | .unknown => by rw [JsonNode.calls]; nofun
  | .nil => by rw [JsonNode.calls]; exact write_noRaw _ _
  | .bool _ => by rw [JsonNode.calls]; exact write_noRaw _ _
  | .int _ => by rw [JsonNode.calls]; exact write_noRaw _ _
  | .string _ => by rw [JsonNode.calls]; exact write_noRaw _ _
  | .boolArray _ => by rw [JsonNode.calls]; exact arrayCalls_noRaw _ _
  | .intArray _ => by rw [JsonNode.calls]; exact arrayCalls_noRaw _ _
  | .stringArray _ => by rw [JsonNode.calls]; exact arrayCalls_noRaw _ _
  | .object nodes => by
      rw [JsonNode.calls]
      exact enclosed_noRaw (nodesCalls_noRaw (encoder + 1) nodes)
  | .objectArray nodes => by
      rw [JsonNode.calls]
      exact enclosed_noRaw (nodesCalls_noRaw (encoder + 1) nodes)

theorem nodesCalls_noRaw (encoder : Nat) : (nodes : JsonNodes) →
    ∀ call ∈ nodesCalls encoder nodes, call.isRaw = false
  | [] => by rw [nodesCalls]; nofun
  | (name, node) :: nodes => by
      rw [nodesCalls]
      intro call member
      rcases List.mem_append.mp member with isKey | isValue
      · obtain ⟨key, -, rfl⟩ := List.mem_map.mp isKey
        rfl
      · rcases List.mem_append.mp isValue with inNode | inNodes
        · exact node.calls_noRaw encoder call inNode
        · exact nodesCalls_noRaw encoder nodes call inNodes

end

theorem along_admits {impl : EncoderImpl} {env : EncoderEnv}
    (isGlobal : env.globalPtr = none)
    (noRaw : ∀ call ∈ calls, call.isRaw = false) (encoder : RepEncoder) :
    Along (RepEncoder.step impl env) (RepEncoder.Admits env) encoder calls := by
  induction calls generalizing encoder with
  | nil => trivial
  | cons call calls ih =>
      refine ⟨?_, ih (fun other member =>
        noRaw other (List.mem_cons_of_mem _ member)) _⟩
      have isCall := noRaw call List.mem_cons_self
      cases call with
      | raw data => cases isCall
      | write index item =>
          cases item with
          | null => exact isGlobal
          | _ => trivial
      | _ => trivial

theorem payload_of_written {impl : EncoderImpl} {env : EncoderEnv}
    {block : HeapBlock} {maxSize : Nat} {calls : List RepCall} {text : Bytes}
    {flags : UInt8} (isGlobal : env.globalPtr = none)
    (small : block.size ≤ maxSize)
    (noRaw : ∀ call ∈ calls, call.isRaw = false)
    (fine : Along (PlainEncoder.step impl none)
      (fun plain call => (plain.call impl none call).1 = .noError) .init calls)
    (written : Written (runFrom (PlainEncoder.step impl none) .init calls) 0
      text flags)
    (fits : text.length ≤ maxSize) {results : List RepResult}
    (areResults : RepEncoder.results impl env (.init block maxSize) calls =
      results) {final : RepEncoder}
    (isFinal : runFrom (RepEncoder.step impl env) (.init block maxSize) calls =
      final) :
    (∀ result ∈ results, result = .noError) ∧
      final.payload (final.payloadSize calls results) = text := by
  obtain ⟨same, represents, holds⟩ := @agrees_run impl env calls _ _ maxSize
    (represents_init block small) rfl (along_admits isGlobal noRaw _)
  rw [areResults] at same holds
  rw [isFinal] at represents holds
  have within : (runFrom (PlainEncoder.step impl none) .init calls).extent ≤
      maxSize := by
    rw [written.extent]
    exact fits
  have allFine : ∀ result ∈ results, result = .noError := by
    rw [same]
    exact results_within PlainEncoder.free_init fine within
  have enough : RepResult.outOfMemory ∉ results := by
    intro member
    exact RepResult.noConfusion (allFine _ member)
  have limited := (@limited_run impl .init maxSize PlainEncoder.free_init
    (Nat.zero_le _) calls).2 (same ▸ enough)
  have content := holds enough fun address below =>
    absurd below (Nat.not_lt_zero address)
  rw [limited] at represents content
  have payload := (payload_of_represents represents written.position content
    calls results).2
  rw [gErr_noError calls allFine] at payload
  simp only [Bool.false_eq_true, if_false, Int.toNat_natCast,
    written.content] at payload
  exact ⟨allFine, payload⟩

/-- A tree that is the payload of a message: an object or an array of
objects. -/
def JsonNode.IsPayload : JsonNode → Prop
  | .object _ => True
  | .objectArray _ => True
  | _ => False

theorem written_payload (formatDouble : UInt64 → Bytes) {root : JsonNode}
    (isPayload : root.IsPayload) (encodable : root.Encodable) :
    Along (PlainEncoder.step (ocRepJsonEncoder formatDouble) none)
      (fun plain call =>
        (plain.call (ocRepJsonEncoder formatDouble) none call).1 = .noError)
      .init (root.calls 0) ∧
    Written (runFrom (PlainEncoder.step (ocRepJsonEncoder formatDouble) none)
      .init (root.calls 0)) 0 root.text (afterValue 0) := by
  have noString : root.isString = true → afterText 0 = afterValue 0 := by
    cases root with
    | string text => exact isPayload.elim
    | _ =>
        intro isString
        cases isString
  have writes := @JsonNode.writes formatDouble 0 0 (by decide) root encodable
    noString
  have start : Written .init 0 [] 0 := ⟨rfl, rfl, rfl, rfl⟩
  obtain ⟨fine, written, -⟩ := writes .init [] start
  exact ⟨fine, written⟩

theorem ocRepParseJson_text {root : JsonNode} (isPayload : root.IsPayload)
    (encodable : root.Encodable) (plain : root.Plain) :
    ocRepParseJson root.text = .rep root.rootNodes := by
  obtain ⟨value, isText, isNode⟩ := root.exists_syntax encodable plain
  have isValue := value.isValue_token isNode
  have isContainer : value.token.IsContainer := by
    cases root with
    | object nodes =>
        rw [JsonNode.IsValue] at isValue
        obtain ⟨tokens, inside, -⟩ := isValue
        exact .inl inside.1
    | objectArray nodes =>
        rw [JsonNode.IsValue] at isValue
        obtain ⟨-, tokens, inside, -⟩ := isValue
        exact .inr inside.1
    | _ => exact isPayload.elim
  let json : JsonText := ⟨noSpace, value, noSpace, isContainer⟩
  have sameText : json.text = root.text := by
    simp [json, JsonText.text, noSpace, isText]
  have notNil : root.isNil = false := by
    cases root with
    | nil => exact isPayload.elim
    | _ => rfl
  have parsed := ocRepParseJson_root (@JsonText.isRoot json root isNode)
  rw [sameText, notNil] at parsed
  exact parsed

/-- All calls that encode the tree succeed, and their payload is decoded to
the tree. -/
def RoundTrips (impl : EncoderImpl) (env : EncoderEnv) (block : HeapBlock)
    (maxSize : Nat) (root : JsonNode) : Prop :=
  let calls := root.calls 0
  let results := RepEncoder.results impl env (.init block maxSize) calls
  let final := runFrom (RepEncoder.step impl env) (.init block maxSize) calls
  (∀ result ∈ results, result = .noError) ∧
    ocRepParseJson (final.payload (final.payloadSize calls results)) =
      .rep root.rootNodes

section RoundTrips

variable (formatDouble : UInt64 → Bytes) {env : EncoderEnv}
  (isGlobal : env.globalPtr = none) {block : HeapBlock} {maxSize : Nat}
  (small : block.size ≤ maxSize) {root : JsonNode}
  (isPayload : root.IsPayload) (encodable : root.Encodable)
  (fits : root.text.length ≤ maxSize)

include isGlobal small isPayload encodable fits

theorem roundTrips_iff :
    RoundTrips (ocRepJsonEncoder formatDouble) env block maxSize root ↔
      ocRepParseJson root.text = .rep root.rootNodes := by
  obtain ⟨fine, written⟩ := written_payload formatDouble isPayload encodable
  have wrote := @payload_of_written (ocRepJsonEncoder formatDouble) env block
    maxSize (root.calls 0) root.text _ isGlobal small (root.calls_noRaw 0) fine
    written fits _ rfl _ rfl
  obtain ⟨allFine, payload⟩ := wrote
  unfold RoundTrips
  simp only [payload]
  exact and_iff_right allFine

/-- The payload that the global encoder writes for a tree is decoded to this
tree. -/
theorem json_round_trip (plain : root.Plain) :
    RoundTrips (ocRepJsonEncoder formatDouble) env block maxSize root :=
  (roundTrips_iff formatDouble isGlobal small isPayload encodable fits).mpr
    (ocRepParseJson_text isPayload encodable plain)

end RoundTrips

namespace JsonTrees

/-- `\x7b"a":[]\x7d` -/
def emptyArray : JsonNode := .object [(some [97], .boolArray [])]

/-- `\x7b"a":[1],"b":"c"\x7d` -/
def members : JsonNode :=
  .object [(some [97], .intArray [1]), (some [98], .string [99])]

theorem encodable_emptyArray : emptyArray.Encodable := by
  simp [emptyArray, JsonNode.Encodable, nodesEncodable]

theorem encodable_members : members.Encodable := by
  have one : IsAccepted 1 := by unfold IsAccepted; decide
  simp [members, JsonNode.Encodable, nodesEncodable, one]

theorem plain_members : members.Plain := by
  have texts : isStringText [97] = true ∧ isStringText [98] = true ∧
      isStringText [99] = true := by decide
  simp [members, JsonNode.Plain, nodesPlain, texts]

end JsonTrees

open JsonTrees in
theorem json_round_trip_members :
    RoundTrips (ocRepJsonEncoder fun _ => []) RawWrite.env (RawWrite.block 4) 64
      members :=
  json_round_trip (fun _ => []) rfl (by decide) trivial encodable_members
    (by decide) plain_members

open JsonTrees in
/-- An empty array is decoded to null. -/
theorem not_json_round_trip_emptyArray :
    emptyArray.IsPayload ∧ emptyArray.Encodable ∧
      ¬RoundTrips (ocRepJsonEncoder fun _ => []) RawWrite.env
        (RawWrite.block 64) 64 emptyArray := by
  refine ⟨trivial, encodable_emptyArray, fun roundTrips => ?_⟩
  have isPayload : emptyArray.IsPayload := trivial
  have decoded := (roundTrips_iff (fun _ => []) rfl (by decide) isPayload
    encodable_emptyArray (by decide)).mp roundTrips
  have isNull : ocRepParseJson emptyArray.text =
      .rep [(some [97], .nil)] := by rfl
  rw [isNull] at decoded
  cases decoded

end IotivityLite
