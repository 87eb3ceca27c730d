import IotivityLite.Json.Syntax
import IotivityLite.Rep.BufferTransparency

/-!
# What the encoder for JSON writes

The calls that encode a tree, and the text that they write.  A contract says
which bytes a sequence of calls appends and how it changes the flags of the
encoder it starts from; contracts are composed along the tree.
-/

namespace IotivityLite

/-- The calls between the opening and the closing of a container; a container
is encoded with the encoder that follows that of its parent. -/
def enclosed (encoder : Nat) (isMap : Bool) (calls : List RepCall) :
    List RepCall :=
  .create encoder (encoder + 1) (Nat.ne_of_lt (Nat.lt_succ_self encoder)) isMap
      none ::
    (calls ++
      [.close encoder (encoder + 1) (Nat.ne_of_lt (Nat.lt_succ_self encoder))])

def arrayCalls (encoder : Nat) (items : List RepItem) : List RepCall :=
  enclosed encoder false (items.map (.write (encoder + 1)))

mutual

/-- The calls that encode a value. -/
def JsonNode.calls (encoder : Nat) : JsonNode → List RepCall
  | .unknown => []
  | .nil => [.write encoder .null]
  | .bool value => [.write encoder (.boolean value)]
  | .int value => [.write encoder (.int value)]
  | .string text => [.write encoder (.textString text)]
  | .boolArray values => arrayCalls encoder (values.map .boolean)
  | .intArray values => arrayCalls encoder (values.map .int)
  | .stringArray values => arrayCalls encoder (values.map .textString)
  | .object nodes => enclosed encoder true (nodesCalls (encoder + 1) nodes)
  | .objectArray nodes => enclosed encoder false (nodesCalls (encoder + 1) nodes)

/-- The calls for the nodes of a list: keys, where there are some, and
values. -/
def nodesCalls (encoder : Nat) :
    List (Option Bytes × JsonNode) → List RepCall
  | [] => []
  | (name, node) :: nodes =>
      name.toList.map (fun key => .write encoder (.textString key)) ++
        (node.calls encoder ++ nodesCalls encoder nodes)

end

namespace Mem

theorem read_patch (memory : Mem) (start : Nat) (bytes : Bytes) :
    (memory.patch start bytes).read start bytes.length = bytes := by
  have same : (memory.patch start bytes).read start bytes.length =
      (ofBytes bytes).read 0 bytes.length := by
    apply read_shift
    intro offset below
    simp only [patch, ofBytes, Nat.le_add_right, true_and,
      if_pos (Nat.add_lt_add_left below start), Nat.add_sub_cancel_left,
      Nat.zero_add]
  exact same.trans (holds_ofBytes bytes)

end Mem

/-- The encoder with this number stands behind the text, which is all that was
written. -/
structure Written (plain : PlainEncoder) (encoder : Nat) (text : Bytes)
    (flags : UInt8) : Prop where
  position : (plain.subs encoder).position = some text.length
  flags : (plain.subs encoder).items.flags = flags
  extent : plain.extent = text.length
  content : plain.text.read 0 text.length = text

variable {text : Bytes}

theorem place_text {plain : PlainEncoder} {text : Bytes} {pieces : List Bytes}
    (extent : plain.extent = text.length)
    (content : plain.text.read 0 text.length = text) (some_pieces : pieces ≠ []) :
    ∃ after : PlainEncoder,
      plain.place none pieces (some text.length) =
        some (some (text ++ pieces.flatten).length, after) ∧
      after.subs = plain.subs ∧
      after.extent = (text ++ pieces.flatten).length ∧
      after.text.read 0 (text ++ pieces.flatten).length =
        text ++ pieces.flatten := by
  cases pieces with
  | nil => exact absurd rfl some_pieces
  | cons piece pieces =>
      have admits : PlainEncoder.Admits none
          (text.length + (piece :: pieces).flatten.length) := by
        intro maximum isMaximum
        cases isMaximum
      simp only [PlainEncoder.place, if_pos admits, List.length_append]
      refine ⟨_, rfl, rfl, ?_, ?_⟩
      · simp only [extent]
        omega
      · simp only
        rw [Mem.read_append, Nat.zero_add, Mem.read_patch]
        have front : (plain.text.patch text.length
            (piece :: pieces).flatten).read 0 text.length =
              plain.text.read 0 text.length := by
          apply Mem.read_congr
          intro address _ below
          exact Mem.patch_outside (by omega)
        rw [front, content]

section Contracts

variable (impl : EncoderImpl)

/-- The calls succeed and append the text; the encoders with smaller numbers
are left alone. -/
def Writes (encoder : Nat) (calls : List RepCall) (text : Bytes)
    (before after : UInt8) : Prop :=
  ∀ plain prior, Written plain encoder prior before →
    Along (PlainEncoder.step impl none)
      (fun plain call => (plain.call impl none call).1 = .noError) plain calls ∧
    Written (runFrom (PlainEncoder.step impl none) plain calls) encoder
      (prior ++ text) after ∧
    ∀ index < encoder, (runFrom (PlainEncoder.step impl none) plain
      calls).subs index = plain.subs index

variable {impl} {encoder : Nat} {before between after : UInt8}

theorem Writes.nil (flags : UInt8) : Writes impl encoder [] [] flags flags := by
  intro plain prior written
  refine ⟨trivial, ?_, fun _ _ => rfl⟩
  rw [List.append_nil]
  exact written

theorem Writes.append {first second : List RepCall} {text more : Bytes}
    (writes : Writes impl encoder first text before between)
    (also : Writes impl encoder second more between after) :
    Writes impl encoder (first ++ second) (text ++ more) before after := by
  intro plain prior written
  obtain ⟨fine, written, frame⟩ := writes plain prior written
  obtain ⟨later, written, same⟩ := also _ _ written
  refine ⟨along_append.mpr ⟨fine, later⟩, ?_, ?_⟩
  · rw [runFrom_append, ← List.append_assoc]
    exact written
  · intro index below
    rw [runFrom_append, same index below, frame index below]

theorem Writes.item {item : RepItem} {pieces : List Bytes}
    (some_pieces : pieces ≠ [])
    (plan : ∀ state : ItemState, state.flags = before →
      ∃ done full, impl.item state item = .append pieces done full ∧
        done.flags = after) :
    Writes impl encoder [.write encoder item] pieces.flatten before after := by
  intro plain prior written
  obtain ⟨position, flags, extent, content⟩ := written
  obtain ⟨done, full, isPlan, isAfter⟩ := plan _ flags
  obtain ⟨placed, isPlaced, subs, extent, content⟩ :=
    place_text extent content some_pieces
  have called : plain.call impl none (.write encoder item) =
      (.noError, placed.setSub encoder
        ⟨some (prior ++ pieces.flatten).length, done⟩) := by
    simp only [PlainEncoder.call, PlainEncoder.write, isPlan, position, isPlaced]
  have stepped : runFrom (PlainEncoder.step impl none) plain
      [.write encoder item] = placed.setSub encoder
        ⟨some (prior ++ pieces.flatten).length, done⟩ := by
    rw [runFrom_cons, runFrom_nil, PlainEncoder.step, called]
  rw [stepped]
  refine ⟨⟨congrArg Prod.fst called, trivial⟩, ⟨?_, ?_, extent, content⟩, ?_⟩
  · simp [PlainEncoder.setSub]
  · simp [PlainEncoder.setSub, isAfter]
  · intro index below
    simp [PlainEncoder.setSub, Function.update_of_ne (Nat.ne_of_lt below), subs]

theorem Writes.enclosed {isMap : Bool} {calls : List RepCall}
    {opening closing : List Bytes} {inner outer : UInt8}
    (byParent : impl.byParent = true) (some_opening : opening ≠ [])
    (some_closing : closing ≠ [])
    (opens : ∀ state : ItemState, state.flags = before →
      ∃ done full child, impl.container state isMap none =
          .append opening done full child ∧
        done.flags = after ∧ child.flags = inner)
    (closes : ∀ state : ItemState, state.flags = outer →
      impl.close state = .append closing)
    (writes : Writes impl (encoder + 1) calls text inner outer) :
    Writes impl encoder (IotivityLite.enclosed encoder isMap calls)
      (opening.flatten ++ (text ++ closing.flatten)) before after := by
  intro plain prior written
  obtain ⟨position, flags, extent, content⟩ := written
  obtain ⟨done, full, child, isPlan, isAfter, isInner⟩ := opens _ flags
  obtain ⟨placed, isPlaced, subs, extent, content⟩ :=
    place_text extent content some_opening
  let opened := (placed.setSub encoder
      ⟨some (prior ++ opening.flatten).length, done⟩).setSub (encoder + 1)
        ⟨some (prior ++ opening.flatten).length, child⟩
  have distinct : encoder ≠ encoder + 1 := Nat.ne_of_lt (Nat.lt_succ_self _)
  have called : plain.call impl none (.create encoder (encoder + 1) distinct
      isMap none) = (.noError, opened) := by
    simp only [PlainEncoder.call, PlainEncoder.create, isPlan, position,
      isPlaced, byParent, if_true, opened]
  have inside : Written opened (encoder + 1) (prior ++ opening.flatten)
      inner := by
    refine ⟨?_, ?_, extent, content⟩
    · simp [opened, PlainEncoder.setSub]
    · simp [opened, PlainEncoder.setSub, isInner]
  obtain ⟨fine, ⟨position, flags, extent, content⟩, frame⟩ :=
    writes opened _ inside
  -- the parent still has the flags that it got with the opening
  have parent := frame encoder (Nat.lt_succ_self encoder)
  have isDone : (opened.subs encoder).items = done := by
    simp [opened, PlainEncoder.setSub]
  generalize isRun : runFrom (PlainEncoder.step impl none) opened calls = ran
    at position flags extent content parent frame
  obtain ⟨final, isFinal, finalSubs, extent, content⟩ :=
    place_text extent content some_closing
  have closed : ran.call impl none (.close encoder (encoder + 1) distinct) =
      (.noError, final.setSub encoder
        ⟨some (prior ++ opening.flatten ++ text ++ closing.flatten).length,
          done⟩) := by
    simp only [PlainEncoder.call, PlainEncoder.close, closes _ flags, position,
      isFinal, parent, isDone]
  have stepped : runFrom (PlainEncoder.step impl none) plain
      (IotivityLite.enclosed encoder isMap calls) = final.setSub encoder
        ⟨some (prior ++ opening.flatten ++ text ++ closing.flatten).length,
          done⟩ := by
    rw [IotivityLite.enclosed, runFrom_cons, PlainEncoder.step, called,
      runFrom_append, isRun, runFrom_cons, runFrom_nil, PlainEncoder.step,
      closed]
  have isText : prior ++ (opening.flatten ++ (text ++ closing.flatten)) =
      prior ++ opening.flatten ++ text ++ closing.flatten := by
    simp only [List.append_assoc]
  rw [stepped, isText]
  refine ⟨⟨congrArg Prod.fst called, ?_⟩, ⟨?_, ?_, extent, content⟩, ?_⟩
  · rw [PlainEncoder.step, called]
    refine along_append.mpr ⟨fine, ?_⟩
    rw [isRun]
    exact ⟨congrArg Prod.fst closed, trivial⟩
  · simp [PlainEncoder.setSub]
  · simp [PlainEncoder.setSub, isAfter]
  · intro index below
    have below' : index < encoder + 1 := Nat.lt_succ_of_lt below
    simp only [PlainEncoder.setSub, Function.update_of_ne (Nat.ne_of_lt below),
      finalSubs, frame index below', opened,
      Function.update_of_ne (Nat.ne_of_lt below'), subs]

end Contracts

/-- Texts with commas between them. -/
def separated : List Bytes → Bytes
  | [] => []
  | text :: texts => text ++ (comma texts ++ separated texts)

/-- A text in quotes. -/
def quoted (text : Bytes) : Bytes := 34 :: (text ++ [34])

def bracketed (texts : List Bytes) : Bytes := 91 :: (separated texts ++ [93])

def boolText (value : Bool) : Bytes := ascii (if value then "true" else "false")

def intText (value : Int64) : Bytes := decimal value.toInt

mutual

/-- The text that a value is written as. -/
def JsonNode.text : JsonNode → Bytes
  | .unknown => []
  | .nil => ascii "null"
  | .bool value => boolText value
  | .int value => intText value
  | .string text => quoted text
  | .boolArray values => bracketed (values.map boolText)
  | .intArray values => bracketed (values.map intText)
  | .stringArray values => bracketed (values.map quoted)
  | .object nodes => 123 :: (separated (nodeTexts nodes) ++ [125])
  | .objectArray nodes => bracketed (nodeTexts nodes)

/-- The texts of the nodes of a list, with their keys. -/
def nodeTexts : List (Option Bytes × JsonNode) → List Bytes
  | [] => []
  | (name, node) :: nodes =>
      ((name.map fun key => quoted key ++ [58]).getD [] ++ node.text) ::
        nodeTexts nodes

end

/-- The integers that the encoder accepts. -/
def IsAccepted (value : Int64) : Prop :=
  ocRepJsonIntMin ≤ value.toInt ∧ value.toInt ≤ ocRepJsonIntMax

def JsonNode.isObject : JsonNode → Bool
  | .object _ => true
  | _ => false

def JsonNode.isString : JsonNode → Bool
  | .string _ => true
  | _ => false

mutual

/-- A tree of the types that the encoder supports: members of objects have
names, and the items of arrays of objects are objects without names. -/
def JsonNode.Encodable : JsonNode → Prop
  | .unknown => False
  | .int value => IsAccepted value
  | .intArray values => ∀ value ∈ values, IsAccepted value
  | .object nodes => nodesEncodable true nodes
  | .objectArray nodes => nodesEncodable false nodes
  | _ => True

def nodesEncodable (isMap : Bool) : List (Option Bytes × JsonNode) → Prop
  | [] => True
  | (name, node) :: nodes =>
      name.isSome = isMap ∧ (isMap = false → node.isObject = true) ∧
        node.Encodable ∧ nodesEncodable isMap nodes

end

section Json

variable (formatDouble : UInt64 → Bytes) (encoder : Nat)

/-- What stands in front of a value. -/
def lead (flags : UInt8) : Bytes := (repJsonAppendSeparator flags).flatten

variable {flags : UInt8}

theorem writes_plain (due : expectsKey flags = false) {item : RepItem}
    (plan : ∀ state : ItemState,
      (ocRepJsonEncoder formatDouble).item state item =
        repJsonEncode state text) :
    Writes (ocRepJsonEncoder formatDouble) encoder [.write encoder item]
      (lead flags ++ text) flags (afterValue flags) := by
  have isText : lead flags ++ text =
      (repJsonAppendSeparator flags ++ [text]).flatten := by
    simp [lead]
  rw [isText]
  refine Writes.item (by simp) fun state isFlags => ?_
  rw [plan, repJsonEncode, isFlags, due]
  exact ⟨_, _, rfl, rfl⟩

theorem writes_int (due : expectsKey flags = false) {value : Int64}
    (accepted : IsAccepted value) :
    Writes (ocRepJsonEncoder formatDouble) encoder
      [.write encoder (.int value)] (lead flags ++ intText value) flags
      (afterValue flags) := by
  have isText : lead flags ++ intText value =
      (repJsonAppendSeparator flags ++ [decimal value.toInt]).flatten := by
    simp [lead, intText]
  rw [isText]
  refine Writes.item (by simp) fun state isFlags => ?_
  have isAccepted : (value.toInt ≤ ocRepJsonIntMax &&
      ocRepJsonIntMin ≤ value.toInt : Bool) = true := by
    simp [accepted.1, accepted.2]
  simp only [ocRepJsonEncoder, repJsonEncodeNumber, repJsonEncode, isFlags, due,
    isAccepted, Bool.false_eq_true, if_false, if_true]
  exact ⟨_, _, rfl, rfl⟩

theorem writes_text (flags : UInt8) (text : Bytes) :
    Writes (ocRepJsonEncoder formatDouble) encoder
      [.write encoder (.textString text)] (lead flags ++ quoted text) flags
      (afterText flags) := by
  have isText : lead flags ++ quoted text =
      (repJsonAppendSeparator flags ++
        [ascii "\"", text, ascii "\""]).flatten := by
    have quote : ascii "\"" = [34] := by decide
    simp [lead, quoted, quote]
  rw [isText]
  refine Writes.item (by simp) fun state isFlags => ?_
  simp only [ocRepJsonEncoder, isFlags]
  exact ⟨_, _, rfl, rfl⟩

theorem writes_enclosed {flags outer : UInt8} (due : expectsKey flags = false)
    {isMap : Bool} {calls : List RepCall}
    (isOuter : outer &&& JsonFlag.mapType ≠ 0 ↔ isMap = true)
    (writes : Writes (ocRepJsonEncoder formatDouble) (encoder + 1) calls text
      (if isMap then JsonFlag.mapType else JsonFlag.arrayType) outer) :
    Writes (ocRepJsonEncoder formatDouble) encoder
      (enclosed encoder isMap calls)
      (lead flags ++ ((if isMap then 123 else 91) ::
        (text ++ [if isMap then 125 else 93]))) flags (afterValue flags) := by
  have isText : lead flags ++ ((if isMap then 123 else 91) ::
      (text ++ [if isMap then 125 else 93])) =
      (repJsonAppendSeparator flags ++
        [if isMap then ascii "\x7b" else ascii "["]).flatten ++
      (text ++ [if isMap then ascii "\x7d" else ascii "]"].flatten) := by
    have brackets : ascii "\x7b" = [123] ∧ ascii "[" = [91] ∧
        ascii "\x7d" = [125] ∧ ascii "]" = [93] := by decide
    cases isMap <;> simp [lead, brackets]
  rw [isText]
  refine Writes.enclosed rfl (by simp) (by simp) ?_ ?_ writes
  · intro state isFlags
    simp only [ocRepJsonEncoder, isFlags, due, Bool.false_eq_true, if_false]
    exact ⟨_, _, _, rfl, rfl, rfl⟩
  · intro state isFlags
    simp only [ocRepJsonEncoder, isFlags]
    cases isMap with
    | true => rw [if_pos (isOuter.mpr rfl)]; rfl
    | false =>
        rw [if_neg fun isMap => Bool.false_ne_true (isOuter.mp isMap)]
        rfl

/-- The flags of an array or an object behind an item. -/
def laterFlags (isMap : Bool) : UInt8 := if isMap then 10 else 6

def firstFlags (isMap : Bool) : UInt8 := if isMap then 8 else 4

theorem lead_first (isMap : Bool) : lead (firstFlags isMap) = [] := by
  cases isMap <;> decide

theorem lead_later (isMap : Bool) : lead (laterFlags isMap) = [44] := by
  cases isMap <;> decide

/-- What is written behind other items. -/
def laterTexts (texts : List Bytes) : Bytes := texts.flatMap (44 :: ·)

theorem separated_cons (text : Bytes) (texts : List Bytes) :
    separated (text :: texts) = text ++ laterTexts texts := by
  induction texts generalizing text with
  | nil => simp [separated, comma, laterTexts]
  | cons other texts ih =>
      rw [separated, ih other]
      simp [comma, laterTexts]

/-- A list of items, each of which is written behind what leads to it. -/
inductive WritesEach (isMap : Bool) :
    List (List RepCall) → List Bytes → Prop where
  | nil : WritesEach isMap [] []
  | cons {calls : List RepCall} {text : Bytes} {others : List (List RepCall)}
      {texts : List Bytes} :
      (∀ flags, flags = firstFlags isMap ∨ flags = laterFlags isMap →
        Writes (ocRepJsonEncoder formatDouble) encoder calls
          (lead flags ++ text) flags (laterFlags isMap)) →
      WritesEach isMap others texts →
      WritesEach isMap (calls :: others) (text :: texts)

variable {formatDouble} {encoder} {isMap : Bool} {calls : List (List RepCall)}
  {texts : List Bytes}

theorem WritesEach.later
    (each : WritesEach formatDouble encoder isMap calls texts) :
    Writes (ocRepJsonEncoder formatDouble) encoder calls.flatten
      (laterTexts texts) (laterFlags isMap) (laterFlags isMap) := by
  induction each with
  | nil => exact .nil _
  | @cons calls text others texts writes _ ih =>
      have first := writes _ (.inr rfl)
      rw [lead_later] at first
      exact first.append ih

theorem WritesEach.all
    (each : WritesEach formatDouble encoder isMap calls texts) :
    ∃ outer, (outer &&& JsonFlag.mapType ≠ 0 ↔ isMap = true) ∧
      Writes (ocRepJsonEncoder formatDouble) encoder calls.flatten
        (separated texts) (firstFlags isMap) outer := by
  cases each with
  | nil =>
      refine ⟨firstFlags isMap, ?_, .nil _⟩
      cases isMap <;> decide
  | @cons calls text others texts writes each =>
      refine ⟨laterFlags isMap, ?_, ?_⟩
      · cases isMap <;> decide
      · have first := writes _ (.inl rfl)
        rw [lead_first, List.nil_append] at first
        rw [separated_cons]
        exact first.append each.later

theorem array_flags
    (isArray : flags = firstFlags false ∨ flags = laterFlags false) :
    expectsKey flags = false ∧ afterValue flags = laterFlags false ∧
      afterText flags = laterFlags false := by
  rcases isArray with rfl | rfl <;> decide

theorem writes_array (due : expectsKey flags = false) {Item : Type}
    {values : List Item} {item : Item → RepItem} {text : Item → Bytes}
    (each : ∀ value ∈ values, ∀ flags,
      flags = firstFlags false ∨ flags = laterFlags false →
      Writes (ocRepJsonEncoder formatDouble) (encoder + 1)
        [.write (encoder + 1) (item value)] (lead flags ++ text value) flags
        (laterFlags false)) :
    Writes (ocRepJsonEncoder formatDouble) encoder
      (arrayCalls encoder (values.map item))
      (lead flags ++ bracketed (values.map text)) flags (afterValue flags) := by
  have writesEach : WritesEach formatDouble (encoder + 1) false
      (values.map fun value => [.write (encoder + 1) (item value)])
      (values.map text) := by
    induction values with
    | nil => exact .nil
    | cons value values ih =>
        refine .cons (each value (by simp)) (ih fun other member => ?_)
        exact each other (List.mem_cons_of_mem value member)
  have calls : (values.map fun value =>
      [RepCall.write (encoder + 1) (item value)]).flatten =
        (values.map item).map (.write (encoder + 1)) := by
    rw [List.map_map, ← List.flatMap_def]
    exact List.flatMap_pure_eq_map _ _
  obtain ⟨outer, isOuter, writes⟩ := writesEach.all
  rw [calls] at writes
  exact writes_enclosed formatDouble encoder due isOuter writes

mutual

/-- A value is written as its text. -/
theorem JsonNode.writes {encoder : Nat} {flags : UInt8}
    (due : expectsKey flags = false) : (node : JsonNode) → node.Encodable →
    (node.isString = true → afterText flags = afterValue flags) →
    Writes (ocRepJsonEncoder formatDouble) encoder (node.calls encoder)
      (lead flags ++ node.text) flags (afterValue flags)
  | .unknown, encodable, _ => by
      rw [JsonNode.Encodable] at encodable
      exact encodable.elim
  | .nil, _, _ => by
      rw [JsonNode.calls, JsonNode.text]
      exact writes_plain formatDouble encoder due fun _ => rfl
  | .bool value, _, _ => by
      rw [JsonNode.calls, JsonNode.text]
      exact writes_plain formatDouble encoder due fun _ => rfl
  | .int value, encodable, _ => by
      rw [JsonNode.Encodable] at encodable
      rw [JsonNode.calls, JsonNode.text]
      exact writes_int formatDouble encoder due encodable
  | .string text, _, same => by
      rw [JsonNode.calls, JsonNode.text, ← same rfl]
      exact writes_text formatDouble encoder flags text
  | .boolArray values, _, _ => by
      rw [JsonNode.calls, JsonNode.text]
      refine writes_array due fun value _ flags isArray => ?_
      obtain ⟨due, later, -⟩ := array_flags isArray
      rw [← later]
      exact writes_plain formatDouble (encoder + 1) due fun _ => rfl
  | .intArray values, encodable, _ => by
      rw [JsonNode.Encodable] at encodable
      rw [JsonNode.calls, JsonNode.text]
      refine writes_array due fun value member flags isArray => ?_
      obtain ⟨due, later, -⟩ := array_flags isArray
      rw [← later]
      exact writes_int formatDouble (encoder + 1) due (encodable value member)
  | .stringArray values, _, _ => by
      rw [JsonNode.calls, JsonNode.text]
      refine writes_array due fun value _ flags isArray => ?_
      rw [← (array_flags isArray).2.2]
      exact writes_text formatDouble (encoder + 1) flags value
  | .object nodes, encodable, _ => by
      rw [JsonNode.Encodable] at encodable
      obtain ⟨calls, areCalls, each⟩ := writesEach_nodes nodes encodable
      obtain ⟨outer, isOuter, writes⟩ := each.all
      rw [areCalls] at writes
      rw [JsonNode.calls, JsonNode.text]
      exact writes_enclosed formatDouble encoder due isOuter writes
  | .objectArray nodes, encodable, _ => by
      rw [JsonNode.Encodable] at encodable
      obtain ⟨calls, areCalls, each⟩ := writesEach_nodes nodes encodable
      obtain ⟨outer, isOuter, writes⟩ := each.all
      rw [areCalls] at writes
      rw [JsonNode.calls, JsonNode.text]
      exact writes_enclosed formatDouble encoder due isOuter writes

theorem writesEach_nodes {encoder : Nat} {isMap : Bool} : (nodes : JsonNodes) →
    nodesEncodable isMap nodes →
    ∃ calls, calls.flatten = nodesCalls encoder nodes ∧
      WritesEach formatDouble encoder isMap calls (nodeTexts nodes)
  | [], _ => by
      rw [nodesCalls, nodeTexts]
      exact ⟨[], rfl, .nil⟩
  | (name, node) :: nodes, encodable => by
      rw [nodesEncodable] at encodable
      obtain ⟨named, -, encodable, others⟩ := encodable
      obtain ⟨calls, areCalls, each⟩ := writesEach_nodes nodes others
      rw [nodesCalls, nodeTexts]
      refine ⟨(name.toList.map (fun key =>
          .write encoder (.textString key)) ++ node.calls encoder) :: calls,
        by rw [List.flatten_cons, areCalls, List.append_assoc],
        .cons (fun flags isFlags => ?_) each⟩
      cases name with
      | none =>
          have isArray : isMap = false := named.symm
          subst isArray
          obtain ⟨due, later, laterText⟩ := array_flags isFlags
          rw [← later]
          exact node.writes due encodable fun _ => laterText.trans later.symm
      | some key =>
          have isObject : isMap = true := named.symm
          subst isObject
          -- behind the key stands a colon, and then a value is due
          have isKey : afterText flags = 9 := by
            rcases isFlags with rfl | rfl <;> decide
          have first := writes_text formatDouble encoder flags key
          rw [isKey] at first
          have value := @JsonNode.writes encoder 9 (by decide) node encodable
            fun _ => by decide
          have colon : lead 9 = [58] := by decide
          have later : afterValue 9 = laterFlags true := by decide
          rw [colon, later] at value
          have both := first.append value
          simpa [List.append_assoc] using both

end

end Json

end IotivityLite
