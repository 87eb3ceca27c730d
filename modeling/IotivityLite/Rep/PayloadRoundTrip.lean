import IotivityLite.Foundation.CborHeads
import IotivityLite.Rep.Encode
import Mathlib.Data.List.TakeWhile

/-!
# Round trip of payloads

Every tree of the supported types is parsed back from its encoding.  Between
the two stands the CBOR item of the tree: the encoder writes exactly the tokens
of this item, whatever the buffer did to get room for them, and the decoder
gets the tree from the item.
-/

namespace IotivityLite

mutual

def OcRepValue.item (definite : Bool) : OcRepValue → CborItem
  | .nil => .scalar .null
  | .int value => .scalar (.int value)
  | .double bits => .scalar (.double bits)
  | .bool value => .scalar (.bool value)
  | .byteString value => .scalar (.byteString value)
  | .string value => .scalar (.textString value)
  | .object members => .map false (memberEntries definite members)
  | .intArray values =>
      .array definite (values.map fun value => .scalar (.int value))
  | .doubleArray values =>
      .array definite (values.map fun bits => .scalar (.double bits))
  | .boolArray values =>
      .array definite (values.map fun value => .scalar (.bool value))
  | .byteStringArray values =>
      .array false (values.map fun value => .scalar (.byteString value))
  | .stringArray values =>
      .array false (values.map fun value => .scalar (.textString value))
  | .objectArray items => .array false (objectItems definite items)

def memberEntries (definite : Bool) :
    List (Bytes × OcRepValue) → List (CborItem × CborItem)
  | [] => []
  | (name, value) :: members =>
      (.scalar (.textString name), value.item definite) ::
        memberEntries definite members

def objectItems (definite : Bool) :
    List (List (Bytes × OcRepValue)) → List CborItem
  | [] => []
  | members :: items =>
      .map false (memberEntries definite members) :: objectItems definite items

end

namespace RepRoot

def item (definite : Bool) : RepRoot → CborItem
  | .object members => .map false (memberEntries definite members)
  | .array items => .array false (objectItems definite items)

/-- The nodes a payload is parsed to; the objects of an array have no names. -/
def rep : RepRoot → OcRep
  | .object members => members
  | .array items => items.map fun members => ([], .object members)

end RepRoot

/-- Lengths are of the type `size_t`, with room for a terminator. -/
def FitsString (value : Bytes) : Prop := value.length + 1 < 2 ^ 64

mutual

/-- Arrays are not empty, and items of string arrays fit into their places. -/
def OcRepValue.Supported : OcRepValue → Prop
  | .byteString value => FitsString value
  | .string value => FitsString value
  | .object members => MembersSupported members
  | .intArray values => values ≠ [] ∧ values.length < 2 ^ 64
  | .doubleArray values => values ≠ [] ∧ values.length < 2 ^ 64
  | .boolArray values => values ≠ [] ∧ values.length < 2 ^ 64
  | .byteStringArray values =>
      values ≠ [] ∧ ∀ value ∈ values, value.length < stringArrayItemMaxLen
  | .stringArray values =>
      values ≠ [] ∧
        ∀ value ∈ values, value.length < stringArrayItemMaxLen ∧ 0 ∉ value
  | .objectArray items => items ≠ [] ∧ ObjectsSupported items
  | _ => True

def MembersSupported : List (Bytes × OcRepValue) → Prop
  | [] => True
  | (name, value) :: members =>
      FitsString name ∧ value.Supported ∧ MembersSupported members

def ObjectsSupported : List (List (Bytes × OcRepValue)) → Prop
  | [] => True
  | members :: items => MembersSupported members ∧ ObjectsSupported items

end

def RepRoot.Supported : RepRoot → Prop
  | .object members => MembersSupported members
  | .array items => items ≠ [] ∧ ObjectsSupported items

theorem repParseString_of_fits {value : Bytes} (fits : FitsString value) :
    repParseString value = .ok value := by
  unfold FitsString at fits
  unfold repParseString
  rw [Nat.mod_eq_of_lt fits, if_neg (Nat.succ_ne_zero _)]

theorem mapM_map_ok {Value Item : Type} {wrap : Value → Item}
    {get : Item → Except CborError Value} {values : List Value}
    (each : ∀ value ∈ values, get (wrap value) = .ok value) :
    (values.map wrap).mapM get = .ok values := by
  induction values with
  | nil => rfl
  | cons value values ih =>
      rw [List.forall_mem_cons] at each
      rw [List.map_cons, List.mapM_cons, each.1, ih each.2]
      rfl

theorem copyByteStringItem_of_fits {value : Bytes}
    (fits : value.length < stringArrayItemMaxLen) :
    repParseItem 0x0C copyByteStringItem (.scalar (.byteString value)) =
      .ok value :=
  if_pos (Nat.le_pred_of_lt fits)

theorem copyTextStringItem_of_fits {value : Bytes}
    (fits : value.length < stringArrayItemMaxLen) (text : 0 ∉ value) :
    repParseItem 0x0D copyTextStringItem (.scalar (.textString value)) =
      .ok value := by
  have whole : value.takeWhile (· ≠ 0) = value := by
    rw [List.takeWhile_eq_self_iff]
    intro byte member
    rw [decide_eq_true_iff]
    rintro rfl
    exact text member
  refine (if_pos (Nat.le_of_lt fits)).trans ?_
  rw [whole]

variable {Value : Type}

theorem repParseArray_map {wrap : Value → CborItem}
    {get : CborItem → Except CborError Value} {make : List Value → OcRepValue}
    {values : List Value} {objects : Except CborError (List OcRep)}
    (nonempty : values ≠ [])
    (selects : ∀ first rest, repParseArray (wrap first :: rest) objects =
      ((wrap first :: rest).mapM get).map make)
    (each : ∀ value ∈ values, get (wrap value) = .ok value) :
    repParseArray (values.map wrap) objects = .ok (make values) := by
  have parsed := mapM_map_ok each
  cases values with
  | nil => exact absurd rfl nonempty
  | cons value values =>
      rw [List.map_cons] at parsed ⊢
      rw [selects, parsed]
      rfl

mutual

theorem ocParseRepValue_item (definite : Bool) (value : OcRepValue)
    (supported : value.Supported) :
    ocParseRepValue (value.item definite) = .ok value := by
  cases value with
  | nil => rfl
  | int value => rfl
  | double bits => rfl
  | bool value => rfl
  | byteString value =>
      rw [OcRepValue.Supported] at supported
      rw [OcRepValue.item, ocParseRepValue, repParseString_of_fits supported]
      rfl
  | string value =>
      rw [OcRepValue.Supported] at supported
      rw [OcRepValue.item, ocParseRepValue, repParseString_of_fits supported]
      rfl
  | object members =>
      rw [OcRepValue.Supported] at supported
      rw [OcRepValue.item, ocParseRepValue,
        repParseObjects_memberEntries definite members supported]
      rfl
  | intArray values =>
      rw [OcRepValue.Supported] at supported
      rw [OcRepValue.item, ocParseRepValue]
      exact repParseArray_map supported.1 (fun _ _ => rfl) fun _ _ => rfl
  | doubleArray values =>
      rw [OcRepValue.Supported] at supported
      rw [OcRepValue.item, ocParseRepValue]
      exact repParseArray_map supported.1 (fun _ _ => rfl) fun _ _ => rfl
  | boolArray values =>
      rw [OcRepValue.Supported] at supported
      rw [OcRepValue.item, ocParseRepValue]
      exact repParseArray_map supported.1 (fun _ _ => rfl) fun _ _ => rfl
  | byteStringArray values =>
      rw [OcRepValue.Supported] at supported
      rw [OcRepValue.item, ocParseRepValue]
      refine repParseArray_map supported.1 (fun _ _ => rfl) ?_
      intro value member
      exact copyByteStringItem_of_fits (supported.2 value member)
  | stringArray values =>
      rw [OcRepValue.Supported] at supported
      rw [OcRepValue.item, ocParseRepValue]
      refine repParseArray_map supported.1 (fun _ _ => rfl) ?_
      intro value member
      obtain ⟨fits, text⟩ := supported.2 value member
      exact copyTextStringItem_of_fits fits text
  | objectArray items =>
      rw [OcRepValue.Supported] at supported
      obtain ⟨nonempty, each⟩ := supported
      rw [OcRepValue.item, ocParseRepValue,
        repParseObjectArray_objectItems definite items each]
      cases items with
      | nil => exact absurd rfl nonempty
      | cons members items => rfl

theorem repParseObjects_memberEntries (definite : Bool)
    (members : List (Bytes × OcRepValue))
    (supported : MembersSupported members) :
    repParseObjects (memberEntries definite members) = .ok members := by
  cases members with
  | nil => rfl
  | cons member members =>
      obtain ⟨name, value⟩ := member
      rw [MembersSupported] at supported
      obtain ⟨fits, valueSupported, membersSupported⟩ := supported
      rw [memberEntries, repParseObjects, repParseKey,
        repParseString_of_fits fits,
        ocParseRepValue_item definite value valueSupported,
        repParseObjects_memberEntries definite members membersSupported]
      rfl

theorem repParseObjectArray_objectItems (definite : Bool)
    (items : List (List (Bytes × OcRepValue)))
    (supported : ObjectsSupported items) :
    repParseObjectArray (objectItems definite items) = .ok items := by
  cases items with
  | nil => rfl
  | cons members items =>
      rw [ObjectsSupported] at supported
      obtain ⟨membersSupported, itemsSupported⟩ := supported
      rw [objectItems, repParseObjectArray,
        repParseObjects_memberEntries definite members membersSupported,
        repParseObjectArray_objectItems definite items itemsSupported]
      rfl

end

theorem repParseRootArray_objectItems (definite : Bool)
    (items : List OcRep) (supported : ObjectsSupported items) :
    repParseRootArray (objectItems definite items) =
      .ok (items.map fun members => ([], .object members)) := by
  induction items with
  | nil => rfl
  | cons members items ih =>
      rw [ObjectsSupported] at supported
      rw [objectItems, repParseRootArray,
        repParseObjects_memberEntries definite members supported.1,
        ih supported.2]
      rfl

theorem repParseRoot_item (definite : Bool) (root : RepRoot)
    (supported : root.Supported) :
    repParseRoot (root.item definite) = .ok (.rep root.rep) := by
  cases root with
  | object members =>
      rw [RepRoot.item, repParseRoot,
        repParseObjects_memberEntries definite members supported]
      rfl
  | array items =>
      obtain ⟨nonempty, each⟩ := supported
      have parsed := repParseRootArray_objectItems definite items each
      cases items with
      | nil => exact absurd rfl nonempty
      | cons members items =>
          rw [objectItems] at parsed
          rw [RepRoot.item, objectItems, repParseRoot, parsed]
          · rfl
          · exact nofun

theorem writable_items {wrap : Value → CborScalar} {values : List Value}
    (each : ∀ value ∈ values, (CborToken.scalar (wrap value)).Writable) :
    ∀ token ∈ itemsTokens (values.map fun value => .scalar (wrap value)),
      token.Writable := by
  induction values with
  | nil => exact nofun
  | cons value values ih =>
      rw [List.forall_mem_cons] at each
      intro token member
      rw [List.map_cons, itemsTokens] at member
      rcases List.mem_append.mp member with first | later
      · rw [CborItem.tokens, List.mem_singleton] at first
        rw [first]
        exact each.1
      · exact ih each.2 token later

theorem writable_stopCode (definite : Bool) :
    ∀ token ∈ stopCode definite, token.Writable := by
  cases definite with
  | true => exact nofun
  | false =>
      intro token member
      rw [List.mem_singleton.mp member]
      trivial

theorem writable_array {definite : Bool} {items : List CborItem}
    (bounded : definite = true → items.length < 2 ^ 64)
    (each : ∀ token ∈ itemsTokens items, token.Writable) :
    ∀ token ∈ (CborItem.array definite items).tokens, token.Writable := by
  intro token member
  rw [CborItem.tokens] at member
  rcases List.mem_cons.mp member with rfl | inside
  · cases definite with
    | true => exact bounded rfl
    | false => trivial
  · rcases List.mem_append.mp inside with item | stop
    · exact each token item
    · exact writable_stopCode definite token stop

theorem writable_map {entries : List (CborItem × CborItem)}
    (each : ∀ token ∈ entriesTokens entries, token.Writable) :
    ∀ token ∈ (CborItem.map false entries).tokens, token.Writable := by
  intro token member
  rw [CborItem.tokens] at member
  rcases List.mem_cons.mp member with rfl | inside
  · trivial
  · rcases List.mem_append.mp inside with entry | stop
    · exact each token entry
    · exact writable_stopCode false token stop

mutual

theorem writable_item (definite : Bool) (value : OcRepValue)
    (supported : value.Supported) :
    ∀ token ∈ (value.item definite).tokens, token.Writable := by
  have single : ∀ scalar, (CborToken.scalar scalar).Writable →
      ∀ token ∈ (CborItem.scalar scalar).tokens, token.Writable := by
    intro scalar writable token member
    rw [CborItem.tokens, List.mem_singleton] at member
    rw [member]
    exact writable
  cases value with
  | nil => exact single _ trivial
  | int value => exact single _ trivial
  | double bits => exact single _ trivial
  | bool value => exact single _ trivial
  | byteString value =>
      rw [OcRepValue.Supported] at supported
      exact single _ (Nat.lt_of_succ_lt supported)
  | string value =>
      rw [OcRepValue.Supported] at supported
      exact single _ (Nat.lt_of_succ_lt supported)
  | object members =>
      rw [OcRepValue.Supported] at supported
      rw [OcRepValue.item]
      exact writable_map (writable_memberEntries definite members supported)
  | intArray values =>
      rw [OcRepValue.Supported] at supported
      rw [OcRepValue.item]
      refine writable_array (fun _ => ?_) (writable_items fun _ _ => trivial)
      rw [List.length_map]
      exact supported.2
  | doubleArray values =>
      rw [OcRepValue.Supported] at supported
      rw [OcRepValue.item]
      refine writable_array (fun _ => ?_) (writable_items fun _ _ => trivial)
      rw [List.length_map]
      exact supported.2
  | boolArray values =>
      rw [OcRepValue.Supported] at supported
      rw [OcRepValue.item]
      refine writable_array (fun _ => ?_) (writable_items fun _ _ => trivial)
      rw [List.length_map]
      exact supported.2
  | byteStringArray values =>
      rw [OcRepValue.Supported] at supported
      rw [OcRepValue.item]
      refine writable_array nofun (writable_items fun value member => ?_)
      exact Nat.lt_trans (supported.2 value member) (by decide)
  | stringArray values =>
      rw [OcRepValue.Supported] at supported
      rw [OcRepValue.item]
      refine writable_array nofun (writable_items fun value member => ?_)
      exact Nat.lt_trans (supported.2 value member).1 (by decide)
  | objectArray items =>
      rw [OcRepValue.Supported] at supported
      rw [OcRepValue.item]
      exact writable_array nofun
        (writable_objectItems definite items supported.2)

theorem writable_memberEntries (definite : Bool)
    (members : List (Bytes × OcRepValue))
    (supported : MembersSupported members) :
    ∀ token ∈ entriesTokens (memberEntries definite members),
      token.Writable := by
  cases members with
  | nil => exact nofun
  | cons member members =>
      obtain ⟨name, value⟩ := member
      rw [MembersSupported] at supported
      obtain ⟨fits, valueSupported, membersSupported⟩ := supported
      intro token inside
      rw [memberEntries, entriesTokens] at inside
      rcases List.mem_append.mp inside with key | rest
      · rw [CborItem.tokens, List.mem_singleton] at key
        rw [key]
        exact Nat.lt_of_succ_lt fits
      · rcases List.mem_append.mp rest with here | later
        · exact writable_item definite value valueSupported token here
        · exact writable_memberEntries definite members membersSupported
            token later

theorem writable_objectItems (definite : Bool)
    (items : List (List (Bytes × OcRepValue)))
    (supported : ObjectsSupported items) :
    ∀ token ∈ itemsTokens (objectItems definite items), token.Writable := by
  cases items with
  | nil => exact nofun
  | cons members items =>
      rw [ObjectsSupported] at supported
      intro token inside
      rw [objectItems, itemsTokens] at inside
      rcases List.mem_append.mp inside with here | later
      · exact writable_map
          (writable_memberEntries definite members supported.1) token here
      · exact writable_objectItems definite items supported.2 token later

end

theorem writable_root (definite : Bool) (root : RepRoot)
    (supported : root.Supported) :
    ∀ token ∈ (root.item definite).tokens, token.Writable := by
  cases root with
  | object members =>
      exact writable_map (writable_memberEntries definite members supported)
  | array items =>
      exact writable_array nofun
        (writable_objectItems definite items supported.2)

/-- In a buffer that can take them, the program writes the tokens and returns
the result. -/
def Emits {Result : Type} (codec : CborCodec) (program : RepWriter Result)
    (tokens : List CborToken) (result : Result) : Prop :=
  ∀ buffer : RepBuffer,
    buffer.written.length + (codec.bytes tokens).length ≤ buffer.capacity →
    ∃ after, program.run buffer = .ok (result, after) ∧
      after.written = buffer.written ++ codec.bytes tokens ∧
      after.capacity = buffer.capacity

namespace RepBuffer

theorem append_of_fits {bytes : Bytes} {buffer : RepBuffer}
    (fits : buffer.written.length + bytes.length ≤ buffer.size) :
    buffer.append bytes =
      .ok { buffer with written := buffer.written ++ bytes } :=
  if_pos fits

theorem append_of_not_fits {bytes : Bytes} {buffer : RepBuffer}
    (large : buffer.size < buffer.written.length + bytes.length) :
    buffer.append bytes = .error .outOfMemory :=
  if_neg (Nat.not_le.mpr large)

theorem realloc_of_capacity (needed : Nat) (buffer : RepBuffer)
    (positive : 0 < needed)
    (room : buffer.size + needed ≤ buffer.capacity) :
    ∃ size, buffer.realloc needed = .ok { buffer with size } ∧
      buffer.size + needed ≤ size ∧ size ≤ buffer.maxSize ∧
      buffer.enableRealloc = true ∧ buffer.hasMemory = true := by
  cases enabled : buffer.enableRealloc with
  | false =>
      rw [capacity, enabled, Bool.false_and, if_neg nofun] at room
      omega
  | true =>
      cases memory : buffer.hasMemory with
      | false =>
          rw [capacity, memory, Bool.and_false, if_neg nofun] at room
          omega
      | true =>
          rw [capacity, enabled, memory, Bool.and_self, if_pos rfl] at room
          have below : ¬ buffer.size + needed > buffer.maxSize := by omega
          simp only [realloc, enabled, memory, below, Bool.not_true,
            Bool.false_eq_true, if_false]
          split
          · exact ⟨_, rfl, by omega, by omega, trivial, trivial⟩
          · exact ⟨_, rfl, by omega, by omega, trivial, trivial⟩

end RepBuffer

theorem emits_writeBytes (codec : CborCodec) (token : CborToken) :
    Emits codec (writeBytes (codec.write token)) [token] () := by
  intro buffer room
  rw [codec.bytes_cons, codec.bytes_nil, List.append_nil] at room ⊢
  by_cases fits :
      buffer.written.length + (codec.write token).length ≤ buffer.size
  · refine ⟨{ buffer with written := buffer.written ++ codec.write token },
      ?_, rfl, rfl⟩
    simp only [StateT.run, writeBytes, RepBuffer.append_of_fits fits]
  · have large := Nat.not_le.mp fits
    obtain ⟨size, grown, enough, bounded, enabled, memory⟩ :=
      buffer.realloc_of_capacity (buffer.written.length +
        (codec.write token).length - buffer.size) (by omega) (by omega)
    have second : ({ buffer with size } : RepBuffer).written.length +
        (codec.write token).length ≤ size := by
      have same : ({ buffer with size } : RepBuffer).written =
        buffer.written := rfl
      rw [same]
      omega
    refine ⟨{ buffer with
      size, written := buffer.written ++ codec.write token }, ?_, rfl, ?_⟩
    · simp only [StateT.run, writeBytes, RepBuffer.append_of_not_fits large,
        grown, bind, Except.bind, RepBuffer.append_of_fits second]
      rfl
    · simp only [RepBuffer.capacity, enabled, memory, Bool.and_self, if_true]
      omega

theorem emits_pure {Result : Type} (codec : CborCodec) (result : Result) :
    Emits codec (pure result) [] result := by
  intro buffer _
  exact ⟨buffer, rfl, (List.append_nil _).symm, rfl⟩

theorem emits_bind {Result Next : Type} {codec : CborCodec}
    {program : RepWriter Result} {next : Result → RepWriter Next}
    {first second : List CborToken} {result : Result} {final : Next}
    (left : Emits codec program first result)
    (right : Emits codec (next result) second final) :
    Emits codec (program >>= next) (first ++ second) final := by
  intro buffer room
  rw [codec.bytes_append, List.length_append] at room
  obtain ⟨middle, ran, written, same⟩ := left buffer (by omega)
  obtain ⟨after, finished, appended, kept⟩ := right middle (by
    rw [written, same, List.length_append]
    omega)
  refine ⟨after, ?_, ?_, kept.trans same⟩
  · rw [StateT.run_bind, ran]
    exact finished
  · rw [appended, written, codec.bytes_append, List.append_assoc]

section Functions

variable (codec : CborCodec)

theorem emits_writeToken (encoder : CborEncoder) (token : CborToken) :
    Emits codec (writeToken codec encoder token) [token]
      ⟨encoder.remaining.map (· - 1)⟩ :=
  emits_bind (emits_writeBytes codec token) (emits_pure codec _)

theorem emits_writeToken_open (token : CborToken) :
    Emits codec (writeToken codec .open token) [token] .open :=
  emits_writeToken codec .open token

theorem emits_createArray (length : Option Nat) :
    Emits codec (ocRepEncoderCreateArray codec .open length) [.array length]
      (.open, ⟨length.map (· + 1)⟩) :=
  emits_bind (emits_writeToken_open codec _) (emits_pure codec _)

theorem emits_createMap :
    Emits codec (ocRepEncoderCreateMap codec .open none) [.map none]
      (.open, .open) :=
  emits_bind (emits_writeToken_open codec _) (emits_pure codec _)

theorem emits_closeContainer (definite : Bool) :
    Emits codec
      (ocRepEncoderCloseContainer codec ⟨(announced definite 0).map (· + 1)⟩)
      (stopCode definite) () := by
  cases definite with
  | true => exact emits_pure codec ()
  | false => exact emits_writeBytes codec .stop

theorem emits_addItems {wrap : Value → CborScalar}
    {encode : CborEncoder → Value → RepWriter CborEncoder}
    (each : ∀ encoder value, Emits codec (encode encoder value)
      [.scalar (wrap value)] ⟨encoder.remaining.map (· - 1)⟩) (definite : Bool)
    (values : List Value) :
    Emits codec
      (addItems encode ⟨(announced definite values.length).map (· + 1)⟩
        values)
      (itemsTokens (values.map fun value => .scalar (wrap value)))
      ⟨(announced definite 0).map (· + 1)⟩ := by
  induction values with
  | nil => exact emits_pure codec _
  | cons value values ih =>
      have first := each
        ⟨(announced definite (values.length + 1)).map (· + 1)⟩ value
      have counted : ((announced definite (values.length + 1)).map
          (· + 1)).map (· - 1) =
          (announced definite values.length).map (· + 1) := by
        cases definite <;> rfl
      rw [counted] at first
      exact emits_bind first ih

theorem emits_setArray {wrap : Value → CborScalar}
    {encode : CborEncoder → Value → RepWriter CborEncoder}
    (each : ∀ encoder value, Emits codec (encode encoder value)
      [.scalar (wrap value)] ⟨encoder.remaining.map (· - 1)⟩) (definite : Bool)
    (name : Bytes) (values : List Value) :
    Emits codec
      (ocRepSetArray codec .open name (announced definite values.length)
        encode values)
      (.scalar (.textString name) ::
        (CborItem.array definite
          (values.map fun value => .scalar (wrap value))).tokens) .open := by
  rw [CborItem.tokens, List.length_map, ← List.append_nil (stopCode definite)]
  exact emits_bind
    (emits_writeToken_open codec (.scalar (.textString name)))
    (emits_bind
      (emits_createArray codec (announced definite values.length))
      (emits_bind (emits_addItems codec each definite values)
        (emits_bind (emits_closeContainer codec definite)
          (emits_pure codec CborEncoder.open))))

variable (definite : Bool)

theorem emits_set {scalar : CborScalar}
    {encode : CborEncoder → RepWriter CborEncoder} (name : Bytes)
    (value : Emits codec (encode .open) [.scalar scalar] .open) :
    Emits codec (ocRepObjectSet codec .open name encode)
      (.scalar (.textString name) :: (CborItem.scalar scalar).tokens) .open :=
  emits_bind (emits_writeToken_open codec (.scalar (.textString name))) value

mutual

theorem emits_encodeMember (name : Bytes) (value : OcRepValue) :
    Emits codec (encodeMember codec definite .open name value)
      (.scalar (.textString name) :: (value.item definite).tokens) .open := by
  have token := emits_writeToken_open codec
  cases value with
  | nil => exact emits_set codec name (token _)
  | int value => exact emits_set codec name (token _)
  | double bits => exact emits_set codec name (token _)
  | bool value => exact emits_set codec name (token _)
  | byteString value => exact emits_set codec name (token _)
  | string value => exact emits_set codec name (token _)
  | intArray values =>
      exact emits_setArray codec (fun encoder value =>
        emits_writeToken codec encoder _) definite name values
  | doubleArray values =>
      exact emits_setArray codec (fun encoder value =>
        emits_writeToken codec encoder _) definite name values
  | boolArray values =>
      exact emits_setArray codec (fun encoder value =>
        emits_writeToken codec encoder _) definite name values
  | byteStringArray values =>
      exact emits_setArray codec (fun encoder value =>
        emits_writeToken codec encoder _) false name values
  | stringArray values =>
      exact emits_setArray codec (fun encoder value =>
        emits_writeToken codec encoder _) false name values
  | object members =>
      rw [encodeMember, OcRepValue.item, CborItem.tokens,
        ← List.append_nil (stopCode false)]
      exact emits_bind (token (.scalar (.textString name)))
        (emits_bind (emits_createMap codec)
          (emits_bind (emits_encodeMembers members)
            (emits_bind (emits_closeContainer codec false)
              (emits_pure codec CborEncoder.open))))
  | objectArray items =>
      rw [encodeMember, OcRepValue.item, CborItem.tokens,
        ← List.append_nil (stopCode false)]
      exact emits_bind (token (.scalar (.textString name)))
        (emits_bind (emits_createArray codec none)
          (emits_bind (emits_encodeObjects items)
            (emits_bind (emits_closeContainer codec false)
              (emits_pure codec CborEncoder.open))))

theorem emits_encodeMembers (members : List (Bytes × OcRepValue)) :
    Emits codec (encodeMembers codec definite .open members)
      (entriesTokens (memberEntries definite members)) .open := by
  cases members with
  | nil => exact emits_pure codec _
  | cons member members =>
      obtain ⟨name, value⟩ := member
      rw [encodeMembers, memberEntries, entriesTokens, CborItem.tokens,
        ← List.append_assoc, List.singleton_append]
      exact emits_bind (emits_encodeMember name value)
        (emits_encodeMembers members)

theorem emits_encodeObjects (items : List (List (Bytes × OcRepValue))) :
    Emits codec (encodeObjects codec definite .open items)
      (itemsTokens (objectItems definite items)) .open := by
  cases items with
  | nil => exact emits_pure codec _
  | cons members items =>
      rw [encodeObjects, objectItems, itemsTokens, CborItem.tokens,
        List.cons_append, List.append_assoc]
      exact emits_bind (emits_createMap codec)
        (emits_bind (emits_encodeMembers members)
          (emits_bind (emits_closeContainer codec false)
            (emits_encodeObjects items)))

end

theorem emits_encodeRoot (root : RepRoot) :
    Emits codec (encodeRoot codec definite root)
      (root.item definite).tokens () := by
  have closes := emits_closeContainer codec false
  cases root with
  | object members =>
      exact emits_bind (emits_createMap codec)
        (emits_bind (emits_encodeMembers codec definite members) closes)
  | array items =>
      exact emits_bind (emits_createArray codec none)
        (emits_bind (emits_encodeObjects codec definite items) closes)

end Functions

theorem ocRepParseCbor_bytes (codec : CborCodec) (definite : Bool)
    {root : RepRoot} (supported : root.Supported) :
    ocRepParseCbor codec (codec.bytes (root.item definite).tokens) =
      .ok (.rep root.rep) := by
  have counted := codec.length_le_length_bytes (root.item definite).tokens
  have read := codec.readItem_bytes (root.item definite) []
    (2 * (codec.bytes (root.item definite).tokens).length)
    (writable_root definite root supported) (by omega)
  rw [List.append_nil] at read
  rw [ocRepParseCbor, read]
  exact repParseRoot_item definite root supported

/-- A payload of the supported types that has room in the buffer is encoded,
and parsing the bytes yields the tree again: the same names, types and values
in the same order. -/
theorem ocParseRep_encodeRoot (codec : CborCodec) (definite : Bool)
    (root : RepRoot) (supported : root.Supported) (buffer : RepBuffer)
    (unwritten : buffer.written = [])
    (room : (codec.bytes (root.item definite).tokens).length ≤
      buffer.capacity) :
    ∃ after, (encodeRoot codec definite root).run buffer = .ok ((), after) ∧
      ocRepParseCbor codec after.written = .ok (.rep root.rep) ∧
      ocParseRep codec after.written = root.rep := by
  obtain ⟨after, ran, written, -⟩ :=
    emits_encodeRoot codec definite root buffer (by
      rw [unwritten, List.length_nil, Nat.zero_add]
      exact room)
  rw [unwritten, List.nil_append] at written
  have parsed : ocRepParseCbor codec after.written = .ok (.rep root.rep) := by
    rw [written]
    exact ocRepParseCbor_bytes codec definite supported
  refine ⟨after, ran, parsed, ?_⟩
  rw [ocParseRep, parsed]

namespace SamplePayload

/-- `{"on": true, "steps": [1, -300], "rt": ["a", ""], "at": {"id": null},
"links": [{"p": 1.0}, {}]}` -/
def root : RepRoot :=
  .object
    [([0x6f, 0x6e], .bool true),
      ([0x73, 0x74, 0x65, 0x70, 0x73], .intArray [1, -300]),
      ([0x72, 0x74], .stringArray [[0x61], []]),
      ([0x61, 0x74], .object [([0x69, 0x64], .nil)]),
      ([0x6c, 0x69, 0x6e, 0x6b, 0x73],
        .objectArray [[([0x70], .double 0x3ff0000000000000)], []])]

theorem supported : root.Supported := by
  simp only [root, RepRoot.Supported, MembersSupported, ObjectsSupported,
    OcRepValue.Supported, FitsString]
  decide

end SamplePayload

open SamplePayload in
/-- A buffer of four bytes that may grow to 128. -/
theorem ocParseRep_sample :
    ∃ after,
      (encodeRoot shortestHeads true root).run (.ofRealloc 4 128 true) =
        .ok ((), after) ∧
      ocRepParseCbor shortestHeads after.written = .ok (.rep root.rep) ∧
      ocParseRep shortestHeads after.written = root.rep :=
  ocParseRep_encodeRoot shortestHeads true root supported
    (.ofRealloc 4 128 true) rfl (by decide)

end IotivityLite
