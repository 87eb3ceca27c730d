import IotivityLite.Json.Encoding

/-!
# Sequences of calls of the encoder for JSON

The functions of `oc_rep_encode_json.c` are called with the encoder of the
innermost container that is open.  They write into a buffer that the encoder
points into.  A sequence of calls is well nested if it opens and closes
containers in pairs and writes a key in front of every value of an object; it
then belongs to a tree.
-/

namespace IotivityLite

/-- A call with the encoder of the innermost open container. -/
inductive JsonCall where
  | write (item : RepItem)
  | create (isMap : Bool)
  | close

/-- The encoder of the innermost open container, those of the containers
around it, and the contents of the buffer. -/
structure JsonEncoder where
  content : Mem
  encoder : SubEncoder
  outer : List SubEncoder

namespace JsonEncoder

/-- `cbor_encoder_init` -/
def init (block : HeapBlock) : JsonEncoder where
  content := block.content
  encoder := { data := block.ptr, endPtr := block.ptr + block.size }
  outer := []

/-- `rep_json_get_buffer_size` -/
def bufferSize (ptr : Int) (state : JsonEncoder) : Int :=
  state.encoder.data - ptr

section Calls

variable (formatDouble : UInt64 → Bytes) (ptr : Int)

/-- `rep_json_encode_null` and its siblings -/
def write (state : JsonEncoder) (item : RepItem) : RepResult × JsonEncoder :=
  match (ocRepJsonEncoder formatDouble).item state.encoder.items item with
  | .refused error => (.refused error, state)
  | .append pieces done full =>
      match appendPieces ptr pieces ⟨state.encoder, state.content⟩ with
      | (true, after) =>
          (.noError, { state with
            content := after.content
            encoder := { after.sub with items := done } })
      | (false, after) =>
          (.outOfMemory, { state with
            content := after.content
            encoder := { after.sub with items := full } })

/-- `rep_json_encoder_create_array` and `rep_json_encoder_create_map`; the
encoder of the container is zeroed before it is used. -/
def create (state : JsonEncoder) (isMap : Bool) : RepResult × JsonEncoder :=
  match (ocRepJsonEncoder formatDouble).container state.encoder.items isMap
      none with
  | .refused error =>
      (.refused error, { state with
        encoder := {}
        outer := state.encoder :: state.outer })
  | .append pieces done full child =>
      match appendPieces ptr pieces ⟨state.encoder, state.content⟩ with
      | (true, after) =>
          (.noError,
            { content := after.content
              encoder := { after.sub with items := child }
              outer := { after.sub with items := done } :: state.outer })
      | (false, after) =>
          (.outOfMemory,
            { content := after.content
              encoder := { after.sub with items := full }
              outer := { after.sub with items := full } :: state.outer })

/-- `rep_json_encoder_close_container`; the root encoder has no parent to be
closed with. -/
def close (state : JsonEncoder) : RepResult × JsonEncoder :=
  match state.outer with
  | [] => (.refused .internalError, state)
  | parent :: outer =>
      -- synchronise buffer state with that of the container
      let encoder := { parent with
        data := state.encoder.data
        endPtr := state.encoder.endPtr }
      match (ocRepJsonEncoder formatDouble).close state.encoder.items with
      | .refused error => (.refused error, { state with encoder, outer })
      | .append pieces =>
          let (fits, after) :=
            appendPieces ptr pieces ⟨encoder, state.content⟩
          (if fits then .noError else .outOfMemory,
            { content := after.content, encoder := after.sub, outer })

def call (state : JsonEncoder) : JsonCall → RepResult × JsonEncoder
  | .write item => state.write formatDouble ptr item
  | .create isMap => state.create formatDouble ptr isMap
  | .close => state.close formatDouble ptr

def step (state : JsonEncoder) (call : JsonCall) : JsonEncoder :=
  (state.call formatDouble ptr call).2

/-- The call returns `CborNoError`. -/
def Accepts (state : JsonEncoder) (call : JsonCall) : Prop :=
  (state.call formatDouble ptr call).1 = .noError

end Calls

end JsonEncoder

inductive JsonTree where
  | scalar (item : RepItem)
  | array (items : List JsonTree)
  | object (members : List (Bytes × JsonTree))

mutual

/-- The calls that encode a tree. -/
def JsonTree.calls : JsonTree → List JsonCall
  | .scalar item => [.write item]
  | .array items => .create false :: (itemCalls items ++ [.close])
  | .object members => .create true :: (memberCalls members ++ [.close])

def itemCalls : List JsonTree → List JsonCall
  | [] => []
  | item :: items => item.calls ++ itemCalls items

def memberCalls : List (Bytes × JsonTree) → List JsonCall
  | [] => []
  | (key, value) :: members =>
      .write (.textString key) :: (value.calls ++ memberCalls members)

end

/-- What is due in a container: the root takes one value. -/
inductive JsonPlace where
  | root
  | item
  | key
  | member

/-- What is due behind a value, if one is due. -/
def JsonPlace.behind : JsonPlace → Option (List JsonPlace)
  | .root => some []
  | .item => some [.item]
  | .key => none
  | .member => some [.key]

/-- What is due in the open containers after a call, if the call is allowed
there. -/
def JsonCall.follow : JsonCall → List JsonPlace → Option (List JsonPlace)
  | .write (.textString _), .key :: places => some (.member :: places)
  | .write _, place :: places => place.behind.map (· ++ places)
  | .create isMap, place :: places =>
      place.behind.map fun behind =>
        (if isMap then .key else .item) :: (behind ++ places)
  | .close, .item :: places => some places
  | .close, .key :: places => some places
  | _, _ => none

/-- The calls are allowed one after the other, and nothing is due in the
end. -/
def nests : List JsonPlace → List JsonCall → Bool
  | places, [] => places.isEmpty
  | places, call :: calls =>
      match call.follow places with
      | none => false
      | some places => nests places calls

/-- A sequence of calls that encodes one value. -/
def WellNested (calls : List JsonCall) : Prop := nests [.root] calls = true

section Nesting

variable {place : JsonPlace} {behind places : List JsonPlace}
  {call : JsonCall} {calls : List JsonCall}

theorem nests_cons {next : List JsonPlace}
    (follow : call.follow places = some next) :
    nests places (call :: calls) = nests next calls := by
  rw [nests, follow]

theorem exists_follow (nested : nests places (call :: calls) = true) :
    ∃ next, call.follow places = some next ∧ nests next calls = true := by
  cases follow : call.follow places with
  | none =>
      rw [nests, follow] at nested
      cases nested
  | some next => exact ⟨next, rfl, (nests_cons follow).symm.trans nested⟩

theorem not_nests_nil : ¬nests (place :: places) [] = true := by
  intro nested
  cases nested

theorem follow_nil (call : JsonCall) : call.follow [] = none := by
  cases call with
  | write item => cases item <;> rfl
  | create isMap => rfl
  | close => rfl

theorem follow_write (due : place.behind = some behind) (item : RepItem) :
    (JsonCall.write item).follow (place :: places) =
      some (behind ++ places) := by
  cases place with
  | key => cases due
  | _ =>
      cases due
      cases item <;> rfl

theorem follow_create (due : place.behind = some behind) (isMap : Bool) :
    (JsonCall.create isMap).follow (place :: places) =
      some ((if isMap then .key else .item) :: (behind ++ places)) := by
  cases place with
  | key => cases due
  | _ =>
      cases due
      rfl

theorem length_pos_calls (tree : JsonTree) : 0 < tree.calls.length := by
  cases tree with
  | scalar item => simp [JsonTree.calls]
  | array items => simp [JsonTree.calls]
  | object members => simp [JsonTree.calls]

/-- A value starts here, and `rest` is what follows it. -/
def StartsValue (behind places : List JsonPlace) (calls : List JsonCall) :
    Prop :=
  ∃ tree rest, calls = JsonTree.calls tree ++ rest ∧
    nests (behind ++ places) rest = true

def StartsItems (places : List JsonPlace) (calls : List JsonCall) : Prop :=
  ∃ items rest, calls = itemCalls items ++ .close :: rest ∧
    nests places rest = true

def StartsMembers (places : List JsonPlace) (calls : List JsonCall) : Prop :=
  ∃ members rest, calls = memberCalls members ++ .close :: rest ∧
    nests places rest = true

/-- What well-nested sequences shorter than a bound start with. -/
structure Splits (bound : Nat) : Prop where
  value : ∀ place behind places call calls, (call :: calls).length < bound →
    JsonPlace.behind place = some behind → call ≠ .close →
    nests (place :: places) (call :: calls) = true →
    StartsValue behind places (call :: calls)
  items : ∀ places calls, calls.length < bound →
    nests (.item :: places) calls = true → StartsItems places calls
  members : ∀ places calls, calls.length < bound →
    nests (.key :: places) calls = true → StartsMembers places calls

variable {bound : Nat}

theorem splits_value (shorter : Splits bound)
    (short : (call :: calls).length < bound + 1)
    (due : place.behind = some behind) (opens : call ≠ .close)
    (nested : nests (place :: places) (call :: calls) = true) :
    StartsValue behind places (call :: calls) := by
  have below : calls.length < bound := Nat.lt_of_succ_lt_succ short
  cases call with
  | close => exact absurd rfl opens
  | write item =>
      rw [nests_cons (follow_write due item)] at nested
      exact ⟨.scalar item, calls, rfl, nested⟩
  | create isMap =>
      rw [nests_cons (follow_create due isMap)] at nested
      cases isMap with
      | false =>
          obtain ⟨items, rest, rfl, later⟩ :=
            shorter.items _ _ below nested
          refine ⟨.array items, rest, ?_, later⟩
          simp [JsonTree.calls]
      | true =>
          obtain ⟨members, rest, rfl, later⟩ :=
            shorter.members _ _ below nested
          refine ⟨.object members, rest, ?_, later⟩
          simp [JsonTree.calls]

theorem length_rest {tree : JsonTree} {rest : List JsonCall}
    (short : (tree.calls ++ rest).length < bound + 1) :
    rest.length < bound := by
  have some_call := length_pos_calls tree
  rw [List.length_append] at short
  omega

theorem splits_items (shorter : Splits bound) (short : calls.length < bound + 1)
    (nested : nests (.item :: places) calls = true) :
    StartsItems places calls := by
  cases calls with
  | nil => exact absurd nested not_nests_nil
  | cons call calls =>
      by_cases closes : call = .close
      · subst closes
        exact ⟨[], calls, rfl, nested⟩
      · obtain ⟨tree, rest, isCalls, later⟩ :=
          splits_value shorter short rfl closes nested
        rw [isCalls] at short ⊢
        obtain ⟨items, rest, rfl, last⟩ :=
          shorter.items _ _ (length_rest short) later
        refine ⟨tree :: items, rest, ?_, last⟩
        simp [itemCalls]

theorem splits_members (shorter : Splits bound)
    (short : calls.length < bound + 1)
    (nested : nests (.key :: places) calls = true) :
    StartsMembers places calls := by
  cases calls with
  | nil => exact absurd nested not_nests_nil
  | cons call calls =>
      have below : calls.length < bound := Nat.lt_of_succ_lt_succ short
      obtain ⟨next, follow, later⟩ := exists_follow nested
      cases call with
      | close =>
          cases follow
          exact ⟨[], calls, rfl, later⟩
      | create isMap => cases follow
      | write item =>
          cases item with
          | textString key =>
              cases follow
              cases calls with
              | nil => exact absurd later not_nests_nil
              | cons call calls =>
                  have opens : call ≠ .close := by
                    rintro rfl
                    obtain ⟨next, follow, -⟩ := exists_follow later
                    cases follow
                  obtain ⟨tree, rest, isCalls, later⟩ :=
                    shorter.value .member _ _ _ _ below rfl opens later
                  rw [isCalls] at below ⊢
                  have fewer := length_rest (Nat.lt_succ_of_lt below)
                  obtain ⟨members, rest, rfl, last⟩ :=
                    shorter.members _ _ fewer later
                  refine ⟨(key, tree) :: members, rest, ?_, last⟩
                  simp [memberCalls]
          | _ => cases follow

theorem splits (bound : Nat) : Splits bound := by
  induction bound with
  | zero =>
      exact ⟨fun _ _ _ _ _ short => absurd short (Nat.not_lt_zero _),
        fun _ _ short => absurd short (Nat.not_lt_zero _),
        fun _ _ short => absurd short (Nat.not_lt_zero _)⟩
  | succ bound ih =>
      exact ⟨fun _ _ _ _ _ => splits_value ih, fun _ _ => splits_items ih,
        fun _ _ => splits_members ih⟩

theorem WellNested.exists_tree (nested : WellNested calls) :
    ∃ tree, JsonTree.calls tree = calls := by
  cases calls with
  | nil => exact absurd nested not_nests_nil
  | cons call calls =>
      have opens : call ≠ .close := by
        rintro rfl
        obtain ⟨next, follow, -⟩ := exists_follow nested
        cases follow
      obtain ⟨tree, rest, isCalls, later⟩ :=
        (splits ((call :: calls).length + 1)).value .root _ _ _ _
          (Nat.lt_succ_self _) rfl opens nested
      cases rest with
      | nil =>
          rw [List.append_nil] at isCalls
          exact ⟨tree, isCalls.symm⟩
      | cons call rest =>
          have later : nests [] (call :: rest) = true := later
          obtain ⟨next, follow, -⟩ := exists_follow later
          rw [follow_nil] at follow
          cases follow

end Nesting

end IotivityLite
