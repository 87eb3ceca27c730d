import IotivityLite.Rep.CrcEncoder

/-!
# The checksum of a resource

`oc_resource_get_crc64` of `oc_etag.c`.  It borrows the global encoder for the
payload of a GET request: the encoder is saved, directed at an array on the
stack, and restored.  One exit does not restore it, that of a collection whose
request fails; the global encoder then goes on as one for checksums whose
buffer is gone.
-/

namespace IotivityLite

inductive RepEncoderType where
  | cbor
  | json
  | crc
  deriving DecidableEq

/-- `oc_rep_encoder_buffer_t` -/
structure RepBufferRef where
  block : CrcBlock
  maxSize : Nat
  pptr : Int
  enableRealloc : Bool
  deriving DecidableEq

/-- The global encoder, and whether `g_err` is not `CborNoError`.  The global
variables `root_map` and `links_array` are the encoders of open containers. -/
structure RepGlobals where
  type : RepEncoderType
  buffer : RepBufferRef
  ctx : SubEncoder
  failed : Bool

/-- `oc_rep_global_encoder_reset` with an encoder to go back to. -/
def ocRepGlobalEncoderReset (prev : RepGlobals) : RepGlobals :=
  { prev with failed := false }

/-- `oc_rep_get_encoded_payload_size` with the encoder for checksums -/
def ocRepGetEncodedPayloadSize (globals : RepGlobals) : Int :=
  if globals.failed then -1 else if globals.ctx.hasPayload then 8 else 0

/-- A call of a handler.  A type that is not one of floating-point numbers is
refused, as are raw data that do not fit into eight bytes; shorter raw data
are not supported by the encoder for checksums. -/
inductive PayloadCall where
  | encode (call : JsonCall)
  | illegalFloat
  | raw (data : Bytes) (long : 8 < data.length)

def PayloadCall.refused : PayloadCall → Bool
  | encode _ => false
  | illegalFloat => true
  | raw _ _ => true

def PayloadCall.encoded : PayloadCall → Option JsonCall
  | encode call => some call
  | _ => none

/-- What a handler encodes.  It closes no container that it did not open. -/
structure Payload where
  calls : List PayloadCall
  nested : (callEvents [] (calls.filterMap PayloadCall.encoded)).isSome = true

/-- The payload of a tree. -/
def Payload.ofTree (tree : JsonTree) : Payload where
  calls := tree.calls.map .encode
  nested := by
    have same : (tree.calls.map PayloadCall.encode).filterMap
        PayloadCall.encoded = tree.calls := by
      simp [List.filterMap_map, Function.comp_def, PayloadCall.encoded]
    rw [same, callEvents_calls]
    rfl

/-- A resource: whether it is a collection, whether it has a handler for GET,
and what this or the request of the collection encodes. -/
structure CrcResource where
  isCollection : Bool
  hasGet : Bool
  payload : Payload

/-- The address of the array for the checksum. -/
structure CrcLocal where
  ptr : Int
  ptr_pos : 0 < ptr

namespace CrcLocal

def block (array : CrcLocal) : CrcBlock := ⟨array.ptr, 8⟩

/-- `oc_rep_encoder_buffer_init` -/
def buffer (array : CrcLocal) : RepBufferRef where
  block := array.block
  maxSize := 8
  pptr := 0
  enableRealloc := false

end CrcLocal

section Host

variable (host : CrcHost)

def CrcEncoder.payloadCall (block : CrcBlock) (state : CrcEncoder) :
    PayloadCall → CrcEncoder
  | .encode call => state.call host block call
  | .illegalFloat => { state with failed := true }
  | .raw _ _ => { state with failed := true }

def CrcEncoder.runPayload (block : CrcBlock) (state : CrcEncoder)
    (calls : List PayloadCall) : CrcEncoder :=
  calls.foldl (payloadCall host block) state

/-- The encoder that contains all others. -/
def CrcEncoder.root (state : CrcEncoder) : SubEncoder :=
  state.outer.getLastD state.encoder

/-- The encoder of the array behind the payload of a resource. -/
def payloadEnd (array : CrcLocal) (resource : CrcResource) : CrcEncoder :=
  (CrcEncoder.init array.block fun _ => 0).runPayload host array.block
    resource.payload.calls

/-- `resource_get_payload_by_encoder` for the encoder for checksums: whether
there is a payload, the global encoder, and the contents of the array.  The
request of a collection fails if one of its calls did. -/
def resourceGetPayloadByEncoder (array : CrcLocal) (resource : CrcResource) :
    Bool × RepGlobals × Mem :=
  let state := payloadEnd host array resource
  (!resource.isCollection || !state.failed,
    { type := .crc
      buffer := array.buffer
      ctx := state.root
      failed := state.failed },
    state.content)

inductive Crc64Status where
  | ok
  | noPayload
  | error
  deriving DecidableEq

def ocResourceGetCrc64 (array : CrcLocal) (resource : CrcResource)
    (globals : RepGlobals) : Crc64Status × Option UInt64 × RepGlobals :=
  if !resource.isCollection && !resource.hasGet then (.error, none, globals)
  else
    let prevEncoder := globals
    let (ok, globals, buffer) :=
      resourceGetPayloadByEncoder host array resource
    if !ok then (.error, none, globals)
    else
      let payloadSize := ocRepGetEncodedPayloadSize globals
      if payloadSize = 0 then
        (.noPayload, none, ocRepGlobalEncoderReset prevEncoder)
      else if payloadSize ≠ 8 then
        (.error, none, ocRepGlobalEncoderReset prevEncoder)
      else
        (.ok, some (loadCrc host buffer 0),
          ocRepGlobalEncoderReset prevEncoder)

end Host

section Run

variable {host : CrcHost} {array : CrcLocal}

theorem CrcLocal.room (array : CrcLocal) : array.block.Room where
  ptr_pos := array.ptr_pos
  room := Nat.le_refl 8
  bounded := (by decide : 8 < 2 ^ 64)

namespace CrcEncoder

theorem Stacked.root {block : CrcBlock} {kinds : List Bool}
    {sub : SubEncoder} {outer : List SubEncoder}
    (stacked : Stacked block kinds sub outer) :
    block.Starts (outer.getLastD sub) ∧
      (sub.hasPayload = true →
        (outer.getLastD sub).hasPayload = true) := by
  induction kinds generalizing sub outer with
  | nil =>
      obtain ⟨starts, rfl⟩ := stacked
      exact ⟨starts, id⟩
  | cons isMap kinds ih =>
      cases outer with
      | nil => exact stacked.elim
      | cons parent outer =>
          obtain ⟨-, -, -, payload, rest⟩ := stacked
          rw [List.getLastD_cons]
          exact ⟨(ih rest).1, fun _ => (ih rest).2 payload⟩

theorem stacked_runPayload {block : CrcBlock} (room : block.Room)
    {calls : List PayloadCall} {kinds after : List Bool}
    {events : List RepEvent} {state : CrcEncoder}
    (stacked : Stacked block kinds state.encoder state.outer)
    (follows : callEvents kinds (calls.filterMap PayloadCall.encoded) =
      some (events, after)) :
    Stacked block after (state.runPayload host block calls).encoder
        (state.runPayload host block calls).outer ∧
      (state.runPayload host block calls).failed =
        (state.failed || calls.any PayloadCall.refused) := by
  induction calls generalizing kinds events state with
  | nil =>
      cases follows
      exact ⟨stacked, by simp [runPayload]⟩
  | cons call calls ih =>
      cases call with
      | encode call =>
          have encodes : (PayloadCall.encode call :: calls).filterMap
              PayloadCall.encoded =
                call :: calls.filterMap PayloadCall.encoded := rfl
          rw [encodes] at follows
          cases here : call.event kinds with
          | none =>
              rw [callEvents, here] at follows
              cases follows
          | some next =>
              obtain ⟨event, inside⟩ := next
              rw [callEvents_cons here] at follows
              obtain ⟨⟨later, last⟩, rest, isEvents⟩ :=
                Option.map_eq_some_iff.mp follows
              cases isEvents
              have adds := @adds_call host _ _ room _ _ _ _ stacked here
              obtain ⟨stackedRest, failedRest⟩ := ih adds.stacked rest
              refine ⟨stackedRest, failedRest.trans ?_⟩
              rw [adds.failed]
              rfl
      | illegalFloat =>
          obtain ⟨stackedRest, failedRest⟩ :=
            @ih kinds events { state with failed := true } stacked follows
          exact ⟨stackedRest, failedRest.trans (by simp [PayloadCall.refused])⟩
      | raw data long =>
          obtain ⟨stackedRest, failedRest⟩ :=
            @ih kinds events { state with failed := true } stacked follows
          exact ⟨stackedRest, failedRest.trans (by simp [PayloadCall.refused])⟩

end CrcEncoder

theorem payloadEnd_spec (host : CrcHost) (array : CrcLocal)
    (resource : CrcResource) :
    (payloadEnd host array resource).root.data = 0 ∧
      (payloadEnd host array resource).failed =
        resource.payload.calls.any PayloadCall.refused := by
  obtain ⟨⟨events, after⟩, follows⟩ :=
    Option.isSome_iff_exists.mp resource.payload.nested
  obtain ⟨stacked, failed⟩ := @CrcEncoder.stacked_runPayload host _
    array.room _ _ _ _ _ (CrcEncoder.stacked_init array.room fun _ => 0)
    follows
  exact ⟨stacked.root.1.1, failed⟩

end Run

/-- The global encoder has the type, the buffer and the offset that it had. -/
structure RepGlobals.Restored (before after : RepGlobals) : Prop where
  type : after.type = before.type
  buffer : after.buffer = before.buffer
  offset : after.ctx.data = before.ctx.data

/-- The encoder for checksums agrees with the fold over the events of every
tree, the checksum of a resource is that of its payload, and the global
encoder is what it was. -/
structure CrcContract (host : CrcHost) (array : CrcLocal)
    (resource : CrcResource) (globals : RepGlobals) : Prop where
  agrees : ∀ (block : CrcBlock) (content : Mem) (tree : JsonTree),
    block.Room →
    ((CrcEncoder.init block content).run host block tree.calls).failed =
        false ∧
      ((CrcEncoder.init block content).run host block
        tree.calls).bufferSize = 8 ∧
      loadCrc host ((CrcEncoder.init block content).run host block
        tree.calls).content 0 = crcOfEvents host 0 tree.events
  answers : ∀ tree, resource.payload = .ofTree tree →
    (resource.isCollection || resource.hasGet) = true →
    (ocResourceGetCrc64 host array resource globals).1 = .ok ∧
      (ocResourceGetCrc64 host array resource globals).2.1 =
        some (crcOfEvents host 0 tree.events)
  restored :
    globals.Restored (ocResourceGetCrc64 host array resource globals).2.2

/-- The request of a collection with a call that is refused. -/
def CrcResource.Fails (resource : CrcResource) : Prop :=
  resource.isCollection = true ∧
    resource.payload.calls.any PayloadCall.refused = true

/-- The global encoder is the one that such a request leaves behind. -/
structure RepGlobals.LeftBehind (array : CrcLocal) (globals : RepGlobals) :
    Prop where
  type : globals.type = .crc
  buffer : globals.buffer = array.buffer
  offset : globals.ctx.data = 0

section Contract

variable {host : CrcHost} {array : CrcLocal} {resource : CrcResource}
  {globals : RepGlobals}

theorem restored_reset (before : RepGlobals) :
    before.Restored (ocRepGlobalEncoderReset before) := ⟨rfl, rfl, rfl⟩

theorem ocResourceGetCrc64_fails (fails : resource.Fails) :
    (ocResourceGetCrc64 host array resource globals).2.2.LeftBehind array := by
  obtain ⟨isCollection, refused⟩ := fails
  obtain ⟨data, failed⟩ := payloadEnd_spec host array resource
  have found : ¬(!resource.isCollection && !resource.hasGet) = true := by
    simp [isCollection]
  have notOk : (!(!resource.isCollection ||
      !(payloadEnd host array resource).failed)) = true := by
    simp [isCollection, failed, refused]
  unfold ocResourceGetCrc64 resourceGetPayloadByEncoder
  rw [if_neg found]
  simp only
  rw [if_pos notOk]
  exact ⟨rfl, rfl, data⟩

theorem ocResourceGetCrc64_restores (succeeds : ¬resource.Fails) :
    globals.Restored
      (ocResourceGetCrc64 host array resource globals).2.2 := by
  obtain ⟨-, failed⟩ := payloadEnd_spec host array resource
  have ok : ¬(!(!resource.isCollection ||
      !(payloadEnd host array resource).failed)) = true := by
    intro notOk
    apply succeeds
    simpa [failed, CrcResource.Fails] using notOk
  unfold ocResourceGetCrc64 resourceGetPayloadByEncoder
  by_cases found : (!resource.isCollection && !resource.hasGet) = true
  · rw [if_pos found]
    exact ⟨rfl, rfl, rfl⟩
  · rw [if_neg found]
    simp only
    rw [if_neg ok]
    split
    · exact restored_reset globals
    · split
      · exact restored_reset globals
      · exact restored_reset globals

theorem runPayload_ofTree (state : CrcEncoder) (block : CrcBlock)
    (tree : JsonTree) :
    state.runPayload host block (Payload.ofTree tree).calls =
      state.run host block tree.calls :=
  List.foldl_map

theorem ocResourceGetCrc64_tree {tree : JsonTree}
    (payload : resource.payload = .ofTree tree)
    (answers : (resource.isCollection || resource.hasGet) = true) :
    (ocResourceGetCrc64 host array resource globals).1 = .ok ∧
      (ocResourceGetCrc64 host array resource globals).2.1 =
        some (crcOfEvents host 0 tree.events) := by
  have stacked := CrcEncoder.stacked_init array.room fun _ => 0
  have adds := @CrcEncoder.runAdds host _ _ array.room _ _ _ _ stacked
    (callEvents_calls [] tree)
  obtain ⟨accepted, -, stored⟩ :=
    crcEncoder_tree host array.room (fun _ => 0) tree
  have payloadBehind := adds.payload (.inr (events_ne_nil tree))
  have alone := adds.stacked.2
  have found : ¬(!resource.isCollection && !resource.hasGet) = true := by
    rw [← Bool.not_or, answers]
    exact Bool.false_ne_true
  unfold ocResourceGetCrc64 resourceGetPayloadByEncoder
  rw [if_neg found, payloadEnd, payload, runPayload_ofTree]
  generalize (CrcEncoder.init array.block fun _ => 0).run host array.block
    tree.calls = state at accepted stored payloadBehind alone ⊢
  have root : state.root = state.encoder := by
    rw [CrcEncoder.root, alone]
    rfl
  have size : ocRepGetEncodedPayloadSize
      ⟨.crc, array.buffer, state.root, state.failed⟩ = 8 := by
    rw [ocRepGetEncodedPayloadSize, accepted, root, payloadBehind]
    rfl
  have ok : ¬(!(!resource.isCollection || !state.failed)) = true := by
    simp [accepted]
  simp only
  rw [if_neg ok, size, stored]
  exact ⟨rfl, rfl⟩

/-- The contract holds unless the request of a collection fails, and then only
if the global encoder was left behind by such a request before. -/
theorem crcContract_iff (host : CrcHost) (array : CrcLocal)
    (resource : CrcResource) (globals : RepGlobals) :
    CrcContract host array resource globals ↔
      ¬resource.Fails ∨ globals.LeftBehind array := by
  constructor
  · intro contract
    by_cases fails : resource.Fails
    · have left := @ocResourceGetCrc64_fails host array resource globals fails
      obtain ⟨type, buffer, offset⟩ := contract.restored
      exact .inr ⟨type.symm.trans left.type, buffer.symm.trans left.buffer,
        offset.symm.trans left.offset⟩
    · exact .inl fails
  · intro condition
    refine ⟨fun _ content tree room => crcEncoder_tree host room content tree,
      fun _ payload => ocResourceGetCrc64_tree payload, ?_⟩
    by_cases fails : resource.Fails
    · have left := @ocResourceGetCrc64_fails host array resource globals fails
      obtain ⟨type, buffer, offset⟩ := condition.resolve_left (absurd fails)
      exact ⟨left.type.trans type.symm, left.buffer.trans buffer.symm,
        left.offset.trans offset.symm⟩
    · exact ocResourceGetCrc64_restores fails

end Contract

namespace CrcFixture

def host : CrcHost where
  order := .little
  types := ⟨0, 64, 96, 128, 160, 245, 246, 249, 250, 251⟩

def array : CrcLocal := ⟨4096, by decide⟩

/-- A collection with a property of nine bytes that are written raw. -/
def collection : CrcResource where
  isCollection := true
  hasGet := false
  payload :=
    { calls :=
        [.encode (.create true), .encode (.write (.textString [120])),
          .raw [104, 49, 50, 51, 52, 53, 54, 55, 56] (by decide),
          .encode .close]
      nested := by decide }

/-- The global encoder at the start. -/
def globals : RepGlobals where
  type := .cbor
  buffer := ⟨⟨0, 0⟩, 0, 0, false⟩
  ctx := {}
  failed := false

end CrcFixture

/-- The request of the collection fails, and the encoder for checksums stays
behind. -/
theorem not_crcContract_raw :
    ¬CrcContract CrcFixture.host CrcFixture.array CrcFixture.collection
      CrcFixture.globals := by
  intro contract
  have type := contract.restored.type
  revert type
  decide

end IotivityLite
