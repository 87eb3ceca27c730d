import IotivityLite.Foundation.BigEndian
import IotivityLite.Json.CallSequences

/-!
# The encoder of checksums

The encoder of `oc_rep_encode_crc.c`.  It writes no payload: eight bytes of the
buffer hold the checksum of everything that was encoded, and the pointer of
the encoder stays where it is.  The checksum depends on nothing but the
sequence of events, that is of the containers that are opened and closed and
of the keys and values with their types.
-/

namespace IotivityLite

/-- ECMA-182, reflected form polynomial -/
def crc64Polynomial : UInt64 := 0xC96C5795D7870F42

/-- One round of the loop of `crc64_update`. -/
def crc64Shift (crc : UInt64) : UInt64 :=
  if crc &&& 1 ≠ 0 then (crc >>> 1) ^^^ crc64Polynomial else crc >>> 1

def crc64Update (crc : UInt64) (byte : UInt8) : UInt64 :=
  crc64Shift^[8] (crc ^^^ byte.toUInt64)

def ocCrc64 (crc : UInt64) (buffer : Bytes) : UInt64 :=
  buffer.foldl crc64Update crc

theorem ocCrc64_append (crc : UInt64) (first second : Bytes) :
    ocCrc64 crc (first ++ second) = ocCrc64 (ocCrc64 crc first) second :=
  List.foldl_append

/-- The order in which the host stores the bytes of a number. -/
inductive ByteOrder where
  | little
  | big
  deriving DecidableEq

namespace ByteOrder

def store (order : ByteOrder) (width number : Nat) : Bytes :=
  match order with
  | little => (BigEndian.encode width number).reverse
  | big => BigEndian.encode width number

def load (order : ByteOrder) (bytes : Bytes) : Nat :=
  match order with
  | little => BigEndian.value bytes.reverse
  | big => BigEndian.value bytes

@[simp] theorem length_store (order : ByteOrder) (width number : Nat) :
    (order.store width number).length = width := by
  cases order <;> simp [store]

theorem load_store (order : ByteOrder) (width number : Nat) :
    order.load (order.store width number) = number % 256 ^ width := by
  cases order <;> simp [load, store, BigEndian.value_encode]

end ByteOrder

/-- The values of `CborType` in the library. -/
structure CborTypes where
  integer : UInt8
  byteString : UInt8
  textString : UInt8
  array : UInt8
  map : UInt8
  boolean : UInt8
  null : UInt8
  halfFloat : UInt8
  float : UInt8
  double : UInt8

structure CrcHost where
  order : ByteOrder
  types : CborTypes

/-- What a call adds to the checksum. -/
inductive RepEvent where
  | opened (isMap : Bool)
  | closed (isMap : Bool)
  | value (item : RepItem)

/-- The event of a call inside open containers of the given kinds, and the
kinds of those that are open behind it. -/
def JsonCall.event : List Bool → JsonCall → Option (RepEvent × List Bool)
  | kinds, .write item => some (.value item, kinds)
  | kinds, .create isMap => some (.opened isMap, isMap :: kinds)
  | isMap :: kinds, .close => some (.closed isMap, kinds)
  | [], .close => none

/-- The events of a sequence of calls, unless it closes more containers than
are open. -/
def callEvents : List Bool → List JsonCall → Option (List RepEvent × List Bool)
  | kinds, [] => some ([], kinds)
  | kinds, call :: calls =>
      match call.event kinds with
      | none => none
      | some (event, kinds) =>
          (callEvents kinds calls).map fun (events, kinds) =>
            (event :: events, kinds)

mutual

/-- The events of a tree, in the order of its text. -/
def JsonTree.events : JsonTree → List RepEvent
  | .scalar item => [.value item]
  | .array items => .opened false :: (itemEvents items ++ [.closed false])
  | .object members => .opened true :: (memberEvents members ++ [.closed true])

def itemEvents : List JsonTree → List RepEvent
  | [] => []
  | item :: items => item.events ++ itemEvents items

def memberEvents : List (Bytes × JsonTree) → List RepEvent
  | [] => []
  | (key, value) :: members =>
      .value (.textString key) :: (value.events ++ memberEvents members)

end

section Host

variable (host : CrcHost)

/-- The type and the data of an item. -/
def crcItem : RepItem → UInt8 × Bytes
  | .null => (host.types.null, [])
  | .boolean value => (host.types.boolean, [if value then 1 else 0])
  | .int value =>
      (host.types.integer, host.order.store 8 value.toUInt64.toNat)
  | .uint value => (host.types.integer, host.order.store 8 value.toNat)
  | .double bits => (host.types.double, host.order.store 8 bits.toNat)
  | .floatingPoint (.half bits) =>
      (host.types.halfFloat, host.order.store 2 bits.toNat)
  | .floatingPoint (.single bits) =>
      (host.types.float, host.order.store 4 bits.toNat)
  | .floatingPoint (.double bits) =>
      (host.types.double, host.order.store 8 bits.toNat)
  | .byteString value => (host.types.byteString, value)
  | .textString value => (host.types.textString, value)

def crcContainerType (isMap : Bool) : UInt8 :=
  if isMap then host.types.map else host.types.array

/-- `OC_CRC_OPEN_CONTAINER` and `OC_CRC_CLOSE_CONTAINER` -/
def ocCrcOpenContainer : UInt8 := 0

def ocCrcCloseContainer : UInt8 := 1

/-- The type and the data that an event stands for. -/
def RepEvent.typed : RepEvent → UInt8 × Bytes
  | .opened isMap => (crcContainerType host isMap, [ocCrcOpenContainer])
  | .closed isMap => (crcContainerType host isMap, [ocCrcCloseContainer])
  | .value item => crcItem host item

def RepEvent.bytes (event : RepEvent) : Bytes :=
  (event.typed host).1 :: (event.typed host).2

/-- The checksum of a sequence of events, from an earlier checksum on. -/
def crcOfEvents (crc : UInt64) (events : List RepEvent) : UInt64 :=
  ocCrc64 crc (events.flatMap (RepEvent.bytes host))

namespace CrcFlag

abbrev bytesNeeded : UInt8 := 1
abbrev hasPayload : UInt8 := 2
abbrev isMap : UInt8 := 4

end CrcFlag

namespace SubEncoder

def hasPayload (sub : SubEncoder) : Bool :=
  sub.items.flags &&& CrcFlag.hasPayload != 0

def isMap (sub : SubEncoder) : Bool := sub.items.flags &&& CrcFlag.isMap != 0

def setFlags (sub : SubEncoder) (flags : UInt8) : SubEncoder :=
  { sub with items := { sub.items with flags } }

/-- The encoder behind a call that found room. -/
def encoded (sub : SubEncoder) : SubEncoder :=
  sub.setFlags
    ((sub.items.flags &&& ~~~CrcFlag.bytesNeeded) ||| CrcFlag.hasPayload)

/-- The encoder of a container. -/
def child (sub : SubEncoder) (isMap : Bool) : SubEncoder :=
  sub.setFlags
    (if isMap then sub.items.flags ||| CrcFlag.isMap
    else sub.items.flags &&& ~~~CrcFlag.isMap)

end SubEncoder

/-- The checksum that is stored at an address. -/
def loadCrc (content : Mem) (start : Nat) : UInt64 :=
  (host.order.load (content.read start 8)).toUInt64

/-- `rep_crc_append_to_buffer`; the result is whether there is room for a
checksum. -/
def repCrcAppendToBuffer (ptr : Int) (dataType : UInt8) (data : Bytes)
    (state : Writing) : Bool × Writing :=
  let sub := state.sub
  let size := if sub.data ≠ 0 then (sub.endPtr - sub.data) % 2 ^ 64 else 0
  if size < 8 then
    (false, { state with
      sub := { sub.setFlags (sub.items.flags ||| CrcFlag.bytesNeeded) with
        data := 8 - size } })
  else
    let start := (sub.data - ptr).toNat
    let crc := if sub.hasPayload then loadCrc host state.content start else 0
    let crc := ocCrc64 crc [dataType]
    let crc := if data.length > 0 then ocCrc64 crc data else crc
    (true,
      { sub := sub.encoded
        content := state.content.patch start (host.order.store 8 crc.toNat) })

/-- The encoder of the innermost open container and those of the containers
around it, with offsets into the buffer.  `failed` says that `g_err` is not
`CborNoError`. -/
structure CrcEncoder where
  content : Mem
  encoder : SubEncoder
  outer : List SubEncoder
  failed : Bool

/-- The buffer of an encoder. -/
structure CrcBlock where
  ptr : Int
  size : Nat
  deriving DecidableEq

namespace CrcBlock

def toPtr (block : CrcBlock) (sub : SubEncoder) : SubEncoder :=
  sub.convertOffsetToPtr block.ptr block.size

def toOffset (block : CrcBlock) (sub : SubEncoder) : SubEncoder :=
  sub.convertPtrToOffset block.ptr

end CrcBlock

/-- `oc_rep_new_v1`: the error is cleared, and the encoder starts at the
beginning of the buffer. -/
def CrcEncoder.init (block : CrcBlock) (content : Mem) : CrcEncoder where
  content
  encoder := block.toOffset
    { data := block.ptr
      endPtr := block.ptr + block.size
      items := { remaining := some 2 } }
  outer := []
  failed := false

namespace CrcEncoder

variable (block : CrcBlock)

/-- `oc_rep_encode_null` and its siblings, with the encoder for checksums. -/
def write (state : CrcEncoder) (item : RepItem) : CrcEncoder :=
  let (dataType, data) := crcItem host item
  let (fits, after) := repCrcAppendToBuffer host block.ptr dataType data
    ⟨block.toPtr state.encoder, state.content⟩
  { state with
    content := after.content
    encoder := block.toOffset after.sub
    failed := state.failed || !fits }

/-- `rep_crc_encoder_create_container` -/
def create (state : CrcEncoder) (isMap : Bool) : CrcEncoder :=
  let (fits, after) := repCrcAppendToBuffer host block.ptr
    (crcContainerType host isMap) [ocCrcOpenContainer]
    ⟨block.toPtr state.encoder, state.content⟩
  let container := if fits then after.sub.child isMap else after.sub
  { content := after.content
    encoder := block.toOffset container
    outer := block.toOffset after.sub :: state.outer
    failed := state.failed || !fits }

/-- `rep_crc_encoder_close_container`; there is nothing to be closed when no
container is open. -/
def close (state : CrcEncoder) : CrcEncoder :=
  match state.outer with
  | [] => state
  | parent :: outer =>
      let container := block.toPtr state.encoder
      -- synchronise buffer state with that of the container
      let encoder := { block.toPtr parent with
        data := container.data
        endPtr := container.endPtr }
      let (fits, after) := repCrcAppendToBuffer host block.ptr
        (crcContainerType host container.isMap) [ocCrcCloseContainer]
        ⟨encoder, state.content⟩
      { content := after.content
        encoder := block.toOffset after.sub
        outer
        failed := state.failed || !fits }

def call (state : CrcEncoder) : JsonCall → CrcEncoder
  | .write item => state.write host block item
  | .create isMap => state.create host block isMap
  | .close => state.close host block

def run (state : CrcEncoder) (calls : List JsonCall) : CrcEncoder :=
  calls.foldl (call host block) state

/-- `rep_crc_get_buffer_size` -/
def bufferSize (state : CrcEncoder) : Nat :=
  if state.encoder.hasPayload then 8 else 0

end CrcEncoder

end Host

namespace SubEncoder

variable (sub : SubEncoder)

theorem hasPayload_encoded : sub.encoded.hasPayload = true := by
  rw [hasPayload, bne_iff_ne]
  intro none
  have bit := congrArg (fun flags : UInt8 => flags.toBitVec.getLsbD 1) none
  simp [encoded, setFlags] at bit

theorem isMap_encoded : sub.encoded.isMap = sub.isMap := by
  have same : ((sub.items.flags &&& ~~~CrcFlag.bytesNeeded) |||
      CrcFlag.hasPayload) &&& CrcFlag.isMap =
        sub.items.flags &&& CrcFlag.isMap := by
    apply UInt8.eq_of_toBitVec_eq
    ext index below
    interval_cases index <;> simp
  simp only [isMap, encoded, setFlags, same]

theorem isMap_child (isMap : Bool) : (sub.child isMap).isMap = isMap := by
  cases isMap with
  | true =>
      rw [SubEncoder.isMap, bne_iff_ne]
      intro none
      have bit := congrArg (fun flags : UInt8 => flags.toBitVec.getLsbD 2) none
      simp [child, setFlags] at bit
  | false => simp [SubEncoder.isMap, child, setFlags, UInt8.and_assoc]

theorem hasPayload_child (isMap : Bool) :
    (sub.child isMap).hasPayload = sub.hasPayload := by
  have same : (sub.child isMap).items.flags &&& CrcFlag.hasPayload =
      sub.items.flags &&& CrcFlag.hasPayload := by
    apply UInt8.eq_of_toBitVec_eq
    ext index below
    cases isMap <;> interval_cases index <;> simp [child, setFlags]
  rw [hasPayload, hasPayload, same]

end SubEncoder

namespace CrcBlock

variable {block : CrcBlock} {sub : SubEncoder}

/-- There is room for a checksum. -/
structure Room (block : CrcBlock) : Prop where
  ptr_pos : 0 < block.ptr
  room : 8 ≤ block.size
  bounded : block.size < 2 ^ 64

/-- The encoder is at the beginning of the buffer. -/
def Starts (block : CrcBlock) (sub : SubEncoder) : Prop :=
  sub.data = 0 ∧ sub.endPtr = block.size

section

variable (starts : block.Starts sub)

include starts

theorem Starts.toPtr (room : block.Room) :
    block.toPtr sub =
      { sub with data := block.ptr, endPtr := block.ptr + block.size } := by
  obtain ⟨data, endPtr⟩ := starts
  have present : ¬(block.ptr = 0 ∨ (sub.data ≠ 0 ∧ sub.endPtr = 0)) := by
    have positive := room.ptr_pos
    omega
  rw [CrcBlock.toPtr, SubEncoder.convertOffsetToPtr, if_neg present, data,
    Int.add_zero]

theorem Starts.toOffset_toPtr (room : block.Room) :
    block.toOffset (block.toPtr sub) = sub := by
  have present : ¬(block.ptr = 0 ∨ block.ptr = 0 ∨
      block.ptr + (block.size : Int) = 0) := by
    have positive := room.ptr_pos
    omega
  rw [starts.toPtr room, toOffset, SubEncoder.convertPtrToOffset,
    if_neg present]
  obtain ⟨data, endPtr⟩ := starts
  cases sub
  simp_all

theorem Starts.encoded :
    block.Starts sub.encoded := starts

theorem Starts.child (isMap : Bool) :
    block.Starts (sub.child isMap) := starts

theorem Starts.toPtr_child (room : block.Room) (isMap : Bool) :
    (block.toPtr sub).child isMap = block.toPtr (sub.child isMap) := by
  rw [starts.toPtr room, (starts.child isMap).toPtr room]
  rfl

end

end CrcBlock

section Steps

variable {host : CrcHost} {block : CrcBlock}

theorem loadCrc_patch (host : CrcHost) (content : Mem) (crc : UInt64) :
    loadCrc host (content.patch 0 (host.order.store 8 crc.toNat)) 0 = crc := by
  have stored := Mem.read_patch content 0 (host.order.store 8 crc.toNat)
  rw [ByteOrder.length_store] at stored
  rw [loadCrc, stored, ByteOrder.load_store]
  exact UInt64.toNat_inj.mp (by simp [Nat.mod_eq_of_lt crc.toNat_lt])

/-- The checksum that an encoder goes on from. -/
def crcBefore (host : CrcHost) (sub : SubEncoder) (content : Mem) : UInt64 :=
  if sub.hasPayload then loadCrc host content 0 else 0

theorem repCrcAppendToBuffer_starts {sub : SubEncoder}
    (starts : block.Starts sub) (room : block.Room) (content : Mem)
    (dataType : UInt8) (data : Bytes) :
    repCrcAppendToBuffer host block.ptr dataType data
        ⟨block.toPtr sub, content⟩ =
      (true, ⟨block.toPtr sub.encoded,
        content.patch 0 (host.order.store 8
          (ocCrc64 (crcBefore host sub content)
            (dataType :: data)).toNat)⟩) := by
  have present : block.ptr ≠ 0 := ne_of_gt room.ptr_pos
  have size : (block.ptr + (block.size : Int) - block.ptr) % 2 ^ 64 =
      block.size := by
    rw [add_sub_cancel_left]
    exact Int.emod_eq_of_lt (Int.natCast_nonneg _)
      (by exact_mod_cast room.bounded)
  have enough : ¬(block.size : Int) < 8 := by
    have atLeast := room.room
    omega
  have whole : ∀ crc, (if data.length > 0 then
      ocCrc64 (ocCrc64 crc [dataType]) data else ocCrc64 crc [dataType]) =
        ocCrc64 crc (dataType :: data) := by
    intro crc
    split
    · exact (ocCrc64_append crc [dataType] data).symm
    next empty =>
      rw [List.length_eq_zero_iff.mp (Nat.eq_zero_of_not_pos empty)]
  rw [starts.toPtr room, starts.encoded.toPtr room]
  unfold repCrcAppendToBuffer
  simp only [if_pos present, size, if_neg enough, Int.sub_self, whole]
  rfl

namespace CrcEncoder

/-- The checksum so far. -/
def crc (host : CrcHost) (state : CrcEncoder) : UInt64 :=
  crcBefore host state.encoder state.content

/-- All encoders are at the beginning of the buffer, and those of open
containers know that something was encoded and which kind of container theirs
is. -/
def Stacked (block : CrcBlock) :
    List Bool → SubEncoder → List SubEncoder → Prop
  | [], sub, outer => block.Starts sub ∧ outer = []
  | isMap :: kinds, sub, parent :: outer =>
      block.Starts sub ∧ sub.hasPayload = true ∧ sub.isMap = isMap ∧
        parent.hasPayload = true ∧ Stacked block kinds parent outer
  | _ :: _, _, [] => False

variable {kinds : List Bool} {sub : SubEncoder} {outer : List SubEncoder}

theorem Stacked.starts (stacked : Stacked block kinds sub outer) :
    block.Starts sub := by
  cases kinds with
  | nil => exact stacked.1
  | cons isMap kinds =>
      cases outer with
      | nil => exact stacked.elim
      | cons parent outer => exact stacked.1

theorem Stacked.encoded (stacked : Stacked block kinds sub outer) :
    Stacked block kinds sub.encoded outer := by
  cases kinds with
  | nil => exact stacked
  | cons isMap kinds =>
      cases outer with
      | nil => exact stacked.elim
      | cons parent outer =>
          obtain ⟨starts, -, kind, rest⟩ := stacked
          exact ⟨starts.encoded, sub.hasPayload_encoded,
            sub.isMap_encoded.trans kind, rest⟩

/-- The call adds an event to the checksum, and nothing fails. -/
structure Adds (host : CrcHost) (block : CrcBlock) (kinds : List Bool)
    (event : RepEvent) (state after : CrcEncoder) : Prop where
  stacked : Stacked block kinds after.encoder after.outer
  payload : after.encoder.hasPayload = true
  crc : after.crc host = ocCrc64 (state.crc host) (event.bytes host)
  failed : after.failed = state.failed

theorem crcBefore_patch {sub : SubEncoder} (payload : sub.hasPayload = true)
    (content : Mem) (crc : UInt64) :
    crcBefore host sub
      (content.patch 0 (host.order.store 8 crc.toNat)) = crc := by
  rw [crcBefore, if_pos payload, loadCrc_patch]

variable {state : CrcEncoder}

theorem adds_write (room : block.Room)
    (stacked : Stacked block kinds state.encoder state.outer) (item : RepItem) :
    Adds host block kinds (.value item) state
      (state.write host block item) := by
  have starts := stacked.starts
  unfold write
  simp only [repCrcAppendToBuffer_starts starts room state.content,
    starts.encoded.toOffset_toPtr room]
  refine ⟨stacked.encoded, state.encoder.hasPayload_encoded, ?_, ?_⟩
  · exact crcBefore_patch state.encoder.hasPayload_encoded _ _
  · simp

theorem adds_create (room : block.Room)
    (stacked : Stacked block kinds state.encoder state.outer) (isMap : Bool) :
    Adds host block (isMap :: kinds) (.opened isMap) state
      (state.create host block isMap) := by
  have starts := stacked.starts
  have payload := state.encoder.hasPayload_encoded
  have childPayload :=
    (state.encoder.encoded.hasPayload_child isMap).trans payload
  unfold create
  simp only [repCrcAppendToBuffer_starts starts room state.content,
    if_true,
    starts.encoded.toPtr_child room,
    starts.encoded.toOffset_toPtr room,
    (starts.encoded.child isMap).toOffset_toPtr room]
  refine ⟨?_, childPayload, ?_, ?_⟩
  · exact ⟨starts.encoded.child isMap, childPayload,
      state.encoder.encoded.isMap_child isMap, payload, stacked.encoded⟩
  · exact crcBefore_patch childPayload _ _
  · simp

theorem adds_close (room : block.Room) {isMap : Bool}
    (stacked : Stacked block (isMap :: kinds) state.encoder state.outer) :
    Adds host block kinds (.closed isMap) state
      (state.close host block) := by
  obtain ⟨content, encoder, outer, failed⟩ := state
  cases outer with
  | nil => exact stacked.elim
  | cons parent outer =>
      obtain ⟨starts, payload, kind, parentPayload, rest⟩ := stacked
      have parentStarts := rest.starts
      have synchronised : { block.toPtr parent with
          data := (block.toPtr encoder).data
          endPtr := (block.toPtr encoder).endPtr } = block.toPtr parent := by
        rw [starts.toPtr room, parentStarts.toPtr room]
      have same : (block.toPtr encoder).isMap = isMap := by
        rw [starts.toPtr room]
        exact kind
      unfold close
      simp only [synchronised, same,
        repCrcAppendToBuffer_starts parentStarts room content,
        parentStarts.encoded.toOffset_toPtr room]
      refine ⟨rest.encoded, parent.hasPayload_encoded, ?_, ?_⟩
      · refine (crcBefore_patch parent.hasPayload_encoded _ _).trans ?_
        rw [crc, crcBefore, crcBefore, if_pos parentPayload, if_pos payload]
        rfl
      · simp

theorem adds_call (room : block.Room) {state : CrcEncoder}
    {call : JsonCall} {event : RepEvent} {after : List Bool}
    (stacked : Stacked block kinds state.encoder state.outer)
    (follows : call.event kinds = some (event, after)) :
    Adds host block after event state (state.call host block call) := by
  cases call with
  | write item =>
      cases follows
      exact adds_write room stacked item
  | create isMap =>
      cases follows
      exact adds_create room stacked isMap
  | close =>
      cases kinds with
      | nil => cases follows
      | cons isMap kinds =>
          cases follows
          exact adds_close room stacked

/-- The calls add a sequence of events to the checksum, and nothing fails. -/
structure RunAdds (host : CrcHost) (block : CrcBlock) (kinds : List Bool)
    (events : List RepEvent) (state after : CrcEncoder) : Prop where
  stacked : Stacked block kinds after.encoder after.outer
  payload : state.encoder.hasPayload = true ∨ events ≠ [] →
    after.encoder.hasPayload = true
  crc : after.crc host = crcOfEvents host (state.crc host) events
  failed : after.failed = state.failed

theorem runAdds_cons {event : RepEvent} {events : List RepEvent}
    {first second : List Bool} {before middle after : CrcEncoder}
    (head : Adds host block first event before middle)
    (tail : RunAdds host block second events middle after) :
    RunAdds host block second (event :: events) before after := by
  refine ⟨tail.stacked, ?_, ?_, tail.failed.trans head.failed⟩
  · intro _
    exact tail.payload (.inl head.payload)
  · rw [tail.crc, head.crc, crcOfEvents, crcOfEvents, List.flatMap_cons]
    exact (ocCrc64_append _ _ _).symm

theorem runAdds (room : block.Room) {calls : List JsonCall}
    {events : List RepEvent} {after : List Bool} {state : CrcEncoder}
    (stacked : Stacked block kinds state.encoder state.outer)
    (follows : callEvents kinds calls = some (events, after)) :
    RunAdds host block after events state (state.run host block calls) := by
  induction calls generalizing kinds events state with
  | nil =>
      cases follows
      refine ⟨stacked, ?_, rfl, rfl⟩
      intro payload
      exact payload.resolve_right fun nonempty => nonempty rfl
  | cons call calls ih =>
      unfold callEvents at follows
      cases here : call.event kinds with
      | none =>
          rw [here] at follows
          cases follows
      | some next =>
          obtain ⟨event, inside⟩ := next
          rw [here] at follows
          obtain ⟨⟨later, last⟩, rest, isEvents⟩ :=
            Option.map_eq_some_iff.mp follows
          cases isEvents
          have head := @adds_call host _ _ room _ _ _ _ stacked here
          exact runAdds_cons head (ih head.stacked rest)

end CrcEncoder

theorem callEvents_cons {kinds inside : List Bool} {call : JsonCall}
    {event : RepEvent} (here : call.event kinds = some (event, inside))
    (calls : List JsonCall) :
    callEvents kinds (call :: calls) =
      (callEvents inside calls).map fun (events, kinds) =>
        (event :: events, kinds) := by
  rw [callEvents, here]

/-- What follows a part of a sequence of calls comes behind the events of the
part. -/
def Precedes (first : List RepEvent) (kinds : List Bool)
    (calls rest : List JsonCall) : Prop :=
  callEvents kinds (calls ++ rest) =
    (callEvents kinds rest).map fun (events, kinds) =>
      (first ++ events, kinds)

theorem precedes_enclosed {events : List RepEvent} {isMap : Bool}
    {kinds : List Bool} {calls rest : List JsonCall}
    (inside : Precedes events (isMap :: kinds) calls (.close :: rest)) :
    Precedes (.opened isMap :: (events ++ [.closed isMap])) kinds
      (.create isMap :: (calls ++ [.close])) rest := by
  unfold Precedes at inside ⊢
  rw [List.cons_append, List.append_assoc, List.singleton_append,
    callEvents_cons rfl, inside, callEvents_cons rfl]
  simp [Option.map_map, Function.comp_def]

mutual

theorem precedes_calls (kinds : List Bool) (rest : List JsonCall) :
    (tree : JsonTree) → Precedes tree.events kinds tree.calls rest
  | .scalar _ => callEvents_cons rfl rest
  | .array items => precedes_enclosed (precedes_itemCalls _ _ items)
  | .object members => precedes_enclosed (precedes_memberCalls _ _ members)

theorem precedes_itemCalls (kinds : List Bool) (rest : List JsonCall) :
    (items : List JsonTree) →
    Precedes (itemEvents items) kinds (itemCalls items) rest
  | [] => by simp [Precedes, itemEvents, itemCalls]
  | item :: items => by
      unfold Precedes
      rw [itemCalls, List.append_assoc, precedes_calls kinds _ item,
        precedes_itemCalls kinds rest items]
      simp [itemEvents, Option.map_map, Function.comp_def]

theorem precedes_memberCalls (kinds : List Bool) (rest : List JsonCall) :
    (members : List (Bytes × JsonTree)) →
    Precedes (memberEvents members) kinds (memberCalls members) rest
  | [] => by simp [Precedes, memberEvents, memberCalls]
  | (key, value) :: members => by
      unfold Precedes
      rw [memberCalls, List.cons_append, List.append_assoc,
        callEvents_cons rfl, precedes_calls kinds _ value,
        precedes_memberCalls kinds rest members]
      simp [memberEvents, Option.map_map, Function.comp_def]

end

theorem callEvents_calls (kinds : List Bool) (tree : JsonTree) :
    callEvents kinds tree.calls = some (tree.events, kinds) := by
  have whole := precedes_calls kinds [] tree
  unfold Precedes at whole
  rw [List.append_nil] at whole
  rw [whole]
  simp [callEvents]

theorem events_ne_nil (tree : JsonTree) : tree.events ≠ [] := by
  cases tree with
  | scalar item => simp [JsonTree.events]
  | array items => simp [JsonTree.events]
  | object members => simp [JsonTree.events]

theorem CrcEncoder.stacked_init (room : block.Room) (content : Mem) :
    CrcEncoder.Stacked block [] (CrcEncoder.init block content).encoder
      (CrcEncoder.init block content).outer := by
  have present : ¬(block.ptr = 0 ∨ block.ptr = 0 ∨
      block.ptr + (block.size : Int) = 0) := by
    have positive := room.ptr_pos
    omega
  refine ⟨?_, rfl⟩
  unfold CrcEncoder.init CrcBlock.toOffset SubEncoder.convertPtrToOffset
  simp only [if_neg present]
  exact ⟨Int.sub_self _, add_sub_cancel_left _ _⟩

theorem toOffset_items (block : CrcBlock) (sub : SubEncoder) :
    (block.toOffset sub).items = sub.items := by
  unfold CrcBlock.toOffset SubEncoder.convertPtrToOffset
  split <;> rfl

theorem CrcEncoder.crc_init (host : CrcHost) (block : CrcBlock)
    (content : Mem) : (CrcEncoder.init block content).crc host = 0 := by
  have clear : (CrcEncoder.init block content).encoder.hasPayload = false := by
    rw [SubEncoder.hasPayload, CrcEncoder.init, toOffset_items]
    have none : (0 : UInt8) &&& CrcFlag.hasPayload = 0 := by decide
    exact bne_eq_false_iff_eq.mpr none
  rw [CrcEncoder.crc, crcBefore, clear, if_neg Bool.false_ne_true]

end Steps

theorem crcEncoder_tree (host : CrcHost) {block : CrcBlock}
    (room : block.Room) (content : Mem) (tree : JsonTree) :
    ((CrcEncoder.init block content).run host block tree.calls).failed =
        false ∧
      ((CrcEncoder.init block content).run host block
        tree.calls).bufferSize = 8 ∧
      loadCrc host ((CrcEncoder.init block content).run host block
        tree.calls).content 0 = crcOfEvents host 0 tree.events := by
  have adds := @CrcEncoder.runAdds host _ _ room _ _ _ _
    (CrcEncoder.stacked_init room content) (callEvents_calls [] tree)
  have payload := adds.payload (.inr (events_ne_nil tree))
  refine ⟨adds.failed, ?_, ?_⟩
  · rw [CrcEncoder.bufferSize, if_pos payload]
  · have stored := adds.crc
    rw [CrcEncoder.crc_init, CrcEncoder.crc, crcBefore, if_pos payload]
      at stored
    exact stored

end IotivityLite
