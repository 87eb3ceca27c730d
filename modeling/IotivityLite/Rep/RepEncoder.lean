import IotivityLite.Security.Rep

/-!
# Encoders over a buffer that grows

The encoder functions of `oc_rep_encode.c`, as they treat the buffer, and the
encoder for JSON of `oc_rep_encode_json.c`.  Every encoder has a pointer into
the buffer, which is an offset between the calls.  A call that does not fit is
repeated after the buffer has been reallocated, and an encoder whose call did
not fit in the end counts the bytes that are missing.
-/

namespace IotivityLite

/-- The errors of calls that are refused. -/
inductive RepRefusal where
  | improperValue
  | dataTooLarge
  | unsupportedType
  | internalError
  | tooManyItems
  | tooFewItems
  deriving DecidableEq

/-- What a call returns. -/
inductive RepResult where
  | noError
  | outOfMemory
  | refused (error : RepRefusal)
  deriving DecidableEq

/-- A floating-point number of one of the types of CBOR, as its bits. -/
inductive FloatBits where
  | half (bits : UInt16)
  | single (bits : UInt32)
  | double (bits : UInt64)

/-- A value that is written with one call. -/
inductive RepItem where
  | null
  | boolean (value : Bool)
  | int (value : Int64)
  | uint (value : UInt64)
  | double (bits : UInt64)
  | floatingPoint (value : FloatBits)
  | textString (value : Bytes)
  | byteString (value : Bytes)

/-- What an encoder knows of its container: the number of items to come, plus
one, for a CBOR container of known length, and the flags of JSON. -/
structure ItemState where
  remaining : Option Nat := some 0
  flags : UInt8 := 0
  deriving DecidableEq

/-- `CborEncoder`: `data` is a pointer, or the number of missing bytes when
`endPtr` is null. -/
structure SubEncoder where
  data : Int := 0
  endPtr : Int := 0
  items : ItemState := {}
  deriving DecidableEq

namespace SubEncoder

/-- `oc_rep_encoder_convert_ptr_to_offset` -/
def convertPtrToOffset (ptr : Int) (sub : SubEncoder) : SubEncoder :=
  if ptr = 0 ∨ sub.data = 0 ∨ sub.endPtr = 0 then sub
  else { sub with data := sub.data - ptr, endPtr := sub.endPtr - ptr }

/-- `oc_rep_encoder_convert_offset_to_ptr` -/
def convertOffsetToPtr (ptr : Int) (size : Nat) (sub : SubEncoder) :
    SubEncoder :=
  -- don't convert in bytes needed state
  if ptr = 0 ∨ (sub.data ≠ 0 ∧ sub.endPtr = 0) then sub
  else { sub with data := ptr + sub.data, endPtr := ptr + size }

/-- `get_extra_bytes_needed` of both implementations -/
def extraBytesNeeded (sub : SubEncoder) : Int :=
  if sub.endPtr ≠ 0 then 0 else sub.data

end SubEncoder

/-- The bytes are written from an address on. -/
def Mem.patch (memory : Mem) (start : Nat) (bytes : Bytes) : Mem :=
  fun address =>
    if start ≤ address ∧ address < start + bytes.length then
      bytes.getD (address - start) 0
    else memory address

/-- An encoder and the contents of the buffer; the pointer of the encoder is
an address. -/
structure Writing where
  sub : SubEncoder
  content : Mem

/-- `append_to_buffer` of tinycbor and `rep_json_append_to_buffer`; the result
is whether the bytes fit. -/
def appendToBuffer (ptr : Int) (bytes : Bytes) (state : Writing) :
    Bool × Writing :=
  let sub := state.sub
  let length : Int := bytes.length
  if sub.endPtr - sub.data - length < 0 then
    if sub.endPtr ≠ 0 then
      (false, { state with
        sub := { sub with
          endPtr := 0
          data := length - (sub.endPtr - sub.data) } })
    else (false, { state with sub := { sub with data := sub.data + length } })
  else
    (true,
      { sub := { sub with data := sub.data + length }
        content := state.content.patch (sub.data - ptr).toNat bytes })

/-- The pieces of a call are appended in turn, whatever happened before. -/
def appendPieces (ptr : Int) : List Bytes → Writing → Bool × Writing
  | [], state => (true, state)
  | piece :: pieces, state =>
      let (fits, state) := appendToBuffer ptr piece state
      let (rest, state) := appendPieces ptr pieces state
      (fits && rest, state)

/-- What a call does with an encoder: it is refused, or it appends pieces and
goes on with one of two states, which depends on whether they fit. -/
inductive ItemPlan where
  | refused (error : RepRefusal)
  | append (pieces : List Bytes) (done full : ItemState)

/-- The same for a container, with the states of the parent and that of the
container. -/
inductive ContainerPlan where
  | refused (error : RepRefusal)
  | append (pieces : List Bytes) (done full child : ItemState)

/-- The end of a container: it is refused after the buffer was taken over, or
pieces are appended. -/
inductive ClosePlan where
  | refused (error : RepRefusal)
  | append (pieces : List Bytes)

/-- `oc_rep_encoder_implementation_t`.  The head of a container is appended by
the parent's encoder, whose state a container without room takes over as a
whole, or else by the encoder of the container. -/
structure EncoderImpl where
  item : ItemState → RepItem → ItemPlan
  container : ItemState → (isMap : Bool) → (length : Option Nat) →
    ContainerPlan
  close : ItemState → ClosePlan
  byParent : Bool

namespace JsonFlag

abbrev keyType : UInt8 := 1
abbrev valueType : UInt8 := 2
abbrev arrayType : UInt8 := 4
abbrev mapType : UInt8 := 8

end JsonFlag

open JsonFlag

/-- `rep_json_append_separator` -/
def repJsonAppendSeparator (flags : UInt8) : List Bytes :=
  if flags &&& mapType ≠ 0 then
    if flags &&& keyType ≠ 0 then [ascii ":"]
    else if flags &&& valueType ≠ 0 then [ascii ","]
    else []
  else if flags = arrayType then []
  else if flags &&& arrayType ≠ 0 then [ascii ","]
  else []

/-- A map in which a key has to come next. -/
def expectsKey (flags : UInt8) : Bool :=
  flags &&& keyType == 0 && flags &&& mapType != 0

/-- A value was encoded. -/
def afterValue (flags : UInt8) : UInt8 := flags &&& ~~~keyType ||| valueType

/-- A text was encoded, which may be a key. -/
def afterText (flags : UInt8) : UInt8 :=
  let flags :=
    if flags &&& mapType ≠ 0 then
      if flags &&& keyType ≠ 0 then afterValue flags
      else if flags &&& valueType ≠ 0 then
        flags &&& ~~~valueType ||| keyType
      else flags ||| keyType
    else flags
  if flags &&& arrayType ≠ 0 then flags ||| valueType else flags

/-- The decimal digits of a number with at most as many of them. -/
def decimalDigits : (count : Nat) → Nat → Bytes
  | 0, _ => []
  | count + 1, number =>
      (if number < 10 then [] else decimalDigits count (number / 10)) ++
        [(48 + number % 10).toUInt8]

/-- The format `%d` of `snprintf` for numbers of 64 bits. -/
def decimal (number : Int) : Bytes :=
  (if number < 0 then [45] else []) ++ decimalDigits 20 number.natAbs

def ocRepJsonIntMax : Int := 2 ^ 53

def ocRepJsonIntMin : Int := -2 ^ 52 - 1

def ocRepJsonUintMax : Nat := 2 ^ 53

/-- A value other than a text. -/
def repJsonEncode (state : ItemState) (text : Bytes) : ItemPlan :=
  if expectsKey state.flags then .refused .improperValue
  else
    .append (repJsonAppendSeparator state.flags ++ [text])
      { state with flags := afterValue state.flags } state

/-- `rep_json_encode_int` and `rep_json_encode_uint` -/
def repJsonEncodeNumber (state : ItemState) (accepted : Bool)
    (number : Int) : ItemPlan :=
  if expectsKey state.flags then .refused .improperValue
  else if accepted then repJsonEncode state (decimal number)
  else .refused .dataTooLarge

/-- The encoder for JSON; `formatDouble` is the format `%f` of `snprintf`. -/
def ocRepJsonEncoder (formatDouble : UInt64 → Bytes) : EncoderImpl where
  item state
    | .null => repJsonEncode state (ascii "null")
    | .boolean value =>
        repJsonEncode state (ascii (if value then "true" else "false"))
    | .int value =>
        repJsonEncodeNumber state
          (value.toInt ≤ ocRepJsonIntMax && ocRepJsonIntMin ≤ value.toInt)
          value.toInt
    | .uint value =>
        repJsonEncodeNumber state (value.toNat ≤ ocRepJsonUintMax) value.toNat
    | .double bits => repJsonEncode state (formatDouble bits)
    | .textString value =>
        .append
          (repJsonAppendSeparator state.flags ++
            [ascii "\"", value, ascii "\""])
          { state with flags := afterText state.flags } state
    | .floatingPoint _ => .refused .unsupportedType
    | .byteString _ => .refused .unsupportedType
  container state isMap _ :=
    if expectsKey state.flags then .refused .improperValue
    else
      .append
        (repJsonAppendSeparator state.flags ++
          [if isMap then ascii "\x7b" else ascii "["])
        { state with flags := afterValue state.flags } state
        { flags := if isMap then mapType else arrayType }
  close state :=
    .append [if state.flags &&& mapType ≠ 0 then ascii "\x7d" else ascii "]"]
  byParent := true

/-- `oc_rep_encoder_buffer_t`; `reallocs` counts the blocks that `realloc` has
returned. -/
structure EncoderBuffer where
  ptr : Int
  size : Nat
  maxSize : Nat
  content : Mem
  reallocs : Nat := 0

/-- A block of memory for the buffer to begin with; a null pointer is one
without bytes. -/
structure HeapBlock where
  ptr : Int
  size : Nat
  content : Mem
  ptr_nonneg : 0 ≤ ptr
  size_of_null : ptr = 0 → size = 0

/-- The surroundings of an encoder: the addresses and the contents of the
blocks that `realloc` returns, and, for an encoder that is not the global one,
the buffer of this. -/
structure EncoderEnv where
  address : Nat → Int
  address_pos : ∀ count, 0 < address count
  fresh : Nat → Mem
  globalPtr : Option Int

namespace EncoderBuffer

variable (env : EncoderEnv)

/-- `rep_buffer_realloc`; `none` above the maximum.  `realloc` itself does not
fail. -/
def realloc (needed : Int) (buffer : EncoderBuffer) : Option EncoderBuffer :=
  if buffer.size + needed > buffer.maxSize then none
  else
    -- preallocate buffer to avoid reallocation
    let size : Nat :=
      if 2 * (buffer.size + needed) < (buffer.maxSize / 4 : Nat) then
        (2 * (buffer.size + needed)).toNat
      else buffer.maxSize
    some
      { buffer with
        ptr := env.address buffer.reallocs
        size
        content := fun address =>
          if address < buffer.size then buffer.content address
          else env.fresh buffer.reallocs address
        reallocs := buffer.reallocs + 1 }

/-- The buffer that the pointers of an encoder are made offsets of.  All calls
but that for null use their own encoder's. -/
def backPtr (buffer : EncoderBuffer) : RepItem → Int
  | .null => env.globalPtr.getD buffer.ptr
  | _ => buffer.ptr

end EncoderBuffer

/-- Encoders by number; the root encoder has the number zero. -/
inductive RepCall where
  | write (encoder : Nat) (item : RepItem)
  | create (encoder container : Nat) (distinct : encoder ≠ container)
      (isMap : Bool) (length : Option Nat)
  | close (encoder container : Nat) (distinct : encoder ≠ container)
  | raw (data : Bytes)

structure RepEncoder where
  buffer : EncoderBuffer
  subs : Nat → SubEncoder

section Calls

variable (impl : EncoderImpl) (env : EncoderEnv)

/-- A call of the implementation with one encoder, between the conversions of
its pointer. -/
def writeInternal (buffer : EncoderBuffer) (item : RepItem)
    (sub : SubEncoder) : RepResult × Writing :=
  let sub := sub.convertOffsetToPtr buffer.ptr buffer.size
  let (result, state) : RepResult × Writing :=
    match impl.item sub.items item with
    | .refused error => (.refused error, ⟨sub, buffer.content⟩)
    | .append pieces done full =>
        match appendPieces buffer.ptr pieces ⟨sub, buffer.content⟩ with
        | (true, state) =>
            (.noError, { state with sub := { state.sub with items := done } })
        | (false, state) =>
            (.outOfMemory,
              { state with sub := { state.sub with items := full } })
  (result, { state with
    sub := state.sub.convertPtrToOffset (buffer.backPtr env item) })

/-- A call that does not fit is repeated after the buffer was reallocated,
with the encoders as they were before it.  `counting` is the encoder that then
knows how many bytes are missing. -/
def retryGrown {Outcome : Type} (content : Outcome → Mem)
    (counting : Outcome → SubEncoder)
    (attempt : EncoderBuffer → RepResult × Outcome)
    (buffer : EncoderBuffer) : RepResult × EncoderBuffer × Outcome :=
  match attempt buffer with
  | (.outOfMemory, state) =>
      let buffer := { buffer with content := content state }
      match buffer.realloc env (counting state).extraBytesNeeded with
      | none => (.outOfMemory, buffer, state)
      | some buffer =>
          let (result, state) := attempt buffer
          (result, { buffer with content := content state }, state)
  | (result, state) => (result, { buffer with content := content state }, state)

/-- `oc_rep_encoder_write_null` and its siblings -/
def RepEncoder.write (encoder : RepEncoder) (index : Nat) (item : RepItem) :
    RepResult × RepEncoder :=
  let (result, buffer, state) :=
    retryGrown env Writing.content Writing.sub
      (fun buffer => writeInternal impl env buffer item (encoder.subs index))
      encoder.buffer
  (result,
    { buffer, subs := Function.update encoder.subs index state.sub })

/-- Two encoders and the contents of the buffer. -/
structure PairWriting where
  sub : SubEncoder
  container : SubEncoder
  content : Mem

/-- `rep_encoder_create_array_internal` and
`rep_encoder_create_map_internal` -/
def createInternal (buffer : EncoderBuffer) (isMap : Bool)
    (length : Option Nat) (sub container : SubEncoder) :
    RepResult × PairWriting :=
  let sub := sub.convertOffsetToPtr buffer.ptr buffer.size
  let container := container.convertOffsetToPtr buffer.ptr buffer.size
  let (result, state) : RepResult × PairWriting :=
    match impl.container sub.items isMap length with
    | .refused error => (.refused error, ⟨sub, container, buffer.content⟩)
    | .append pieces done full child =>
        match appendPieces buffer.ptr pieces ⟨sub, buffer.content⟩ with
        | (true, state) =>
            (.noError,
              { sub := if impl.byParent then { state.sub with items := done }
                  else { sub with items := done }
                container := { state.sub with items := child }
                content := state.content })
        | (false, state) =>
            (.outOfMemory,
              if impl.byParent then
                { sub := { state.sub with items := full }
                  container := { state.sub with items := full }
                  content := state.content }
              else
                { sub := { sub with items := full }
                  container := { state.sub with items := child }
                  content := state.content })
  (result,
    { state with
      sub := state.sub.convertPtrToOffset buffer.ptr
      container := state.container.convertPtrToOffset buffer.ptr })

/-- `rep_encoder_close_container_internal` -/
def closeInternal (buffer : EncoderBuffer) (sub container : SubEncoder) :
    RepResult × PairWriting :=
  let sub := sub.convertOffsetToPtr buffer.ptr buffer.size
  let container := container.convertOffsetToPtr buffer.ptr buffer.size
  -- synchronise buffer state with that of the container
  let sub := { sub with data := container.data, endPtr := container.endPtr }
  let (result, state) : RepResult × Writing :=
    match impl.close container.items with
    | .refused error => (.refused error, ⟨sub, buffer.content⟩)
    | .append pieces =>
        match appendPieces buffer.ptr pieces ⟨sub, buffer.content⟩ with
        | (true, state) => (.noError, state)
        | (false, state) => (.outOfMemory, state)
  (result,
    { sub := state.sub.convertPtrToOffset buffer.ptr
      container := container.convertPtrToOffset buffer.ptr
      content := state.content })

/-- The common part of `oc_rep_encoder_write_array_open`,
`oc_rep_encoder_write_map_open` and
`oc_rep_encoder_write_container_close`. -/
def RepEncoder.writePair (encoder : RepEncoder) (index container : Nat)
    (counting : PairWriting → SubEncoder)
    (internal : EncoderBuffer → SubEncoder → SubEncoder →
      RepResult × PairWriting) : RepResult × RepEncoder :=
  let (result, buffer, state) :=
    retryGrown env PairWriting.content counting
      (fun buffer =>
        internal buffer (encoder.subs index) (encoder.subs container))
      encoder.buffer
  (result,
    { buffer
      subs := Function.update (Function.update encoder.subs index state.sub)
        container state.container })

/-- `oc_rep_encoder_write_raw` -/
def RepEncoder.writeRaw (encoder : RepEncoder) (data : Bytes) :
    RepResult × RepEncoder :=
  let ctx := encoder.subs 0
  -- encoder has not set end pointer
  if ctx.endPtr = 0 then (.refused .internalError, encoder)
  else
    let remaining : Int := encoder.buffer.size - ctx.data
    let grown :=
      if remaining < data.length then
        encoder.buffer.realloc env (data.length - remaining)
      else some encoder.buffer
    match grown with
    | none => (.outOfMemory, encoder)
    | some buffer =>
        let ctx := ctx.convertOffsetToPtr buffer.ptr buffer.size
        let content :=
          buffer.content.patch (ctx.data - buffer.ptr).toNat data
        let ctx := { ctx with data := ctx.data + data.length }
        (.noError,
          { buffer := { buffer with content }
            subs := Function.update encoder.subs 0
              (ctx.convertPtrToOffset buffer.ptr) })

/-- A call with the code it returns. -/
def RepEncoder.call (encoder : RepEncoder) : RepCall → RepResult × RepEncoder
  | .write index item => encoder.write impl env index item
  | .create index container _ isMap length =>
      encoder.writePair env index container PairWriting.container
        (createInternal impl · isMap length)
  | .close index container _ =>
      encoder.writePair env index container PairWriting.sub
        (closeInternal impl)
  | .raw data => encoder.writeRaw env data

/-- The encoder after a call. -/
def RepEncoder.step (encoder : RepEncoder) (call : RepCall) : RepEncoder :=
  (encoder.call impl env call).2

/-- The code that the call returns. -/
def RepEncoder.result (encoder : RepEncoder) (call : RepCall) :
    Option RepResult :=
  some (encoder.call impl env call).1

end Calls

/-- `oc_rep_encoder_buffer_realloc_init`; the other encoders are zeroed before
they are used. -/
def RepEncoder.init (block : HeapBlock) (maxSize : Nat) : RepEncoder where
  buffer :=
    { ptr := block.ptr
      size := block.size
      maxSize
      content := block.content }
  subs := Function.update (fun _ => {}) 0
    (SubEncoder.convertPtrToOffset block.ptr
      { data := block.ptr
        endPtr := block.ptr + block.size
        items := { remaining := some 2 } })

/-- The error flag `g_err` that the calls leave: a raw write sets it, and all
others add to it. -/
def gErr : List RepCall → List RepResult → Bool → Bool
  | .raw _ :: calls, result :: results, _ => gErr calls results (result != .noError)
  | _ :: calls, result :: results, flag =>
      gErr calls results (flag || result != .noError)
  | _, _, flag => flag

/-- `oc_rep_encoder_payload_size` without truncation, for calls that returned
the given codes -/
def RepEncoder.payloadSize (encoder : RepEncoder) (calls : List RepCall)
    (results : List RepResult) : Int :=
  let ctx := (encoder.subs 0).convertOffsetToPtr encoder.buffer.ptr
    encoder.buffer.size
  if gErr calls results false then -1 else ctx.data - encoder.buffer.ptr

/-- The bytes that are sent. -/
def RepEncoder.payload (encoder : RepEncoder) (size : Int) : Bytes :=
  encoder.buffer.content.read 0 size.toNat

end IotivityLite
