import IotivityLite.Coap.OptionCodec

/-!
# Option lists on the wire

`coap_serialize_options` threads a running option number through some twenty
conditional writers.  Here the options of a packet are first listed as pairs
of a number and a value; the writers are then shown to produce the delta
encoding of that list.
-/

namespace IotivityLite

/-- An option as it stands on the wire. -/
structure RawOption where
  number : Nat
  value : Bytes
  deriving DecidableEq, Repr

/-- The delta encoding of an option list after the option `current`. -/
def encodeOptions : (current : Nat) → List RawOption → Bytes
  | _, [] => []
  | current, option :: rest =>
      (serializeOneOption option.number current true option.value).bytes ++
        encodeOptions option.number rest

def lastNumber (current : Nat) (options : List RawOption) : Nat :=
  options.foldl (fun _ option => option.number) current

theorem encodeOptions_append (current : Nat)
    (first second : List RawOption) :
    encodeOptions current (first ++ second) =
      encodeOptions current first ++
        encodeOptions (lastNumber current first) second := by
  induction first generalizing current with
  | nil => rfl
  | cons option rest ih =>
      simp only [List.cons_append, encodeOptions, ih, List.append_assoc]
      rfl

theorem lastNumber_append (current : Nat) (first second : List RawOption) :
    lastNumber current (first ++ second) =
      lastNumber (lastNumber current first) second := by
  simp [lastNumber]

theorem lastNumber_map (current number : Nat) (values : List Bytes)
    (written : values ≠ []) :
    lastNumber current (values.map (RawOption.mk number)) = number := by
  obtain ⟨initial, last, rfl⟩ := List.eq_nil_or_concat'  values |>.resolve_left
    written
  simp [lastNumber]

theorem length_le_length_encodeOptions (current : Nat)
    (options : List RawOption) :
    options.length ≤ (encodeOptions current options).length := by
  induction options generalizing current with
  | nil => rfl
  | cons option rest ih =>
      have shorter := ih option.number
      simp only [encodeOptions, serializeOneOption, coapSetOptionHeader,
        Chunk.bytes_append, Chunk.bytes_emit_true, List.length_append,
        List.length_cons]
      omega

theorem value_length_le_length_encodeOptions {options : List RawOption}
    {option : RawOption} (current : Nat) (membership : option ∈ options) :
    option.value.length ≤ (encodeOptions current options).length := by
  induction options generalizing current with
  | nil => cases membership
  | cons head rest ih =>
      simp only [encodeOptions, serializeOneOption, Chunk.bytes_append,
        Chunk.bytes_emit_true, List.length_append]
      rcases List.mem_cons.mp membership with rfl | later
      · omega
      · have shorter := ih head.number later
        omega

/-- The parts `coap_serialize_array_option` cuts a text into; `part` is what
has been collected of the current part.  The byte after a separator is never
compared with it. -/
def textParts (separator : UInt8) : (part rest : Bytes) → List Bytes
  | part, [] => [part]
  | part, [byte] =>
      if byte = separator then [part] else [part ++ [byte]]
  | part, byte :: next :: rest =>
      if byte = separator then part :: textParts separator [next] rest
      else textParts separator (part ++ [byte]) (next :: rest)

theorem textParts_ne_nil (separator : UInt8) (part rest : Bytes) :
    textParts separator part rest ≠ [] := by
  fun_induction textParts separator part rest <;> simp_all

/-- The last byte of the text is not the separator. -/
def EndsInside (separator : UInt8) (text : Bytes) : Prop :=
  text.getLast? ≠ some separator

instance (separator : UInt8) (text : Bytes) :
    Decidable (EndsInside separator text) :=
  inferInstanceAs (Decidable (text.getLast? ≠ some separator))

theorem EndsInside.tail {separator byte next : UInt8} {rest : Bytes}
    (inside : EndsInside separator (byte :: next :: rest)) :
    EndsInside separator (next :: rest) := by
  intro last
  exact inside (by simpa using last)

theorem EndsInside.tail_tail {separator byte next : UInt8} {rest : Bytes}
    (inside : EndsInside separator (byte :: next :: rest)) :
    EndsInside separator rest := by
  intro last
  cases rest with
  | nil => cases last
  | cons head rest => exact inside (by simpa using last)

variable (number current : Nat)

theorem serializeOneOption_eq_emit (buffer : Bool) (value : Bytes) :
    serializeOneOption number current buffer value =
      Chunk.emit buffer
        (serializeOneOption number current true value).bytes := by
  simp only [serializeOneOption, coapSetOptionHeader, Chunk.emit_append,
    Chunk.bytes_emit_true]

/-- The parts the loop of `coap_serialize_array_option` writes, and the
indices of the bytes it reads, in order. -/
structure TextSplit where
  parts : List Bytes
  looked : List Nat
  deriving DecidableEq

/-- The loop `serializeParts` without the encoding of the options. -/
def splitTextLoop (array : CString) (splitChar : UInt8) :
    (fuel j partStart : Nat) → TextSplit
  | 0, _, _ => ⟨[], []⟩
  | fuel + 1, j, partStart =>
      if j ≤ array.bytes.length + 1 then
        if array.at j = splitChar ∨ j = array.bytes.length then
          let rest := splitTextLoop array splitChar fuel (j + 2) (j + 1)
          ⟨((array.bytes ++ array.beyond).drop partStart).take
              (j - partStart) :: rest.parts,
            j :: (List.range' partStart (j - partStart) ++ rest.looked)⟩
        else
          let rest := splitTextLoop array splitChar fuel (j + 1) partStart
          ⟨rest.parts, j :: rest.looked⟩
      else ⟨[], []⟩

def splitText (array : CString) (splitChar : UInt8) : TextSplit :=
  if splitChar = 0 then ⟨[array.bytes], List.range array.bytes.length⟩
  else splitTextLoop array splitChar (array.bytes.length + 2) 0 0

theorem serializeParts_eq_emit (number : Nat) (buffer : Bool)
    (array : CString) (splitChar : UInt8) (fuel j partStart current : Nat) :
    serializeParts number buffer array splitChar fuel j partStart current =
      Chunk.emit buffer (encodeOptions current
        ((splitTextLoop array splitChar fuel j partStart).parts.map
          (RawOption.mk number))) := by
  induction fuel generalizing j partStart current with
  | zero => exact (Chunk.emit_nil buffer).symm
  | succ fuel ih =>
      rw [serializeParts, splitTextLoop]
      split_ifs
      · rw [ih, serializeOneOption_eq_emit, Chunk.emit_append]
        rfl
      · exact ih _ _ _
      · exact (Chunk.emit_nil buffer).symm

theorem coapSerializeArrayOption_eq_emit (buffer : Bool) (array : CString)
    (splitChar : UInt8) :
    coapSerializeArrayOption number current buffer array splitChar =
      Chunk.emit buffer (encodeOptions current
        ((splitText array splitChar).parts.map (RawOption.mk number))) := by
  unfold coapSerializeArrayOption splitText
  split_ifs
  · rw [serializeOneOption_eq_emit]
    simp [encodeOptions]
  · exact serializeParts_eq_emit _ _ _ _ _ _ _ _

section Parts

variable (beyond : Bytes) (separator : UInt8)

private theorem splitTextLoop_past (array : CString) (fuel start : Nat)
    {j : Nat} (past : array.bytes.length + 1 < j) :
    splitTextLoop array separator fuel j start = ⟨[], []⟩ := by
  cases fuel with
  | zero => rfl
  | succ fuel => rw [splitTextLoop, if_neg (by omega)]

private theorem splitTextLoop_cut (before part rest : Bytes) (fuel : Nat)
    (cut : rest = [] ∨ rest.head? = some separator) :
    (splitTextLoop ⟨before ++ part ++ rest, beyond⟩ separator (fuel + 1)
        (before.length + part.length) before.length).parts =
      part :: (splitTextLoop ⟨before ++ part ++ rest, beyond⟩ separator fuel
        (before.length + part.length + 2)
        (before.length + part.length + 1)).parts := by
  have stops : CString.at ⟨before ++ part ++ rest, beyond⟩
        (before.length + part.length) = separator ∨
      before.length + part.length = (before ++ part ++ rest).length := by
    rcases cut with rfl | found
    · right
      simp
    · left
      obtain ⟨tail, rfl⟩ := List.head?_eq_some_iff.mp found
      simp [CString.at]
  have inside : before.length + part.length ≤
      (before ++ part ++ rest).length + 1 := by
    simp only [List.length_append]
    omega
  have taken : ((before ++ part ++ rest ++ beyond).drop before.length).take
      (before.length + part.length - before.length) = part := by
    simp
  rw [splitTextLoop, if_pos inside, if_pos stops, taken]

private theorem splitTextLoop_skip (before part rest : Bytes)
    (byte : UInt8) (fuel : Nat) (other : byte ≠ separator) :
    (splitTextLoop ⟨before ++ part ++ byte :: rest, beyond⟩ separator
        (fuel + 1) (before.length + part.length) before.length).parts =
      (splitTextLoop ⟨before ++ part ++ byte :: rest, beyond⟩ separator fuel
        (before.length + part.length + 1) before.length).parts := by
  have goesOn : ¬ (CString.at ⟨before ++ part ++ byte :: rest, beyond⟩
        (before.length + part.length) = separator ∨
      before.length + part.length =
        (before ++ part ++ byte :: rest).length) := by
    rintro (found | finished)
    · apply other
      simpa [CString.at, List.getElem?_append_right] using found
    · simp at finished
  have inside : before.length + part.length ≤
      (before ++ part ++ byte :: rest).length + 1 := by
    simp only [List.length_append]
    omega
  rw [splitTextLoop, if_pos inside, if_neg goesOn]

/-- The loop finds a separator in the last byte of the text. -/
def cutsLast (separator : UInt8) : Bytes → Bool
  | [] => false
  | [byte] => byte = separator
  | byte :: next :: rest =>
      if byte = separator then cutsLast separator rest
      else cutsLast separator (next :: rest)

theorem EndsInside.cutsLast_eq {separator : UInt8} {text : Bytes}
    (inside : EndsInside separator text) : cutsLast separator text = false := by
  fun_induction cutsLast separator text with
  | case1 => rfl
  | case2 byte => simpa [EndsInside] using inside
  | case3 next rest ih => exact ih inside.tail_tail
  | case4 byte next rest other ih => exact ih inside.tail

/-- After a separator in the last byte the loop looks at the second byte
behind the text, and may write the first one. -/
def overrunParts (separator : UInt8) (text beyond : Bytes) : List Bytes :=
  if cutsLast separator text ∧ beyond.getD 1 0 = separator then
    [beyond.take 1]
  else []

private theorem splitTextLoop_overrun (before part : Bytes) (fuel : Nat)
    (enough : 1 ≤ fuel) :
    (splitTextLoop ⟨before ++ part ++ [separator], beyond⟩ separator fuel
        (before.length + part.length + 2)
        (before.length + part.length + 1)).parts =
      overrunParts separator [separator] beyond := by
  obtain ⟨fuel, rfl⟩ : ∃ rounds, fuel = rounds + 1 := ⟨fuel - 1, by omega⟩
  have length : (before ++ part ++ [separator]).length =
      before.length + part.length + 1 := by
    simp
    omega
  have found : CString.at ⟨before ++ part ++ [separator], beyond⟩
      (before.length + part.length + 2) = beyond.getD 1 0 := by
    simp only [CString.at, List.getD_eq_getElem?_getD]
    rw [List.getElem?_append_right (by omega), length]
    congr 2
    omega
  have taken : ((before ++ part ++ [separator] ++ beyond).drop
      (before.length + part.length + 1)).take 1 = beyond.take 1 := by
    rw [← length, List.drop_left]
  rw [splitTextLoop]
  simp only [length, found, Nat.le_refl, if_true]
  unfold overrunParts
  by_cases again : beyond.getD 1 0 = separator
  · rw [if_pos (.inl again), if_pos ⟨by simp [cutsLast], again⟩]
    rw [splitTextLoop_past _ _ _ _ (by simp only [length]; omega)]
    simp only [Nat.add_sub_add_left, Nat.reduceSub]
    rw [taken]
  · rw [if_neg (by rintro (same | bound); exact again same; omega),
      if_neg fun both => again both.2]
    rw [splitTextLoop_past _ _ _ _ (by simp only [length]; omega)]

private theorem parts_splitTextLoop (part rest before : Bytes) (fuel : Nat)
    (enough : rest.length + 1 < fuel) :
    (splitTextLoop ⟨before ++ part ++ rest, beyond⟩ separator fuel
        (before.length + part.length) before.length).parts =
      textParts separator part rest ++
        overrunParts separator rest beyond := by
  obtain ⟨fuel, rfl⟩ : ∃ rounds, fuel = rounds + 1 := ⟨fuel - 1, by omega⟩
  fun_induction textParts separator part rest generalizing before fuel
  case case1 part =>
    rw [splitTextLoop_cut _ _ _ _ _ _ (.inl rfl),
      splitTextLoop_past _ _ _ _ (by simp)]
    rfl
  case case2 part =>
    rw [splitTextLoop_cut _ _ _ _ _ _ (.inr rfl),
      splitTextLoop_overrun _ _ _ _ _ (by simp at enough; omega)]
    rfl
  case case3 part byte other =>
    obtain ⟨fuel, rfl⟩ : ∃ rounds, fuel = rounds + 1 :=
      ⟨fuel - 1, by simp at enough; omega⟩
    rw [splitTextLoop_skip _ _ _ _ _ _ _ other]
    have shifted := splitTextLoop_cut beyond separator before
      (part ++ [byte]) [] fuel (.inl rfl)
    simp only [List.append_assoc, List.length_append, List.length_singleton,
      List.append_nil, ← Nat.add_assoc] at shifted ⊢
    rw [shifted, splitTextLoop_past _ _ _ _ (by simp; omega)]
    simp [overrunParts, cutsLast, other]
  case case4 part next rest ih =>
    simp only [List.length_cons] at enough
    obtain ⟨fuel, rfl⟩ : ∃ rounds, fuel = rounds + 1 :=
      ⟨fuel - 1, by omega⟩
    have later := ih (before ++ part ++ [separator]) fuel (by omega)
    rw [splitTextLoop_cut _ _ _ _ _ _ (.inr rfl)]
    simp only [List.append_assoc, List.length_append, List.length_singleton,
      List.cons_append, List.nil_append, ← Nat.add_assoc] at later ⊢
    rw [later]
    simp [overrunParts, cutsLast]
  case case5 part byte next rest other ih =>
    simp only [List.length_cons] at enough
    obtain ⟨fuel, rfl⟩ : ∃ rounds, fuel = rounds + 1 :=
      ⟨fuel - 1, by omega⟩
    have later := ih before fuel (by simp only [List.length_cons]; omega)
    rw [splitTextLoop_skip _ _ _ _ _ _ _ other]
    simp only [List.append_assoc, List.length_append, List.length_singleton,
      List.singleton_append, ← Nat.add_assoc] at later ⊢
    rw [later]
    simp [overrunParts, cutsLast, other]

end Parts

theorem parts_splitText (array : CString) {splitChar : UInt8}
    (splitting : splitChar ≠ 0) :
    (splitText array splitChar).parts =
      textParts splitChar [] array.bytes ++
        overrunParts splitChar array.bytes array.beyond := by
  unfold splitText
  rw [if_neg splitting]
  exact parts_splitTextLoop array.beyond splitChar [] array.bytes [] _
    (by omega)

theorem coapSerializeArrayOption_eq {array : CString} {splitChar : UInt8}
    (buffer : Bool) (splitting : splitChar ≠ 0)
    (inside : EndsInside splitChar array.bytes) :
    coapSerializeArrayOption number current buffer array splitChar =
      Chunk.emit buffer (encodeOptions current
        ((textParts splitChar [] array.bytes).map (RawOption.mk number))) := by
  have nothing : overrunParts splitChar array.bytes array.beyond = [] := by
    unfold overrunParts
    rw [inside.cutsLast_eq]
    exact if_neg fun both => Bool.false_ne_true both.1
  rw [coapSerializeArrayOption_eq_emit, parts_splitText array splitting,
    nothing, List.append_nil]

/-- What `coap_merge_multi_option` makes of the bytes of its arguments. -/
def mergeText (separator : UInt8) (text value : Bytes) : Bytes :=
  if text.length > 0 then text ++ separator :: value else value

private theorem foldl_mergeText_textParts {separator : UInt8}
    {part rest text : Bytes} (started : text ≠ [])
    (inside : EndsInside separator rest) :
    (textParts separator part rest).foldl (mergeText separator) text =
      text ++ separator :: (part ++ rest) := by
  have merge : ∀ text value : Bytes, text ≠ [] →
      mergeText separator text value = text ++ separator :: value := by
    intro text value started
    exact if_pos (List.length_pos_of_ne_nil started)
  fun_induction textParts separator part rest generalizing text
  case case1 part =>
    simp [merge _ _ started]
  case case2 part =>
    exact absurd rfl inside
  case case3 part byte other =>
    simp [merge _ _ started]
  case case4 part next rest ih =>
    have later := @ih (text ++ separator :: part) (by simp)
      inside.tail_tail
    rw [List.foldl_cons, merge _ _ started, later]
    simp
  case case5 part byte next rest other ih =>
    rw [ih started inside.tail]
    simp

theorem foldl_mergeText_textParts_nil {separator : UInt8} {text : Bytes}
    (head : text.head? ≠ some separator)
    (inside : EndsInside separator text) :
    (textParts separator [] text).foldl (mergeText separator) [] = text := by
  suffices general : ∀ part rest : Bytes, EndsInside separator rest →
      (part ++ rest).head? ≠ some separator →
      (textParts separator part rest).foldl (mergeText separator) [] =
        part ++ rest by
    exact general [] text inside head
  intro part rest inside head
  have first : ∀ value : Bytes, mergeText separator [] value = value := by
    intro value
    rfl
  fun_induction textParts separator part rest
  case case1 part =>
    simp [first]
  case case2 part =>
    exact absurd rfl inside
  case case3 part byte other =>
    simp [first]
  case case4 part next rest ih =>
    have nonempty : part ≠ [] := by
      rintro rfl
      exact head rfl
    rw [List.foldl_cons, first,
      foldl_mergeText_textParts nonempty inside.tail_tail]
    simp
  case case5 part byte next rest other ih =>
    rw [ih inside.tail (by simpa using head)]
    simp

namespace CoapPacket

/-- The wire form of an option of the packet, for the given values. -/
def rawOption {Text : Type} (packet : CoapPacket Text) (number : Nat)
    (values : List Bytes) : List RawOption :=
  if packet.isOption number then values.map (RawOption.mk number) else []

end CoapPacket

/-- The value of the version option that accompanies a content format. -/
def versionValues (config : CoapConfig) (format : UInt16) : List Bytes :=
  if format = OcContentFormat.applicationVndOcfCbor then
    [intOptionBytes ocfVer100]
  else if config.ocSpecVerOic ∧ format = OcContentFormat.applicationCbor then
    [intOptionBytes oicVer110]
  else []

def blockBytes (block : BlockOption) : Bytes :=
  intOptionBytes (coapOptionsBlockEncode block.num block.more block.size)

/-- Everything up to Size1. -/
def baseOptions (packet : OutPacket) : List RawOption :=
  packet.rawOption CoapOption.uriHost [packet.uriHost.bytes] ++
  packet.rawOption CoapOption.etag [packet.etag] ++
  packet.rawOption CoapOption.observe
    [intOptionBytes packet.observe.toUInt32] ++
  packet.rawOption CoapOption.uriPort
    [intOptionBytes packet.uriPort.toUInt32] ++
  packet.rawOption CoapOption.uriPath
    (textParts 47 [] packet.uriPath.bytes) ++
  packet.rawOption CoapOption.contentFormat
    [intOptionBytes packet.contentFormat.toUInt32] ++
  packet.rawOption CoapOption.maxAge [intOptionBytes packet.maxAge] ++
  packet.rawOption CoapOption.uriQuery
    (textParts 38 [] packet.uriQuery.bytes) ++
  packet.rawOption CoapOption.accept
    [intOptionBytes packet.accept.toUInt32] ++
  packet.rawOption CoapOption.block2 [blockBytes packet.block2] ++
  packet.rawOption CoapOption.block1 [blockBytes packet.block1] ++
  packet.rawOption CoapOption.size2 [intOptionBytes packet.size2] ++
  packet.rawOption CoapOption.proxyUri [packet.proxyUri.bytes] ++
  packet.rawOption CoapOption.size1 [intOptionBytes packet.size1]

def versionOptions (config : CoapConfig) (packet : OutPacket) :
    List RawOption :=
  (if packet.isOption CoapOption.accept then
    (versionValues config packet.accept).map
      (RawOption.mk CoapOption.ocfAcceptContentFormatVer) else []) ++
  (if packet.isOption CoapOption.contentFormat then
    (versionValues config packet.contentFormat).map
      (RawOption.mk CoapOption.ocfContentFormatVer) else [])

def rawOptions (config : CoapConfig) (packet : OutPacket) :
    List RawOption :=
  baseOptions packet ++ versionOptions config packet

/-- The running number after Accept is right when a version option for
Accept was written, or when no version option follows. -/
def VersionsAligned (config : CoapConfig) (packet : OutPacket) : Prop :=
  packet.isOption CoapOption.accept →
    packet.isOption CoapOption.contentFormat →
    versionValues config packet.contentFormat ≠ [] →
    versionValues config packet.accept ≠ []

/-- The writer stands after the given options. -/
structure Wrote (buffer : Bool) (writer : OptionWriter)
    (options : List RawOption) : Prop where
  currentNumber : writer.currentNumber = lastNumber 0 options
  out : writer.out = Chunk.emit buffer (encodeOptions 0 options)

theorem wrote_start (buffer : Bool) : Wrote buffer OptionWriter.start [] := by
  cases buffer
  · exact ⟨rfl, rfl⟩
  · exact ⟨rfl, rfl⟩

variable {packet : OutPacket}

section Writers

variable {buffer : Bool} {writer : OptionWriter} {options : List RawOption}

theorem Wrote.extend {number : Nat} {values : List Bytes}
    (wrote : Wrote buffer writer options) (written : values ≠ []) :
    Wrote buffer
      ⟨number, writer.out ++ Chunk.emit buffer
        (encodeOptions writer.currentNumber
          (values.map (RawOption.mk number)))⟩
      (options ++ values.map (RawOption.mk number)) := by
  obtain ⟨atNumber, out⟩ := wrote
  constructor
  · rw [lastNumber_append, lastNumber_map _ _ _ written]
  · rw [out, atNumber, Chunk.emit_append, encodeOptions_append]

theorem Wrote.write {number : Nat} {values : List Bytes}
    {option : Nat → Chunk} (packet : OutPacket)
    (wrote : Wrote buffer writer options) (written : values ≠ [])
    (produces : ∀ current, option current =
      Chunk.emit buffer (encodeOptions current
        (values.map (RawOption.mk number)))) :
    Wrote buffer (writer.write packet number option)
      (options ++ packet.rawOption number values) := by
  unfold OptionWriter.write CoapPacket.rawOption
  by_cases present : packet.isOption number
  · rw [if_pos present, if_pos present, produces]
    exact wrote.extend written
  · rw [if_neg present, if_neg present, List.append_nil]
    exact wrote

private theorem serializeOneOption_eq_encodeOptions (value : Bytes) :
    serializeOneOption number current buffer value =
      Chunk.emit buffer
        (encodeOptions current ([value].map (RawOption.mk number))) := by
  rw [serializeOneOption_eq_emit]
  simp [encodeOptions]

theorem Wrote.writeInt (packet : OutPacket) (number : Nat) (field : UInt32)
    (wrote : Wrote buffer writer options) :
    Wrote buffer (writer.writeInt packet buffer number field)
      (options ++ packet.rawOption number [intOptionBytes field]) :=
  wrote.write packet (List.cons_ne_nil _ _) fun current =>
    serializeOneOption_eq_encodeOptions number current (intOptionBytes field)

theorem Wrote.writeBlock (packet : OutPacket) (number : Nat)
    (field : BlockOption) (wrote : Wrote buffer writer options) :
    Wrote buffer (writer.writeBlock packet buffer number field)
      (options ++ packet.rawOption number [blockBytes field]) :=
  wrote.write packet (List.cons_ne_nil _ _) fun current =>
    serializeOneOption_eq_encodeOptions number current (blockBytes field)

theorem Wrote.writeByte (packet : OutPacket) (number : Nat) (field : Bytes)
    (wrote : Wrote buffer writer options) :
    Wrote buffer (writer.writeByte packet buffer number field)
      (options ++ packet.rawOption number [field]) :=
  wrote.write packet (List.cons_ne_nil _ _) fun current =>
    serializeOneOption_eq_encodeOptions number current field

theorem Wrote.writeWhole (packet : OutPacket) (number : Nat)
    (field : CString) (wrote : Wrote buffer writer options) :
    Wrote buffer (writer.writeString packet buffer number field 0)
      (options ++ packet.rawOption number [field.bytes]) :=
  wrote.write packet (List.cons_ne_nil _ _) fun current =>
    serializeOneOption_eq_encodeOptions number current field.bytes

theorem Wrote.writeParts (packet : OutPacket) (number : Nat)
    (field : CString) {splitter : UInt8} (splitting : splitter ≠ 0)
    (inside : packet.isOption number → EndsInside splitter field.bytes)
    (wrote : Wrote buffer writer options) :
    Wrote buffer (writer.writeString packet buffer number field splitter)
      (options ++
        packet.rawOption number (textParts splitter [] field.bytes)) := by
  by_cases present : packet.isOption number
  · exact wrote.write packet (textParts_ne_nil splitter [] field.bytes)
      fun current => coapSerializeArrayOption_eq number current buffer
        splitting (inside present)
  · simpa [OptionWriter.writeString, OptionWriter.write,
      CoapPacket.rawOption, present] using wrote

private theorem coapSerializeAcceptOption_eq (config : CoapConfig)
    (accept : UInt16) (current : Nat) :
    coapSerializeAcceptOption config accept current buffer =
      Chunk.emit buffer (encodeOptions current
        ((versionValues config accept).map
          (RawOption.mk CoapOption.ocfAcceptContentFormatVer))) := by
  unfold coapSerializeAcceptOption versionValues
  split_ifs
  · exact serializeOneOption_eq_encodeOptions _ current _
  · exact serializeOneOption_eq_encodeOptions _ current _
  · exact (Chunk.emit_nil buffer).symm

private theorem coapSerializeContentFormatOption_eq (config : CoapConfig)
    (contentFormat : UInt16) (current : Nat) :
    coapSerializeContentFormatOption config contentFormat current buffer =
      Chunk.emit buffer (encodeOptions current
        ((versionValues config contentFormat).map
          (RawOption.mk CoapOption.ocfContentFormatVer))) := by
  unfold coapSerializeContentFormatOption versionValues
  split_ifs
  · exact serializeOneOption_eq_encodeOptions _ current _
  · exact serializeOneOption_eq_encodeOptions _ current _
  · exact (Chunk.emit_nil buffer).symm

theorem Wrote.serializeVersionOptions_out {config : CoapConfig}
    (aligned : VersionsAligned config packet)
    (wrote : Wrote buffer writer options) :
    (serializeVersionOptions config packet buffer writer).out =
      Chunk.emit buffer
        (encodeOptions 0 (options ++ versionOptions config packet)) := by
  obtain ⟨atNumber, out⟩ := wrote
  unfold serializeVersionOptions versionOptions
  rw [coapSerializeAcceptOption_eq, out, atNumber]
  by_cases accepts : packet.isOption CoapOption.accept
  · by_cases formatted : packet.isOption CoapOption.contentFormat
    · simp only [accepts, formatted, if_true]
      rw [coapSerializeContentFormatOption_eq, Chunk.emit_append,
        Chunk.emit_append, encodeOptions_append, encodeOptions_append,
        List.append_assoc]
      by_cases versioned : versionValues config packet.contentFormat = []
      · simp [versioned, encodeOptions]
      · rw [lastNumber_map _ _ _ (aligned accepts formatted versioned)]
    · simp only [accepts, formatted, if_true, Bool.false_eq_true, if_false]
      rw [Chunk.emit_append, List.append_nil, encodeOptions_append]
  · by_cases formatted : packet.isOption CoapOption.contentFormat
    · simp only [accepts, formatted, if_true, Bool.false_eq_true, if_false]
      rw [out, atNumber, coapSerializeContentFormatOption_eq,
        Chunk.emit_append, List.nil_append, encodeOptions_append]
    · simp [accepts, formatted, out]

end Writers

/-- The texts that are cut into parts do not end in their separator. -/
def TextsEndInside (packet : OutPacket) : Prop :=
  (packet.isOption CoapOption.uriPath →
    EndsInside 47 packet.uriPath.bytes) ∧
  (packet.isOption CoapOption.uriQuery →
    EndsInside 38 packet.uriQuery.bytes)

/-- No signal message: signals have options of their own. -/
def NoSignal (config : CoapConfig) (code : UInt8) : Prop :=
  (if config.ocTcp then coapSignal code else none) = none

instance (config : CoapConfig) (code : UInt8) :
    Decidable (NoSignal config code) :=
  inferInstanceAs (Decidable (_ = _))

theorem coapSerializeOptions_eq {config : CoapConfig} {packet : OutPacket}
    (buffer : Bool) (plain : NoSignal config packet.code)
    (aligned : VersionsAligned config packet)
    (texts : TextsEndInside packet) :
    coapSerializeOptions config packet buffer true true false =
      Chunk.emit buffer (encodeOptions 0 (rawOptions config packet)) := by
  have base := (wrote_start buffer)
    |>.writeWhole packet CoapOption.uriHost packet.uriHost
    |>.writeByte packet CoapOption.etag packet.etag
    |>.writeInt packet CoapOption.observe packet.observe.toUInt32
    |>.writeInt packet CoapOption.uriPort packet.uriPort.toUInt32
    |>.writeParts packet CoapOption.uriPath packet.uriPath (by decide) texts.1
    |>.writeInt packet CoapOption.contentFormat packet.contentFormat.toUInt32
    |>.writeInt packet CoapOption.maxAge packet.maxAge
    |>.writeParts packet CoapOption.uriQuery packet.uriQuery (by decide) texts.2
    |>.writeInt packet CoapOption.accept packet.accept.toUInt32
    |>.writeBlock packet CoapOption.block2 packet.block2
    |>.writeBlock packet CoapOption.block1 packet.block1
    |>.writeInt packet CoapOption.size2 packet.size2
    |>.writeWhole packet CoapOption.proxyUri packet.proxyUri
    |>.writeInt packet CoapOption.size1 packet.size1
  unfold NoSignal at plain
  unfold coapSerializeOptions
  rw [plain]
  simp only [if_true, Bool.false_eq_true, false_and, and_false, if_false]
  exact base.serializeVersionOptions_out aligned

private theorem isOption_of_none (none : packet.options = 0) (number : Nat) :
    packet.isOption number = false := by
  simp [CoapPacket.isOption, none]

theorem rawOptions_of_none (config : CoapConfig) (none : packet.options = 0) :
    rawOptions config packet = [] := by
  simp [rawOptions, baseOptions, versionOptions, CoapPacket.rawOption,
    isOption_of_none none]

theorem coapSerializeOptions_of_none (config : CoapConfig) (buffer : Bool)
    (none : packet.options = 0) (aligned : VersionsAligned config packet)
    (texts : TextsEndInside packet) :
    coapSerializeOptions config packet buffer true true false =
      Chunk.emit buffer (encodeOptions 0 (rawOptions config packet)) := by
  by_cases plain : NoSignal config packet.code
  · exact coapSerializeOptions_eq buffer plain aligned texts
  · unfold NoSignal at plain
    obtain ⟨signal, isSignal⟩ := Option.ne_none_iff_exists'.mp plain
    unfold coapSerializeOptions
    rw [isSignal, rawOptions_of_none config none, encodeOptions, Chunk.emit_nil]
    cases signal <;>
      simp [coapSerializeSignalOptions, OptionWriter.writeInt,
        OptionWriter.writeString, OptionWriter.write, isOption_of_none none,
        OptionWriter.start]

end IotivityLite
