import IotivityLite.Coap.OptionSemantics

/-!
# Delivering the options of a packet

The packets made by the initialisers and the setters, and what a receiver
ends up with when the options of such a packet arrive one after the other.
-/

namespace IotivityLite

/-- The options the setters can set. -/
def settableOptions : List Nat :=
  [CoapOption.etag, CoapOption.observe, CoapOption.uriPath,
    CoapOption.contentFormat, CoapOption.maxAge, CoapOption.uriQuery,
    CoapOption.accept, CoapOption.block2, CoapOption.block1,
    CoapOption.size2, CoapOption.proxyUri, CoapOption.size1]

/-- What holds of every packet made by the setters: only some options can be
present, the fields of absent options keep their initial values, and some
fields are bounded. -/
structure Prepared (config : CoapConfig) (packet : OutPacket) : Prop where
  settable : ∀ number, packet.isOption number → number ∈ settableOptions
  etag : packet.isOption CoapOption.etag ∨ packet.etag = []
  observe : packet.isOption CoapOption.observe ∨ packet.observe = 0
  uriPath : packet.isOption CoapOption.uriPath ∨ packet.uriPath.bytes = []
  contentFormat :
    packet.isOption CoapOption.contentFormat ∨ packet.contentFormat = 0
  maxAge : packet.isOption CoapOption.maxAge ∨ packet.maxAge = 0
  uriQuery : packet.isOption CoapOption.uriQuery ∨ packet.uriQuery.bytes = []
  accept : packet.isOption CoapOption.accept ∨ packet.accept = 0
  block2 : packet.isOption CoapOption.block2 ∨ packet.block2 = ⟨0, 0, 0, 0⟩
  block1 : packet.isOption CoapOption.block1 ∨ packet.block1 = ⟨0, 0, 0, 0⟩
  size2 : packet.isOption CoapOption.size2 ∨ packet.size2 = 0
  proxyUri : packet.isOption CoapOption.proxyUri ∨ packet.proxyUri.bytes = []
  size1 : packet.isOption CoapOption.size1 ∨ packet.size1 = 0
  untouched : (packet.version, packet.uriHost.bytes, packet.uriPort,
      packet.maxMsgSize, packet.blockwiseTransfer, packet.custody,
      packet.altAddr.bytes, packet.holdOff, packet.badCsmOpt,
      packet.oscoreFlags, packet.piv, packet.kidCtx, packet.kid) =
    (0, [], 0, 0, 0, 0, [], 0, 0, 0, [], [], [])
  token_le : packet.token.length ≤ coapTokenLen
  etag_le : packet.etag.length ≤ coapEtagLen
  path_head : packet.uriPath.bytes.head? ≠ some 47
  block2_num_le : packet.block2.num.toNat ≤ 0xFFFFF
  block1_num_le : packet.block1.num.toNat ≤ 0xFFFFF
  tcp : packet.transportType = .tcp →
    config.ocTcp = true ∧ packet.type = .non ∧ packet.mid = 0

section Setters

variable {config : CoapConfig} {packet : OutPacket}

theorem isOption_setOption_of (number candidate : Nat)
    (present : packet.isOption candidate) :
    (packet.setOption number).isOption candidate := by
  rw [CoapPacket.isOption_setOption, present]
  rfl

theorem isOption_setOption_self {number : Nat} (small : number < 64) :
    (packet.setOption number).isOption number := by
  simp [small]

theorem Prepared.setOption {number : Nat} (prepared : Prepared config packet)
    (membership : number ∈ settableOptions) :
    Prepared config (packet.setOption number) where
  settable := by
    intro candidate present
    rw [CoapPacket.isOption_setOption, Bool.or_eq_true,
      Bool.and_eq_true, decide_eq_true_eq, decide_eq_true_eq] at present
    rcases present with already | ⟨-, rfl⟩
    · exact prepared.settable candidate already
    · exact membership
  etag := prepared.etag.imp_left (isOption_setOption_of number _)
  observe := prepared.observe.imp_left (isOption_setOption_of number _)
  uriPath := prepared.uriPath.imp_left (isOption_setOption_of number _)
  contentFormat :=
    prepared.contentFormat.imp_left (isOption_setOption_of number _)
  maxAge := prepared.maxAge.imp_left (isOption_setOption_of number _)
  uriQuery := prepared.uriQuery.imp_left (isOption_setOption_of number _)
  accept := prepared.accept.imp_left (isOption_setOption_of number _)
  block2 := prepared.block2.imp_left (isOption_setOption_of number _)
  block1 := prepared.block1.imp_left (isOption_setOption_of number _)
  size2 := prepared.size2.imp_left (isOption_setOption_of number _)
  proxyUri := prepared.proxyUri.imp_left (isOption_setOption_of number _)
  size1 := prepared.size1.imp_left (isOption_setOption_of number _)
  untouched := prepared.untouched
  token_le := prepared.token_le
  etag_le := prepared.etag_le
  path_head := prepared.path_head
  block2_num_le := prepared.block2_num_le
  block1_num_le := prepared.block1_num_le
  tcp := prepared.tcp

private theorem head?_dropWhile_ne (separator : UInt8) (bytes : Bytes) :
    (bytes.dropWhile (· == separator)).head? ≠ some separator := by
  intro starts
  have kept := List.head?_dropWhile_not (· == separator) bytes
  rw [starts] at kept
  simp at kept

theorem Prepared.apply (prepared : Prepared config packet)
    (setter : CoapSetter) : Prepared config (setter.apply config packet) := by
  cases setter with
  | token value =>
      exact { prepared with
        token_le := by simp [CoapSetter.apply, coapSetToken] }
  | payload value fits => exact { prepared with }
  | contentFormat format =>
      exact { prepared.setOption (by decide) with
        contentFormat := .inl (isOption_setOption_self (by decide)) }
  | accept accept =>
      exact { prepared.setOption (by decide) with
        accept := .inl (isOption_setOption_self (by decide)) }
  | maxAge age =>
      exact { prepared.setOption (by decide) with
        maxAge := .inl (isOption_setOption_self (by decide)) }
  | etag etag =>
      exact { prepared.setOption (by decide) with
        etag := .inl (isOption_setOption_self (by decide))
        etag_le := by
          simp [CoapSetter.apply, coapOptionsSetEtag, CoapPacket.setOption] }
  | proxyUri uri =>
      exact { prepared.setOption (by decide) with
        proxyUri := .inl (isOption_setOption_self (by decide)) }
  | uriPath path =>
      exact { prepared.setOption (by decide) with
        uriPath := .inl (isOption_setOption_self (by decide))
        path_head := head?_dropWhile_ne 47 path.bytes }
  | uriQuery query =>
      exact { prepared.setOption (by decide) with
        uriQuery := .inl (isOption_setOption_self (by decide)) }
  | size1 size =>
      exact { prepared.setOption (by decide) with
        size1 := .inl (isOption_setOption_self (by decide)) }
  | size2 size =>
      exact { prepared.setOption (by decide) with
        size2 := .inl (isOption_setOption_self (by decide)) }
  | observe observe =>
      exact { prepared.setOption (by decide) with
        observe := .inl (isOption_setOption_self (by decide)) }
  | block1 num more size offset =>
      rw [CoapSetter.apply, coapOptionsSetBlock1]
      by_cases large : num > 0x0FFFFF
      · rw [if_pos large]
        exact prepared
      · by_cases wrong : size < 16 ∨ size > 2048
        · rw [if_neg large, if_pos wrong]
          exact prepared
        · rw [if_neg large, if_neg wrong]
          exact { prepared.setOption (by decide) with
            block1 := .inl (isOption_setOption_self (by decide))
            block1_num_le := UInt32.not_lt.mp large }
  | block2 num more size offset =>
      rw [CoapSetter.apply, coapOptionsSetBlock2]
      by_cases large : num > 0x0FFFFF
      · rw [if_pos large]
        exact prepared
      · by_cases wrong : size < 16 ∨ size > 2048
        · rw [if_neg large, if_pos wrong]
          exact prepared
        · rw [if_neg large, if_neg wrong]
          exact { prepared.setOption (by decide) with
            block2 := .inl (isOption_setOption_self (by decide))
            block2_num_le := UInt32.not_lt.mp large }

theorem Built.prepared (built : Built config packet) :
    Prepared config packet := by
  induction built with
  | udp type code mid =>
      constructor <;> simp [coapUdpInitMessage, CoapPacket.zero,
        CoapPacket.isOption, CString.null]
  | tcp enabled code =>
      constructor <;> simp [coapTcpInitMessage, CoapPacket.zero,
        CoapPacket.isOption, CString.null, enabled]
  | set setter _ ih => exact ih.apply setter

end Setters

/-- The packets that come back unchanged.  Each field names a reason why a
message is not meant to carry everything the setters accept: an empty message
is only a header, a signal has options of its own, the parser has a list of
content formats, and a block option has room for a size exponent only. -/
structure Transmissible (config : CoapConfig) (packet : OutPacket) :
    Prop where
  code : packet.code ≠ 0 ∨
    (packet.token = [] ∧ packet.options = 0 ∧ packet.payload.bytes = [])
  signal : packet.options = 0 ∨ NoSignal config packet.code
  contentFormat : packet.isOption CoapOption.contentFormat →
    coapParseIsValidContentFormatOption config packet.contentFormat.toUInt32
  accept : packet.isOption CoapOption.accept →
    coapParseIsValidAcceptOption config packet.accept.toUInt32
  aligned : VersionsAligned config packet
  block1 : packet.isOption CoapOption.block1 → packet.block1.Encodable
  block2 : packet.isOption CoapOption.block2 → packet.block2.Encodable
  path : packet.isOption CoapOption.uriPath →
    EndsInside 47 packet.uriPath.bytes
  query : packet.isOption CoapOption.uriQuery →
    EndsInside 38 packet.uriQuery.bytes
  query_head : packet.uriQuery.bytes.head? ≠ some 38

/-- Taking over one bit of the option bitmap. -/
def CoapPacket.carry (value : ValuePacket) (packet : OutPacket)
    (number : Nat) : ValuePacket :=
  { value with
    options := value.options ||| (packet.options &&& BitVec.twoPow 64 number) }

section Receive

variable {config : CoapConfig} {packet : OutPacket} {value : ValuePacket}
  {number : Nat}

private theorem noteOption_eq_carry (small : number ≤ CoapOption.size1)
    (present : packet.isOption number) :
    value.noteOption number = value.carry packet number := by
  unfold CoapPacket.isOption at present
  have bit : packet.options &&& BitVec.twoPow 64 number =
      BitVec.twoPow 64 number := by
    rw [BitVec.and_twoPow, if_pos present]
  unfold CoapPacket.noteOption CoapPacket.carry
  rw [if_pos small, bit]
  rfl

private theorem noteOption_noteOption (number : Nat) :
    (value.noteOption number).noteOption number = value.noteOption number := by
  unfold CoapPacket.noteOption
  split_ifs
  · simp [CoapPacket.setOption, BitVec.or_assoc]
  · rfl

private theorem carry_absent (absent : ¬ packet.isOption number) :
    value.carry packet number = value := by
  unfold CoapPacket.isOption at absent
  have bit : packet.options &&& BitVec.twoPow 64 number = 0#64 := by
    rw [BitVec.and_twoPow, if_neg absent]
  unfold CoapPacket.carry
  rw [bit, BitVec.or_zero]

theorem receiveOptions_append (config : CoapConfig) (value : ValuePacket)
    (first second : List RawOption) :
    receiveOptions config value (first ++ second) =
      (receiveOptions config value first).bind
        (receiveOptions config · second) := by
  unfold receiveOptions
  rw [List.foldlM_append]
  rfl

private theorem receive_rawOption {number : Nat} {option : Bytes}
    {update : ValuePacket → ValuePacket} (small : number ≤ CoapOption.size1)
    (present : packet.isOption number →
      receiveKind config (value.carry packet number) (coapOptionKind number)
        option = some (update (value.carry packet number)))
    (absent : ¬ packet.isOption number → update value = value) :
    receiveOptions config value (packet.rawOption number [option]) =
      some (update (value.carry packet number)) := by
  unfold CoapPacket.rawOption
  by_cases set : packet.isOption number
  · rw [if_pos set]
    have one : receiveOptions config value
        ([option].map (RawOption.mk number)) =
        receiveOption config value ⟨number, option⟩ := by
      simp [receiveOptions]
    rw [one, receiveOption, noteOption_eq_carry small set]
    exact present set
  · rw [if_neg set, carry_absent set, absent set]
    rfl

private theorem receiveInt_intOptionBytes {number : UInt32}
    {accepted : UInt32 → Bool} {store : UInt32 → ValuePacket}
    (allowed : accepted number) :
    receiveInt (intOptionBytes number) accepted store =
      some (store number) := by
  unfold receiveInt
  rw [coapParseIntOption_intOptionBytes]
  exact if_pos allowed

private theorem receive_parts {number : Nat} {separator : UInt8}
    {get : ValuePacket → Bytes} {set : ValuePacket → Bytes → ValuePacket}
    (kind : ∀ value part,
      receiveKind config value (coapOptionKind number) part =
        some (set value (mergeText separator (get value) part)))
    (get_set : ∀ value text, get (set value text) = text)
    (set_set : ∀ value text other,
      set (set value text) other = set value other)
    (note_set : ∀ value text, (set value text).noteOption number =
      set (value.noteOption number) text)
    (get_note : ∀ value, get (value.noteOption number) = get value)
    (part : Bytes) (parts : List Bytes) (value : ValuePacket) :
    receiveOptions config value
        ((part :: parts).map (RawOption.mk number)) =
      some (set (value.noteOption number)
        ((part :: parts).foldl (mergeText separator) (get value))) := by
  induction parts generalizing part value with
  | nil =>
      simp [receiveOptions, receiveOption, kind, get_note]
  | cons next parts ih =>
      have first : receiveOption config value ⟨number, part⟩ =
          some (set (value.noteOption number)
            (mergeText separator (get value) part)) := by
        rw [receiveOption, kind, get_note]
      have rest := ih next (set (value.noteOption number)
        (mergeText separator (get value) part))
      rw [note_set, noteOption_noteOption, set_set, get_set] at rest
      have split : receiveOptions config value
          ((part :: next :: parts).map (RawOption.mk number)) =
        (receiveOption config value ⟨number, part⟩).bind
          (receiveOptions config ·
            ((next :: parts).map (RawOption.mk number))) := by
        simp [receiveOptions]
      rw [split, first]
      exact rest

private theorem receive_uriPath (prepared : Prepared config packet)
    (inside : packet.isOption CoapOption.uriPath →
      EndsInside 47 packet.uriPath.bytes)
    (blank : value.uriPath = []) :
    receiveOptions config value (packet.rawOption CoapOption.uriPath
        (textParts 47 [] packet.uriPath.bytes)) =
      some { value.carry packet CoapOption.uriPath with
        uriPath := packet.uriPath.bytes } := by
  unfold CoapPacket.rawOption
  by_cases set : packet.isOption CoapOption.uriPath
  · have joined := foldl_mergeText_textParts_nil prepared.path_head
      (inside set)
    obtain ⟨part, parts, cut⟩ :=
      List.exists_cons_of_ne_nil (textParts_ne_nil 47 [] packet.uriPath.bytes)
    have received := @receive_parts config CoapOption.uriPath 47
      (fun value => value.uriPath)
      (fun value text => { value with uriPath := text })
      (fun _ _ => rfl) (fun _ _ => rfl) (fun _ _ _ => rfl) (fun _ _ => rfl)
      (fun _ => rfl) part parts value
    rw [if_pos set]
    rw [cut] at joined ⊢
    simp only [blank, joined] at received
    rw [received, noteOption_eq_carry (by decide) set]
  · rw [if_neg set, carry_absent set, prepared.uriPath.resolve_left set,
      ← blank]
    rfl

private theorem receive_uriQuery (prepared : Prepared config packet)
    (inside : packet.isOption CoapOption.uriQuery →
      EndsInside 38 packet.uriQuery.bytes)
    (head : packet.uriQuery.bytes.head? ≠ some 38)
    (blank : value.uriQuery = []) :
    receiveOptions config value (packet.rawOption CoapOption.uriQuery
        (textParts 38 [] packet.uriQuery.bytes)) =
      some { value.carry packet CoapOption.uriQuery with
        uriQuery := packet.uriQuery.bytes } := by
  unfold CoapPacket.rawOption
  by_cases set : packet.isOption CoapOption.uriQuery
  · have joined := foldl_mergeText_textParts_nil head (inside set)
    obtain ⟨part, parts, cut⟩ := List.exists_cons_of_ne_nil
      (textParts_ne_nil 38 [] packet.uriQuery.bytes)
    have received := @receive_parts config CoapOption.uriQuery 38
      (fun value => value.uriQuery)
      (fun value text => { value with uriQuery := text })
      (fun _ _ => rfl) (fun _ _ => rfl) (fun _ _ _ => rfl) (fun _ _ => rfl)
      (fun _ => rfl) part parts value
    rw [if_pos set]
    rw [cut] at joined ⊢
    simp only [blank, joined] at received
    rw [received, noteOption_eq_carry (by decide) set]
  · rw [if_neg set, carry_absent set, prepared.uriQuery.resolve_left set,
      ← blank]
    rfl

/-- The bits of the option bitmap up to a given number. -/
def optionsUpTo (packet : OutPacket) (limit : Nat) : BitVec 64 :=
  (packet.options.setWidth (limit + 1)).setWidth 64

/-- A packet after the options up to a given number have arrived. -/
def receivedUpTo (base : ValuePacket) (packet : OutPacket) (limit : Nat) :
    ValuePacket :=
  { base with
    options := optionsUpTo packet limit
    etag := if CoapOption.etag ≤ limit then packet.etag else base.etag
    observe :=
      if CoapOption.observe ≤ limit then packet.observe else base.observe
    uriPath := if CoapOption.uriPath ≤ limit then packet.uriPath.bytes
      else base.uriPath
    contentFormat :=
      if CoapOption.contentFormat ≤ limit then packet.contentFormat
      else base.contentFormat
    maxAge := if CoapOption.maxAge ≤ limit then packet.maxAge else base.maxAge
    uriQuery := if CoapOption.uriQuery ≤ limit then packet.uriQuery.bytes
      else base.uriQuery
    accept := if CoapOption.accept ≤ limit then packet.accept else base.accept
    block2 := if CoapOption.block2 ≤ limit then packet.block2 else base.block2
    block1 := if CoapOption.block1 ≤ limit then packet.block1 else base.block1
    size2 := if CoapOption.size2 ≤ limit then packet.size2 else base.size2
    proxyUri := if CoapOption.proxyUri ≤ limit then packet.proxyUri.bytes
      else base.proxyUri
    size1 := if CoapOption.size1 ≤ limit then packet.size1 else base.size1 }

/-- A packet before any option has been read. -/
structure Blank (value : ValuePacket) : Prop where
  options : value.options = 0
  etag : value.etag = []
  observe : value.observe = 0
  uriPath : value.uriPath = []
  contentFormat : value.contentFormat = 0
  maxAge : value.maxAge = 0
  uriQuery : value.uriQuery = []
  accept : value.accept = 0
  block2 : value.block2 = ⟨0, 0, 0, 0⟩
  block1 : value.block1 = ⟨0, 0, 0, 0⟩
  size2 : value.size2 = 0
  proxyUri : value.proxyUri = []
  size1 : value.size1 = 0

private theorem rawOption_absent (values : List Bytes)
    (prepared : Prepared config packet) (other : number ∉ settableOptions) :
    packet.rawOption number values = [] := by
  unfold CoapPacket.rawOption
  rw [if_neg]
  intro present
  exact other (prepared.settable number present)

section

variable (prepared : Prepared config packet)

include prepared

private theorem receive_etag (blank : value.etag = []) :
    receiveOptions config value
        (packet.rawOption CoapOption.etag [packet.etag]) =
      some { value.carry packet CoapOption.etag with etag := packet.etag } := by
  refine @receive_rawOption config packet value _ _
    (fun value => { value with etag := packet.etag }) (by decide) ?_ ?_
  · intro _
    have whole : packet.etag.take coapEtagLen = packet.etag :=
      List.take_of_length_le prepared.etag_le
    change some _ = some _
    rw [whole]
  · intro absent
    simp only [prepared.etag.resolve_left absent, ← blank]

private theorem receive_proxyUri (blank : value.proxyUri = []) :
    receiveOptions config value
        (packet.rawOption CoapOption.proxyUri [packet.proxyUri.bytes]) =
      some { value.carry packet CoapOption.proxyUri with
        proxyUri := packet.proxyUri.bytes } := by
  refine @receive_rawOption config packet value _ _
    (fun value => { value with proxyUri := packet.proxyUri.bytes })
    (by decide) ?_ ?_
  · intro _
    rfl
  · intro absent
    simp only [prepared.proxyUri.resolve_left absent, ← blank]

private theorem receive_observe (blank : value.observe = 0) :
    receiveOptions config value (packet.rawOption CoapOption.observe
        [intOptionBytes packet.observe.toUInt32]) =
      some { value.carry packet CoapOption.observe with
        observe := packet.observe } := by
  refine @receive_rawOption config packet value _ _
    (fun value => { value with observe := packet.observe }) (by decide) ?_ ?_
  · intro _
    exact receiveInt_intOptionBytes rfl
  · intro absent
    simp only [prepared.observe.resolve_left absent, ← blank]

private theorem receive_contentFormat
    (valid : packet.isOption CoapOption.contentFormat →
      coapParseIsValidContentFormatOption config
        packet.contentFormat.toUInt32) (blank : value.contentFormat = 0) :
    receiveOptions config value (packet.rawOption CoapOption.contentFormat
        [intOptionBytes packet.contentFormat.toUInt32]) =
      some { value.carry packet CoapOption.contentFormat with
        contentFormat := packet.contentFormat } := by
  refine @receive_rawOption config packet value _ _
    (fun value => { value with contentFormat := packet.contentFormat })
    (by decide) ?_ ?_
  · intro present
    have back : packet.contentFormat.toUInt32.toUInt16 =
        packet.contentFormat := UInt16.toUInt16_toUInt32 _
    refine (receiveInt_intOptionBytes (valid present)).trans ?_
    rw [back]
  · intro absent
    simp only [prepared.contentFormat.resolve_left absent, ← blank]

private theorem receive_accept
    (valid : packet.isOption CoapOption.accept →
      coapParseIsValidAcceptOption config packet.accept.toUInt32)
    (blank : value.accept = 0) :
    receiveOptions config value (packet.rawOption CoapOption.accept
        [intOptionBytes packet.accept.toUInt32]) =
      some { value.carry packet CoapOption.accept with
        accept := packet.accept } := by
  refine @receive_rawOption config packet value _ _
    (fun value => { value with accept := packet.accept }) (by decide) ?_ ?_
  · intro present
    have back : packet.accept.toUInt32.toUInt16 = packet.accept :=
      UInt16.toUInt16_toUInt32 _
    refine (receiveInt_intOptionBytes (valid present)).trans ?_
    rw [back]
  · intro absent
    simp only [prepared.accept.resolve_left absent, ← blank]

private theorem receive_maxAge (blank : value.maxAge = 0) :
    receiveOptions config value
        (packet.rawOption CoapOption.maxAge [intOptionBytes packet.maxAge]) =
      some { value.carry packet CoapOption.maxAge with
        maxAge := packet.maxAge } := by
  refine @receive_rawOption config packet value _ _
    (fun value => { value with maxAge := packet.maxAge }) (by decide) ?_ ?_
  · intro _
    exact receiveInt_intOptionBytes rfl
  · intro absent
    simp only [prepared.maxAge.resolve_left absent, ← blank]

private theorem receive_size2 (blank : value.size2 = 0) :
    receiveOptions config value
        (packet.rawOption CoapOption.size2 [intOptionBytes packet.size2]) =
      some { value.carry packet CoapOption.size2 with
        size2 := packet.size2 } := by
  refine @receive_rawOption config packet value _ _
    (fun value => { value with size2 := packet.size2 }) (by decide) ?_ ?_
  · intro _
    exact receiveInt_intOptionBytes rfl
  · intro absent
    simp only [prepared.size2.resolve_left absent, ← blank]

private theorem receive_size1 (blank : value.size1 = 0) :
    receiveOptions config value
        (packet.rawOption CoapOption.size1 [intOptionBytes packet.size1]) =
      some { value.carry packet CoapOption.size1 with
        size1 := packet.size1 } := by
  refine @receive_rawOption config packet value _ _
    (fun value => { value with size1 := packet.size1 }) (by decide) ?_ ?_
  · intro _
    exact receiveInt_intOptionBytes rfl
  · intro absent
    simp only [prepared.size1.resolve_left absent, ← blank]

end

private theorem setOption_carry {number : Nat}
    (small : number ≤ CoapOption.size1) (present : packet.isOption number) :
    (value.carry packet number).setOption number =
      value.carry packet number := by
  have marks : ∀ other : ValuePacket,
      other.setOption number = other.noteOption number := by
    intro other
    exact (if_pos small).symm
  rw [marks, ← noteOption_eq_carry small present, noteOption_noteOption]

private theorem receive_block2 (prepared : Prepared config packet)
    (encodable : packet.isOption CoapOption.block2 →
      packet.block2.Encodable)
    (blank : value.block2 = ⟨0, 0, 0, 0⟩) :
    receiveOptions config value
        (packet.rawOption CoapOption.block2 [blockBytes packet.block2]) =
      some { value.carry packet CoapOption.block2 with
        block2 := packet.block2 } := by
  refine @receive_rawOption config packet value _ _
    (fun value => { value with block2 := packet.block2 }) (by decide) ?_ ?_
  · intro present
    have decoded := coapOptionsBlockDecode_encode prepared.block2_num_le
      (encodable present)
    refine (receiveInt_intOptionBytes rfl).trans ?_
    rw [decoded]
    have marked := @setOption_carry packet
      { value with block2 := packet.block2 } _ (by decide) present
    exact congrArg some marked
  · intro absent
    simp only [prepared.block2.resolve_left absent, ← blank]

private theorem receive_block1 (prepared : Prepared config packet)
    (encodable : packet.isOption CoapOption.block1 →
      packet.block1.Encodable)
    (blank : value.block1 = ⟨0, 0, 0, 0⟩) :
    receiveOptions config value
        (packet.rawOption CoapOption.block1 [blockBytes packet.block1]) =
      some { value.carry packet CoapOption.block1 with
        block1 := packet.block1 } := by
  refine @receive_rawOption config packet value _ _
    (fun value => { value with block1 := packet.block1 }) (by decide) ?_ ?_
  · intro present
    have decoded := coapOptionsBlockDecode_encode prepared.block1_num_le
      (encodable present)
    refine (receiveInt_intOptionBytes rfl).trans ?_
    rw [decoded]
    have marked := @setOption_carry packet
      { value with block1 := packet.block1 } _ (by decide) present
    exact congrArg some marked
  · intro absent
    simp only [prepared.block1.resolve_left absent, ← blank]

private theorem receiveOptions_trans {next last : ValuePacket}
    {first second : List RawOption}
    (head : receiveOptions config value first = some next)
    (tail : receiveOptions config next second = some last) :
    receiveOptions config value (first ++ second) = some last := by
  rw [receiveOptions_append, head]
  exact tail

private theorem optionsUpTo_next {limit next : Nat}
    (prepared : Prepared config packet)
    (neighbours : ∀ number ∈ settableOptions,
      number ≤ next ↔ number ≤ limit ∨ number = next) :
    optionsUpTo packet limit |||
        (packet.options &&& BitVec.twoPow 64 next) =
      optionsUpTo packet next := by
  apply BitVec.eq_of_getLsbD_eq
  intro index below
  by_cases present : packet.isOption index
  · have split := neighbours index (prepared.settable index present)
    unfold CoapPacket.isOption at present
    rw [Bool.eq_iff_iff]
    simp [optionsUpTo, present, below]
    omega
  · unfold CoapPacket.isOption at present
    simp [optionsUpTo, present]

private theorem optionsUpTo_none (prepared : Prepared config packet) :
    optionsUpTo packet 0 = 0 := by
  apply BitVec.eq_of_getLsbD_eq
  intro index below
  by_cases present : packet.isOption index
  · have listed : ∀ number ∈ settableOptions, 0 < number := by decide
    have positive := listed index (prepared.settable index present)
    simp [optionsUpTo]
    omega
  · unfold CoapPacket.isOption at present
    simp [optionsUpTo, present]

theorem optionsUpTo_all (prepared : Prepared config packet) :
    optionsUpTo packet CoapOption.size1 = packet.options := by
  apply BitVec.eq_of_getLsbD_eq
  intro index below
  by_cases present : packet.isOption index
  · have listed : ∀ number ∈ settableOptions, number < 61 := by decide
    have small : index < CoapOption.size1 + 1 :=
      listed index (prepared.settable index present)
    simp [optionsUpTo, below, small]
  · unfold CoapPacket.isOption at present
    simp [optionsUpTo, present]

private theorem receivedUpTo_next {base : ValuePacket} {limit next : Nat}
    {options : List RawOption} {update : ValuePacket → ValuePacket}
    (prepared : Prepared config packet)
    (arrived : receiveOptions config (receivedUpTo base packet limit)
      options = some (update ((receivedUpTo base packet limit).carry packet
        next)))
    (neighbours : ∀ number ∈ settableOptions,
      number ≤ next ↔ number ≤ limit ∨ number = next)
    (updated : update { receivedUpTo base packet limit with
      options := optionsUpTo packet next } =
        receivedUpTo base packet next) :
    receiveOptions config (receivedUpTo base packet limit) options =
      some (receivedUpTo base packet next) := by
  have carried : (receivedUpTo base packet limit).carry packet next =
      { receivedUpTo base packet limit with
        options := optionsUpTo packet next } := by
    rw [← optionsUpTo_next prepared neighbours]
    rfl
  rw [arrived, carried, updated]

theorem receive_baseOptions (prepared : Prepared config packet)
    (transmissible : Transmissible config packet) (blank : Blank value) :
    receiveOptions config (receivedUpTo value packet 0) (baseOptions packet) =
      some (receivedUpTo value packet CoapOption.size1) := by
  have etag := @receivedUpTo_next config packet value 0 _ _
    (fun next => { next with etag := packet.etag }) prepared
    (receive_etag prepared blank.etag) (by decide) rfl
  have observe := @receivedUpTo_next config packet value CoapOption.etag _ _
    (fun next => { next with observe := packet.observe }) prepared
    (receive_observe prepared blank.observe) (by decide) rfl
  have uriPath := @receivedUpTo_next config packet value CoapOption.observe _ _
    (fun next => { next with uriPath := packet.uriPath.bytes }) prepared
    (receive_uriPath prepared transmissible.path
      blank.uriPath) (by decide) rfl
  have contentFormat := @receivedUpTo_next config packet value
    CoapOption.uriPath _ _
    (fun next => { next with contentFormat := packet.contentFormat })
    prepared (receive_contentFormat prepared transmissible.contentFormat
      blank.contentFormat) (by decide) rfl
  have maxAge := @receivedUpTo_next config packet value
    CoapOption.contentFormat _ _
    (fun next => { next with maxAge := packet.maxAge }) prepared
    (receive_maxAge prepared blank.maxAge) (by decide) rfl
  have uriQuery := @receivedUpTo_next config packet value
    CoapOption.maxAge _ _
    (fun next => { next with uriQuery := packet.uriQuery.bytes }) prepared
    (receive_uriQuery prepared transmissible.query transmissible.query_head
      blank.uriQuery) (by decide) rfl
  have accept := @receivedUpTo_next config packet value CoapOption.uriQuery _ _
    (fun next => { next with accept := packet.accept }) prepared
    (receive_accept prepared transmissible.accept
      blank.accept) (by decide) rfl
  have block2 := @receivedUpTo_next config packet value CoapOption.accept _ _
    (fun next => { next with block2 := packet.block2 }) prepared
    (receive_block2 prepared transmissible.block2
      blank.block2) (by decide) rfl
  have block1 := @receivedUpTo_next config packet value CoapOption.block2 _ _
    (fun next => { next with block1 := packet.block1 }) prepared
    (receive_block1 prepared transmissible.block1
      blank.block1) (by decide) rfl
  have size2 := @receivedUpTo_next config packet value CoapOption.block1 _ _
    (fun next => { next with size2 := packet.size2 }) prepared
    (receive_size2 prepared blank.size2) (by decide) rfl
  have proxyUri := @receivedUpTo_next config packet value CoapOption.size2 _ _
    (fun next => { next with proxyUri := packet.proxyUri.bytes }) prepared
    (receive_proxyUri prepared blank.proxyUri) (by decide) rfl
  have size1 := @receivedUpTo_next config packet value CoapOption.proxyUri _ _
    (fun next => { next with size1 := packet.size1 }) prepared
    (receive_size1 prepared blank.size1) (by decide) rfl
  unfold baseOptions
  rw [rawOption_absent _ prepared (by decide : CoapOption.uriHost ∉ _),
    rawOption_absent _ prepared (by decide : CoapOption.uriPort ∉ _),
    List.append_nil, List.nil_append]
  refine receiveOptions_trans ?_ size1
  refine receiveOptions_trans ?_ proxyUri
  refine receiveOptions_trans ?_ size2
  refine receiveOptions_trans ?_ block1
  refine receiveOptions_trans ?_ block2
  refine receiveOptions_trans ?_ accept
  refine receiveOptions_trans ?_ uriQuery
  refine receiveOptions_trans ?_ maxAge
  refine receiveOptions_trans ?_ contentFormat
  refine receiveOptions_trans ?_ uriPath
  exact receiveOptions_trans etag observe

private theorem receive_versionValues (format : UInt16)
    (kind : coapOptionKind number = .contentFormatVer ∨
      coapOptionKind number = .acceptVer) (large : CoapOption.size1 < number) :
    receiveOptions config value
      ((versionValues config format).map (RawOption.mk number)) =
        some value := by
  have unmarked : value.noteOption number = value := by
    unfold CoapPacket.noteOption
    rw [if_neg (Nat.not_le.mpr large)]
  have one : ∀ version : UInt32, 2048 ≤ version →
      receiveOptions config value [⟨number, intOptionBytes version⟩] =
        some value := by
    intro version supported
    have accepted : isSupportedVersion config (some version) := by
      simp [isSupportedVersion, supported]
    have step : receiveOption config value
        ⟨number, intOptionBytes version⟩ = some value := by
      unfold receiveOption
      rw [unmarked]
      rcases kind with format | accept
      · rw [format, receiveKind, coapParseIntOption_intOptionBytes,
          if_pos accepted]
      · rw [accept, receiveKind, coapParseIntOption_intOptionBytes,
          if_pos accepted]
    simp [receiveOptions, step]
  unfold versionValues
  split_ifs
  · exact one ocfVer100 (by decide)
  · exact one oicVer110 (by decide)
  · rfl

theorem receive_versionOptions (config : CoapConfig) (packet : OutPacket)
    (value : ValuePacket) :
    receiveOptions config value (versionOptions config packet) =
      some value := by
  unfold versionOptions
  apply receiveOptions_trans
  · split_ifs
    · exact receive_versionValues packet.accept (.inr rfl) (by decide)
    · rfl
  · split_ifs
    · exact receive_versionValues packet.contentFormat (.inl rfl) (by decide)
    · rfl

theorem receive_rawOptions (prepared : Prepared config packet)
    (transmissible : Transmissible config packet) (blank : Blank value) :
    receiveOptions config value (rawOptions config packet) =
      some (receivedUpTo value packet CoapOption.size1) := by
  have start : receivedUpTo value packet 0 = value := by
    unfold receivedUpTo
    rw [optionsUpTo_none prepared, ← blank.options]
    rfl
  have base := receive_baseOptions prepared transmissible blank
  rw [start] at base
  exact receiveOptions_trans base (receive_versionOptions config packet _)

end Receive

end IotivityLite
