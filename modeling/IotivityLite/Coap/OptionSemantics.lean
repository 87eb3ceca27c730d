import IotivityLite.Coap.OptionList

/-!
# What an option list means

The parser joins texts inside the received buffer and keeps pointers into it.
Seen from outside it only updates a packet whose texts are byte strings.  This
module states that view as a function on such packets and shows that the
parsing loop follows it for every list of options in ascending order.
-/

namespace IotivityLite

/-- A packet with its texts read out of memory. -/
abbrev ValuePacket := CoapPacket Bytes

namespace CoapPacket

variable {Text : Type}

/-- The option bitmap has no room for numbers above Size1. -/
def noteOption (packet : CoapPacket Text) (number : Nat) : CoapPacket Text :=
  if number ≤ CoapOption.size1 then packet.setOption number else packet

@[simp] theorem code_noteOption (packet : CoapPacket Text) (number : Nat) :
    (packet.noteOption number).code = packet.code := by
  unfold noteOption
  split_ifs
  · rfl
  · rfl

theorem mapText_noteOption {Other : Type} (packet : CoapPacket Text)
    (number : Nat) (view : Text → Other) :
    (packet.noteOption number).mapText view =
      (packet.mapText view).noteOption number := by
  unfold noteOption
  split_ifs
  · rfl
  · rfl

end CoapPacket

def receiveInt (value : Bytes) (accepted : UInt32 → Bool)
    (store : UInt32 → ValuePacket) : Option ValuePacket :=
  match coapParseIntOption value with
  | none => none
  | some number => if accepted number then some (store number) else none

/-- The effect of an option that is neither an OSCORE option nor an outer
address; `none` when the option is rejected. -/
def receiveKind (config : CoapConfig) (packet : ValuePacket)
    (kind : OptionKind) (value : Bytes) : Option ValuePacket :=
  match kind with
  | .contentFormat =>
      receiveInt value (coapParseIsValidContentFormatOption config)
        fun number => { packet with contentFormat := number.toUInt16 }
  | .etag => some { packet with etag := value.take coapEtagLen }
  | .accept =>
      receiveInt value (coapParseIsValidAcceptOption config)
        fun number => { packet with accept := number.toUInt16 }
  | .uriPath => some { packet with uriPath := mergeText 47 packet.uriPath value }
  | .uriQuery =>
      some { packet with uriQuery := mergeText 38 packet.uriQuery value }
  | .block2 =>
      receiveInt value (fun _ => true) fun number =>
        { packet with block2 := coapOptionsBlockDecode number }.setOption
          CoapOption.block2
  | .block1 =>
      receiveInt value (fun _ => true) fun number =>
        { packet with block1 := coapOptionsBlockDecode number }.setOption
          CoapOption.block1
  | .size2 =>
      receiveInt value (fun _ => true)
        fun number => { packet with size2 := number }
  | .size1 =>
      receiveInt value (fun _ => true)
        fun number => { packet with size1 := number }
  | .contentFormatVer | .acceptVer =>
      if isSupportedVersion config (coapParseIntOption value) then some packet
      else none
  | .maxAge =>
      receiveInt value (fun _ => true)
        fun number => { packet with maxAge := number }
  | .observe =>
      receiveInt value (fun _ => true)
        fun number => { packet with observe := number.toInt32 }
  | .proxyUri => some { packet with proxyUri := value }
  | .oscore | .uriHost | .uriPort | .unknown => none

def receiveOption (config : CoapConfig) (packet : ValuePacket)
    (option : RawOption) : Option ValuePacket :=
  receiveKind config (packet.noteOption option.number)
    (coapOptionKind option.number) option.value

def receiveOptions (config : CoapConfig) (packet : ValuePacket)
    (options : List RawOption) : Option ValuePacket :=
  options.foldlM (receiveOption config) packet

/-- The end of a span. -/
def Span.stop (span : Span) : Nat := span.start + span.length

theorem Mem.text_of_agree {left right : Mem} {span : Span}
    (agree : ∀ address, span.start ≤ address → address < span.stop →
      left address = right address) : left.text span = right.text span :=
  Mem.read_congr agree

variable {memory : Mem}

theorem Mem.text_of_empty {span : Span} (empty : span.length = 0) :
    memory.text span = [] := by
  simp [Mem.text, empty]

/-- What merging leaves alone, and what it produces. -/
structure Merged (memory : Mem) (dst option : Span) (separator : UInt8)
    (result : Mem × Span) : Prop where
  text : result.1.text result.2 =
    mergeText separator (memory.text dst) (memory.text option)
  stop_le : result.2.stop ≤ option.stop
  start_eq : result.2.start =
    if dst.length > 0 then dst.start else option.start
  above : ∀ address, option.stop ≤ address →
    result.1 address = memory address
  below : ∀ address, (dst.length = 0 ∨ address < dst.stop) →
    result.1 address = memory address

theorem merged_coapMergeMultiOption (memory : Mem) {dst option : Span}
    (separator : UInt8) (room : dst.length = 0 ∨ dst.stop < option.start) :
    Merged memory dst option separator
      (coapMergeMultiOption memory dst option separator) := by
  unfold coapMergeMultiOption
  by_cases started : dst.length > 0
  · have gap : dst.stop < option.start := by
      rcases room with empty | gap
      · omega
      · exact gap
    unfold Span.stop at gap
    rw [if_pos started]
    simp only
    have kept : ∀ address, address < dst.stop →
        ((memory.store (dst.start + dst.length) separator).move
          (dst.start + (dst.length + 1)) option.start option.length)
            address = memory address := by
      intro address inside
      unfold Span.stop at inside
      rw [Mem.move_outside (by omega), Mem.store_other (by omega)]
    have keptAbove : ∀ address, option.stop ≤ address →
        ((memory.store (dst.start + dst.length) separator).move
          (dst.start + (dst.length + 1)) option.start option.length)
            address = memory address := by
      intro address outside
      unfold Span.stop at outside
      rw [Mem.move_outside (by omega), Mem.store_other (by omega)]
    have separated : ((memory.store (dst.start + dst.length) separator).move
        (dst.start + (dst.length + 1)) option.start option.length)
          (dst.start + dst.length) = separator := by
      rw [Mem.move_outside (by omega), Mem.store_same]
    have moved : (memory.store (dst.start + dst.length) separator).read
        option.start option.length = memory.text option := by
      apply Mem.read_congr
      intro address lower upper
      exact Mem.store_other (by omega)
    refine ⟨?_, ?_, ?_, ?_, ?_⟩
    · have textLength : (memory.text dst).length > 0 := by
        simpa [Mem.text] using started
      have oldText : ((memory.store (dst.start + dst.length) separator).move
          (dst.start + (dst.length + 1)) option.start option.length).read
            dst.start dst.length = memory.text dst :=
        Mem.read_congr fun address lower upper => kept address upper
      rw [mergeText, if_pos textLength]
      unfold Mem.text at *
      simp only
      rw [Mem.read_append, Mem.read_append, Mem.read_move, moved, oldText]
      simp [Mem.read, separated]
    · unfold Span.stop
      simp only
      omega
    · rw [if_pos started]
    · exact keptAbove
    · intro address inside
      rcases inside with empty | inside
      · omega
      · exact kept address inside
  · rw [if_neg started]
    refine ⟨?_, Nat.le_refl _, ?_, ?_, ?_⟩
    · have noText : memory.text dst = [] := Mem.text_of_empty (by omega)
      rw [noText]
      rfl
    · rw [if_neg started]
    · intro address _
      rfl
    · intro address _
      rfl

/-- Where the texts of a packet lie after the option `number`, when the next
unread byte is at `current`. -/
structure Layout (path query proxy host alt payload : Span)
    (number current : Nat) : Prop where
  path_le : path.stop ≤ current
  query_le : query.stop ≤ current
  separate : query.length = 0 ∨ path.stop ≤ query.start
  queryLater : number < CoapOption.uriQuery → query.length = 0
  proxyLater : number < CoapOption.proxyUri → proxy.length = 0
  host_empty : host.length = 0
  alt_empty : alt.length = 0
  payload_empty : payload.length = 0

/-- The memory and the packet of the parser stand for a packet of byte
strings. -/
structure Shows (memory : Mem) (packet : InPacket) (number current : Nat)
    (value : ValuePacket) : Prop where
  seen : packet.mapText memory.text = value
  layout : Layout packet.uriPath packet.uriQuery packet.proxyUri
    packet.uriHost packet.altAddr packet.payload number current

theorem Layout.advance {path query proxy host alt payload : Span}
    {number current later next : Nat}
    (layout : Layout path query proxy host alt payload number current)
    (ascending : number ≤ later) (forward : current ≤ next) :
    Layout path query proxy host alt payload later next where
  path_le := Nat.le_trans layout.path_le forward
  query_le := Nat.le_trans layout.query_le forward
  separate := layout.separate
  queryLater := fun below => layout.queryLater (by omega)
  proxyLater := fun below => layout.proxyLater (by omega)
  host_empty := layout.host_empty
  alt_empty := layout.alt_empty
  payload_empty := layout.payload_empty

theorem Shows.noteOption {packet : InPacket} {number current : Nat}
    {value : ValuePacket} (shows : Shows memory packet number current value)
    (noted : Nat) :
    Shows memory (packet.noteOption noted) number current
      (value.noteOption noted) := by
  obtain ⟨rfl, layout⟩ := shows
  constructor
  · exact CoapPacket.mapText_noteOption packet noted memory.text
  · unfold CoapPacket.noteOption
    split_ifs
    · exact layout
    · exact layout

/-- The parser accepted an option and went on to `next`. -/
structure Follows (memory : Mem) (number next : Nat) (value : ValuePacket)
    (result : ParseResult) : Prop where
  ok : result.status = .noError
  shows : Shows result.memory result.packet number next value
  above : ∀ address, next ≤ address →
    result.memory address = memory address

variable {accepted : UInt32 → Bool}

private theorem parseInt_of_receiveInt {option : Span}
    {view : UInt32 → ValuePacket} {next : ValuePacket} (packet : InPacket)
    (failure : CoapStatus) (store : InPacket → UInt32 → InPacket)
    (received : receiveInt (memory.text option) accepted view = some next) :
    ∃ number, next = view number ∧
      parseInt memory packet option failure accepted store =
        ⟨.noError, memory, store packet number⟩ := by
  unfold receiveInt at received
  unfold parseInt
  cases parsed : coapParseIntOption (memory.text option) with
  | none =>
      rw [parsed] at received
      cases received
  | some number =>
      rw [parsed] at received
      simp only at received ⊢
      by_cases allowed : accepted number
      · rw [if_pos allowed] at received ⊢
        exact ⟨number, (Option.some.inj received).symm, rfl⟩
      · rw [if_neg allowed] at received
        cases received

variable {config : CoapConfig}

section Kinds

variable {packet : InPacket} {last number current : Nat} {option : Span}
  {value next : ValuePacket}

section

variable (shows : Shows memory packet last current value)

include shows

private theorem follows_parseInt {failure : CoapStatus}
    {store : InPacket → UInt32 → InPacket} {view : UInt32 → ValuePacket}
    (ascending : last ≤ number) (later : current < option.start)
    (received : receiveInt (memory.text option) accepted view = some next)
    (stored : ∀ parsed, (store packet parsed).mapText memory.text = view parsed)
    (keeps : ∀ parsed, Layout packet.uriPath packet.uriQuery
        packet.proxyUri packet.uriHost packet.altAddr packet.payload number
        option.stop →
      Layout (store packet parsed).uriPath (store packet parsed).uriQuery
        (store packet parsed).proxyUri (store packet parsed).uriHost
        (store packet parsed).altAddr (store packet parsed).payload number
        option.stop) :
    Follows memory number option.stop next
      (parseInt memory packet option failure accepted store) := by
  obtain ⟨parsed, rfl, result⟩ :=
    parseInt_of_receiveInt packet failure store received
  rw [result]
  refine ⟨rfl, ⟨stored parsed, keeps parsed ?_⟩, fun _ _ => rfl⟩
  apply shows.layout.advance ascending
  unfold Span.stop
  omega

private theorem follows_uriPath (ascending : last ≤ CoapOption.uriPath)
    (later : current < option.start) :
    Follows memory CoapOption.uriPath option.stop
      { value with
        uriPath := mergeText 47 value.uriPath (memory.text option) }
      ⟨.noError, (coapMergeMultiOption memory packet.uriPath option 47).1,
        { packet with uriPath :=
          (coapMergeMultiOption memory packet.uriPath option 47).2 }⟩ := by
  obtain ⟨rfl, layout⟩ := shows
  have room : packet.uriPath.length = 0 ∨
      packet.uriPath.stop < option.start :=
    .inr (Nat.lt_of_le_of_lt layout.path_le later)
  have queryEmpty : packet.uriQuery.length = 0 :=
    layout.queryLater (Nat.lt_of_le_of_lt ascending (by decide))
  have proxyEmpty : packet.proxyUri.length = 0 :=
    layout.proxyLater (Nat.lt_of_le_of_lt ascending (by decide))
  have merged := merged_coapMergeMultiOption memory 47 room
  refine ⟨rfl, ⟨?_, ?_⟩, merged.above⟩
  · simp only [CoapPacket.mapText, merged.text,
      Mem.text_of_empty queryEmpty, Mem.text_of_empty proxyEmpty,
      Mem.text_of_empty layout.host_empty,
      Mem.text_of_empty layout.alt_empty,
      Mem.text_of_empty layout.payload_empty]
  · have advanced := layout.advance ascending
      (show current ≤ option.stop by unfold Span.stop; omega)
    exact
      { path_le := merged.stop_le
        query_le := advanced.query_le
        separate := .inl queryEmpty
        queryLater := advanced.queryLater
        proxyLater := advanced.proxyLater
        host_empty := advanced.host_empty
        alt_empty := advanced.alt_empty
        payload_empty := advanced.payload_empty }

private theorem follows_uriQuery (ascending : last ≤ CoapOption.uriQuery)
    (later : current < option.start) :
    Follows memory CoapOption.uriQuery option.stop
      { value with
        uriQuery := mergeText 38 value.uriQuery (memory.text option) }
      ⟨.noError, (coapMergeMultiOption memory packet.uriQuery option 38).1,
        { packet with uriQuery :=
          (coapMergeMultiOption memory packet.uriQuery option 38).2 }⟩ := by
  obtain ⟨rfl, layout⟩ := shows
  have room : packet.uriQuery.length = 0 ∨
      packet.uriQuery.stop < option.start :=
    .inr (Nat.lt_of_le_of_lt layout.query_le later)
  have proxyEmpty : packet.proxyUri.length = 0 :=
    layout.proxyLater (Nat.lt_of_le_of_lt ascending (by decide))
  have merged := merged_coapMergeMultiOption memory 38 room
  have pathKept :
      (coapMergeMultiOption memory packet.uriQuery option 38).1.text
        packet.uriPath = memory.text packet.uriPath := by
    apply Mem.text_of_agree
    intro address _ inside
    apply merged.below
    rcases layout.separate with empty | before
    · exact .inl empty
    · right
      unfold Span.stop at *
      omega
  refine ⟨rfl, ⟨?_, ?_⟩, merged.above⟩
  · simp only [CoapPacket.mapText, merged.text, pathKept,
      Mem.text_of_empty proxyEmpty, Mem.text_of_empty layout.host_empty,
      Mem.text_of_empty layout.alt_empty,
      Mem.text_of_empty layout.payload_empty]
  · have advanced := layout.advance ascending
      (show current ≤ option.stop by unfold Span.stop; omega)
    have separate : packet.uriPath.stop ≤
        (coapMergeMultiOption memory packet.uriQuery option 38).2.start := by
      have pathBefore := layout.path_le
      rw [merged.start_eq]
      split_ifs with started
      · rcases layout.separate with empty | before
        · omega
        · exact before
      · omega
    exact
      { path_le := advanced.path_le
        query_le := merged.stop_le
        separate := .inr separate
        queryLater := fun below => absurd below (by decide)
        proxyLater := advanced.proxyLater
        host_empty := advanced.host_empty
        alt_empty := advanced.alt_empty
        payload_empty := advanced.payload_empty }

private theorem follows_proxyUri (ascending : last ≤ CoapOption.proxyUri)
    (later : current < option.start) :
    Follows memory CoapOption.proxyUri option.stop
      { value with proxyUri := memory.text option }
      ⟨.noError, memory, { packet with proxyUri := option }⟩ := by
  obtain ⟨rfl, layout⟩ := shows
  have advanced := layout.advance ascending
    (show current ≤ option.stop by unfold Span.stop; omega)
  refine ⟨rfl, ⟨rfl, ?_⟩, fun _ _ => rfl⟩
  exact
    { path_le := advanced.path_le
      query_le := advanced.query_le
      separate := advanced.separate
      queryLater := advanced.queryLater
      proxyLater := fun below => absurd below (by decide)
      host_empty := advanced.host_empty
      alt_empty := advanced.alt_empty
      payload_empty := advanced.payload_empty }

end

theorem number_of_coapOptionKind (entry : Nat × OptionKind)
    (listed : entry ∈ coapOptionKinds)
    (kind : coapOptionKind number = entry.2) : number = entry.1 := by
  have known : ∀ left ∈ coapOptionKinds, left.2 ≠ .unknown := by
    decide
  have injective : ∀ left ∈ coapOptionKinds, ∀ right ∈ coapOptionKinds,
      left.2 = right.2 → left.1 = right.1 := by
    decide
  have member : (number, coapOptionKind number) ∈ coapOptionKinds :=
    mem_coapOptionKinds (kind ▸ known entry listed)
  exact injective _ member entry listed kind

/-- The mode in which the parsers of whole messages read options. -/
def ParseMode.message : ParseMode := ⟨true, true, false, false⟩

section

variable (shows : Shows memory packet last current value)
  (ascending : last ≤ number)
  (later : current < option.start)

include shows ascending later

private theorem follows_unchanged :
    Follows memory number option.stop value ⟨.noError, memory, packet⟩ := by
  refine ⟨rfl, ⟨shows.seen, ?_⟩, fun _ _ => rfl⟩
  apply shows.layout.advance ascending
  unfold Span.stop
  omega

private theorem follows_etag :
    Follows memory number option.stop
      { value with etag := (memory.text option).take coapEtagLen }
      ⟨.noError, memory, { packet with
        etag := memory.read option.start (min coapEtagLen option.length) }⟩ := by
  obtain ⟨rfl, layout⟩ := shows
  rw [← Mem.take_read]
  refine ⟨rfl, ⟨rfl, layout.advance ascending ?_⟩, fun _ _ => rfl⟩
  unfold Span.stop
  omega

private theorem follows_version
    (received : (if isSupportedVersion config
        (coapParseIntOption (memory.text option)) then some value
      else none) = some next) :
    Follows memory number option.stop next
      (if isSupportedVersion config
          (coapParseIntOption (memory.text option)) then
        ⟨.noError, memory, packet⟩
      else ⟨.unsupportedMediaType, memory, packet⟩) := by
  split_ifs at received with supported
  obtain rfl := Option.some.inj received
  rw [if_pos supported]
  exact follows_unchanged shows ascending later

private theorem coapOscoreParseInnerOption_follows
    (inner : (coapOptionKind number).isInner)
    (received : receiveKind config value (coapOptionKind number)
      (memory.text option) = some next) :
    Follows memory number option.stop next
      (coapOscoreParseInnerOption config memory packet
        (coapOptionKind number) option false) := by
  have seen := shows.seen
  cases kind : coapOptionKind number
  all_goals rw [kind] at received inner
  case uriPath =>
    obtain rfl : number = CoapOption.uriPath :=
      number_of_coapOptionKind (_, .uriPath) (by decide) kind
    obtain rfl := Option.some.inj received
    exact follows_uriPath shows ascending later
  case uriQuery =>
    obtain rfl : number = CoapOption.uriQuery :=
      number_of_coapOptionKind (_, .uriQuery) (by decide) kind
    obtain rfl := Option.some.inj received
    exact follows_uriQuery shows ascending later
  case etag =>
    obtain rfl := Option.some.inj received
    exact follows_etag shows ascending later
  case contentFormatVer =>
    exact follows_version shows ascending later received
  case acceptVer =>
    exact follows_version shows ascending later received
  case contentFormat | accept | block2 | block1 | size2 | size1 =>
    unfold coapOscoreParseInnerOption
    exact follows_parseInt shows ascending later received
      (fun parsed => by rw [← seen]; rfl) (fun parsed layout => layout)
  -- the remaining kinds are not inner options
  all_goals cases inner

end

theorem coapOscoreParseOption_follows
    (plain : (if config.ocTcp then coapSignal packet.code else none) = none)
    (shows : Shows memory packet last current value) (ascending : last ≤ number)
    (later : current < option.start)
    (received : receiveKind config value (coapOptionKind number)
      (memory.text option) = some next) :
    Follows memory number option.stop next
      (coapOscoreParseOption config .message memory packet number option) := by
  have seen := shows.seen
  unfold coapOscoreParseOption
  rw [plain]
  by_cases inner : (coapOptionKind number).isInner
  · simp only [inner, if_true]
    exact coapOscoreParseInnerOption_follows shows ascending later inner
      received
  · have notOscore :
        ¬ (config.ocOscore = true ∧ coapOptionKind number = .oscore) := by
      rintro ⟨-, kind⟩
      rw [kind] at received
      cases received
    simp only [inner, notOscore, Bool.false_eq_true, if_false]
    cases kind : coapOptionKind number
    all_goals rw [kind] at received inner
    case proxyUri =>
      obtain rfl : number = CoapOption.proxyUri :=
        number_of_coapOptionKind (_, .proxyUri) (by decide) kind
      obtain rfl := Option.some.inj received
      exact follows_proxyUri shows ascending later
    case maxAge | observe =>
      simp only [OptionKind.isOuter, Bool.false_eq_true, reduceCtorEq,
        if_false, if_true]
      exact follows_parseInt shows ascending later received
        (fun parsed => by rw [← seen]; rfl) (fun parsed layout => layout)
    case oscore | uriHost | uriPort | unknown => cases received
    all_goals exact absurd rfl inner

end Kinds

/-- The numbers do not descend, and no delta needs more than two extension
bytes. -/
inductive Ascending : (current : Nat) → List RawOption → Prop where
  | nil {current : Nat} : Ascending current []
  | cons {current : Nat} {option : RawOption} {rest : List RawOption}
      (order : current ≤ option.number)
      (small : option.number ≤ CoapOption.ocfContentFormatVer)
      (later : Ascending option.number rest) :
      Ascending current (option :: rest)

private theorem receiveInt_code {value : Bytes} {store : UInt32 → ValuePacket}
    {next : ValuePacket} {code : UInt8}
    (received : receiveInt value accepted store = some next)
    (stored : ∀ number, (store number).code = code) : next.code = code := by
  unfold receiveInt at received
  split at received
  · cases received
  · split_ifs at received
    obtain rfl := Option.some.inj received
    exact stored _

theorem receiveOption_code {packet next : ValuePacket} {option : RawOption}
    (received : receiveOption config packet option = some next) :
    next.code = packet.code := by
  unfold receiveOption at received
  rw [← packet.code_noteOption option.number]
  generalize packet.noteOption option.number = packet at received
  cases kind : coapOptionKind option.number
  all_goals rw [kind] at received
  case etag | uriPath | uriQuery | proxyUri =>
    obtain rfl := Option.some.inj received
    rfl
  case contentFormatVer | acceptVer =>
    unfold receiveKind at received
    split_ifs at received
    obtain rfl := Option.some.inj received
    rfl
  case oscore | uriHost | uriPort | unknown => cases received
  all_goals exact receiveInt_code received fun _ => rfl

/-- The parser stands before the given bytes and shows the given packet. -/
structure ParserAt (dataLen : Nat) (parser : OptionParser)
    (value : ValuePacket) (rest : Bytes) : Prop where
  shows : Shows parser.memory parser.packet parser.number parser.current
    value
  ok : parser.lastError = .noError
  held : parser.memory.Holds parser.current rest
  ends : parser.current + rest.length = dataLen

/-- The parser reads one serialized option back. -/
theorem parseOptionStep_follows {dataLen : Nat} {parser : OptionParser}
    {value next : ValuePacket} {option : RawOption} {rest : Bytes}
    (plain : NoSignal config value.code)
    (ascending : parser.number ≤ option.number)
    (small : option.number ≤ CoapOption.ocfContentFormatVer)
    (short : option.value.length < 65805)
    (before : ParserAt dataLen parser value
      ((serializeOneOption option.number parser.number true
        option.value).bytes ++ rest))
    (received : receiveOption config value option = some next) :
    ∃ after, parseOptionStep config .message dataLen parser = .inr after ∧
      after.number = option.number ∧ ParserAt dataLen after next rest := by
  obtain ⟨shows, ok, held, ends⟩ := before
  simp only [serializeOneOption, Chunk.bytes_append, Chunk.bytes_emit_true]
    at held ends
  rw [Mem.holds_append, Mem.holds_append] at held
  obtain ⟨⟨headerHeld, valueHeld⟩, restHeld⟩ := held
  have smallNumber : option.number ≤ 2053 := small
  obtain ⟨marker, middle, deltaRead, lengthRead⟩ :=
    headerRead_coapSetOptionHeader (by omega) short headerHeld
  have headerSize : (coapSetOptionHeader true (option.number - parser.number)
      option.value.length).bytes.length =
    (coapSetOptionHeader true (option.number - parser.number)
      option.value.length).size := rfl
  have headerPositive : 0 < (coapSetOptionHeader true
      (option.number - parser.number) option.value.length).size := by
    simp [coapSetOptionHeader]
  simp only [List.length_append, headerSize, ← Nat.add_assoc]
    at ends restHeld valueHeld
  generalize (coapSetOptionHeader true (option.number - parser.number)
    option.value.length).size = size at *
  have number : (parser.number + (option.number - parser.number)) % 2 ^ 32 =
      option.number := by
    rw [Nat.add_sub_cancel' ascending]
    exact Nat.mod_eq_of_lt (by omega)
  obtain rfl := shows.seen
  have plainNoted :
      (if config.ocTcp then
        coapSignal (parser.packet.noteOption option.number).code
      else none) = none := by
    rw [CoapPacket.code_noteOption]
    exact plain
  have valueRead : parser.memory.text
      ⟨parser.current + size, option.value.length⟩ = option.value :=
    valueHeld
  unfold receiveOption at received
  rw [← valueRead] at received
  obtain ⟨resultOk, resultShows, above⟩ :=
    coapOscoreParseOption_follows plainNoted
      (shows.noteOption option.number) ascending
      (by simp only; omega) received
  unfold parseOptionStep
  simp only [marker, if_false, deltaRead, lengthRead, number]
  rw [if_neg (by omega)]
  simp only [CoapPacket.noteOption] at resultOk resultShows above
  simp only [resultOk, ok]
  refine ⟨_, rfl, rfl, resultShows, rfl, ?_, ?_⟩
  · exact restHeld.of_agree_above (Nat.le_refl _) above
  · exact ends

/-- The parser succeeded, and its packet reads as the given one. -/
def ParseResult.Yields (result : ParseResult) (value : ValuePacket) : Prop :=
  result.status = .noError ∧
    result.packet.mapText result.memory.text = value

/-- What follows the options: nothing, or the marker and a payload. -/
def payloadBytes (payload : Bytes) : Bytes :=
  if payload.length > 0 then 0xFF :: payload else []

variable {payload : Bytes}

private theorem parseOptionLoop_yields_end {dataLen fuel : Nat}
    {parser : OptionParser} {value : ValuePacket} (bounded : dataLen < 2 ^ 32)
    (here : ParserAt dataLen parser value (payloadBytes payload)) :
    (parseOptionLoop config .message dataLen (fuel + 1) parser).Yields
      { value with payload := payload } := by
  obtain ⟨⟨rfl, layout⟩, ok, held, ends⟩ := here
  unfold payloadBytes at held ends
  rw [parseOptionLoop]
  by_cases filled : payload.length > 0
  · rw [if_pos filled] at held ends
    obtain ⟨first, payloadHeld⟩ := Mem.holds_cons.mp held
    rw [List.length_cons] at ends
    have length : (dataLen - (parser.current + 1)) % 2 ^ 32 =
        payload.length := by
      rw [Nat.mod_eq_of_lt (by omega)]
      omega
    have text : parser.memory.text ⟨parser.current + 1, payload.length⟩ =
        payload := payloadHeld
    have step : parseOptionStep config .message dataLen parser =
        .inl ⟨.noError, parser.memory, { parser.packet with
          payload := ⟨parser.current + 1, payload.length⟩ }⟩ := by
      unfold parseOptionStep
      simp only [first, ok, length]
      rfl
    rw [if_pos (by omega), step]
    refine ⟨rfl, ?_⟩
    simp only [CoapPacket.mapText, text]
  · rw [if_neg filled] at ends
    have nothing : payload = [] := List.length_eq_zero_iff.mp (by omega)
    rw [List.length_nil] at ends
    rw [if_neg (by omega)]
    refine ⟨ok, ?_⟩
    simp only [CoapPacket.mapText, nothing,
      Mem.text_of_empty layout.payload_empty]

theorem parseOptionLoop_follows {dataLen : Nat} {options : List RawOption}
    {final : ValuePacket} (bounded : dataLen < 2 ^ 32) (parser : OptionParser)
    (value : ValuePacket) (fuel : Nat) (enough : options.length < fuel)
    (plain : options ≠ [] → NoSignal config value.code)
    (ascending : Ascending parser.number options)
    (short : ∀ option ∈ options, option.value.length < 65805)
    (here : ParserAt dataLen parser value
      (encodeOptions parser.number options ++ payloadBytes payload))
    (received : receiveOptions config value options = some final) :
    (parseOptionLoop config .message dataLen fuel parser).Yields
      { final with payload := payload } := by
  induction options generalizing parser value fuel with
  | nil =>
      obtain ⟨fuel, rfl⟩ : ∃ rounds, fuel = rounds + 1 :=
        ⟨fuel - 1, by simp at enough; omega⟩
      obtain rfl := Option.some.inj received
      exact parseOptionLoop_yields_end bounded here
  | cons option rest ih =>
      obtain ⟨fuel, rfl⟩ : ∃ rounds, fuel = rounds + 1 :=
        ⟨fuel - 1, by simp at enough; omega⟩
      obtain _ | ⟨step, small, later⟩ := ascending
      rw [List.forall_mem_cons] at short
      unfold receiveOptions at received
      rw [List.foldlM_cons] at received
      obtain ⟨next, accepted, received⟩ :=
        Option.bind_eq_some_iff.mp received
      have noSignal := plain (List.cons_ne_nil option rest)
      rw [encodeOptions, List.append_assoc] at here
      obtain ⟨after, stepped, atNumber, afterAt⟩ :=
        parseOptionStep_follows noSignal step small short.1 here accepted
      rw [← atNumber] at later afterAt
      have unread : parser.current < dataLen := by
        have ends := here.ends
        have header := length_le_length_encodeOptions parser.number [option]
        simp only [encodeOptions, List.append_nil, List.length_singleton]
          at header
        rw [List.length_append] at ends
        omega
      rw [parseOptionLoop, if_pos unread, stepped]
      rw [List.length_cons] at enough
      refine ih after next fuel (by omega) ?_ later short.2 afterAt received
      intro _
      rw [receiveOption_code accepted]
      exact noSignal

theorem coapOscoreParseOptions_follows {header : InPacket}
    {options : List RawOption} {final : ValuePacket} {current dataLen : Nat}
    (started : 0 < current) (bounded : dataLen < 2 ^ 32)
    (fresh : header.options = 0)
    (blank : Layout header.uriPath header.uriQuery header.proxyUri
      header.uriHost header.altAddr header.payload 0 current)
    (plain : options ≠ [] → NoSignal config header.code)
    (ascending : Ascending 0 options)
    (short : ∀ option ∈ options, option.value.length < 65805)
    (held : memory.Holds current
      (encodeOptions 0 options ++ payloadBytes payload))
    (ends : current + (encodeOptions 0 options ++
      payloadBytes payload).length = dataLen)
    (received : receiveOptions config (header.mapText memory.text) options =
      some final) :
    (coapOscoreParseOptions config .message memory header dataLen
      current).Yields { final with payload := payload } := by
  have counted := length_le_length_encodeOptions 0 options
  have total := ends
  rw [List.length_append] at total
  unfold coapOscoreParseOptions
  rw [if_neg (by omega), ← fresh]
  refine parseOptionLoop_follows bounded _ (header.mapText memory.text)
    dataLen (by omega) plain ascending short ?_ received
  exact ⟨⟨rfl, blank⟩, rfl, held, ends⟩

end IotivityLite
