import IotivityLite.Coap.OptionGrammar
import IotivityLite.Coap.Validation
import Mathlib.Logic.Relation

/-!
# Merging of texts in the receive buffer

The values of the Uri-Path options, and those of the Uri-Query options, are
joined where they were received.  The joined text grows towards the options
that are still unread, but it never reaches them, so the parser sees all
options as they were sent.  Each text is the values with a separator between
them.  Empty values before the first one that is not empty leave no trace,
because a text of length zero counts as not yet begun.
-/

namespace IotivityLite

theorem foldl_mergeText_of_ne {separator : UInt8} {text : Bytes}
    (begun : text ≠ []) (values : List Bytes) :
    values.foldl (mergeText separator) text =
      [separator].intercalate (text :: values) := by
  induction values generalizing text with
  | nil => simp [List.intercalate]
  | cons value rest ih =>
      have merge : mergeText separator text value =
          text ++ separator :: value :=
        if_pos (List.length_pos_of_ne_nil begun)
      rw [List.foldl_cons, merge, ih (by simp)]
      cases rest with
      | nil => simp [List.intercalate]
      | cons next rest => simp [List.intercalate]

theorem foldl_mergeText_nil (separator : UInt8) (values : List Bytes) :
    values.foldl (mergeText separator) [] =
      [separator].intercalate (values.dropWhile List.isEmpty) := by
  induction values with
  | nil => rfl
  | cons value rest ih =>
      rw [List.foldl_cons]
      change rest.foldl (mergeText separator) value = _
      cases value with
      | nil =>
          rw [ih]
          rfl
      | cons byte bytes =>
          rw [foldl_mergeText_of_ne (List.cons_ne_nil byte bytes)]
          rfl

/-- The options that lie inside a message, as they are found in a buffer that
nobody writes to. -/
def walkedOptions (memory : Mem) (dataLen : Nat) :
    (fuel current number : Nat) → List RawOption
  | 0, _, _ => []
  | fuel + 1, current, number =>
      if current < dataLen then
        let first := (memory current).toNat
        if first &&& 0xF0 = 0xF0 then []
        else
          let (delta, middle) :=
            readExtension memory (first >>> 4) (current + 1)
          let (length, next) :=
            readExtension memory (first &&& 0x0F) middle
          let number := (number + delta) % 2 ^ 32
          if next + length > dataLen then []
          else
            ⟨number, memory.read next length⟩ ::
              walkedOptions memory dataLen fuel (next + length) number
      else []

section Rounds

variable {memory : Mem} {dataLen fuel current number : Nat}

theorem walkedOptions_end (finished : ¬ current < dataLen) :
    walkedOptions memory dataLen fuel current number = [] := by
  cases fuel with
  | zero => rfl
  | succ fuel => rw [walkedOptions, if_neg finished]

theorem walkedOptions_marker
    (marker : (memory current).toNat &&& 0xF0 = 0xF0) :
    walkedOptions memory dataLen fuel current number = [] := by
  cases fuel with
  | zero => rfl
  | succ fuel =>
      rw [walkedOptions]
      simp only [marker, if_true, ite_self]

theorem walkedOptions_option {delta length next : Nat}
    (going : current < dataLen)
    (header : HeaderRead memory current delta length next)
    (inside : next + length ≤ dataLen) :
    walkedOptions memory dataLen (fuel + 1) current number =
      ⟨(number + delta) % 2 ^ 32, memory.read next length⟩ ::
        walkedOptions memory dataLen fuel (next + length)
          ((number + delta) % 2 ^ 32) := by
  obtain ⟨marker, middle, deltaRead, lengthRead⟩ := header
  rw [walkedOptions, if_pos going]
  simp only [marker, if_false, deltaRead, lengthRead]
  rw [if_neg (Nat.not_lt_of_le inside)]

end Rounds

/-- The values of the options with the given number. -/
def optionValues (number : Nat) (options : List RawOption) : List Bytes :=
  (options.filter fun option => option.number = number).map RawOption.value

variable {number : Nat}

theorem optionValues_cons_self {option : RawOption}
    (same : option.number = number) (rest : List RawOption) :
    optionValues number (option :: rest) =
      option.value :: optionValues number rest := by
  simp [optionValues, same]

theorem optionValues_cons_other {option : RawOption}
    (different : option.number ≠ number) (rest : List RawOption) :
    optionValues number (option :: rest) = optionValues number rest := by
  simp [optionValues, different]

variable {mode : ParseMode}

section Option

variable {memory : Mem} {packet : InPacket} {option : Span}

/-- The texts of the packet and the memory are what they were. -/
structure TextsKept (memory : Mem) (packet : InPacket) (result : ParseResult) :
    Prop where
  memory : result.memory = memory
  path : result.packet.uriPath = packet.uriPath
  query : result.packet.uriQuery = packet.uriQuery

private theorem textsKept_parseInt {failure : CoapStatus}
    {accepted : UInt32 → Bool} {store : InPacket → UInt32 → InPacket}
    (path : ∀ value, (store packet value).uriPath = packet.uriPath)
    (query : ∀ value, (store packet value).uriQuery = packet.uriQuery) :
    TextsKept memory packet
      (parseInt memory packet option failure accepted store) := by
  unfold parseInt
  split
  · exact ⟨rfl, rfl, rfl⟩
  · split_ifs
    · exact ⟨rfl, path _, query _⟩
    · exact ⟨rfl, rfl, rfl⟩

private theorem textsKept_inner (config : CoapConfig) {kind : OptionKind}
    (validate : Bool) (notPath : kind ≠ .uriPath)
    (notQuery : kind ≠ .uriQuery) :
    TextsKept memory packet
      (coapOscoreParseInnerOption config memory packet kind option
        validate) := by
  unfold coapOscoreParseInnerOption
  cases kind
  case uriPath => exact absurd rfl notPath
  case uriQuery => exact absurd rfl notQuery
  case contentFormatVer | acceptVer =>
    simp only
    split_ifs
    · exact ⟨rfl, rfl, rfl⟩
    · exact ⟨rfl, rfl, rfl⟩
  case contentFormat | accept | block2 | block1 | size2 | size1 =>
    exact textsKept_parseInt (fun _ => rfl) (fun _ => rfl)
  all_goals exact ⟨rfl, rfl, rfl⟩

private theorem textsKept_outer (kind : OptionKind) (validate : Bool) :
    TextsKept memory packet
      (coapOscoreParseOuterOption memory packet kind option validate) := by
  unfold coapOscoreParseOuterOption
  cases kind
  case proxyUri =>
    simp only
    split_ifs
    · exact ⟨rfl, rfl, rfl⟩
    · exact ⟨rfl, rfl, rfl⟩
  case uriPort => exact textsKept_parseInt (fun _ => rfl) (fun _ => rfl)
  all_goals exact ⟨rfl, rfl, rfl⟩

private theorem textsKept_signal (signal : CoapSignal) (number : Nat)
    (inner : Bool) :
    TextsKept memory packet
      (coapParseSignalOptions memory packet signal number option inner) := by
  unfold coapParseSignalOptions
  cases inner with
  | false => exact ⟨rfl, rfl, rfl⟩
  | true =>
      cases signal
      all_goals
        simp only [Bool.not_true, Bool.false_eq_true, if_false]
        split_ifs
      all_goals
        first
        | exact textsKept_parseInt (fun _ => rfl) (fun _ => rfl)
        | exact ⟨rfl, rfl, rfl⟩

private theorem textsKept_oscore {parsed : InPacket}
    (found : coapParseOscoreOption memory packet option = some parsed) :
    parsed.uriPath = packet.uriPath ∧ parsed.uriQuery = packet.uriQuery := by
  unfold coapParseOscoreOption at found
  simp only at found
  split_ifs at found
  all_goals
    obtain rfl := Option.some.inj found
    exact ⟨rfl, rfl⟩

theorem textsKept_coapOscoreParseOption (config : CoapConfig)
    (mode : ParseMode) {number : Nat}
    (other : NoSignal config packet.code →
      number ≠ CoapOption.uriPath ∧ number ≠ CoapOption.uriQuery) :
    TextsKept memory packet
      (coapOscoreParseOption config mode memory packet number option) := by
  unfold coapOscoreParseOption
  split
  · exact textsKept_signal _ number mode.inner
  · next plain =>
      obtain ⟨notPath, notQuery⟩ := other plain
      have pathKind : coapOptionKind number ≠ .uriPath := fun kind =>
        notPath (number_of_coapOptionKind (_, .uriPath) (by decide) kind)
      have queryKind : coapOptionKind number ≠ .uriQuery := fun kind =>
        notQuery (number_of_coapOptionKind (_, .uriQuery) (by decide) kind)
      simp only
      split_ifs
      · exact ⟨rfl, rfl, rfl⟩
      · exact textsKept_inner config mode.validate pathKind queryKind
      · exact ⟨rfl, rfl, rfl⟩
      · split
        · exact ⟨rfl, rfl, rfl⟩
        · next found =>
            obtain ⟨path, query⟩ := textsKept_oscore found
            exact ⟨rfl, path, query⟩
      · exact ⟨rfl, rfl, rfl⟩
      · exact textsKept_outer _ mode.validate
      · exact textsKept_parseInt (fun _ => rfl) (fun _ => rfl)
      · exact textsKept_parseInt (fun _ => rfl) (fun _ => rfl)
      · exact ⟨rfl, rfl, rfl⟩
      · exact ⟨rfl, rfl, rfl⟩

private theorem coapOscoreParseOption_inner {config : CoapConfig}
    (plain : NoSignal config packet.code)
    (inner : (coapOptionKind number).isInner = true)
    (ok : (coapOscoreParseOption config mode memory packet number
      option).status = .noError) :
    coapOscoreParseOption config mode memory packet number option =
      coapOscoreParseInnerOption config memory packet (coapOptionKind number)
        option mode.validate := by
  unfold NoSignal at plain
  unfold coapOscoreParseOption at ok ⊢
  rw [plain] at ok ⊢
  simp only [inner, if_true] at ok ⊢
  cases allowed : mode.inner with
  | false =>
      rw [allowed] at ok
      cases ok
  | true => rfl

theorem coapOscoreParseOption_uriPath {config : CoapConfig}
    (plain : NoSignal config packet.code) (parsing : mode.validate = false)
    (ok : (coapOscoreParseOption config mode memory packet CoapOption.uriPath
      option).status = .noError) :
    coapOscoreParseOption config mode memory packet CoapOption.uriPath
        option =
      ⟨.noError, (coapMergeMultiOption memory packet.uriPath option 47).1,
        { packet with uriPath :=
          (coapMergeMultiOption memory packet.uriPath option 47).2 }⟩ := by
  rw [coapOscoreParseOption_inner plain (by decide) ok, parsing]
  rfl

theorem coapOscoreParseOption_uriQuery {config : CoapConfig}
    (plain : NoSignal config packet.code) (parsing : mode.validate = false)
    (ok : (coapOscoreParseOption config mode memory packet CoapOption.uriQuery
      option).status = .noError) :
    coapOscoreParseOption config mode memory packet CoapOption.uriQuery
        option =
      ⟨.noError, (coapMergeMultiOption memory packet.uriQuery option 38).1,
        { packet with uriQuery :=
          (coapMergeMultiOption memory packet.uriQuery option 38).2 }⟩ := by
  rw [coapOscoreParseOption_inner plain (by decide) ok, parsing]
  rfl

end Option

/-- The unread bytes are as received, and the two texts lie before them and
apart from each other. -/
structure Merging (memory : Mem) (parser : OptionParser) : Prop where
  unread : AgreeAbove parser.current parser.memory memory
  room : Room parser.current parser.packet
  separate : parser.packet.uriQuery.length = 0 ∨
    parser.packet.uriPath.length = 0 ∨
    parser.packet.uriPath.stop ≤ parser.packet.uriQuery.start

section Merges

variable {config : CoapConfig} {memory : Mem} {parser : OptionParser}
  {delta length next : Nat}

/-- The parser behind the option it stands at. -/
def OptionParser.behind (parser : OptionParser) (config : CoapConfig)
    (mode : ParseMode) (delta length next : Nat) : OptionParser :=
  parser.accept (parser.optionNumber delta) (next + length)
    (parser.handle config mode delta length next)

/-- The parser goes on merging, and its texts read as given. -/
structure MergesTo (memory : Mem) (after : OptionParser)
    (path query : Bytes) : Prop where
  merging : Merging memory after
  path : after.memory.text after.packet.uriPath = path
  query : after.memory.text after.packet.uriQuery = query

theorem uriPath_noteOption (packet : InPacket) (number : Nat) :
    (packet.noteOption number).uriPath = packet.uriPath := by
  unfold CoapPacket.noteOption
  split_ifs
  · rfl
  · rfl

theorem uriQuery_noteOption (packet : InPacket) (number : Nat) :
    (packet.noteOption number).uriQuery = packet.uriQuery := by
  unfold CoapPacket.noteOption
  split_ifs
  · rfl
  · rfl

theorem Merging.unread_behind (merging : Merging memory parser)
    (header : HeaderRead parser.memory parser.current delta length next) :
    AgreeAbove (next + length)
      (parser.behind config mode delta length next).memory memory := by
  obtain ⟨above, -⟩ :=
    @handle_walks config mode parser delta length next merging.room header
  have forward := header.lt
  intro address beyond
  exact (above address beyond).trans
    (merging.unread address (by omega))

theorem Merging.value_eq (merging : Merging memory parser)
    (header : HeaderRead parser.memory parser.current delta length next) :
    parser.memory.text ⟨next, length⟩ = memory.read next length := by
  have forward := header.lt
  exact merging.unread.text (Nat.le_of_lt forward)

theorem Merging.other (merging : Merging memory parser)
    (header : HeaderRead parser.memory parser.current delta length next)
    (other : NoSignal config parser.packet.code →
      parser.optionNumber delta ≠ CoapOption.uriPath ∧
        parser.optionNumber delta ≠ CoapOption.uriQuery) :
    MergesTo memory (parser.behind config mode delta length next)
      (parser.memory.text parser.packet.uriPath)
      (parser.memory.text parser.packet.uriQuery) := by
  obtain ⟨-, room⟩ :=
    @handle_walks config mode parser delta length next merging.room header
  have kept := @textsKept_coapOscoreParseOption parser.memory
    (parser.packet.noteOption (parser.optionNumber delta)) ⟨next, length⟩
    config mode (parser.optionNumber delta)
    (by rwa [CoapPacket.code_noteOption])
  have memorySame : (parser.behind config mode delta length next).memory =
      parser.memory := kept.memory
  have pathSame :
      (parser.behind config mode delta length next).packet.uriPath =
        parser.packet.uriPath :=
    kept.path.trans (uriPath_noteOption _ _)
  have querySame :
      (parser.behind config mode delta length next).packet.uriQuery =
        parser.packet.uriQuery :=
    kept.query.trans (uriQuery_noteOption _ _)
  refine ⟨⟨merging.unread_behind header, room, ?_⟩, ?_, ?_⟩
  · rw [pathSame, querySame]
    exact merging.separate
  · rw [memorySame, pathSame]
  · rw [memorySame, querySame]

private theorem handle_uriPath
    (plain : NoSignal config parser.packet.code)
    (parsing : mode.validate = false)
    (number : parser.optionNumber delta = CoapOption.uriPath)
    (ok : (parser.handle config mode delta length next).status = .noError) :
    let merged := coapMergeMultiOption parser.memory parser.packet.uriPath
      ⟨next, length⟩ 47
    (parser.handle config mode delta length next).memory = merged.1 ∧
      (parser.handle config mode delta length next).packet.uriPath =
        merged.2 ∧
      (parser.handle config mode delta length next).packet.uriQuery =
        parser.packet.uriQuery := by
  intro merged
  unfold OptionParser.handle at ok ⊢
  rw [number] at ok ⊢
  rw [coapOscoreParseOption_uriPath (by rwa [CoapPacket.code_noteOption])
    parsing ok, uriPath_noteOption]
  exact ⟨rfl, rfl, uriQuery_noteOption _ _⟩

private theorem handle_uriQuery
    (plain : NoSignal config parser.packet.code)
    (parsing : mode.validate = false)
    (number : parser.optionNumber delta = CoapOption.uriQuery)
    (ok : (parser.handle config mode delta length next).status = .noError) :
    let merged := coapMergeMultiOption parser.memory parser.packet.uriQuery
      ⟨next, length⟩ 38
    (parser.handle config mode delta length next).memory = merged.1 ∧
      (parser.handle config mode delta length next).packet.uriQuery =
        merged.2 ∧
      (parser.handle config mode delta length next).packet.uriPath =
        parser.packet.uriPath := by
  intro merged
  unfold OptionParser.handle at ok ⊢
  rw [number] at ok ⊢
  rw [coapOscoreParseOption_uriQuery (by rwa [CoapPacket.code_noteOption])
    parsing ok, uriQuery_noteOption]
  exact ⟨rfl, rfl, uriPath_noteOption _ _⟩

theorem Merging.uriPath (merging : Merging memory parser)
    (header : HeaderRead parser.memory parser.current delta length next)
    (plain : NoSignal config parser.packet.code)
    (parsing : mode.validate = false)
    (number : parser.optionNumber delta = CoapOption.uriPath)
    (ok : (parser.handle config mode delta length next).status = .noError)
    (quiet : parser.memory.text parser.packet.uriQuery = []) :
    MergesTo memory (parser.behind config mode delta length next)
      (mergeText 47 (parser.memory.text parser.packet.uriPath)
        (memory.read next length))
      (parser.memory.text parser.packet.uriQuery) := by
  obtain ⟨-, room⟩ :=
    @handle_walks config mode parser delta length next merging.room header
  obtain ⟨written, path, query⟩ := handle_uriPath plain parsing number ok
  have merged := @merged_coapMergeMultiOption parser.memory
    parser.packet.uriPath ⟨next, length⟩ 47
    (merging.room.path.imp id fun ends =>
      Nat.lt_of_le_of_lt ends header.lt)
  have empty : parser.packet.uriQuery.length = 0 := by
    simpa [Mem.text] using congrArg List.length quiet
  refine ⟨⟨merging.unread_behind header, room, .inl ?_⟩, ?_, ?_⟩
  · exact (congrArg Span.length query).trans empty
  · change Mem.text (parser.handle config mode delta length next).memory
      (parser.handle config mode delta length next).packet.uriPath = _
    rw [written, path, merged.text, merging.value_eq header]
  · change Mem.text (parser.handle config mode delta length next).memory
      (parser.handle config mode delta length next).packet.uriQuery = _
    rw [query, Mem.text_of_empty empty, Mem.text_of_empty empty]

theorem Merging.uriQuery (merging : Merging memory parser)
    (header : HeaderRead parser.memory parser.current delta length next)
    (plain : NoSignal config parser.packet.code)
    (parsing : mode.validate = false)
    (number : parser.optionNumber delta = CoapOption.uriQuery)
    (ok : (parser.handle config mode delta length next).status = .noError) :
    MergesTo memory (parser.behind config mode delta length next)
      (parser.memory.text parser.packet.uriPath)
      (mergeText 38 (parser.memory.text parser.packet.uriQuery)
        (memory.read next length)) := by
  obtain ⟨-, room⟩ :=
    @handle_walks config mode parser delta length next merging.room header
  obtain ⟨written, query, path⟩ := handle_uriQuery plain parsing number ok
  have forward := header.lt
  have merged := @merged_coapMergeMultiOption parser.memory
    parser.packet.uriQuery ⟨next, length⟩ 38
    (merging.room.query.imp id fun ends =>
      Nat.lt_of_le_of_lt ends header.lt)
  refine ⟨⟨merging.unread_behind header, room, .inr ?_⟩, ?_, ?_⟩
  · change (parser.handle config mode delta length
        next).packet.uriPath.length = 0 ∨
      (parser.handle config mode delta length next).packet.uriPath.stop ≤
        (parser.handle config mode delta length next).packet.uriQuery.start
    rw [path, query, merged.start_eq]
    have ends := merging.room.path
    have separate := merging.separate
    split_ifs with begun
    · omega
    · simp only
      omega
  · change Mem.text (parser.handle config mode delta length next).memory
      (parser.handle config mode delta length next).packet.uriPath = _
    rw [written, path]
    apply Mem.text_of_agree
    intro address lower upper
    apply merged.below
    have separate := merging.separate
    unfold Span.stop at *
    omega
  · change Mem.text (parser.handle config mode delta length next).memory
      (parser.handle config mode delta length next).packet.uriQuery = _
    rw [written, query, merged.text, merging.value_eq header]

end Merges

/-- No Uri-Path option comes after a Uri-Query option. -/
def PathsFirst (options : List RawOption) : Prop :=
  options.Pairwise fun before after =>
    before.number = CoapOption.uriQuery → after.number ≠ CoapOption.uriPath

private theorem delta_le_of_header {memory : Mem}
    {current delta length next : Nat}
    (header : HeaderRead memory current delta length next) :
    3 * delta ≤ 65804 * (next - current) := by
  obtain ⟨marker, middle, deltaRead, lengthRead⟩ := header
  have later := le_of_readExtension lengthRead
  have small : (memory current).toNat >>> 4 < 15 := by
    have bounded := (memory current).toNat_lt
    have reserved := mt (high_of_marker (memory current)).mpr marker
    rw [Nat.shiftRight_eq_div_pow] at reserved ⊢
    omega
  have low := (memory (current + 1)).toNat_lt
  have high := (memory (current + 1 + 1)).toNat_lt
  unfold readExtension at deltaRead
  split_ifs at deltaRead
  all_goals
    obtain ⟨rfl, rfl⟩ := Prod.mk.inj deltaRead
    try rw [Nat.shiftLeft_eq]
    omega

section Order

variable {memory : Mem} {dataLen fuel : Nat}

theorem walkedOptions_overrun {current number delta length next : Nat}
    (header : HeaderRead memory current delta length next)
    (outside : dataLen < next + length) :
    walkedOptions memory dataLen fuel current number = [] := by
  obtain ⟨marker, middle, deltaRead, lengthRead⟩ := header
  cases fuel with
  | zero => rfl
  | succ fuel =>
      rw [walkedOptions]
      simp only [marker, if_false, deltaRead, lengthRead]
      rw [if_pos outside, ite_self]

/-- In a message of this size the sum of all deltas stays below 2^32. -/
def wrapFree : Nat := 195807

private theorem number_le_walkedOptions (short : dataLen ≤ wrapFree)
    {current number : Nat} (counted : 3 * number ≤ 65804 * current) :
    (∀ option ∈ walkedOptions memory dataLen fuel current number,
        number ≤ option.number) ∧
      PathsFirst (walkedOptions memory dataLen fuel current number) := by
  induction fuel generalizing current number with
  | zero => exact ⟨List.forall_mem_nil _, .nil⟩
  | succ fuel ih =>
      by_cases going : current < dataLen
      · by_cases marker : (memory current).toNat &&& 0xF0 = 0xF0
        · rw [walkedOptions_marker marker]
          exact ⟨List.forall_mem_nil _, .nil⟩
        · obtain ⟨delta, length, next, header⟩ :=
            headerRead_of_not_marker marker
          rcases Nat.lt_or_ge dataLen (next + length) with outside | inside
          · rw [walkedOptions_overrun header outside]
            exact ⟨List.forall_mem_nil _, .nil⟩
          · have paid := delta_le_of_header header
            have forward := header.lt
            have bounded : dataLen ≤ 195807 := short
            have unwrapped : (number + delta) % 2 ^ 32 = number + delta :=
              Nat.mod_eq_of_lt (by omega)
            rw [walkedOptions_option going header inside, unwrapped]
            obtain ⟨above, ordered⟩ :=
              @ih (next + length) (number + delta) (by omega)
            refine ⟨?_, List.Pairwise.cons ?_ ordered⟩
            · rw [List.forall_mem_cons]
              refine ⟨Nat.le_add_right _ _, fun option member => ?_⟩
              exact Nat.le_trans (Nat.le_add_right _ _)
                (above option member)
            · intro option member query path
              have ascending := above option member
              simp only [CoapOption.uriQuery] at query
              simp only [CoapOption.uriPath] at path
              omega
      · rw [walkedOptions_end going]
        exact ⟨List.forall_mem_nil _, .nil⟩

end Order

section Loop

variable {config : CoapConfig} {memory : Mem} {dataLen : Nat}
  {parser : OptionParser}

private theorem parse_goes {fuel delta length next : Nat}
    (parsing : mode.validate = false)
    (going : parser.current < dataLen)
    (header : HeaderRead parser.memory parser.current delta length next)
    (ok : (parseOptionLoop config mode dataLen (fuel + 1) parser).status =
      .noError) :
    next + length ≤ dataLen ∧
      (parser.handle config mode delta length next).status = .noError ∧
      parseOptionLoop config mode dataLen (fuel + 1) parser =
        parseOptionLoop config mode dataLen fuel
          (parser.behind config mode delta length next) := by
  rcases Nat.lt_or_ge dataLen (next + length) with outside | inside
  · rw [parseOptionLoop_inl going
      (parseOptionStep_truncated header outside)] at ok
    cases ok
  · by_cases clean : (parser.handle config mode delta length next).status =
        .noError
    · exact ⟨inside, clean, parseOptionLoop_inr going
        (parseOptionStep_goes header inside fun ends => ends.1 clean)⟩
    · rw [parseOptionLoop_inl going (parseOptionStep_ends header inside
        ⟨clean, .inl (by rw [parsing]; rfl)⟩)] at ok
      exact absurd ok clean

private theorem code_behind {delta length next : Nat} :
    (parser.behind config mode delta length next).packet.code =
      parser.packet.code := by
  have judged := @coapOscoreParseOption_judged parser.memory
    (parser.packet.noteOption (parser.optionNumber delta)) ⟨next, length⟩
    config mode (parser.optionNumber delta)
  exact judged.retained.code.trans (CoapPacket.code_noteOption _ _)

private theorem texts_of_signal (fuel : Nat) (merging : Merging memory parser)
    (signal : ¬ NoSignal config parser.packet.code)
    (parsing : mode.validate = false)
    (ok : (parseOptionLoop config mode dataLen fuel parser).status =
      .noError) :
    (parseOptionLoop config mode dataLen fuel parser).memory.text
        (parseOptionLoop config mode dataLen fuel parser).packet.uriPath =
        parser.memory.text parser.packet.uriPath ∧
      (parseOptionLoop config mode dataLen fuel parser).memory.text
        (parseOptionLoop config mode dataLen fuel parser).packet.uriQuery =
        parser.memory.text parser.packet.uriQuery := by
  induction fuel generalizing parser with
  | zero => exact ⟨rfl, rfl⟩
  | succ fuel ih =>
      rcases round_cases dataLen parser with finished | ⟨going, marker |
        ⟨delta, length, next, header, -⟩⟩
      · rw [parseOptionLoop_end finished]
        exact ⟨rfl, rfl⟩
      · rw [parseOptionLoop_inl going (parseOptionStep_marker marker)]
        exact ⟨rfl, rfl⟩
      · obtain ⟨-, -, step⟩ := parse_goes parsing going header ok
        have merges : MergesTo memory
            (parser.behind config mode delta length next) _ _ :=
          merging.other header fun plain => absurd plain signal
        rw [step] at ok ⊢
        rw [← merges.path, ← merges.query]
        exact ih merges.merging (by rwa [code_behind]) ok

private theorem texts_of_parse (fuel : Nat) (merging : Merging memory parser)
    (plain : NoSignal config parser.packet.code)
    (parsing : mode.validate = false)
    (ordered : PathsFirst
      (walkedOptions memory dataLen fuel parser.current parser.number))
    (quiet : parser.memory.text parser.packet.uriQuery = [] ∨
      ∀ option ∈
        walkedOptions memory dataLen fuel parser.current parser.number,
        option.number ≠ CoapOption.uriPath)
    (ok : (parseOptionLoop config mode dataLen fuel parser).status =
      .noError) :
    (parseOptionLoop config mode dataLen fuel parser).memory.text
        (parseOptionLoop config mode dataLen fuel parser).packet.uriPath =
        (optionValues CoapOption.uriPath (walkedOptions memory dataLen fuel
          parser.current parser.number)).foldl (mergeText 47)
          (parser.memory.text parser.packet.uriPath) ∧
      (parseOptionLoop config mode dataLen fuel parser).memory.text
        (parseOptionLoop config mode dataLen fuel parser).packet.uriQuery =
        (optionValues CoapOption.uriQuery (walkedOptions memory dataLen fuel
          parser.current parser.number)).foldl (mergeText 38)
          (parser.memory.text parser.packet.uriQuery) := by
  induction fuel generalizing parser with
  | zero => exact ⟨rfl, rfl⟩
  | succ fuel ih =>
      rcases round_cases dataLen parser with finished | ⟨going, marker |
        ⟨delta, length, next, header, -⟩⟩
      · rw [parseOptionLoop_end finished, walkedOptions_end finished]
        exact ⟨rfl, rfl⟩
      · have same := merging.unread parser.current (Nat.le_refl _)
        rw [parseOptionLoop_inl going (parseOptionStep_marker marker),
          walkedOptions_marker (same ▸ marker)]
        exact ⟨rfl, rfl⟩
      · obtain ⟨inside, clean, step⟩ := parse_goes parsing going header ok
        have walked := @walkedOptions_option memory dataLen fuel
          parser.current parser.number delta length next going
          (merging.unread.headerRead header) inside
        rw [walked] at ordered quiet ⊢
        obtain ⟨first, later⟩ := List.pairwise_cons.mp ordered
        rw [step] at ok ⊢
        have code : NoSignal config
            (parser.behind config mode delta length next).packet.code := by
          rwa [code_behind]
        rcases eq_or_ne (parser.optionNumber delta) CoapOption.uriPath with
          path | notPath
        · have empty := quiet.resolve_right fun none =>
            none _ List.mem_cons_self path
          have merges := @Merging.uriPath mode config memory parser delta
            length next merging header plain parsing path clean empty
          obtain ⟨pathText, queryText⟩ := ih merges.merging code later
            (.inl (merges.query.trans empty)) ok
          rw [pathText, queryText, merges.path, merges.query]
          rw [optionValues_cons_self path,
            optionValues_cons_other (path.trans_ne (by decide))]
          exact ⟨rfl, rfl⟩
        · rcases eq_or_ne (parser.optionNumber delta) CoapOption.uriQuery
            with query | notQuery
          · have merges := @Merging.uriQuery mode config memory parser delta
              length next merging header plain parsing query clean
            obtain ⟨pathText, queryText⟩ := ih merges.merging code later
              (.inr fun option member => first option member query) ok
            rw [pathText, queryText, merges.path, merges.query]
            rw [optionValues_cons_other notPath, optionValues_cons_self query]
            exact ⟨rfl, rfl⟩
          · have merges : MergesTo memory
                (parser.behind config mode delta length next) _ _ :=
              merging.other header fun _ => ⟨notPath, notQuery⟩
            obtain ⟨pathText, queryText⟩ := ih merges.merging code later
              (quiet.imp merges.query.trans fun none option member =>
                none option (List.mem_cons_of_mem _ member)) ok
            rw [pathText, queryText, merges.path, merges.query]
            rw [optionValues_cons_other notPath,
              optionValues_cons_other notQuery]
            exact ⟨rfl, rfl⟩

end Loop

/-- The parser before the first option. -/
def OptionParser.start (memory : Mem) (packet : InPacket) (current : Nat) :
    OptionParser :=
  ⟨memory, { packet with options := 0 }, current, 0, .noError⟩

/-- One round of the loop leads from one parser to the other. -/
def ParserGoes (config : CoapConfig) (mode : ParseMode) (dataLen : Nat)
    (parser after : OptionParser) : Prop :=
  parser.current < dataLen ∧
    parseOptionStep config mode dataLen parser = .inr after

theorem unread_of_reached {config : CoapConfig} {dataLen : Nat}
    {start parser : OptionParser} (room : Room start.current start.packet)
    (reached : Relation.ReflTransGen (ParserGoes config mode dataLen) start
      parser) :
    Room parser.current parser.packet ∧ start.current ≤ parser.current ∧
      AgreeAbove parser.current parser.memory start.memory := by
  induction reached with
  | refl => exact ⟨room, Nat.le_refl _, fun _ _ => rfl⟩
  | tail earlier step ih =>
      obtain ⟨roomBefore, later, unread⟩ := ih
      obtain ⟨forward, -, roomAfter, above⟩ :=
        parseOptionStep_walks roomBefore step.2
      refine ⟨roomAfter, by omega, ?_⟩
      intro address beyond
      exact (above address beyond).trans (unread address (by omega))

/-- The values that a message gives for an option with text; the options of a
signal have another meaning. -/
def textValues (config : CoapConfig) (code : UInt8) (number : Nat)
    (options : List RawOption) : List Bytes :=
  if NoSignal config code then optionValues number options else []

/-- Every byte that is still unread at a round of the option parser is as it
was received.  A parse that succeeds leaves in the path and in the query the
values of their options, with one separator between them, from the first value
on that is not empty. -/
theorem merged_texts_of_message (config : CoapConfig)
    (inner outer oscore : Bool) (memory : Mem) {packet : InPacket}
    (dataLen current : Nat) (fresh : Unmerged packet) :
    (∀ validate parser,
      Relation.ReflTransGen
        (ParserGoes config ⟨inner, outer, oscore, validate⟩ dataLen)
        (OptionParser.start memory packet current) parser →
      AgreeAbove parser.current parser.memory memory) ∧
    ((dataLen ≤ wrapFree ∨
        PathsFirst (walkedOptions memory dataLen dataLen current 0)) →
      (coapOscoreParseOptions config ⟨inner, outer, oscore, false⟩ memory
        packet dataLen current).status = .noError →
      (coapOscoreParseOptions config ⟨inner, outer, oscore, false⟩ memory
          packet dataLen current).memory.text
          (coapOscoreParseOptions config ⟨inner, outer, oscore, false⟩ memory
            packet dataLen current).packet.uriPath =
          [47].intercalate
            ((textValues config packet.code CoapOption.uriPath
              (walkedOptions memory dataLen dataLen current 0)).dropWhile
                List.isEmpty) ∧
        (coapOscoreParseOptions config ⟨inner, outer, oscore, false⟩ memory
          packet dataLen current).memory.text
          (coapOscoreParseOptions config ⟨inner, outer, oscore, false⟩ memory
            packet dataLen current).packet.uriQuery =
          [38].intercalate
            ((textValues config packet.code CoapOption.uriQuery
              (walkedOptions memory dataLen dataLen current 0)).dropWhile
                List.isEmpty)) := by
  constructor
  · intro validate parser reached
    exact (unread_of_reached ⟨.inl fresh.path, .inl fresh.query⟩ reached).2.2
  · intro order ok
    have ordered : PathsFirst
        (walkedOptions memory dataLen dataLen current 0) :=
      order.elim (fun short => (number_le_walkedOptions short (by omega)).2) id
    have begins : Merging memory (OptionParser.start memory packet current) :=
      ⟨fun _ _ => rfl, ⟨.inl fresh.path, .inl fresh.query⟩, .inl fresh.query⟩
    have pathEmpty : memory.text packet.uriPath = [] :=
      Mem.text_of_empty fresh.path
    have queryEmpty : memory.text packet.uriQuery = [] :=
      Mem.text_of_empty fresh.query
    unfold coapOscoreParseOptions at ok ⊢
    split_ifs at ok ⊢
    by_cases plain : NoSignal config packet.code
    · obtain ⟨path, query⟩ := texts_of_parse dataLen begins plain rfl ordered
        (.inl queryEmpty) ok
      change _ = List.foldl _ (memory.text packet.uriPath) _ at path
      change _ = List.foldl _ (memory.text packet.uriQuery) _ at query
      rw [pathEmpty, foldl_mergeText_nil] at path
      rw [queryEmpty, foldl_mergeText_nil] at query
      unfold textValues
      rw [if_pos plain, if_pos plain]
      exact ⟨path, query⟩
    · obtain ⟨path, query⟩ := texts_of_signal dataLen begins plain rfl ok
      unfold textValues
      rw [if_neg plain, if_neg plain]
      exact ⟨path.trans pathEmpty, query.trans queryEmpty⟩

namespace MergedMessage

def config : CoapConfig :=
  ⟨true, true, false, false, false, true, false, false, false, 1024⟩

def packet : InPacket := CoapPacket.zero Span.null

theorem unmerged : Unmerged packet := ⟨rfl, rfl⟩

/-- The paths "" and "a", and the queries "b" and "c". -/
def options : Mem := .ofBytes [0xB0, 0x01, 97, 0x41, 98, 0x01, 99]

end MergedMessage

theorem merged_texts_of_four_options :
    (coapOscoreParseOptions MergedMessage.config ⟨true, true, false, false⟩
        MergedMessage.options MergedMessage.packet 7 0).memory.text
      (coapOscoreParseOptions MergedMessage.config ⟨true, true, false, false⟩
        MergedMessage.options MergedMessage.packet 7 0).packet.uriQuery =
      [98, 38, 99] :=
  ((merged_texts_of_message MergedMessage.config true true false
    MergedMessage.options 7 0 MergedMessage.unmerged).2 (.inl (by decide))
    (by decide)).2

/-- The separator behind an empty first value is lost. -/
theorem empty_value_leaves_no_trace :
    optionValues CoapOption.uriPath
        (walkedOptions MergedMessage.options 7 7 0 0) = [[], [97]] ∧
      (coapOscoreParseOptions MergedMessage.config ⟨true, true, false, false⟩
        MergedMessage.options MergedMessage.packet 7 0).status = .noError ∧
      (coapOscoreParseOptions MergedMessage.config ⟨true, true, false, false⟩
          MergedMessage.options MergedMessage.packet 7 0).memory.text
        (coapOscoreParseOptions MergedMessage.config
          ⟨true, true, false, false⟩ MergedMessage.options
          MergedMessage.packet 7 0).packet.uriPath ≠
        [47].intercalate [[], [97]] := by
  decide

end IotivityLite
