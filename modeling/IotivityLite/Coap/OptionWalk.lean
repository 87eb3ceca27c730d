import IotivityLite.Coap.OptionSemantics

/-!
# The walk of the option parser

What one round of the option parser reads and writes, for every mode and
every outcome.  A round never touches the bytes that are still to be read,
because the parts of Uri-Path and Uri-Query are joined below the option they
come from.  A round whose option lies inside the message depends on nothing
outside it.
-/

namespace IotivityLite

/-- The two memories hold the same message of `bound` bytes. -/
def AgreeBelow (bound : Nat) (left right : Mem) : Prop :=
  ∀ address, address < bound → left address = right address

theorem AgreeBelow.symm {bound : Nat} {left right : Mem}
    (agree : AgreeBelow bound left right) : AgreeBelow bound right left :=
  fun address below => (agree address below).symm

theorem AgreeBelow.trans {bound : Nat} {left middle right : Mem}
    (first : AgreeBelow bound left middle)
    (second : AgreeBelow bound middle right) : AgreeBelow bound left right :=
  fun address below => (first address below).trans (second address below)

theorem AgreeBelow.text {bound : Nat} {left right : Mem}
    (agree : AgreeBelow bound left right) {span : Span}
    (inside : span.stop ≤ bound) : left.text span = right.text span := by
  apply Mem.text_of_agree
  intro address _ upper
  exact agree address (Nat.lt_of_lt_of_le upper inside)

/-- The texts that grow in place end before the next unread byte. -/
structure Room (current : Nat) (packet : InPacket) : Prop where
  path : packet.uriPath.length = 0 ∨ packet.uriPath.stop ≤ current
  query : packet.uriQuery.length = 0 ∨ packet.uriQuery.stop ≤ current

variable {packet : InPacket}

theorem Room.advance {current next : Nat} (room : Room current packet)
    (forward : current ≤ next) :
    Room next packet where
  path := room.path.imp id fun ends => Nat.le_trans ends forward
  query := room.query.imp id fun ends => Nat.le_trans ends forward

theorem Room.noteOption {current : Nat} (room : Room current packet)
    (number : Nat) : Room current (packet.noteOption number) := by
  unfold CoapPacket.noteOption
  split_ifs
  · exact ⟨room.path, room.query⟩
  · exact room

/-- No text was merged into the packet yet. -/
structure Unmerged (packet : InPacket) : Prop where
  path : packet.uriPath.length = 0
  query : packet.uriQuery.length = 0

/-- An option was taken, whatever its status, and nothing at or after `next`
was written. -/
structure Walks (memory : Mem) (next : Nat) (result : ParseResult) : Prop where
  above : ∀ address, next ≤ address →
    result.memory address = memory address
  room : Room next result.packet

variable {memory : Mem}

theorem walks_unwritten {next : Nat} (room : Room next packet)
    (status : CoapStatus) : Walks memory next ⟨status, memory, packet⟩ :=
  ⟨fun _ _ => rfl, room⟩

theorem walks_parseInt {memory : Mem} {next : Nat} {option : Span}
    {failure : CoapStatus} {accepted : UInt32 → Bool}
    {store : InPacket → UInt32 → InPacket} (room : Room next packet)
    (stored : ∀ value, Room next (store packet value)) :
    Walks memory next
      (parseInt memory packet option failure accepted store) := by
  unfold parseInt
  split
  · exact walks_unwritten room _
  · split_ifs
    · exact walks_unwritten (stored _) _
    · exact walks_unwritten room _

section Frame

variable {option : Span} {current : Nat}

private theorem room_option (room : Room current packet)
    (later : current < option.start) : Room option.stop packet := by
  apply room.advance
  unfold Span.stop
  omega

private theorem gap_option {dst : Span} (later : current < option.start)
    (room : dst.length = 0 ∨ dst.stop ≤ current) :
    dst.length = 0 ∨ dst.stop < option.start :=
  room.imp id fun ends => Nat.lt_of_le_of_lt ends later

theorem coapOscoreParseInnerOption_walks (config : CoapConfig)
    (kind : OptionKind) (validate : Bool) (room : Room current packet)
    (later : current < option.start) :
    Walks memory option.stop
      (coapOscoreParseInnerOption config memory packet kind option
        validate) := by
  have after := room_option room later
  unfold coapOscoreParseInnerOption
  cases kind
  case uriPath =>
    obtain ⟨-, stops, -, above, -⟩ := merged_coapMergeMultiOption memory 47
      (gap_option later room.path)
    simp only
    split_ifs
    · exact walks_unwritten after _
    · exact ⟨above, .inr stops, after.query⟩
  case uriQuery =>
    obtain ⟨-, stops, -, above, -⟩ := merged_coapMergeMultiOption memory 38
      (gap_option later room.query)
    simp only
    split_ifs
    · exact walks_unwritten after _
    · exact ⟨above, after.path, .inr stops⟩
  case etag => exact ⟨fun _ _ => rfl, after.path, after.query⟩
  case contentFormatVer | acceptVer =>
    simp only
    split_ifs
    · exact walks_unwritten after _
    · exact walks_unwritten after _
  case contentFormat | accept | block2 | block1 | size2 | size1 =>
    exact walks_parseInt after fun _ => ⟨after.path, after.query⟩
  all_goals exact walks_unwritten after _

theorem coapOscoreParseOuterOption_walks (kind : OptionKind)
    (validate : Bool) (room : Room current packet)
    (later : current < option.start) :
    Walks memory option.stop
      (coapOscoreParseOuterOption memory packet kind option validate) := by
  have after := room_option room later
  unfold coapOscoreParseOuterOption
  cases kind
  case proxyUri =>
    simp only
    split_ifs
    · exact walks_unwritten after _
    · exact ⟨fun _ _ => rfl, after.path, after.query⟩
  case uriHost => exact ⟨fun _ _ => rfl, after.path, after.query⟩
  case uriPort =>
    exact walks_parseInt after fun _ => ⟨after.path, after.query⟩
  all_goals exact walks_unwritten after _

theorem coapParseSignalOptions_walks (signal : CoapSignal) (number : Nat)
    (inner : Bool) (room : Room current packet)
    (later : current < option.start) :
    Walks memory option.stop
      (coapParseSignalOptions memory packet signal number option inner) := by
  have after := room_option room later
  unfold coapParseSignalOptions
  cases inner with
  | false => exact walks_unwritten after _
  | true =>
      cases signal
      all_goals
        simp only [Bool.not_true, Bool.false_eq_true, if_false]
        split_ifs
      all_goals
        first
        | exact walks_parseInt after fun _ => ⟨after.path, after.query⟩
        | exact ⟨fun _ _ => rfl, after.path, after.query⟩

private theorem room_coapParseOscoreOption {next : Nat}
    {parsed : InPacket} (room : Room next packet)
    (found : coapParseOscoreOption memory packet option = some parsed) :
    Room next parsed := by
  unfold coapParseOscoreOption at found
  simp only at found
  split_ifs at found
  all_goals
    obtain rfl := Option.some.inj found
    exact ⟨room.path, room.query⟩

theorem coapOscoreParseOption_walks (config : CoapConfig) (mode : ParseMode)
    (number : Nat) (room : Room current packet)
    (later : current < option.start) :
    Walks memory option.stop
      (coapOscoreParseOption config mode memory packet number option) := by
  have after := room_option room later
  unfold coapOscoreParseOption
  split
  · exact coapParseSignalOptions_walks _ number mode.inner room later
  · simp only
    split_ifs
    · exact walks_unwritten after _
    · exact coapOscoreParseInnerOption_walks config _ mode.validate room later
    · exact walks_unwritten after _
    · split
      · exact walks_unwritten after _
      · next found =>
          exact walks_unwritten (room_coapParseOscoreOption after found) _
    · exact walks_unwritten after _
    · exact coapOscoreParseOuterOption_walks _ mode.validate room later
    · exact walks_parseInt after fun _ => ⟨after.path, after.query⟩
    · exact walks_parseInt after fun _ => ⟨after.path, after.query⟩
    · exact walks_unwritten after _
    · exact walks_unwritten after _

end Frame

theorem le_of_readExtension {nibble current value next : Nat}
    (found : readExtension memory nibble current = (value, next)) :
    current ≤ next := by
  unfold readExtension at found
  split_ifs at found
  all_goals
    obtain ⟨-, rfl⟩ := Prod.mk.inj found
    omega

theorem HeaderRead.lt {current delta length next : Nat}
    (header : HeaderRead memory current delta length next) :
    current < next := by
  obtain ⟨-, middle, deltaRead, lengthRead⟩ := header
  have first := le_of_readExtension deltaRead
  have second := le_of_readExtension lengthRead
  omega

theorem headerRead_of_not_marker {current : Nat}
    (option : (memory current).toNat &&& 0xF0 ≠ 0xF0) :
    ∃ delta length next, HeaderRead memory current delta length next :=
  ⟨_, _, _, option, _, rfl, rfl⟩

namespace OptionParser

/-- The number of the option whose delta was read. -/
def optionNumber (parser : OptionParser) (delta : Nat) : Nat :=
  (parser.number + delta) % 2 ^ 32

/-- The parser after an option that did not end the walk. -/
def accept (parser : OptionParser) (number next : Nat)
    (result : ParseResult) : OptionParser where
  memory := result.memory
  packet := result.packet
  current := next
  number := number
  lastError :=
    if parser.lastError.code < result.status.code then result.status
    else parser.lastError

/-- The packet handed over at the payload marker. -/
def payloadPacket (parser : OptionParser) (dataLen : Nat) : InPacket :=
  { parser.packet with
    payload := ⟨parser.current + 1,
      (dataLen - (parser.current + 1)) % 2 ^ 32⟩ }

end OptionParser

/-- A failed option ends the walk, unless the caller validates. -/
def ParseResult.Ends (mode : ParseMode) (result : ParseResult) : Prop :=
  result.status ≠ .noError ∧
    (!mode.validate ∨ result.status = .badRequest)

section Step

variable {config : CoapConfig} {mode : ParseMode} {dataLen : Nat}
  {parser : OptionParser}

theorem parseOptionStep_marker
    (marker : (parser.memory parser.current).toNat &&& 0xF0 = 0xF0) :
    parseOptionStep config mode dataLen parser =
      .inl ⟨parser.lastError, parser.memory, parser.payloadPacket dataLen⟩ := by
  unfold parseOptionStep
  rw [if_pos marker]
  rfl

variable {delta length next : Nat}

theorem parseOptionStep_truncated
    (header : HeaderRead parser.memory parser.current delta length next)
    (outside : dataLen < next + length) :
    parseOptionStep config mode dataLen parser =
      .inl ⟨.badRequest, parser.memory,
        parser.packet.noteOption (parser.optionNumber delta)⟩ := by
  obtain ⟨marker, middle, deltaRead, lengthRead⟩ := header
  unfold parseOptionStep
  simp only [marker, if_false, deltaRead, lengthRead]
  rw [if_pos outside]
  rfl

/-- The result of the option handler on the option that was found. -/
def OptionParser.handle (parser : OptionParser) (config : CoapConfig)
    (mode : ParseMode) (delta length next : Nat) : ParseResult :=
  coapOscoreParseOption config mode parser.memory
    (parser.packet.noteOption (parser.optionNumber delta))
    (parser.optionNumber delta) ⟨next, length⟩

theorem parseOptionStep_ends
    (header : HeaderRead parser.memory parser.current delta length next)
    (inside : next + length ≤ dataLen)
    (ends : (parser.handle config mode delta length next).Ends mode) :
    parseOptionStep config mode dataLen parser =
      .inl (parser.handle config mode delta length next) := by
  obtain ⟨marker, middle, deltaRead, lengthRead⟩ := header
  unfold parseOptionStep
  simp only [marker, if_false, deltaRead, lengthRead]
  rw [if_neg (Nat.not_lt_of_le inside)]
  exact if_pos ends

theorem parseOptionStep_goes
    (header : HeaderRead parser.memory parser.current delta length next)
    (inside : next + length ≤ dataLen)
    (goes : ¬ (parser.handle config mode delta length next).Ends mode) :
    parseOptionStep config mode dataLen parser =
      .inr (parser.accept (parser.optionNumber delta) (next + length)
        (parser.handle config mode delta length next)) := by
  obtain ⟨marker, middle, deltaRead, lengthRead⟩ := header
  unfold parseOptionStep
  simp only [marker, if_false, deltaRead, lengthRead]
  rw [if_neg (Nat.not_lt_of_le inside)]
  exact if_neg goes

theorem parseOptionStep_inr {after : OptionParser}
    (step : parseOptionStep config mode dataLen parser = .inr after) :
    ∃ delta length next,
      HeaderRead parser.memory parser.current delta length next ∧
        next + length ≤ dataLen ∧
        ¬ (parser.handle config mode delta length next).Ends mode ∧
        after = parser.accept (parser.optionNumber delta) (next + length)
          (parser.handle config mode delta length next) := by
  by_cases marker : (parser.memory parser.current).toNat &&& 0xF0 = 0xF0
  · rw [parseOptionStep_marker marker] at step
    cases step
  · obtain ⟨delta, length, next, header⟩ := headerRead_of_not_marker marker
    refine ⟨delta, length, next, header, ?_⟩
    by_cases outside : dataLen < next + length
    · rw [parseOptionStep_truncated header outside] at step
      cases step
    · have inside := Nat.le_of_not_lt outside
      by_cases ends : (parser.handle config mode delta length next).Ends mode
      · rw [parseOptionStep_ends header inside ends] at step
        cases step
      · rw [parseOptionStep_goes header inside ends] at step
        exact ⟨inside, ends, (Sum.inr.inj step).symm⟩

theorem handle_walks {delta length next : Nat}
    (room : Room parser.current parser.packet)
    (header : HeaderRead parser.memory parser.current delta length next) :
    Walks parser.memory (next + length)
      (parser.handle config mode delta length next) := by
  unfold OptionParser.handle
  exact @coapOscoreParseOption_walks _ parser.memory ⟨next, length⟩ _ config
    mode (parser.optionNumber delta) (room.noteOption _) header.lt

theorem parseOptionStep_walks {after : OptionParser}
    (room : Room parser.current parser.packet)
    (step : parseOptionStep config mode dataLen parser = .inr after) :
    parser.current < after.current ∧ after.current ≤ dataLen ∧
      Room after.current after.packet ∧
      ∀ address, after.current ≤ address →
        after.memory address = parser.memory address := by
  obtain ⟨delta, length, next, header, inside, -, rfl⟩ :=
    parseOptionStep_inr step
  obtain ⟨above, roomAfter⟩ :=
    @handle_walks config mode parser delta length next room header
  refine ⟨?_, inside, roomAfter, above⟩
  exact Nat.lt_of_lt_of_le header.lt (Nat.le_add_right _ _)

end Step

end IotivityLite
