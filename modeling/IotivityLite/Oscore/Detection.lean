import IotivityLite.Coap.ReceivedBytes
import IotivityLite.Coap.Validation
import IotivityLite.Oscore.Receive

/-!
# Detection of OSCORE messages

`oscore_is_oscore_message` walks over the options of a message that has not
been validated yet, to find out if it is protected.  It is a second walker
beside the option parser, with the same arithmetic.  The addresses it looks at
are recorded: an option header is read without a check against the end of the
message.
-/

namespace IotivityLite

/-- The answer of a walk over a message and the addresses it looked at. -/
structure Detection where
  found : Bool
  looked : List Nat
  deriving DecidableEq

/-- The addresses from which the extension of a nibble is read. -/
def extensionLooks (nibble current : Nat) : List Nat :=
  if nibble = 13 then [current]
  else if nibble = 14 then [current, current + 1]
  else []

/-- The loop `findOscoreOption` together with the addresses it looks at. -/
def detectOscoreLoop (memory : Mem) (dataLen : Nat) :
    (fuel current number : Nat) → Detection
  | 0, _, _ => ⟨false, []⟩
  | fuel + 1, current, number =>
      if current < dataLen then
        let first := (memory current).toNat
        if first &&& 0xF0 = 0xF0 then ⟨false, [current]⟩
        else
          let (delta, middle) :=
            readExtension memory (first >>> 4) (current + 1)
          let (length, next) :=
            readExtension memory (first &&& 0x0F) middle
          let looked := current ::
            (extensionLooks (first >>> 4) (current + 1) ++
              extensionLooks (first &&& 0x0F) middle)
          let number := (number + delta) % 2 ^ 32
          if number = CoapOption.oscore then ⟨true, looked⟩
          else
            -- the end of the option is not compared with the message
            let rest :=
              detectOscoreLoop memory dataLen fuel (next + length) number
            ⟨rest.found, looked ++ rest.looked⟩
      else ⟨false, []⟩

/-- A message as the network delivers it; the buffer goes on behind its
end. -/
structure DeliveredMessage where
  data : Mem
  length : Nat
  tcp : Bool

/-- The addresses looked at for the length of a stream message; incomplete
length bytes are left alone. -/
def tcpLengthLooks (message : DeliveredMessage) : List Nat :=
  match coapTcpParseMessageLength message.data message.length with
  | none => [0]
  | some (_, extendedBytes) => 0 :: List.range' 1 extendedBytes

def DeliveredMessage.tokenLen (message : DeliveredMessage) : Nat :=
  0x0F &&& (message.data 0).toNat

/-- Where the options begin; `none` when the header is not complete. -/
def DeliveredMessage.optionsStart (config : CoapConfig)
    (message : DeliveredMessage) : Option Nat :=
  if config.ocTcp && message.tcp then
    match coapTcpParseMessageLength message.data message.length with
    | none => none
    | some (_, extendedBytes) => some (2 + extendedBytes + message.tokenLen)
  else some (4 + message.tokenLen)

def DeliveredMessage.headerLooks (config : CoapConfig)
    (message : DeliveredMessage) : List Nat :=
  if config.ocTcp && message.tcp then tcpLengthLooks message else [0]

def oscoreIsOscoreMessageInBuffer (config : CoapConfig)
    (message : DeliveredMessage) : Detection :=
  match message.optionsStart config with
  | none => ⟨false, message.headerLooks config⟩
  | some start =>
      let detection :=
        detectOscoreLoop message.data message.length message.length start 0
      ⟨detection.found, message.headerLooks config ++ detection.looked⟩

section Rounds

variable {memory : Mem} {dataLen fuel current number : Nat}

theorem detectOscoreLoop_end (finished : ¬ current < dataLen) :
    detectOscoreLoop memory dataLen fuel current number = ⟨false, []⟩ := by
  cases fuel with
  | zero => rfl
  | succ fuel => rw [detectOscoreLoop, if_neg finished]

theorem detectOscoreLoop_marker (going : current < dataLen)
    (marker : (memory current).toNat &&& 0xF0 = 0xF0) :
    detectOscoreLoop memory dataLen (fuel + 1) current number =
      ⟨false, [current]⟩ := by
  rw [detectOscoreLoop, if_pos going]
  simp only [marker, if_true]

/-- The addresses of an option header. -/
def headerLooksAt (memory : Mem) (current : Nat) : List Nat :=
  current :: (extensionLooks ((memory current).toNat >>> 4) (current + 1) ++
    extensionLooks ((memory current).toNat &&& 0x0F)
      (current + 1 + extensionSize ((memory current).toNat >>> 4)))

theorem detectOscoreLoop_option (going : current < dataLen)
    {delta length next : Nat}
    (header : HeaderRead memory current delta length next) :
    detectOscoreLoop memory dataLen (fuel + 1) current number =
      if (number + delta) % 2 ^ 32 = CoapOption.oscore then
        ⟨true, headerLooksAt memory current⟩
      else
        ⟨(detectOscoreLoop memory dataLen fuel (next + length)
            ((number + delta) % 2 ^ 32)).found,
          headerLooksAt memory current ++
            (detectOscoreLoop memory dataLen fuel (next + length)
              ((number + delta) % 2 ^ 32)).looked⟩ := by
  obtain ⟨marker, middle, deltaRead, lengthRead⟩ := header
  have place := readExtension_snd memory ((memory current).toNat >>> 4)
    (current + 1)
  rw [deltaRead] at place
  rw [detectOscoreLoop, if_pos going]
  simp only [marker, if_false, deltaRead, lengthRead]
  rw [show middle = _ from place]
  rfl

end Rounds

theorem found_detectOscoreLoop (memory : Mem) (dataLen fuel current
    number : Nat) :
    (detectOscoreLoop memory dataLen fuel current number).found =
      findOscoreOption memory dataLen fuel current number := by
  induction fuel generalizing current number with
  | zero => rfl
  | succ fuel ih =>
      unfold detectOscoreLoop findOscoreOption
      by_cases going : current < dataLen
      · by_cases marker : (memory current).toNat &&& 0xF0 = 0xF0
        · simp only [going, marker, if_true, ne_eq, not_true, and_false,
            if_false]
        · simp only [going, marker, if_true, if_false, ne_eq, not_false_iff,
            and_self]
          split_ifs
          · rfl
          · exact ih _ _
      · simp only [going, if_false, false_and]

theorem oscoreIsOscoreMessage_eq (config : CoapConfig)
    (message : IncomingMessage) :
    oscoreIsOscoreMessage config message =
      (oscoreIsOscoreMessageInBuffer config
        ⟨.ofBytes message.data, message.data.length, message.tcp⟩).found := by
  unfold oscoreIsOscoreMessage oscoreIsOscoreMessageInBuffer
    DeliveredMessage.optionsStart DeliveredMessage.tokenLen
  simp only
  split_ifs
  · cases coapTcpParseMessageLength (Mem.ofBytes message.data)
        message.data.length with
    | none => rfl
    | some header => exact (found_detectOscoreLoop _ _ _ _ _).symm
  · exact (found_detectOscoreLoop _ _ _ _ _).symm

theorem isOption_noteOption_oscore (packet : InPacket) (number : Nat) :
    (packet.noteOption number).isOption CoapOption.oscore =
      (packet.isOption CoapOption.oscore ||
        decide (number = CoapOption.oscore)) := by
  by_cases same : number = CoapOption.oscore
  · subst same
    have small : CoapOption.oscore ≤ CoapOption.size1 := by decide
    rw [isOption_noteOption_self small, decide_eq_true rfl, Bool.or_true]
  · rw [isOption_noteOption_other same, decide_eq_false same, Bool.or_false]

section Agreement

variable {config : CoapConfig} {mode : ParseMode} {dataLen : Nat}
  {memory : Mem} {parser : OptionParser} {delta length next : Nat}

theorem isOption_handle :
    (parser.handle config mode delta length next).packet.isOption
        CoapOption.oscore =
      (parser.packet.isOption CoapOption.oscore ||
        decide (parser.optionNumber delta = CoapOption.oscore)) := by
  have judged := @coapOscoreParseOption_judged parser.memory
    (parser.packet.noteOption (parser.optionNumber delta)) ⟨next, length⟩
    config mode (parser.optionNumber delta)
  rw [← isOption_noteOption_oscore]
  exact judged.retained.noted CoapOption.oscore (by decide) (by decide)

theorem isOption_parseOptionLoop (fuel : Nat)
    (whole : mode.validate = true ∨
      (parseOptionLoop config mode dataLen fuel parser).status = .noError)
    (room : Room parser.current parser.packet)
    (agree : AgreeAbove parser.current parser.memory memory) :
    (parseOptionLoop config mode dataLen fuel parser).packet.isOption
        CoapOption.oscore =
      (parser.packet.isOption CoapOption.oscore ||
        (detectOscoreLoop memory dataLen fuel parser.current
          parser.number).found) := by
  induction fuel generalizing parser with
  | zero => exact (Bool.or_false _).symm
  | succ fuel ih =>
      rcases round_cases dataLen parser with finished | ⟨going, marker |
        ⟨delta, length, next, header, outside | inside⟩⟩
      · rw [parseOptionLoop_end finished, detectOscoreLoop_end finished]
        exact (Bool.or_false _).symm
      · have same := agree parser.current (Nat.le_refl _)
        rw [parseOptionLoop_inl going (parseOptionStep_marker marker),
          detectOscoreLoop_marker going (same ▸ marker)]
        exact (Bool.or_false _).symm
      · -- an option that overruns the message is noted before it is refused
        rcases whole with validating | clean
        · rw [parseOptionLoop_inl going
            (parseOptionStep_truncated header outside),
            detectOscoreLoop_option going (agree.headerRead header),
            detectOscoreLoop_end (Nat.not_lt_of_le (Nat.le_of_lt outside)),
            isOption_noteOption_oscore]
          unfold OptionParser.optionNumber
          split_ifs with same
          · rw [decide_eq_true same]
          · rw [decide_eq_false same]
        · rw [parseOptionLoop_inl going
            (parseOptionStep_truncated header outside)] at clean
          cases clean
      · have goes : ¬ (parser.handle config mode delta length next).Ends
            mode := by
          intro ends
          rcases whole with validating | clean
          · exact goes_validating validating ends
          · rw [parseOptionLoop_inl going
              (parseOptionStep_ends header inside ends)] at clean
            exact ends.1 clean
        have step : parseOptionLoop config mode dataLen (fuel + 1) parser =
            _ :=
          parseOptionLoop_inr going (parseOptionStep_goes header inside goes)
        obtain ⟨above, roomAfter⟩ :=
          @handle_walks config mode parser delta length next room header
        rw [step] at whole ⊢
        rw [ih whole roomAfter ?agree,
          detectOscoreLoop_option going (agree.headerRead header)]
        case agree =>
          intro address beyond
          refine (above address beyond).trans (agree address ?_)
          have forward := header.lt
          change next + length ≤ address at beyond
          omega
        change ((parser.handle config mode delta length next).packet.isOption
          CoapOption.oscore || _) = _
        rw [isOption_handle]
        unfold OptionParser.optionNumber
        split_ifs with same
        · rw [decide_eq_true same, Bool.or_true, Bool.true_or]
        · rw [decide_eq_false same, Bool.or_false]
          rfl

end Agreement

theorem HeaderRead.unique {memory : Mem}
    {current delta length next delta' length' next' : Nat}
    (left : HeaderRead memory current delta length next)
    (right : HeaderRead memory current delta' length' next') :
    delta = delta' ∧ length = length' ∧ next = next' := by
  obtain ⟨-, middle, deltaRead, lengthRead⟩ := left
  obtain ⟨-, middle', deltaRead', lengthRead'⟩ := right
  rw [deltaRead] at deltaRead'
  obtain ⟨rfl, rfl⟩ := Prod.mk.inj deltaRead'
  rw [lengthRead] at lengthRead'
  obtain ⟨rfl, rfl⟩ := Prod.mk.inj lengthRead'
  exact ⟨rfl, rfl, rfl⟩

/-- A place where an option may begin, with the number of the option before
it. -/
structure OptionPlace where
  current : Nat
  number : Nat

/-- An option that is not the OSCORE option leads from one place to the
next. -/
def NextOption (memory : Mem) (dataLen : Nat) (place after : OptionPlace) :
    Prop :=
  place.current < dataLen ∧
    ∃ delta length next,
      HeaderRead memory place.current delta length next ∧
        (place.number + delta) % 2 ^ 32 ≠ CoapOption.oscore ∧
        after = ⟨next + length, (place.number + delta) % 2 ^ 32⟩

/-- A header that begins inside the message ends inside it. -/
def HeaderComplete (memory : Mem) (dataLen : Nat) (place : OptionPlace) :
    Prop :=
  place.current < dataLen → ∀ delta length next,
    HeaderRead memory place.current delta length next → next ≤ dataLen

/-- The headers of all options up to the OSCORE option or the payload marker
are complete. -/
def HeadersComplete (memory : Mem) (dataLen : Nat) (start : OptionPlace) :
    Prop :=
  ∀ place, Relation.ReflTransGen (NextOption memory dataLen) start place →
    HeaderComplete memory dataLen place

private theorem extensionLooks_inside (nibble current dataLen : Nat) :
    (∀ address ∈ extensionLooks nibble current, address < dataLen) ↔
      (extensionSize nibble = 0 ∨
        current + extensionSize nibble ≤ dataLen) := by
  unfold extensionLooks extensionSize
  split_ifs
  · rw [List.forall_mem_singleton, false_or, Nat.succ_le_iff]
  · rw [List.forall_mem_cons, List.forall_mem_singleton, false_or]
    omega
  · exact iff_of_true (List.forall_mem_nil _) (.inl rfl)

section Looks

variable {memory : Mem} {dataLen : Nat}

theorem headerLooksAt_inside {current delta length next : Nat}
    (header : HeaderRead memory current delta length next) :
    (∀ address ∈ headerLooksAt memory current, address < dataLen) ↔
      next ≤ dataLen := by
  have place := header.next_eq
  unfold headerLooksAt
  rw [List.forall_mem_cons, List.forall_mem_append, extensionLooks_inside,
    extensionLooks_inside]
  omega

variable {start : OptionPlace}

theorem headersComplete_end (finished : ¬ start.current < dataLen) :
    HeadersComplete memory dataLen start := by
  intro place reached
  rcases Relation.ReflTransGen.cases_head_iff.mp reached with rfl |
    ⟨after, step, -⟩
  · intro going
    exact absurd going finished
  · exact absurd step.1 finished

theorem headersComplete_marker
    (marker : (memory start.current).toNat &&& 0xF0 = 0xF0) :
    HeadersComplete memory dataLen start := by
  intro place reached
  rcases Relation.ReflTransGen.cases_head_iff.mp reached with rfl |
    ⟨after, ⟨-, delta, length, next, header, -⟩, -⟩
  · intro _ delta length next header
    exact absurd marker header.marker
  · exact absurd marker header.marker

theorem headersComplete_option {delta length next : Nat}
    (going : start.current < dataLen)
    (header : HeaderRead memory start.current delta length next) :
    HeadersComplete memory dataLen start ↔
      next ≤ dataLen ∧
        ((start.number + delta) % 2 ^ 32 ≠ CoapOption.oscore →
          HeadersComplete memory dataLen
            ⟨next + length, (start.number + delta) % 2 ^ 32⟩) := by
  constructor
  · intro complete
    refine ⟨complete start .refl going delta length next header, ?_⟩
    intro other place reached
    apply complete place
    exact reached.head ⟨going, delta, length, next, header, other, rfl⟩
  · rintro ⟨inside, rest⟩ place reached
    rcases Relation.ReflTransGen.cases_head_iff.mp reached with rfl |
      ⟨after, ⟨-, delta', length', next', header', other, rfl⟩, later⟩
    · intro _ delta' length' next' header'
      obtain ⟨-, -, rfl⟩ := header.unique header'
      exact inside
    · obtain ⟨rfl, rfl, rfl⟩ := header.unique header'
      exact rest other place later

theorem looked_detectOscoreLoop_inside (fuel current number : Nat)
    (enough : dataLen ≤ fuel + current) :
    (∀ address ∈ (detectOscoreLoop memory dataLen fuel current number).looked,
        address < dataLen) ↔
      HeadersComplete memory dataLen ⟨current, number⟩ := by
  induction fuel generalizing current number with
  | zero =>
      have finished : ¬ current < dataLen := by omega
      rw [detectOscoreLoop_end finished]
      exact iff_of_true (List.forall_mem_nil _) (headersComplete_end finished)
  | succ fuel ih =>
      by_cases going : current < dataLen
      · by_cases marker : (memory current).toNat &&& 0xF0 = 0xF0
        · rw [detectOscoreLoop_marker going marker]
          exact iff_of_true (List.forall_mem_singleton.mpr going)
            (headersComplete_marker marker)
        · obtain ⟨delta, length, next, header⟩ :=
            headerRead_of_not_marker marker
          have later := header.lt
          rw [detectOscoreLoop_option going header,
            headersComplete_option going header]
          split_ifs with same
          · rw [headerLooksAt_inside header]
            exact (and_iff_left fun other => absurd same other).symm
          · rw [List.forall_mem_append, headerLooksAt_inside header,
              ih _ _ (by omega)]
            exact and_congr_right fun _ => (imp_iff_right same).symm
      · rw [detectOscoreLoop_end going]
        exact iff_of_true (List.forall_mem_nil _) (headersComplete_end going)

end Looks

section Messages

variable (config : CoapConfig) (message : DeliveredMessage)

private theorem extendedBytes_inside {length extendedBytes : Nat}
    (found : coapTcpParseMessageLength message.data message.length =
      some (length, extendedBytes)) :
    extendedBytes = 0 ∨ extendedBytes < message.length := by
  unfold coapTcpParseMessageLength at found
  simp only at found
  split_ifs at found
  all_goals
    obtain ⟨-, rfl⟩ := Prod.mk.inj (Option.some.inj found)
    omega

theorem headerLooks_inside :
    (∀ address ∈ message.headerLooks config, address < message.length) ↔
      0 < message.length := by
  unfold DeliveredMessage.headerLooks tcpLengthLooks
  split_ifs
  · split
    · exact List.forall_mem_singleton
    · next length extendedBytes found =>
        have inside := extendedBytes_inside message found
        rw [List.forall_mem_cons]
        refine and_iff_left_of_imp ?_
        intro nonempty address member
        have range := List.mem_range'_1.mp member
        omega
  · exact List.forall_mem_singleton

/-- The parser notes the OSCORE option on its walk over the options of the
message. -/
def NotesOscore (mode : ParseMode) (packet : InPacket) : Prop :=
  ∃ start, message.optionsStart config = some start ∧
    (coapOscoreParseOptions config mode message.data packet message.length
      start).packet.isOption CoapOption.oscore = true

/-- The detection answers as the walk of the parser does: that of every
validation, and that of every parse which reaches the end of the options. -/
def AgreesWithParser (inner outer oscore : Bool) (packet : InPacket) :
    Prop :=
  ((oscoreIsOscoreMessageInBuffer config message).found = true ↔
      NotesOscore config message ⟨inner, outer, oscore, true⟩ packet) ∧
    ∀ start, message.optionsStart config = some start →
      (coapOscoreParseOptions config ⟨inner, outer, oscore, false⟩
        message.data packet message.length start).status = .noError →
      ((oscoreIsOscoreMessageInBuffer config message).found = true ↔
        NotesOscore config message ⟨inner, outer, oscore, false⟩ packet)

/-- The detection does not look outside the message. -/
def LooksInside : Prop :=
  ∀ address ∈ (oscoreIsOscoreMessageInBuffer config message).looked,
    address < message.length

theorem agreesWithParser (inner outer oscore : Bool) {packet : InPacket}
    (short : message.length ≤ 2 ^ 32 - 1) (fresh : Unmerged packet) :
    AgreesWithParser config message inner outer oscore packet := by
  unfold AgreesWithParser NotesOscore oscoreIsOscoreMessageInBuffer
  cases begins : message.optionsStart config with
  | none => simp
  | some start =>
      have same (mode : ParseMode) (whole : mode.validate = true ∨
          (coapOscoreParseOptions config mode message.data packet
            message.length start).status = .noError) :
          (coapOscoreParseOptions config mode message.data packet
              message.length start).packet.isOption CoapOption.oscore =
            (detectOscoreLoop message.data message.length message.length start
              0).found := by
        unfold coapOscoreParseOptions at whole ⊢
        rw [if_neg (Nat.not_lt_of_le short)] at whole ⊢
        rw [isOption_parseOptionLoop message.length whole
          ⟨.inl fresh.path, .inl fresh.query⟩ fun _ _ => rfl]
        have unnoted : CoapPacket.isOption { packet with options := 0 }
            CoapOption.oscore = false := by
          simp [CoapPacket.isOption]
        rw [unnoted, Bool.false_or]
      simp only [Option.some.injEq, exists_eq_left', forall_eq']
      constructor
      · rw [same _ (.inl rfl)]
      · intro clean
        rw [same _ (.inr clean)]

/-- The detection of OSCORE messages agrees with the parser on every message,
and it stays inside a message if and only if the message is not empty and has
complete option headers up to the OSCORE option. -/
theorem oscore_detection_sound_iff (inner outer oscore : Bool)
    {packet : InPacket} (short : message.length ≤ 2 ^ 32 - 1)
    (fresh : Unmerged packet) :
    AgreesWithParser config message inner outer oscore packet ∧
      (AgreesWithParser config message inner outer oscore packet ∧
          LooksInside config message ↔
        0 < message.length ∧
          ∀ start, message.optionsStart config = some start →
            HeadersComplete message.data message.length ⟨start, 0⟩) := by
  have agrees :=
    agreesWithParser config message inner outer oscore short fresh
  refine ⟨agrees, (and_iff_right agrees).trans ?_⟩
  unfold LooksInside oscoreIsOscoreMessageInBuffer
  cases begins : message.optionsStart config with
  | none =>
      rw [headerLooks_inside]
      exact (and_iff_left fun _ none => absurd none.symm
        (Option.some_ne_none _)).symm
  | some start =>
      rw [List.forall_mem_append, headerLooks_inside,
        looked_detectOscoreLoop_inside _ _ _ (Nat.le_add_right _ _)]
      simp only [Option.some.injEq, forall_eq']

end Messages

namespace DetectedMessage

def config : CoapConfig :=
  ⟨true, true, false, false, false, true, false, false, false, 1024⟩

def packet : InPacket := CoapPacket.zero Span.null

theorem unmerged : Unmerged packet := ⟨rfl, rfl⟩

/-- A datagram with an OSCORE option of one byte. -/
def complete : DeliveredMessage :=
  ⟨.ofBytes [0x40, 0x02, 0, 1, 0x91, 0x00], 6, false⟩

/-- A datagram that ends with the first byte of an option header. -/
def cut : DeliveredMessage := ⟨.ofBytes [0x40, 0x02, 0, 1, 0xD0], 5, false⟩

end DetectedMessage

theorem oscore_detection_of_complete :
    (oscoreIsOscoreMessageInBuffer DetectedMessage.config
        DetectedMessage.complete).found = true ∧
      HeadersComplete DetectedMessage.complete.data 6 ⟨4, 0⟩ := by
  have sound := oscore_detection_sound_iff DetectedMessage.config
    DetectedMessage.complete true true true (by decide)
    DetectedMessage.unmerged
  have inside : LooksInside DetectedMessage.config
      DetectedMessage.complete := by
    unfold LooksInside
    decide
  exact ⟨by decide, (sound.2.mp ⟨sound.1, inside⟩).2 4 (by decide)⟩

/-- The byte behind the message is looked at as the extension of a delta. -/
theorem oscore_detection_looks_outside :
    ¬ LooksInside DetectedMessage.config DetectedMessage.cut := by
  intro inside
  have beyond : 5 ∈ (oscoreIsOscoreMessageInBuffer DetectedMessage.config
      DetectedMessage.cut).looked := by
    decide
  exact absurd (inside 5 beyond) (by decide)

end IotivityLite
