import IotivityLite.Coap.OptionWalk

/-!
# The grammar of options

The bytes after the token are a sequence of options, which a payload may
follow.  The grammar is given for any choice of what counts as a marker with
its payload and of how a length is written: RFC 7252 is one choice, what the
parser accepts is another.
-/

namespace IotivityLite

/-- A nibble from 0 to 14, the extension bytes it asks for and the number
they stand for. -/
inductive Extension : (nibble : Nat) → Bytes → (value : Nat) → Prop where
  | none {nibble : Nat} (small : nibble ≤ 12) : Extension nibble [] nibble
  | one (byte : UInt8) : Extension 13 [byte] (13 + byte.toNat)
  | two (high low : UInt8) :
      Extension 14 [high, low] (269 + high.toNat * 256 + low.toNat)

/-- What may follow the options, and how the length of an option is
written. -/
structure OptionDialect where
  payload : UInt8 → Bytes → Prop
  length : Nat → Bytes → Nat → Prop

/-- RFC 7252, section 3.1: the marker is 0xFF and the payload is not
empty. -/
def OptionDialect.rfc7252 : OptionDialect where
  payload := fun marker payload => marker = 0xFF ∧ payload ≠ []
  length := Extension

/-- Any byte with a high nibble of 15 ends the options, because the parser
takes the reserved ones for the marker.  Nothing is said about the length
nibble 15. -/
def OptionDialect.accepted : OptionDialect where
  payload := fun marker _ => marker.toNat >>> 4 = 15
  length := fun nibble bytes length =>
    nibble ≠ 15 → Extension nibble bytes length

inductive OptionSequence (dialect : OptionDialect) : Bytes → Prop where
  | done : OptionSequence dialect []
  | payload {marker : UInt8} {payload : Bytes}
      (allowed : dialect.payload marker payload) :
      OptionSequence dialect (marker :: payload)
  | option {first : UInt8} {deltaBytes lengthBytes value rest : Bytes}
      {delta : Nat}
      (deltaWritten : Extension (first.toNat >>> 4) deltaBytes delta)
      (lengthWritten : dialect.length (first.toNat &&& 0x0F) lengthBytes
        value.length)
      (later : OptionSequence dialect rest) :
      OptionSequence dialect
        (first :: (deltaBytes ++ (lengthBytes ++ (value ++ rest))))

theorem high_of_marker (first : UInt8) :
    first.toNat &&& 0xF0 = 0xF0 ↔ first.toNat >>> 4 = 15 := by
  have all : ∀ byte : Fin 256,
      byte.val &&& 0xF0 = 0xF0 ↔ byte.val >>> 4 = 15 := by decide +kernel
  exact all ⟨first.toNat, first.toNat_lt⟩

private theorem high_le (first : UInt8) : first.toNat >>> 4 ≤ 15 := by
  have small := first.toNat_lt
  rw [Nat.shiftRight_eq_div_pow]
  omega

private theorem low_le (first : UInt8) : first.toNat &&& 0x0F ≤ 15 :=
  Nat.and_le_right

/-- The bytes from one address up to another. -/
def Mem.between (memory : Mem) (start stop : Nat) : Bytes :=
  memory.read start (stop - start)

variable {memory : Mem}

theorem Mem.between_append {start middle stop : Nat} (first : start ≤ middle)
    (second : middle ≤ stop) :
    memory.between start stop =
      memory.between start middle ++ memory.between middle stop := by
  have split : stop - start = (middle - start) + (stop - middle) := by omega
  have joint : start + (middle - start) = middle := by omega
  unfold Mem.between
  rw [split, Mem.read_append, joint]

theorem Mem.between_cons {start stop : Nat} (before : start < stop) :
    memory.between start stop =
      memory start :: memory.between (start + 1) stop := by
  have split : stop - start = (stop - (start + 1)) + 1 := by omega
  unfold Mem.between
  rw [split]
  rfl

theorem Mem.between_of_above {left right : Mem} {start : Nat} (stop : Nat)
    (above : ∀ address, start ≤ address → left address = right address) :
    left.between start stop = right.between start stop :=
  Mem.read_congr fun address lower _ => above address lower

theorem extension_of_readExtension {nibble current value next : Nat}
    (small : nibble ≤ 14)
    (found : readExtension memory nibble current = (value, next)) :
    Extension nibble (memory.between current next) value := by
  unfold readExtension at found
  split_ifs at found with one two
  · obtain ⟨rfl, rfl⟩ := Prod.mk.inj found
    subst one
    rw [Mem.between_cons (Nat.lt_succ_self _)]
    unfold Mem.between
    rw [Nat.sub_self]
    exact .one _
  · obtain ⟨rfl, rfl⟩ := Prod.mk.inj found
    subst two
    rw [Mem.between_cons (by omega), Mem.between_cons (by omega)]
    unfold Mem.between
    rw [Nat.sub_self, Nat.shiftLeft_eq]
    exact .two _ _
  · obtain ⟨rfl, rfl⟩ := Prod.mk.inj found
    unfold Mem.between
    rw [Nat.sub_self]
    exact .none (by omega)

theorem optionSequence_header {memory : Mem}
    {current delta length next dataLen : Nat}
    (header : HeaderRead memory current delta length next)
    (inside : next + length ≤ dataLen)
    (later : OptionSequence .accepted
      (memory.between (next + length) dataLen)) :
    OptionSequence .accepted (memory.between current dataLen) := by
  obtain ⟨marker, middle, deltaRead, lengthRead⟩ := header
  have deltaForward := le_of_readExtension deltaRead
  have lengthForward := le_of_readExtension lengthRead
  have split : memory.between current dataLen =
      memory current :: (memory.between (current + 1) middle ++
        (memory.between middle next ++
          (memory.between next (next + length) ++
            memory.between (next + length) dataLen))) := by
    rw [Mem.between_cons (by omega),
      Mem.between_append deltaForward (by omega),
      Mem.between_append lengthForward (by omega),
      Mem.between_append (Nat.le_add_right next length) inside]
  have valueLength : (memory.between next (next + length)).length =
      length := by
    unfold Mem.between
    rw [Mem.length_read]
    omega
  have high := high_le (memory current)
  have low := low_le (memory current)
  have unmarked : (memory current).toNat >>> 4 ≠ 15 :=
    fun reserved => marker ((high_of_marker _).mpr reserved)
  rw [split]
  refine .option (extension_of_readExtension (by omega) deltaRead) ?_ later
  intro plain
  rw [valueLength]
  exact extension_of_readExtension (by omega) lengthRead

section Loop

variable {config : CoapConfig} {mode : ParseMode} {dataLen : Nat}

theorem parseOptionLoop_grammar (fuel : Nat) (parser : OptionParser)
    (enough : dataLen ≤ fuel + parser.current)
    (room : Room parser.current parser.packet)
    (accepted : (parseOptionLoop config mode dataLen fuel parser).status =
      .noError) :
    OptionSequence .accepted
      (parser.memory.between parser.current dataLen) := by
  induction fuel generalizing parser with
  | zero =>
      unfold Mem.between
      rw [Nat.sub_eq_zero_of_le (by omega)]
      exact .done
  | succ fuel ih =>
      rw [parseOptionLoop] at accepted
      by_cases unread : parser.current < dataLen
      · rw [if_pos unread] at accepted
        by_cases marker :
            (parser.memory parser.current).toNat &&& 0xF0 = 0xF0
        · rw [Mem.between_cons unread]
          exact .payload ((high_of_marker _).mp marker)
        · obtain ⟨delta, length, next, header⟩ :=
            headerRead_of_not_marker marker
          by_cases outside : dataLen < next + length
          · rw [parseOptionStep_truncated header outside] at accepted
            cases accepted
          · have inside := Nat.le_of_not_lt outside
            by_cases ends :
                (parser.handle config mode delta length next).Ends mode
            · rw [parseOptionStep_ends header inside ends] at accepted
              exact absurd accepted ends.1
            · have step := parseOptionStep_goes header inside ends
              rw [step] at accepted
              obtain ⟨forward, -, roomAfter, above⟩ :=
                parseOptionStep_walks room step
              have later := ih _ (by omega) roomAfter accepted
              apply optionSequence_header header inside
              rw [Mem.between_of_above dataLen above] at later
              exact later
      · unfold Mem.between
        rw [Nat.sub_eq_zero_of_le (by omega)]
        exact .done

end Loop

/-- Every caller of the option parser clears the packet first. -/
theorem option_parser_accepts_grammar (config : CoapConfig)
    (mode : ParseMode) (memory : Mem) (packet : InPacket)
    (dataLen current : Nat) (noPath : packet.uriPath = Span.null)
    (noQuery : packet.uriQuery = Span.null)
    (accepted : (coapOscoreParseOptions config mode memory packet dataLen
      current).status = .noError) :
    OptionSequence .accepted (memory.between current dataLen) := by
  unfold coapOscoreParseOptions at accepted
  split_ifs at accepted with large
  refine parseOptionLoop_grammar dataLen _ (Nat.le_add_right _ _) ?_ accepted
  exact ⟨.inl (congrArg Span.length noPath),
    .inl (congrArg Span.length noQuery)⟩

section Messages

private def messageConfig : CoapConfig :=
  ⟨false, false, false, false, false, true, false, false, false, 1024⟩

private def blankPacket : InPacket := CoapPacket.zero Span.null

/-- The path `a` and a payload of one byte. -/
private def pathMessage : Mem := .ofBytes [0xB1, 0x61, 0xFF, 0x01]

theorem option_parser_accepts_path :
    (coapOscoreParseOptions messageConfig .message pathMessage blankPacket
      4 0).status = .noError ∧
    OptionSequence .accepted (pathMessage.between 0 4) :=
  ⟨by decide +kernel, option_parser_accepts_grammar messageConfig .message
    pathMessage blankPacket 4 0 rfl rfl (by decide +kernel)⟩

/-- A reserved byte in option position, with a payload behind it. -/
private def reservedMessage : Mem := .ofBytes [0xF0, 0x01]

private theorem not_rfc7252_reserved :
    ¬ OptionSequence .rfc7252 [0xF0, 0x01] := by
  intro sequence
  generalize bytes : ([0xF0, 0x01] : Bytes) = whole at sequence
  cases sequence with
  | done => cases bytes
  | payload allowed =>
      obtain ⟨first, -⟩ := List.cons.inj bytes
      rw [← first] at allowed
      exact absurd allowed.1 (by decide)
  | option deltaWritten lengthWritten later =>
      obtain ⟨first, -⟩ := List.cons.inj bytes
      rw [← first] at deltaWritten
      generalize nibble : (0xF0 : UInt8).toNat >>> 4 = high at deltaWritten
      cases deltaWritten with
      | none small =>
          rw [← nibble] at small
          exact absurd small (by decide)
      | one => exact absurd nibble (by decide)
      | two => exact absurd nibble (by decide)

theorem option_parser_accepts_reserved :
    ¬ ∀ (mode : ParseMode) (memory : Mem) (dataLen current : Nat),
      (coapOscoreParseOptions messageConfig mode memory blankPacket dataLen
        current).status = .noError →
      OptionSequence .rfc7252 (memory.between current dataLen) := by
  intro strict
  apply not_rfc7252_reserved
  exact strict .message reservedMessage 2 0 (by decide +kernel)

end Messages

end IotivityLite
