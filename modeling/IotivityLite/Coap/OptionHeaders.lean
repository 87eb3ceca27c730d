import IotivityLite.Coap.OptionWalk

/-!
# Option headers and integer options on the wire

The header part of the option loop undoes `coap_set_option_header` for every
delta and length that two extension bytes can hold, and the integer options
come back from the shortest byte strings that stand for them.
-/

namespace IotivityLite

/-- The delta, the length and the address behind the header; `none` at the
payload marker. -/
def readOptionHeader (memory : Mem) (current : Nat) :
    Option (Nat × Nat × Nat) :=
  let first := (memory current).toNat
  if first &&& 0xF0 = 0xF0 then none
  else
    let delta := readExtension memory (first >>> 4) (current + 1)
    let length := readExtension memory (first &&& 0x0F) delta.2
    some (delta.1, length.1, length.2)

variable {memory : Mem}

theorem readOptionHeader_eq_some_iff {current delta length next : Nat} :
    readOptionHeader memory current = some (delta, length, next) ↔
      HeaderRead memory current delta length next := by
  unfold readOptionHeader
  constructor
  · intro found
    by_cases marker : (memory current).toNat &&& 0xF0 = 0xF0
    · simp [marker] at found
    · simp only [marker, if_false, Option.some.injEq, Prod.mk.injEq] at found
      obtain ⟨rfl, rfl, rfl⟩ := found
      exact ⟨marker, _, rfl, rfl⟩
  · rintro ⟨marker, middle, deltaRead, lengthRead⟩
    simp only [marker, if_false, deltaRead, lengthRead]

theorem readOptionHeader_eq_none_iff {current : Nat} :
    readOptionHeader memory current = none ↔
      (memory current).toNat &&& 0xF0 = 0xF0 := by
  unfold readOptionHeader
  by_cases marker : (memory current).toNat &&& 0xF0 = 0xF0
  · simp [marker]
  · simp [marker]

/-- What the loop does behind the header. -/
def OptionParser.behindHeader (parser : OptionParser) (config : CoapConfig)
    (mode : ParseMode) (dataLen delta length next : Nat) :
    ParseResult ⊕ OptionParser :=
  if dataLen < next + length then
    .inl ⟨.badRequest, parser.memory,
      parser.packet.noteOption (parser.optionNumber delta)⟩
  else
    let result := parser.handle config mode delta length next
    if result.status ≠ .noError ∧
        (!mode.validate ∨ result.status = .badRequest) then .inl result
    else
      .inr (parser.accept (parser.optionNumber delta) (next + length) result)

theorem parseOptionStep_eq_readOptionHeader (config : CoapConfig)
    (mode : ParseMode) (dataLen : Nat) (parser : OptionParser) :
    parseOptionStep config mode dataLen parser =
      match readOptionHeader parser.memory parser.current with
      | none =>
          .inl ⟨parser.lastError, parser.memory, parser.payloadPacket dataLen⟩
      | some (delta, length, next) =>
          parser.behindHeader config mode dataLen delta length next := by
  cases found : readOptionHeader parser.memory parser.current with
  | none =>
      exact parseOptionStep_marker (readOptionHeader_eq_none_iff.mp found)
  | some header =>
      obtain ⟨delta, length, next⟩ := header
      have read := readOptionHeader_eq_some_iff.mp found
      change parseOptionStep config mode dataLen parser =
        parser.behindHeader config mode dataLen delta length next
      unfold OptionParser.behindHeader
      by_cases outside : dataLen < next + length
      · rw [parseOptionStep_truncated read outside, if_pos outside]
      · have inside := Nat.le_of_not_lt outside
        rw [if_neg outside]
        by_cases ends :
            (parser.handle config mode delta length next).Ends mode
        · rw [parseOptionStep_ends read inside ends]
          exact (if_pos ends).symm
        · rw [parseOptionStep_goes read inside ends]
          exact (if_neg ends).symm

theorem readOptionHeader_coapSetOptionHeader {memory : Mem}
    {current delta length : Nat} (deltaSmall : delta ≤ 65535 + 269)
    (lengthSmall : length ≤ 65535 + 269)
    (held : memory.Holds current
      (coapSetOptionHeader true delta length).bytes) :
    readOptionHeader memory current =
      some (delta, length,
        current + (coapSetOptionHeader true delta length).size) :=
  readOptionHeader_eq_some_iff.mpr
    (headerRead_coapSetOptionHeader (by omega) (by omega) held)

variable {value : UInt32}

theorem length_intOptionBytes_le_of_lt {count : Nat}
    (small : value.toNat < 256 ^ count) :
    (intOptionBytes value).length ≤ count := by
  obtain ⟨mask24, mask16, mask8, mask0⟩ := intMask_eq_zero_iff value
  have short := length_intOptionBytes_le value
  by_cases whole : 4 ≤ count
  · omega
  · have few : count < 4 := Nat.lt_of_not_le whole
    simp only [intOptionBytes, ne_eq, mask24, mask16, mask8, mask0]
    -- the masks that find a bit lie below the bytes the value needs
    interval_cases count <;> split_ifs <;> simp <;> omega

theorem length_intOptionBytes_le_of_parse {bytes : Bytes}
    (parsed : coapParseIntOption bytes = some value) :
    (intOptionBytes value).length ≤ bytes.length := by
  unfold coapParseIntOption at parsed
  by_cases long : bytes.length > 4
  · simp [long] at parsed
  · rw [if_neg long, Option.some.injEq] at parsed
    have read := BigEndian.toNat_foldl_shiftLeft_or bytes (by omega)
    rw [parsed] at read
    refine length_intOptionBytes_le_of_lt ?_
    rw [read]
    exact BigEndian.value_lt bytes

theorem readOptionHeader_coapSerializeIntOption
    {current number currentNumber : Nat}
    (small : number - currentNumber ≤ 65535 + 269)
    (held : memory.Holds current
      (coapSerializeIntOption number currentNumber true value).bytes) :
    ∃ next, readOptionHeader memory current =
        some (number - currentNumber, (intOptionBytes value).length, next) ∧
      next + (intOptionBytes value).length = current +
        (coapSerializeIntOption number currentNumber true value).size ∧
      coapParseIntOption
        (memory.text ⟨next, (intOptionBytes value).length⟩) = some value := by
  have short := length_intOptionBytes_le value
  unfold coapSerializeIntOption at held ⊢
  rw [Chunk.bytes_append, Mem.holds_append, Chunk.bytes_emit_true] at held
  obtain ⟨headerHeld, valueHeld⟩ := held
  refine ⟨_, readOptionHeader_coapSetOptionHeader small (by omega) headerHeld,
    Nat.add_assoc _ _ _, ?_⟩
  have text : memory.text ⟨current + (coapSetOptionHeader true
      (number - currentNumber) (intOptionBytes value).length).size,
      (intOptionBytes value).length⟩ = intOptionBytes value := valueHeld
  rw [text, coapParseIntOption_intOptionBytes]

/-- What the writers of `coap.c` promise to its reader. -/
structure OptionHeaderContract : Prop where
  /-- Each round of the loop reads a header and uses nothing else of it. -/
  reader : ∀ config mode dataLen parser,
    parseOptionStep config mode dataLen parser =
      match readOptionHeader parser.memory parser.current with
      | none =>
          .inl ⟨parser.lastError, parser.memory, parser.payloadPacket dataLen⟩
      | some (delta, length, next) =>
          parser.behindHeader config mode dataLen delta length next
  /-- The header of every delta and every length is read back. -/
  header : ∀ delta ≤ 65535 + 269, ∀ length ≤ 65535 + 269,
    ∀ (memory : Mem) (current : Nat),
      memory.Holds current (coapSetOptionHeader true delta length).bytes →
        readOptionHeader memory current =
          some (delta, length,
            current + (coapSetOptionHeader true delta length).size)
  /-- Every integer option is found, and its value is read back. -/
  integer : ∀ (value : UInt32) (number currentNumber : Nat),
    currentNumber ≤ number → number - currentNumber ≤ 65535 + 269 →
    ∀ (memory : Mem) (current : Nat),
      memory.Holds current
          (coapSerializeIntOption number currentNumber true value).bytes →
        ∃ next, readOptionHeader memory current =
            some (number - currentNumber, (intOptionBytes value).length,
              next) ∧
          next + (intOptionBytes value).length = current +
            (coapSerializeIntOption number currentNumber true value).size ∧
          coapParseIntOption
            (memory.text ⟨next, (intOptionBytes value).length⟩) = some value
  /-- No shorter byte string is read as the value. -/
  shortest : ∀ (value : UInt32) (bytes : Bytes),
    coapParseIntOption bytes = some value →
      (intOptionBytes value).length ≤ bytes.length

/-- The header of every option and the value of every integer option survive
the way over the wire, and integers take no more bytes than they need. -/
theorem option_header_codec : OptionHeaderContract where
  reader := parseOptionStep_eq_readOptionHeader
  header := fun _ deltaSmall _ lengthSmall _ _ held =>
    readOptionHeader_coapSetOptionHeader deltaSmall lengthSmall held
  integer := fun _ _ _ _ small _ _ held =>
    readOptionHeader_coapSerializeIntOption small held
  shortest := fun _ _ parsed => length_intOptionBytes_le_of_parse parsed

end IotivityLite
