import IotivityLite.Coap.OptionWalk

/-!
# Validation and parsing

A caller of the option parser may only validate.  Then no text is merged, so
that the message stays as it is, and a faulty option does not end the walk:
all options are looked at and the highest error is reported.  A parse ends at
the first fault.  Both walks see the same option headers and judge every
option alike, so one succeeds when the other does.
-/

namespace IotivityLite

/-- The two memories hold the same unread bytes. -/
def AgreeAbove (current : Nat) (left right : Mem) : Prop :=
  ∀ address, current ≤ address → left address = right address

namespace AgreeAbove

variable {current : Nat} {left right : Mem}

section

variable (agree : AgreeAbove current left right)

include agree

theorem mono {next : Nat} (forward : current ≤ next) :
    AgreeAbove next left right :=
  fun address above => agree address (Nat.le_trans forward above)

theorem text {span : Span} (above : current ≤ span.start) :
    left.text span = right.text span := by
  apply Mem.text_of_agree
  intro address lower _
  exact agree address (Nat.le_trans above lower)

theorem readExtension_eq (nibble : Nat) {next : Nat} (above : current ≤ next) :
    readExtension left nibble next = readExtension right nibble next := by
  unfold readExtension
  rw [agree next above, agree (next + 1) (by omega)]

theorem headerRead {delta length next : Nat}
    (header : HeaderRead left current delta length next) :
    HeaderRead right current delta length next := by
  obtain ⟨marker, middle, deltaRead, lengthRead⟩ := header
  have inside := le_of_readExtension deltaRead
  rw [agree current (Nat.le_refl current)] at marker deltaRead lengthRead
  rw [agree.readExtension_eq _ (by omega)] at deltaRead lengthRead
  exact ⟨marker, middle, deltaRead, lengthRead⟩

end

end AgreeAbove

section Verdict

variable {left right : Mem} {packet other : InPacket} {option : Span}

private theorem parseInt_verdict {failure : CoapStatus}
    {accepted : UInt32 → Bool} {store : InPacket → UInt32 → InPacket}
    (same : left.text option = right.text option) :
    (parseInt left packet option failure accepted store).status =
      (parseInt right other option failure accepted store).status := by
  unfold parseInt
  rw [same]
  split
  · rfl
  · split_ifs
    · rfl
    · rfl

private theorem coapOscoreParseInnerOption_verdict (config : CoapConfig)
    (kind : OptionKind) (validate check : Bool)
    (same : left.text option = right.text option) :
    (coapOscoreParseInnerOption config left packet kind option
        validate).status =
      (coapOscoreParseInnerOption config right other kind option
        check).status := by
  unfold coapOscoreParseInnerOption
  cases kind
  case uriPath | uriQuery =>
    cases validate
    all_goals cases check
    all_goals rfl
  case contentFormatVer | acceptVer =>
    simp only [same]
    split_ifs
    · rfl
    · rfl
  case contentFormat | accept | block2 | block1 | size2 | size1 =>
    exact parseInt_verdict same
  all_goals rfl

private theorem coapOscoreParseOuterOption_verdict (kind : OptionKind)
    (validate check : Bool) (same : left.text option = right.text option) :
    (coapOscoreParseOuterOption left packet kind option validate).status =
      (coapOscoreParseOuterOption right other kind option check).status := by
  unfold coapOscoreParseOuterOption
  cases kind
  case proxyUri =>
    cases validate
    all_goals cases check
    all_goals rfl
  case uriPort => exact parseInt_verdict same
  all_goals rfl

private theorem coapParseSignalOptions_verdict (signal : CoapSignal)
    (number : Nat) (inner : Bool)
    (same : left.text option = right.text option) :
    (coapParseSignalOptions left packet signal number option inner).status =
      (coapParseSignalOptions right other signal number option
        inner).status := by
  unfold coapParseSignalOptions
  cases inner with
  | false => rfl
  | true =>
      cases signal
      all_goals
        simp only [Bool.not_true, Bool.false_eq_true, if_false]
        split_ifs
      all_goals first | exact parseInt_verdict same | rfl

private theorem coapParseOscoreOption_verdict
    (agree : AgreeAbove option.start left right) :
    (coapParseOscoreOption left packet option = none ↔
      coapParseOscoreOption right other option = none) := by
  unfold coapParseOscoreOption
  rw [agree option.start (Nat.le_refl _)]
  simp only
  rw [agree (option.start + 1 + ((right option.start) &&& 0x07).toNat)
    (by omega)]
  split_ifs
  all_goals simp

theorem coapOscoreParseOption_verdict (config : CoapConfig) (mode : ParseMode)
    (number : Nat) (code : packet.code = other.code)
    (agree : AgreeAbove option.start left right) (validate check : Bool) :
    (coapOscoreParseOption config { mode with validate := validate } left
        packet number option).status =
      (coapOscoreParseOption config { mode with validate := check } right
        other number option).status := by
  have same := agree.text (Nat.le_refl option.start)
  unfold coapOscoreParseOption
  rw [code]
  split
  · exact coapParseSignalOptions_verdict _ number mode.inner same
  · simp only
    split_ifs
    · rfl
    · exact coapOscoreParseInnerOption_verdict config _ validate check same
    · rfl
    · have iff := @coapParseOscoreOption_verdict left right packet other
        option agree
      split
      · next failed =>
          rw [iff.mp failed]
      · next found =>
          split
          · next failed =>
              rw [iff.mpr failed] at found
              cases found
          · rfl
    · rfl
    · exact coapOscoreParseOuterOption_verdict _ validate check same
    · exact parseInt_verdict same
    · exact parseInt_verdict same
    · rfl
    · rfl

end Verdict

section Unchanged

variable {memory : Mem} {packet : InPacket} {option : Span}

/-- The code stays, and no option is noted but the block options. -/
structure Retained (packet after : InPacket) : Prop where
  code : after.code = packet.code
  noted : ∀ number, number ≠ CoapOption.block1 → number ≠ CoapOption.block2 →
    after.isOption number = packet.isOption number

theorem retained_of_eq {after : InPacket} (code : after.code = packet.code)
    (options : after.options = packet.options) : Retained packet after := by
  refine ⟨code, ?_⟩
  intro number _ _
  unfold CoapPacket.isOption
  rw [options]

private theorem retained_block1 (value : UInt32) :
    Retained packet (coapOptionsBlock1Decode packet value) := by
  refine ⟨rfl, ?_⟩
  intro number other _
  unfold coapOptionsBlock1Decode
  rw [CoapPacket.isOption_setOption, decide_eq_false (Ne.symm other),
    Bool.and_false, Bool.or_false]
  rfl

private theorem retained_block2 (value : UInt32) :
    Retained packet (coapOptionsBlock2Decode packet value) := by
  refine ⟨rfl, ?_⟩
  intro number _ other
  unfold coapOptionsBlock2Decode
  rw [CoapPacket.isOption_setOption, decide_eq_false (Ne.symm other),
    Bool.and_false, Bool.or_false]
  rfl

/-- The verdict is not a bad request, the packet keeps its code, and a
validating call does not write. -/
structure Judged (memory : Mem) (packet : InPacket) (validate : Bool)
    (result : ParseResult) : Prop where
  verdict : result.status ≠ .badRequest
  retained : Retained packet result.packet
  memory : validate = true → result.memory = memory

private theorem judged_unwritten {status : CoapStatus} {after : InPacket}
    (validate : Bool) (verdict : status ≠ .badRequest)
    (retained : Retained packet after) :
    Judged memory packet validate ⟨status, memory, after⟩ :=
  ⟨verdict, retained, fun _ => rfl⟩

private theorem judged_same (validate : Bool) {status : CoapStatus}
    (verdict : status ≠ .badRequest) :
    Judged memory packet validate ⟨status, memory, packet⟩ :=
  judged_unwritten validate verdict (retained_of_eq rfl rfl)

private theorem judged_parseInt {failure : CoapStatus}
    {accepted : UInt32 → Bool} {store : InPacket → UInt32 → InPacket}
    (validate : Bool) (verdict : failure ≠ .badRequest)
    (stored : ∀ value, Retained packet (store packet value)) :
    Judged memory packet validate
      (parseInt memory packet option failure accepted store) := by
  unfold parseInt
  split
  · exact judged_same validate verdict
  · split_ifs
    · exact judged_unwritten validate CoapStatus.noConfusion (stored _)
    · exact judged_same validate verdict

private theorem coapOscoreParseInnerOption_judged (config : CoapConfig)
    (kind : OptionKind) (validate : Bool) :
    Judged memory packet validate
      (coapOscoreParseInnerOption config memory packet kind option
        validate) := by
  unfold coapOscoreParseInnerOption
  cases kind
  case uriPath | uriQuery =>
    cases validate with
    | true => exact judged_same _ CoapStatus.noConfusion
    | false =>
        exact ⟨CoapStatus.noConfusion, retained_of_eq rfl rfl,
          fun validating => absurd validating Bool.false_ne_true⟩
  case contentFormatVer | acceptVer =>
    simp only
    split_ifs
    · exact judged_same _ CoapStatus.noConfusion
    · exact judged_same _ CoapStatus.noConfusion
  case block2 =>
    exact judged_parseInt _ CoapStatus.noConfusion retained_block2
  case block1 =>
    exact judged_parseInt _ CoapStatus.noConfusion retained_block1
  case contentFormat | accept | size2 | size1 =>
    exact judged_parseInt _ CoapStatus.noConfusion
      fun _ => retained_of_eq rfl rfl
  case etag =>
    exact judged_unwritten _ CoapStatus.noConfusion (retained_of_eq rfl rfl)
  all_goals exact judged_same _ CoapStatus.noConfusion

private theorem coapOscoreParseOuterOption_judged (kind : OptionKind)
    (validate : Bool) :
    Judged memory packet validate
      (coapOscoreParseOuterOption memory packet kind option validate) := by
  unfold coapOscoreParseOuterOption
  cases kind
  case proxyUri =>
    simp only
    split_ifs
    · exact judged_same _ CoapStatus.noConfusion
    · exact judged_unwritten _ CoapStatus.noConfusion (retained_of_eq rfl rfl)
  case uriHost =>
    exact judged_unwritten _ CoapStatus.noConfusion (retained_of_eq rfl rfl)
  case uriPort =>
    exact judged_parseInt _ CoapStatus.noConfusion
      fun _ => retained_of_eq rfl rfl
  all_goals exact judged_same _ CoapStatus.noConfusion

private theorem coapParseSignalOptions_judged (signal : CoapSignal)
    (number : Nat) (inner validate : Bool) :
    Judged memory packet validate
      (coapParseSignalOptions memory packet signal number option inner) := by
  unfold coapParseSignalOptions
  cases inner with
  | false => exact judged_same _ CoapStatus.noConfusion
  | true =>
      cases signal
      all_goals
        simp only [Bool.not_true, Bool.false_eq_true, if_false]
        split_ifs
      all_goals
        first
        | exact judged_parseInt _ CoapStatus.noConfusion
            fun _ => retained_of_eq rfl rfl
        | exact judged_unwritten _ CoapStatus.noConfusion
            (retained_of_eq rfl rfl)

private theorem retained_coapParseOscoreOption {parsed : InPacket}
    (found : coapParseOscoreOption memory packet option = some parsed) :
    Retained packet parsed := by
  unfold coapParseOscoreOption at found
  simp only at found
  split_ifs at found
  all_goals
    obtain rfl := Option.some.inj found
    exact retained_of_eq rfl rfl

theorem coapOscoreParseOption_judged (config : CoapConfig) (mode : ParseMode)
    (number : Nat) :
    Judged memory packet mode.validate
      (coapOscoreParseOption config mode memory packet number option) := by
  unfold coapOscoreParseOption
  split
  · exact coapParseSignalOptions_judged _ number mode.inner _
  · simp only
    split_ifs
    · exact judged_same _ CoapStatus.noConfusion
    · exact coapOscoreParseInnerOption_judged config _ _
    · exact judged_same _ CoapStatus.noConfusion
    · split
      · exact judged_same _ CoapStatus.noConfusion
      · next found =>
          exact judged_unwritten _ CoapStatus.noConfusion
            (retained_coapParseOscoreOption found)
    · exact judged_same _ CoapStatus.noConfusion
    · exact coapOscoreParseOuterOption_judged _ _
    · exact judged_parseInt _ CoapStatus.noConfusion
        fun _ => retained_of_eq rfl rfl
    · exact judged_parseInt _ CoapStatus.noConfusion
        fun _ => retained_of_eq rfl rfl
    · exact judged_same _ CoapStatus.noConfusion
    · exact judged_same _ CoapStatus.noConfusion

end Unchanged

/-- The verdicts on the faulty options of a message, in order, and if the walk
ended at an option that overruns the message. -/
structure OptionFaults where
  verdicts : List CoapStatus
  overrun : Bool
  deriving DecidableEq

/-- The faults that a walk over all options finds. -/
def optionFaults (config : CoapConfig) (mode : ParseMode) (dataLen : Nat) :
    (fuel : Nat) → OptionParser → OptionFaults
  | 0, _ => ⟨[], false⟩
  | fuel + 1, parser =>
      if parser.current < dataLen then
        let first := (parser.memory parser.current).toNat
        if first &&& 0xF0 = 0xF0 then ⟨[], false⟩
        else
          let (delta, current) :=
            readExtension parser.memory (first >>> 4) (parser.current + 1)
          let (length, current) :=
            readExtension parser.memory (first &&& 0x0F) current
          if current + length > dataLen then ⟨[], true⟩
          else
            let result := parser.handle config mode delta length current
            let rest := optionFaults config mode dataLen fuel
              (parser.accept (parser.optionNumber delta) (current + length)
                result)
            if result.status = .noError then rest
            else ⟨result.status :: rest.verdicts, rest.overrun⟩
      else ⟨[], false⟩

namespace OptionFaults

/-- What ends a parse. -/
def first (faults : OptionFaults) : CoapStatus :=
  match faults.verdicts with
  | verdict :: _ => verdict
  | [] => if faults.overrun then .badRequest else .noError

/-- The higher one of two codes, the earlier one if they are equal. -/
def higher (last verdict : CoapStatus) : CoapStatus :=
  if last.code < verdict.code then verdict else last

/-- What a validation reports. -/
def highest (faults : OptionFaults) (last : CoapStatus) : CoapStatus :=
  if faults.overrun then .badRequest else faults.verdicts.foldl higher last

end OptionFaults

section Equations

variable {config : CoapConfig} {mode : ParseMode} {dataLen fuel : Nat}
  {parser : OptionParser}

private theorem optionFaults_end (finished : ¬ parser.current < dataLen) :
    optionFaults config mode dataLen (fuel + 1) parser = ⟨[], false⟩ := by
  rw [optionFaults, if_neg finished]

private theorem optionFaults_marker
    (marker : (parser.memory parser.current).toNat &&& 0xF0 = 0xF0) :
    optionFaults config mode dataLen (fuel + 1) parser = ⟨[], false⟩ := by
  rw [optionFaults]
  simp only [marker, if_true, ite_self]

private theorem optionFaults_overrun {delta length next : Nat}
    (going : parser.current < dataLen)
    (header : HeaderRead parser.memory parser.current delta length next)
    (outside : dataLen < next + length) :
    optionFaults config mode dataLen (fuel + 1) parser = ⟨[], true⟩ := by
  obtain ⟨marker, middle, deltaRead, lengthRead⟩ := header
  rw [optionFaults, if_pos going]
  simp only [marker, if_false, deltaRead, lengthRead]
  rw [if_pos outside]

private theorem optionFaults_option {delta length next : Nat}
    (going : parser.current < dataLen)
    (header : HeaderRead parser.memory parser.current delta length next)
    (inside : next + length ≤ dataLen) :
    optionFaults config mode dataLen (fuel + 1) parser =
      if (parser.handle config mode delta length next).status = .noError then
        optionFaults config mode dataLen fuel
          (parser.accept (parser.optionNumber delta) (next + length)
            (parser.handle config mode delta length next))
      else
        ⟨(parser.handle config mode delta length next).status ::
          (optionFaults config mode dataLen fuel
            (parser.accept (parser.optionNumber delta) (next + length)
              (parser.handle config mode delta length next))).verdicts,
          (optionFaults config mode dataLen fuel
            (parser.accept (parser.optionNumber delta) (next + length)
              (parser.handle config mode delta length next))).overrun⟩ := by
  obtain ⟨marker, middle, deltaRead, lengthRead⟩ := header
  rw [optionFaults, if_pos going]
  simp only [marker, if_false, deltaRead, lengthRead]
  rw [if_neg (Nat.not_lt_of_le inside)]

theorem round_cases (dataLen : Nat) (parser : OptionParser) :
    ¬ parser.current < dataLen ∨
    (parser.current < dataLen ∧
      ((parser.memory parser.current).toNat &&& 0xF0 = 0xF0 ∨
        ∃ delta length next,
          HeaderRead parser.memory parser.current delta length next ∧
            (dataLen < next + length ∨ next + length ≤ dataLen))) := by
  by_cases going : parser.current < dataLen
  · refine .inr ⟨going, ?_⟩
    by_cases marker : (parser.memory parser.current).toNat &&& 0xF0 = 0xF0
    · exact .inl marker
    · obtain ⟨delta, length, next, header⟩ := headerRead_of_not_marker marker
      exact .inr ⟨delta, length, next, header, Nat.lt_or_ge _ _⟩
  · exact .inl going

theorem parseOptionLoop_end (finished : ¬ parser.current < dataLen) :
    parseOptionLoop config mode dataLen (fuel + 1) parser =
      ⟨parser.lastError, parser.memory, parser.packet⟩ := by
  rw [parseOptionLoop, if_neg finished]

theorem parseOptionLoop_inl {result : ParseResult}
    (going : parser.current < dataLen)
    (step : parseOptionStep config mode dataLen parser = .inl result) :
    parseOptionLoop config mode dataLen (fuel + 1) parser = result := by
  rw [parseOptionLoop, if_pos going, step]

theorem parseOptionLoop_inr {after : OptionParser}
    (going : parser.current < dataLen)
    (step : parseOptionStep config mode dataLen parser = .inr after) :
    parseOptionLoop config mode dataLen (fuel + 1) parser =
      parseOptionLoop config mode dataLen fuel after := by
  rw [parseOptionLoop, if_pos going, step]

end Equations

section Validating

variable {config : CoapConfig} {mode : ParseMode} {dataLen : Nat}

theorem goes_validating (validating : mode.validate = true)
    {parser : OptionParser} {delta length next : Nat} :
    ¬ (parser.handle config mode delta length next).Ends mode := by
  have judged := @coapOscoreParseOption_judged parser.memory
    (parser.packet.noteOption (parser.optionNumber delta)) ⟨next, length⟩
    config mode (parser.optionNumber delta)
  rintro ⟨-, reading | badRequest⟩
  · rw [validating] at reading
    exact Bool.false_ne_true reading
  · exact judged.verdict badRequest

private theorem higher_noError (last : CoapStatus) :
    OptionFaults.higher last .noError = last := by
  unfold OptionFaults.higher
  exact if_neg (Nat.not_lt_zero _)

private theorem parseOptionLoop_validating
    (validating : mode.validate = true) (fuel : Nat) (parser : OptionParser) :
    (parseOptionLoop config mode dataLen fuel parser).status =
        (optionFaults config mode dataLen fuel parser).highest
          parser.lastError ∧
      (parseOptionLoop config mode dataLen fuel parser).memory =
        parser.memory := by
  induction fuel generalizing parser with
  | zero => exact ⟨rfl, rfl⟩
  | succ fuel ih =>
      rcases round_cases dataLen parser with finished | ⟨going, marker |
        ⟨delta, length, next, header, outside | inside⟩⟩
      · rw [parseOptionLoop_end finished, optionFaults_end finished]
        exact ⟨rfl, rfl⟩
      · rw [parseOptionLoop_inl going (parseOptionStep_marker marker),
          optionFaults_marker marker]
        exact ⟨rfl, rfl⟩
      · rw [parseOptionLoop_inl going
          (parseOptionStep_truncated header outside),
          optionFaults_overrun going header outside]
        exact ⟨rfl, rfl⟩
      · have judged := @coapOscoreParseOption_judged parser.memory
          (parser.packet.noteOption (parser.optionNumber delta))
          ⟨next, length⟩ config mode (parser.optionNumber delta)
        obtain ⟨status, memory⟩ := ih (parser.accept
          (parser.optionNumber delta) (next + length)
          (parser.handle config mode delta length next))
        rw [parseOptionLoop_inr going
          (parseOptionStep_goes header inside (goes_validating validating)),
          optionFaults_option going header inside]
        refine ⟨?_, memory.trans (judged.memory validating)⟩
        rw [status]
        change OptionFaults.highest _ (OptionFaults.higher parser.lastError
          (parser.handle config mode delta length next).status) = _
        split_ifs with clean
        · rw [clean, higher_noError]
        · rfl

end Validating

/-- The parser that parses has met no fault and has the same unread bytes as
the one that validates. -/
structure SameWalk (validating parsing : OptionParser) : Prop where
  current : parsing.current = validating.current
  number : parsing.number = validating.number
  code : parsing.packet.code = validating.packet.code
  above : AgreeAbove validating.current parsing.memory validating.memory
  room : Room parsing.current parsing.packet
  clean : parsing.lastError = .noError

section Parsing

variable {config : CoapConfig} {mode : ParseMode} {dataLen : Nat}
  {validating parsing : OptionParser}

private theorem SameWalk.verdict (same : SameWalk validating parsing)
    {delta length next : Nat} (later : validating.current < next) :
    (parsing.handle config { mode with validate := false } delta length
        next).status =
      (validating.handle config { mode with validate := true } delta length
        next).status := by
  have number : parsing.optionNumber delta = validating.optionNumber delta := by
    unfold OptionParser.optionNumber
    rw [same.number]
  unfold OptionParser.handle
  rw [number]
  apply coapOscoreParseOption_verdict
  · rw [CoapPacket.code_noteOption, CoapPacket.code_noteOption, same.code]
  · exact same.above.mono (Nat.le_of_lt later)

private theorem SameWalk.accept (same : SameWalk validating parsing)
    {delta length next : Nat}
    (header : HeaderRead parsing.memory parsing.current delta length next)
    (clean : (parsing.handle config { mode with validate := false } delta
      length next).status = .noError) :
    SameWalk
      (validating.accept (validating.optionNumber delta) (next + length)
        (validating.handle config { mode with validate := true } delta length
          next))
      (parsing.accept (parsing.optionNumber delta) (next + length)
        (parsing.handle config { mode with validate := false } delta length
          next)) := by
  obtain ⟨above, room⟩ := @handle_walks config
    { mode with validate := false } parsing delta length next same.room header
  have later : validating.current ≤ next + length := by
    have forward := header.lt
    rw [same.current] at forward
    omega
  have parsed := @coapOscoreParseOption_judged parsing.memory
    (parsing.packet.noteOption (parsing.optionNumber delta)) ⟨next, length⟩
    config { mode with validate := false } (parsing.optionNumber delta)
  have validated := @coapOscoreParseOption_judged validating.memory
    (validating.packet.noteOption (validating.optionNumber delta))
    ⟨next, length⟩ config { mode with validate := true }
    (validating.optionNumber delta)
  refine ⟨rfl, ?_, ?_, ?_, room, ?_⟩
  · change parsing.optionNumber delta = validating.optionNumber delta
    unfold OptionParser.optionNumber
    rw [same.number]
  · refine parsed.retained.code.trans
      (Eq.trans ?_ validated.retained.code.symm)
    rw [CoapPacket.code_noteOption, CoapPacket.code_noteOption, same.code]
  · intro address beyond
    refine (above address beyond).trans ?_
    refine (same.above.mono later address beyond).trans ?_
    exact (congrFun (validated.memory rfl) address).symm
  · change OptionFaults.higher parsing.lastError _ = _
    rw [clean, higher_noError, same.clean]

private theorem parseOptionLoop_parsing (fuel : Nat)
    (same : SameWalk validating parsing) :
    (parseOptionLoop config { mode with validate := false } dataLen fuel
        parsing).status =
      (optionFaults config { mode with validate := true } dataLen fuel
        validating).first := by
  induction fuel generalizing validating parsing with
  | zero => exact same.clean
  | succ fuel ih =>
      rcases round_cases dataLen validating with finished | ⟨going, marker |
        ⟨delta, length, next, header, outside | inside⟩⟩
      · rw [parseOptionLoop_end (by rwa [same.current]),
          optionFaults_end finished]
        exact same.clean
      · rw [parseOptionLoop_inl (by rwa [same.current])
          (parseOptionStep_marker (by
            rwa [same.current, same.above _ (Nat.le_refl _)])),
          optionFaults_marker marker]
        exact same.clean
      · have found : HeaderRead parsing.memory parsing.current delta length
            next := by
          rw [same.current]
          exact AgreeAbove.headerRead
            (fun address beyond => (same.above address beyond).symm) header
        rw [parseOptionLoop_inl (by rwa [same.current])
          (parseOptionStep_truncated found outside),
          optionFaults_overrun going header outside]
        rfl
      · have found : HeaderRead parsing.memory parsing.current delta length
            next := by
          rw [same.current]
          exact AgreeAbove.headerRead
            (fun address beyond => (same.above address beyond).symm) header
        have verdict := @SameWalk.verdict config mode validating parsing same
          delta length next header.lt
        rw [optionFaults_option going header inside]
        by_cases clean : (parsing.handle config
            { mode with validate := false } delta length next).status =
              .noError
        · rw [if_pos (verdict ▸ clean), parseOptionLoop_inr
            (by rwa [same.current]) (parseOptionStep_goes found inside
              (fun ends => ends.1 clean))]
          exact ih (same.accept found clean)
        · rw [if_neg (verdict ▸ clean), parseOptionLoop_inl
            (by rwa [same.current]) (parseOptionStep_ends found inside
              ⟨clean, .inl rfl⟩)]
          exact verdict

end Parsing

namespace OptionFaults

def count (faults : OptionFaults) : Nat :=
  faults.verdicts.length + if faults.overrun then 1 else 0

private theorem foldl_higher_eq_noError {last : CoapStatus}
    {verdicts : List CoapStatus} :
    verdicts.foldl higher last = .noError ↔
      last = .noError ∧ ∀ verdict ∈ verdicts, verdict = .noError := by
  induction verdicts generalizing last with
  | nil => simp
  | cons verdict rest ih =>
      have both : higher last verdict = .noError ↔
          last = .noError ∧ verdict = .noError := by
        cases last
        all_goals cases verdict
        all_goals decide
      rw [List.foldl_cons, ih, both]
      simp only [List.mem_cons, forall_eq_or_imp, and_assoc]

private theorem highest_eq_noError_iff {faults : OptionFaults}
    (faulty : ∀ verdict ∈ faults.verdicts, verdict ≠ .noError) :
    faults.highest .noError = .noError ↔ faults.first = .noError := by
  obtain ⟨verdicts, overrun⟩ := faults
  unfold highest first
  cases overrun with
  | true =>
      cases verdicts with
      | nil => simp
      | cons verdict rest =>
          have fails := faulty verdict List.mem_cons_self
          simpa using fails
  | false =>
      simp only [Bool.false_eq_true, if_false, foldl_higher_eq_noError,
        true_and]
      cases verdicts with
      | nil => simp
      | cons verdict rest =>
          have fails := faulty verdict List.mem_cons_self
          simp [fails]

private theorem highest_eq_first_of_count {faults : OptionFaults}
    (single : faults.count ≤ 1) : faults.highest .noError = faults.first := by
  obtain ⟨verdicts, overrun⟩ := faults
  unfold count at single
  cases verdicts with
  | nil =>
      cases overrun
      · rfl
      · rfl
  | cons verdict rest =>
      cases overrun with
      | true => simp at single
      | false =>
          have none : rest = [] := List.length_eq_zero_iff.mp (by
            simp at single
            simp [single])
          subst none
          cases verdict
          all_goals rfl

end OptionFaults

private theorem optionFaults_faulty (config : CoapConfig) (mode : ParseMode)
    (dataLen fuel : Nat) (parser : OptionParser) :
    ∀ verdict ∈ (optionFaults config mode dataLen fuel parser).verdicts,
      verdict ≠ .noError := by
  induction fuel generalizing parser with
  | zero =>
      intro verdict member
      cases member
  | succ fuel ih =>
      intro verdict member
      rcases round_cases dataLen parser with finished | ⟨going, marker |
        ⟨delta, length, next, header, outside | inside⟩⟩
      · rw [optionFaults_end finished] at member
        cases member
      · rw [optionFaults_marker marker] at member
        cases member
      · rw [optionFaults_overrun going header outside] at member
        cases member
      · rw [optionFaults_option going header inside] at member
        split_ifs at member with clean
        · exact ih _ verdict member
        · rcases List.mem_cons.mp member with rfl | later
          · exact clean
          · exact ih _ verdict later

/-- The faults of a message whose options begin at `current`.  A message of
more than `UINT32_MAX` bytes is not looked at. -/
def messageFaults (config : CoapConfig) (mode : ParseMode) (memory : Mem)
    (packet : InPacket) (dataLen current : Nat) : OptionFaults :=
  if dataLen > 2 ^ 32 - 1 then ⟨[], true⟩
  else
    optionFaults config mode dataLen dataLen
      { memory := memory
        packet := { packet with options := 0 }
        current := current
        number := 0
        lastError := .noError }

/-- Validation and parsing succeed on the same messages.  On the others the
parse reports the first fault, the validation an overrun or else the highest
fault, which is the same one if there is only one.  The validation leaves the
message as it is. -/
theorem validation_succeeds_iff_parsing (config : CoapConfig)
    (inner outer oscore : Bool) (memory : Mem) (packet : InPacket)
    (dataLen current : Nat) (room : Room current packet) :
    ((coapOscoreParseOptions config ⟨inner, outer, oscore, true⟩ memory packet
          dataLen current).status = .noError ↔
      (coapOscoreParseOptions config ⟨inner, outer, oscore, false⟩ memory
          packet dataLen current).status = .noError) ∧
    (coapOscoreParseOptions config ⟨inner, outer, oscore, false⟩ memory packet
        dataLen current).status =
      (messageFaults config ⟨inner, outer, oscore, true⟩ memory packet dataLen
        current).first ∧
    (coapOscoreParseOptions config ⟨inner, outer, oscore, true⟩ memory packet
        dataLen current).status =
      (messageFaults config ⟨inner, outer, oscore, true⟩ memory packet dataLen
        current).highest .noError ∧
    ((messageFaults config ⟨inner, outer, oscore, true⟩ memory packet dataLen
        current).count ≤ 1 →
      (coapOscoreParseOptions config ⟨inner, outer, oscore, true⟩ memory
          packet dataLen current).status =
        (coapOscoreParseOptions config ⟨inner, outer, oscore, false⟩ memory
          packet dataLen current).status) ∧
    (coapOscoreParseOptions config ⟨inner, outer, oscore, true⟩ memory packet
      dataLen current).memory = memory := by
  by_cases long : dataLen > 2 ^ 32 - 1
  · have refused (validate : Bool) : coapOscoreParseOptions config
        ⟨inner, outer, oscore, validate⟩ memory packet dataLen current =
          ⟨.badRequest, memory, packet⟩ := if_pos long
    have faults : messageFaults config ⟨inner, outer, oscore, true⟩ memory
        packet dataLen current = ⟨[], true⟩ := if_pos long
    rw [refused, refused, faults]
    exact ⟨Iff.rfl, rfl, rfl, fun _ => rfl, rfl⟩
  · have parsed := @parseOptionLoop_parsing config
      ⟨inner, outer, oscore, true⟩ dataLen
      ⟨memory, { packet with options := 0 }, current, 0, .noError⟩
      ⟨memory, { packet with options := 0 }, current, 0, .noError⟩ dataLen
      ⟨rfl, rfl, rfl, fun _ _ => rfl, ⟨room.path, room.query⟩, rfl⟩
    obtain ⟨validated, kept⟩ := @parseOptionLoop_validating config
      ⟨inner, outer, oscore, true⟩ dataLen rfl dataLen
      ⟨memory, { packet with options := 0 }, current, 0, .noError⟩
    have faulty := optionFaults_faulty config ⟨inner, outer, oscore, true⟩
      dataLen dataLen
      ⟨memory, { packet with options := 0 }, current, 0, .noError⟩
    simp only [coapOscoreParseOptions, messageFaults, long, if_false]
    rw [parsed, validated]
    exact ⟨OptionFaults.highest_eq_noError_iff faulty, rfl, rfl,
      OptionFaults.highest_eq_first_of_count, kept⟩

namespace ValidatedMessage

def config : CoapConfig :=
  ⟨true, true, false, false, false, true, false, false, false, 1024⟩

def packet : InPacket := CoapPacket.zero Span.null

theorem room : Room 0 packet := ⟨.inl rfl, .inl rfl⟩

/-- An Observe option of five bytes and an unknown Content-Format. -/
def twoFaults : Mem := .ofBytes [0x65, 0, 0, 0, 0, 0, 0x61, 0x07]

end ValidatedMessage

theorem validation_of_one_fault :
    (messageFaults ValidatedMessage.config ⟨true, true, false, true⟩
        ValidatedMessage.twoFaults ValidatedMessage.packet 6 0).count = 1 ∧
      (coapOscoreParseOptions ValidatedMessage.config
          ⟨true, true, false, true⟩ ValidatedMessage.twoFaults
          ValidatedMessage.packet 6 0).status =
        (coapOscoreParseOptions ValidatedMessage.config
          ⟨true, true, false, false⟩ ValidatedMessage.twoFaults
          ValidatedMessage.packet 6 0).status :=
  ⟨by decide,
    (validation_succeeds_iff_parsing ValidatedMessage.config true true false
      ValidatedMessage.twoFaults ValidatedMessage.packet 6 0
      ValidatedMessage.room).2.2.2.1 (by decide)⟩

/-- The parse reports the bad Observe option, the validation the bad
Content-Format. -/
theorem validation_reports_another_fault :
    (coapOscoreParseOptions ValidatedMessage.config ⟨true, true, false, true⟩
        ValidatedMessage.twoFaults ValidatedMessage.packet 8 0).status =
        .unsupportedMediaType ∧
      (coapOscoreParseOptions ValidatedMessage.config
        ⟨true, true, false, false⟩ ValidatedMessage.twoFaults
        ValidatedMessage.packet 8 0).status = .badOption := by
  decide

end IotivityLite
