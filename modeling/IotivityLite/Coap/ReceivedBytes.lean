import IotivityLite.Coap.OptionGrammar
import Mathlib.Logic.Relation

/-!
# What a parsed packet depends on

Two buffers that hold the same message are given to the parser.  The results
agree as long as every byte the parser uses lies inside the message.  The
parser does not check the fixed header, the token and the extension of an
option delta against the message length, so the exact condition under which
a message is parsed from its own bytes names these three places.
-/

namespace IotivityLite

/-- The results cannot be told apart by someone who sees the message only. -/
structure Alike (bound : Nat) (left right : ParseResult) : Prop where
  status : left.status = right.status
  packet : left.packet = right.packet
  memory : AgreeBelow bound left.memory right.memory

variable {bound : Nat}

theorem Alike.symm {left right : ParseResult} (alike : Alike bound left right) :
    Alike bound right left :=
  ⟨alike.status.symm, alike.packet.symm, alike.memory.symm⟩

theorem Alike.trans {left middle right : ParseResult}
    (first : Alike bound left middle) (second : Alike bound middle right) :
    Alike bound left right :=
  ⟨first.status.trans second.status, first.packet.trans second.packet,
    first.memory.trans second.memory⟩

section Options

variable {left right : Mem} {packet : InPacket} {option : Span}

section

variable (agree : AgreeBelow bound left right)

include agree

theorem alike_unwritten (status : CoapStatus) (packet : InPacket) :
    Alike bound ⟨status, left, packet⟩ ⟨status, right, packet⟩ :=
  ⟨rfl, rfl, agree⟩

theorem alike_parseInt (inside : option.stop ≤ bound) (packet : InPacket)
    (failure : CoapStatus) (accepted : UInt32 → Bool)
    (store : InPacket → UInt32 → InPacket) :
    Alike bound (parseInt left packet option failure accepted store)
      (parseInt right packet option failure accepted store) := by
  unfold parseInt
  rw [agree.text inside]
  split
  · exact alike_unwritten agree _ _
  · split_ifs
    · exact alike_unwritten agree _ _
    · exact alike_unwritten agree _ _

theorem AgreeBelow.store (address : Nat) (value : UInt8) :
    AgreeBelow bound (left.store address value)
      (right.store address value) := by
  intro candidate below
  unfold Mem.store
  split_ifs
  · rfl
  · exact agree candidate below

theorem AgreeBelow.move {source length : Nat} (inside : source + length ≤ bound)
    (target : Nat) :
    AgreeBelow bound (left.move target source length)
      (right.move target source length) := by
  intro candidate below
  unfold Mem.move
  split_ifs with moved
  · exact agree _ (by omega)
  · exact agree candidate below

theorem coapMergeMultiOption_alike (inside : option.stop ≤ bound) (dst : Span)
    (separator : UInt8) :
    AgreeBelow bound (coapMergeMultiOption left dst option separator).1
        (coapMergeMultiOption right dst option separator).1 ∧
      (coapMergeMultiOption left dst option separator).2 =
        (coapMergeMultiOption right dst option separator).2 := by
  unfold coapMergeMultiOption
  split_ifs
  · exact ⟨(agree.store _ _).move inside _, rfl⟩
  · exact ⟨agree, rfl⟩

end

theorem coapOscoreParseInnerOption_alike (config : CoapConfig)
    (kind : OptionKind) (validate : Bool)
    (agree : AgreeBelow bound left right) (inside : option.stop ≤ bound) :
    Alike bound
      (coapOscoreParseInnerOption config left packet kind option validate)
      (coapOscoreParseInnerOption config right packet kind option
        validate) := by
  unfold coapOscoreParseInnerOption
  cases kind
  case uriPath =>
    obtain ⟨merged, span⟩ :=
      coapMergeMultiOption_alike agree inside packet.uriPath 47
    simp only
    split_ifs
    · exact alike_unwritten agree _ _
    · exact ⟨rfl, by simp only [span], merged⟩
  case uriQuery =>
    obtain ⟨merged, span⟩ :=
      coapMergeMultiOption_alike agree inside packet.uriQuery 38
    simp only
    split_ifs
    · exact alike_unwritten agree _ _
    · exact ⟨rfl, by simp only [span], merged⟩
  case etag =>
    simp only
    rw [← Mem.take_read, ← Mem.take_read]
    have text := agree.text inside
    unfold Mem.text at text
    rw [text]
    exact alike_unwritten agree _ _
  case contentFormatVer | acceptVer =>
    simp only
    rw [agree.text inside]
    split_ifs
    · exact alike_unwritten agree _ _
    · exact alike_unwritten agree _ _
  case contentFormat | accept | block2 | block1 | size2 | size1 =>
    exact alike_parseInt agree inside _ _ _ _
  all_goals exact alike_unwritten agree _ _

theorem coapOscoreParseOuterOption_alike (kind : OptionKind)
    (validate : Bool) (agree : AgreeBelow bound left right)
    (inside : option.stop ≤ bound) :
    Alike bound
      (coapOscoreParseOuterOption left packet kind option validate)
      (coapOscoreParseOuterOption right packet kind option validate) := by
  unfold coapOscoreParseOuterOption
  cases kind
  case proxyUri =>
    simp only
    split_ifs
    · exact alike_unwritten agree _ _
    · exact alike_unwritten agree _ _
  case uriPort => exact alike_parseInt agree inside _ _ _ _
  all_goals exact alike_unwritten agree _ _

theorem coapParseSignalOptions_alike (signal : CoapSignal) (number : Nat)
    (inner : Bool) (agree : AgreeBelow bound left right)
    (inside : option.stop ≤ bound) :
    Alike bound
      (coapParseSignalOptions left packet signal number option inner)
      (coapParseSignalOptions right packet signal number option inner) := by
  unfold coapParseSignalOptions
  cases inner with
  | false => exact alike_unwritten agree _ _
  | true =>
      cases signal
      all_goals
        simp only [Bool.not_true, Bool.false_eq_true, if_false]
        split_ifs
      all_goals
        first
        | exact alike_parseInt agree inside _ _ _ _
        | exact alike_unwritten agree _ _

theorem coapOscoreParseOption_alike (config : CoapConfig) {mode : ParseMode}
    (plain : mode.oscore = false) (number : Nat)
    (agree : AgreeBelow bound left right) (inside : option.stop ≤ bound) :
    Alike bound
      (coapOscoreParseOption config mode left packet number option)
      (coapOscoreParseOption config mode right packet number option) := by
  unfold coapOscoreParseOption
  rw [plain]
  split
  · exact coapParseSignalOptions_alike _ number mode.inner agree inside
  · simp only [Bool.not_false, Bool.or_true, if_true]
    split_ifs
    · exact alike_unwritten agree _ _
    · exact coapOscoreParseInnerOption_alike config _ mode.validate agree
        inside
    · exact alike_unwritten agree _ _
    · exact alike_unwritten agree _ _
    · exact coapOscoreParseOuterOption_alike _ mode.validate agree inside
    · exact alike_parseInt agree inside _ _ _ _
    · exact alike_parseInt agree inside _ _ _ _
    · exact alike_unwritten agree _ _
    · exact alike_unwritten agree _ _

end Options

/-- The number of extension bytes a nibble asks for. -/
def extensionSize (nibble : Nat) : Nat :=
  if nibble = 13 then 1 else if nibble = 14 then 2 else 0

theorem readExtension_snd (memory : Mem) (nibble current : Nat) :
    (readExtension memory nibble current).2 =
      current + extensionSize nibble := by
  unfold readExtension extensionSize
  split_ifs
  · rfl
  · rfl
  · rfl

theorem readExtension_agree {left right : Mem}
    (agree : AgreeBelow bound left right) {nibble current : Nat}
    (inside : current + extensionSize nibble ≤ bound) :
    readExtension left nibble current =
      readExtension right nibble current := by
  unfold extensionSize at inside
  unfold readExtension
  split_ifs at inside ⊢
  · rw [agree current (by omega)]
  · rw [agree current (by omega), agree (current + 1) (by omega)]
  · rfl

namespace OptionParser

def deltaNibble (parser : OptionParser) : Nat :=
  (parser.memory parser.current).toNat >>> 4

/-- The number of the option in a buffer that may differ outside the
message. -/
def numberIn (parser : OptionParser) (memory : Mem) : Nat :=
  parser.optionNumber
    (readExtension memory parser.deltaNibble (parser.current + 1)).1

/-- The extension of the delta lies inside the message. -/
def DeltaInside (parser : OptionParser) (dataLen : Nat) : Prop :=
  parser.current + 1 + extensionSize parser.deltaNibble ≤ dataLen

/-- Whatever bytes follow the message, the delta they complete gives no
number that would be noted as a new option. -/
def Unnoted (parser : OptionParser) (dataLen : Nat) : Prop :=
  ∀ memory, AgreeBelow dataLen parser.memory memory →
    CoapOption.size1 < parser.numberIn memory ∨
      parser.packet.isOption (parser.numberIn memory)

/-- The option the parser stands at, if there is one, is numbered by the
message alone. -/
def Confined (parser : OptionParser) (dataLen : Nat) : Prop :=
  parser.current < dataLen →
    parser.deltaNibble ≠ 15 →
    parser.DeltaInside dataLen ∨ parser.Unnoted dataLen

/-- The same parser on another buffer. -/
structure Same (bound : Nat) (left right : OptionParser) : Prop where
  packet : left.packet = right.packet
  current : left.current = right.current
  number : left.number = right.number
  lastError : left.lastError = right.lastError
  memory : AgreeBelow bound left.memory right.memory

end OptionParser

variable {memory : Mem}

theorem HeaderRead.next_eq {current delta length next : Nat}
    (header : HeaderRead memory current delta length next) :
    next = current + 1 + extensionSize ((memory current).toNat >>> 4) +
      extensionSize ((memory current).toNat &&& 0x0F) := by
  obtain ⟨-, middle, deltaRead, lengthRead⟩ := header
  have deltaNext := readExtension_snd memory
    ((memory current).toNat >>> 4) (current + 1)
  have lengthNext := readExtension_snd memory
    ((memory current).toNat &&& 0x0F) middle
  rw [deltaRead] at deltaNext
  rw [lengthRead] at lengthNext
  simp only at deltaNext lengthNext
  omega

variable {delta length next : Nat}

theorem HeaderRead.optionNumber_eq {parser : OptionParser}
    (header : HeaderRead parser.memory parser.current delta length next) :
    parser.optionNumber delta = parser.numberIn parser.memory := by
  obtain ⟨-, middle, deltaRead, -⟩ := header
  unfold OptionParser.numberIn OptionParser.deltaNibble
  rw [deltaRead]

theorem HeaderRead.agree {left right : Mem} {current delta length next : Nat}
    (header : HeaderRead left current delta length next)
    (agree : AgreeBelow bound left right) (inside : next ≤ bound) :
    HeaderRead right current delta length next := by
  have place := header.next_eq
  obtain ⟨marker, middle, deltaRead, lengthRead⟩ := header
  have first := agree current (by omega)
  have middleEq := readExtension_snd left
    ((left current).toNat >>> 4) (current + 1)
  rw [deltaRead] at middleEq
  simp only at middleEq
  rw [readExtension_agree agree (by omega)] at deltaRead
  rw [readExtension_agree agree (by omega)] at lengthRead
  rw [first] at marker deltaRead lengthRead
  exact ⟨marker, middle, deltaRead, lengthRead⟩

theorem CoapPacket.noteOption_of_noted {packet : InPacket} {number : Nat}
    (noted : CoapOption.size1 < number ∨ packet.isOption number) :
    packet.noteOption number = packet := by
  unfold CoapPacket.noteOption
  split_ifs with small
  · have present : packet.isOption number := by
      rcases noted with large | present
      · omega
      · exact present
    have unchanged : packet.options ||| BitVec.twoPow 64 number =
        packet.options := by
      apply BitVec.eq_of_getLsbD_eq
      intro index _
      rw [BitVec.getLsbD_or, BitVec.getLsbD_twoPow]
      by_cases same : number = index
      · subst same
        unfold CoapPacket.isOption at present
        rw [present]
        rfl
      · simp [same]
    unfold CoapPacket.setOption
    rw [unchanged]
  · rfl

/-- What one round gives on two buffers. -/
inductive SameOutcome (bound : Nat) :
    ParseResult ⊕ OptionParser → ParseResult ⊕ OptionParser → Prop where
  | stops {left right : ParseResult} (alike : Alike bound left right) :
      SameOutcome bound (.inl left) (.inl right)
  | goes {left right : OptionParser} (same : left.Same bound right) :
      SameOutcome bound (.inr left) (.inr right)

section Walk

variable {config : CoapConfig} {mode : ParseMode} {dataLen : Nat}

theorem deltaNibble_ne_of_header {parser : OptionParser}
    (header : HeaderRead parser.memory parser.current delta length next) :
    parser.deltaNibble ≠ 15 :=
  fun reserved => header.marker ((high_of_marker _).mpr reserved)

private theorem parseOptionStep_inside {left right : OptionParser}
    {delta length next : Nat} (plain : mode.oscore = false)
    (same : left.Same dataLen right)
    (header : HeaderRead left.memory left.current delta length next)
    (inside : next + length ≤ dataLen) :
    SameOutcome dataLen (parseOptionStep config mode dataLen left)
      (parseOptionStep config mode dataLen right) := by
  obtain ⟨samePacket, sameCurrent, sameNumber, sameError, agree⟩ := same
  have headerRight : HeaderRead right.memory right.current delta length
      next := by
    rw [← sameCurrent]
    exact header.agree agree (by omega)
  have number : left.optionNumber delta = right.optionNumber delta := by
    unfold OptionParser.optionNumber
    rw [sameNumber]
  have alike : Alike dataLen (left.handle config mode delta length next)
      (right.handle config mode delta length next) := by
    unfold OptionParser.handle
    rw [number, samePacket]
    exact coapOscoreParseOption_alike config plain _ agree inside
  by_cases ends : (left.handle config mode delta length next).Ends mode
  · have endsRight :
        (right.handle config mode delta length next).Ends mode := by
      unfold ParseResult.Ends at ends ⊢
      rw [← alike.status]
      exact ends
    rw [parseOptionStep_ends header inside ends,
      parseOptionStep_ends headerRight inside endsRight]
    exact .stops alike
  · have goesRight :
        ¬ (right.handle config mode delta length next).Ends mode := by
      unfold ParseResult.Ends at ends ⊢
      rw [← alike.status]
      exact ends
    rw [parseOptionStep_goes header inside ends,
      parseOptionStep_goes headerRight inside goesRight]
    refine .goes ⟨alike.packet, rfl, number, ?_, alike.memory⟩
    unfold OptionParser.accept
    rw [sameError, alike.status]

private theorem parseOptionStep_outside {left right : OptionParser}
    (same : left.Same dataLen right) (unread : left.current < dataLen)
    (confined : left.Confined dataLen)
    (header : HeaderRead left.memory left.current delta length next)
    (outside : dataLen < next + length) :
    SameOutcome dataLen (parseOptionStep config mode dataLen left)
      (parseOptionStep config mode dataLen right) := by
  obtain ⟨samePacket, sameCurrent, sameNumber, sameError, agree⟩ := same
  have first : left.memory left.current = right.memory left.current :=
    agree _ unread
  have marker : (right.memory right.current).toNat &&& 0xF0 ≠ 0xF0 := by
    rw [← sameCurrent, ← first]
    exact header.marker
  obtain ⟨deltaRight, lengthRight, nextRight, headerRight⟩ :=
    headerRead_of_not_marker marker
  have nextEq := header.next_eq
  have nextRightEq := headerRight.next_eq
  rw [← sameCurrent, ← first] at nextRightEq
  have numberRight : right.optionNumber deltaRight =
      left.numberIn right.memory := by
    rw [headerRight.optionNumber_eq]
    unfold OptionParser.numberIn OptionParser.deltaNibble
      OptionParser.optionNumber
    rw [← sameCurrent, ← sameNumber, first]
  have outsideRight : dataLen < nextRight + lengthRight := by
    by_cases inside : next ≤ dataLen
    · -- the length is read inside the message, so both buffers have it
      have agreed := header.agree agree inside
      rw [sameCurrent] at agreed
      obtain ⟨-, middle, deltaRead, lengthRead⟩ := agreed
      obtain ⟨-, middleRight, deltaReadRight, lengthReadRight⟩ := headerRight
      rw [deltaRead] at deltaReadRight
      obtain ⟨-, rfl⟩ := Prod.mk.inj deltaReadRight
      rw [lengthRead] at lengthReadRight
      obtain ⟨rfl, rfl⟩ := Prod.mk.inj lengthReadRight
      exact outside
    · omega
  rw [parseOptionStep_truncated header outside,
    parseOptionStep_truncated headerRight outsideRight]
  refine .stops ⟨rfl, ?_, agree⟩
  simp only
  rw [header.optionNumber_eq, numberRight, ← samePacket]
  rcases confined unread (deltaNibble_ne_of_header header) with
    inside | unnoted
  · have sameDelta := readExtension_agree agree inside
    unfold OptionParser.numberIn
    rw [sameDelta]
  · rw [CoapPacket.noteOption_of_noted (unnoted left.memory fun _ _ => rfl),
      CoapPacket.noteOption_of_noted (unnoted right.memory agree)]

theorem parseOptionStep_same {left right : OptionParser}
    (plain : mode.oscore = false) (same : left.Same dataLen right)
    (unread : left.current < dataLen) (confined : left.Confined dataLen) :
    SameOutcome dataLen (parseOptionStep config mode dataLen left)
      (parseOptionStep config mode dataLen right) := by
  by_cases marker : (left.memory left.current).toNat &&& 0xF0 = 0xF0
  · have markerRight :
        (right.memory right.current).toNat &&& 0xF0 = 0xF0 := by
      rw [← same.current, ← same.memory _ unread]
      exact marker
    rw [parseOptionStep_marker marker, parseOptionStep_marker markerRight]
    refine .stops ⟨same.lastError, ?_, same.memory⟩
    unfold OptionParser.payloadPacket
    rw [same.packet, same.current]
  · obtain ⟨delta, length, next, header⟩ := headerRead_of_not_marker marker
    by_cases outside : dataLen < next + length
    · exact parseOptionStep_outside same unread confined header outside
    · exact parseOptionStep_inside plain same header
        (Nat.le_of_not_lt outside)

/-- One round that goes on. -/
def Goes (config : CoapConfig) (mode : ParseMode) (dataLen : Nat)
    (parser after : OptionParser) : Prop :=
  parser.current < dataLen ∧
    parseOptionStep config mode dataLen parser = .inr after

/-- The parser comes past this state. -/
def Reached (config : CoapConfig) (mode : ParseMode) (dataLen : Nat) :
    OptionParser → OptionParser → Prop :=
  Relation.ReflTransGen (Goes config mode dataLen)

theorem parseOptionLoop_alike (plain : mode.oscore = false) (fuel : Nat)
    {left right : OptionParser} (same : left.Same dataLen right)
    (confined : ∀ parser, Reached config mode dataLen left parser →
      parser.Confined dataLen) :
    Alike dataLen (parseOptionLoop config mode dataLen fuel left)
      (parseOptionLoop config mode dataLen fuel right) := by
  have here : Alike dataLen ⟨left.lastError, left.memory, left.packet⟩
      ⟨right.lastError, right.memory, right.packet⟩ :=
    ⟨same.lastError, same.packet, same.memory⟩
  induction fuel generalizing left right with
  | zero => exact here
  | succ fuel ih =>
      rw [parseOptionLoop, parseOptionLoop, ← same.current]
      by_cases unread : left.current < dataLen
      · rw [if_pos unread, if_pos unread]
        have outcome := @parseOptionStep_same config mode dataLen left right
          plain same unread (confined left .refl)
        generalize leftStep : parseOptionStep config mode dataLen left =
          leftOutcome at outcome
        generalize parseOptionStep config mode dataLen right =
          rightOutcome at outcome
        cases outcome with
        | stops alike => exact alike
        | goes sameAfter =>
            refine ih sameAfter ?_
              ⟨sameAfter.lastError, sameAfter.packet, sameAfter.memory⟩
            intro parser reached
            exact confined parser (.head ⟨unread, leftStep⟩ reached)
      · rw [if_neg unread, if_neg unread]
        exact here

theorem reached_walks {start parser : OptionParser}
    (room : Room start.current start.packet)
    (reached : Reached config mode dataLen start parser) :
    Room parser.current parser.packet ∧
      ∀ address, dataLen ≤ address →
        parser.memory address = start.memory address := by
  induction reached with
  | refl => exact ⟨room, fun _ _ => rfl⟩
  | tail _ goes ih =>
      obtain ⟨-, inside, roomAfter, above⟩ :=
        parseOptionStep_walks ih.1 goes.2
      refine ⟨roomAfter, ?_⟩
      intro address outside
      rw [above address (by omega), ih.2 address outside]

theorem reached_same (plain : mode.oscore = false)
    {start other parser : OptionParser} (same : start.Same dataLen other)
    (reached : Reached config mode dataLen start parser) :
    ∃ after, Reached config mode dataLen other after ∧
      parser.Same dataLen after := by
  induction reached with
  | refl => exact ⟨other, .refl, same⟩
  | tail _ goes ih =>
      obtain ⟨after, reachedAfter, sameAfter⟩ := ih
      obtain ⟨delta, length, next, header, inside, -, -⟩ :=
        parseOptionStep_inr goes.2
      have outcome := @parseOptionStep_inside config _ _ _ _ _ _ _ plain
        sameAfter header inside
      rw [goes.2] at outcome
      generalize step : parseOptionStep config mode dataLen after =
        stepped at outcome
      cases outcome with
      | goes sameNext =>
          have unread : after.current < dataLen := by
            rw [← sameAfter.current]
            exact goes.1
          exact ⟨_, reachedAfter.tail ⟨unread, step⟩, sameNext⟩

theorem parseOptionLoop_reached {start parser : OptionParser} {fuel : Nat}
    (room : Room start.current start.packet)
    (enough : dataLen ≤ fuel + start.current)
    (reached : Reached config mode dataLen start parser) :
    ∃ rest, dataLen ≤ rest + parser.current ∧
      parseOptionLoop config mode dataLen fuel start =
        parseOptionLoop config mode dataLen rest parser := by
  induction reached with
  | refl => exact ⟨fuel, enough, rfl⟩
  | tail reachedHere goes ih =>
      obtain ⟨unread, step⟩ := goes
      obtain ⟨rest, left, equal⟩ := ih
      obtain ⟨forward, -, -, -⟩ :=
        parseOptionStep_walks (reached_walks room reachedHere).1 step
      obtain ⟨rest, rfl⟩ : ∃ fewer, rest = fewer + 1 :=
        ⟨rest - 1, by omega⟩
      refine ⟨rest, by omega, ?_⟩
      rw [equal, parseOptionLoop, if_pos unread, step]

/-- The message of one memory, followed by what another one holds. -/
def Mem.overlay (dataLen : Nat) (message outside : Mem) : Mem :=
  fun address => if address < dataLen then message address
    else outside address

theorem agreeBelow_overlay (message outside : Mem) :
    AgreeBelow dataLen message (.overlay dataLen message outside) :=
  fun _ below => (if_pos below).symm

theorem parseOptionLoop_cut (plain : mode.oscore = false)
    {start parser : OptionParser} {fuel : Nat}
    (room : Room start.current start.packet)
    (enough : dataLen ≤ fuel + start.current)
    (reached : Reached config mode dataLen start parser)
    (unread : parser.current < dataLen) (option : parser.deltaNibble ≠ 15)
    (cut : ¬ parser.DeltaInside dataLen)
    (agree : AgreeBelow dataLen parser.memory memory) :
    (parseOptionLoop config mode dataLen fuel
      { start with memory := .overlay dataLen start.memory memory }).packet =
      parser.packet.noteOption (parser.numberIn memory) := by
  obtain ⟨after, reachedAfter, same⟩ := @reached_same config mode dataLen
    plain start { start with memory := .overlay dataLen start.memory memory }
    parser ⟨rfl, rfl, rfl, rfl, agreeBelow_overlay _ _⟩ reached
  obtain ⟨samePacket, sameCurrent, sameNumber, -, sameMemory⟩ := same
  have outside := (@reached_walks config mode dataLen
    { start with memory := .overlay dataLen start.memory memory } after room
    reachedAfter).2
  have held : after.memory = memory := by
    funext address
    by_cases below : address < dataLen
    · exact ((sameMemory address below).symm).trans (agree address below)
    · rw [outside address (Nat.le_of_not_lt below)]
      exact if_neg below
  have first : parser.memory parser.current = after.memory after.current := by
    rw [← sameCurrent]
    exact sameMemory _ unread
  have nibble : after.deltaNibble = parser.deltaNibble := by
    unfold OptionParser.deltaNibble
    rw [first]
  obtain ⟨delta, length, next, header⟩ := headerRead_of_not_marker
    fun marker => option (nibble ▸ (high_of_marker _).mp marker)
  have truncated : dataLen < next + length := by
    have place := header.next_eq
    unfold OptionParser.DeltaInside at cut
    rw [← nibble, sameCurrent] at cut
    unfold OptionParser.deltaNibble at cut
    omega
  obtain ⟨rest, left, equal⟩ := @parseOptionLoop_reached config mode dataLen
    { start with memory := .overlay dataLen start.memory memory } after fuel
    room enough reachedAfter
  rw [sameCurrent] at unread
  obtain ⟨rest, rfl⟩ : ∃ fewer, rest = fewer + 1 := ⟨rest - 1, by omega⟩
  rw [equal, parseOptionLoop, if_pos unread,
    parseOptionStep_truncated header truncated]
  simp only
  rw [header.optionNumber_eq, ← samePacket, held]
  unfold OptionParser.numberIn OptionParser.optionNumber
  rw [nibble, sameCurrent, sameNumber]

private theorem add_one_toNat (byte : UInt8) :
    (byte + 1).toNat ≠ byte.toNat ∧ (byte + 1).toNat < 256 := by
  have all : ∀ value : Fin 256,
      (UInt8.ofNat value.val + 1).toNat ≠ (UInt8.ofNat value.val).toNat := by
    decide +kernel
  have found := all ⟨byte.toNat, byte.toNat_lt⟩
  simp only [UInt8.ofNat_toNat] at found
  exact ⟨found, (byte + 1).toNat_lt⟩

theorem exists_other_number {parser : OptionParser}
    (unread : parser.current < dataLen) (cut : ¬ parser.DeltaInside dataLen)
    (agree : AgreeBelow dataLen parser.memory memory) :
    ∃ other, AgreeBelow dataLen parser.memory other ∧
      parser.numberIn other ≠ parser.numberIn memory := by
  unfold OptionParser.DeltaInside at cut
  have wide : 0 < extensionSize parser.deltaNibble := by omega
  have last : dataLen ≤ parser.current + extensionSize parser.deltaNibble := by
    omega
  refine ⟨memory.store (parser.current + extensionSize parser.deltaNibble)
    (memory (parser.current + extensionSize parser.deltaNibble) + 1),
    ?_, ?_⟩
  · intro address below
    rw [Mem.store_other (by omega)]
    exact agree address below
  · have changed := add_one_toNat
      (memory (parser.current + extensionSize parser.deltaNibble))
    have small := (memory (parser.current +
      extensionSize parser.deltaNibble)).toNat_lt
    unfold OptionParser.numberIn OptionParser.optionNumber
    generalize parser.deltaNibble = nibble at *
    unfold extensionSize at *
    unfold readExtension
    split_ifs at * with one two
    · simp only [Mem.store_same]
      omega
    · rw [Mem.store_other (by omega)]
      simp only [Nat.add_assoc, Nat.reduceAdd, Mem.store_same] at *
      omega
    · omega

theorem isOption_noteOption_self {packet : InPacket} {number : Nat}
    (small : number ≤ CoapOption.size1) :
    (packet.noteOption number).isOption number := by
  have bounded : number < 64 := Nat.lt_of_le_of_lt small (by decide)
  unfold CoapPacket.noteOption
  rw [if_pos small]
  simp [bounded]

theorem isOption_noteOption_other {packet : InPacket} {number noted : Nat}
    (different : noted ≠ number) :
    (packet.noteOption noted).isOption number = packet.isOption number := by
  unfold CoapPacket.noteOption
  split_ifs
  · simp [different]
  · rfl

theorem confined_of_alike (plain : mode.oscore = false)
    {start : OptionParser} {fuel : Nat}
    (room : Room start.current start.packet)
    (enough : dataLen ≤ fuel + start.current)
    (alike : ∀ left right, AgreeBelow dataLen start.memory left →
      AgreeBelow dataLen start.memory right →
      Alike dataLen
        (parseOptionLoop config mode dataLen fuel
          { start with memory := left })
        (parseOptionLoop config mode dataLen fuel
          { start with memory := right })) :
    ∀ parser, Reached config mode dataLen start parser →
      parser.Confined dataLen := by
  intro parser reached unread option
  by_contra revealing
  obtain ⟨cut, noted⟩ := not_or.mp revealing
  unfold OptionParser.Unnoted at noted
  push Not at noted
  obtain ⟨memory, agree, small, fresh⟩ := noted
  obtain ⟨other, agreeOther, different⟩ :=
    exists_other_number unread cut agree
  have packets := (alike _ _
    (agreeBelow_overlay start.memory memory)
    (agreeBelow_overlay start.memory other)).packet
  rw [parseOptionLoop_cut plain room enough reached unread option cut agree,
    parseOptionLoop_cut plain room enough reached unread option cut
      agreeOther] at packets
  have seen := @isOption_noteOption_self parser.packet _ small
  rw [packets, isOption_noteOption_other different] at seen
  exact fresh seen

end Walk

theorem Mem.eq_of_read_eq {left right : Mem}
    {start length : Nat}
    (same : left.read start length = right.read start length)
    {address : Nat} (lower : start ≤ address)
    (upper : address < start + length) : left address = right address := by
  induction length generalizing start with
  | zero => omega
  | succ length ih =>
      obtain ⟨head, tail⟩ := List.cons.inj same
      rcases Nat.eq_or_lt_of_le lower with rfl | later
      · exact head
      · exact ih tail later (by omega)

theorem agreeBelow_store {bound address : Nat} (memory : Mem)
    (outside : bound ≤ address) (value : UInt8) :
    AgreeBelow bound memory (memory.store address value) := by
  intro candidate below
  rw [Mem.store_other (by omega)]

/-- The parser before the first option. -/
def optionStart (memory : Mem) (packet : InPacket) (current : Nat) :
    OptionParser where
  memory := memory
  packet := { packet with options := 0 }
  current := current
  number := 0
  lastError := .noError

variable {dataLen : Nat}

theorem coapOscoreParseOptions_eq (config : CoapConfig) (mode : ParseMode)
    (memory : Mem) (packet : InPacket) (current : Nat)
    (bounded : ¬ dataLen > 2 ^ 32 - 1) :
    coapOscoreParseOptions config mode memory packet dataLen current =
      parseOptionLoop config mode dataLen dataLen
        (optionStart memory packet current) := by
  unfold coapOscoreParseOptions
  rw [if_neg bounded]
  rfl

/-- The flags of the message parsers. -/
def ParseMode.received (validate : Bool) : ParseMode :=
  ⟨true, true, false, validate⟩

/-- What follows the fixed header: a token and the options. -/
structure MessageBody where
  header : InPacket
  tokenStart : Nat
  tokenLen : Nat

variable {config : CoapConfig} {validate : Bool} {other : Mem}

namespace MessageBody

def parser (body : MessageBody) (memory : Mem) : OptionParser :=
  optionStart memory
    { body.header with token := memory.read body.tokenStart body.tokenLen }
    (body.tokenStart + body.tokenLen)

def parse (body : MessageBody) (config : CoapConfig) (validate : Bool)
    (dataLen : Nat) (memory : Mem) : ParseResult :=
  coapOscoreParseOptions config (.received validate) memory
    { body.header with token := memory.read body.tokenStart body.tokenLen }
    dataLen (body.tokenStart + body.tokenLen)

/-- The token lies inside the message, and so does every delta on the walk
through the options that could be noted. -/
def Inside (body : MessageBody) (config : CoapConfig) (validate : Bool)
    (dataLen : Nat) (memory : Mem) : Prop :=
  body.tokenStart + body.tokenLen ≤ dataLen ∧
    ∀ parser, Reached config (.received validate) dataLen
      (body.parser memory) parser → parser.Confined dataLen

/-- The result is the same whatever follows the message. -/
def Determined (dataLen : Nat) (parse : Mem → ParseResult) (memory : Mem) :
    Prop :=
  ∀ left right, AgreeBelow dataLen memory left →
    AgreeBelow dataLen memory right →
    Alike dataLen (parse left) (parse right)

theorem parse_eq (body : MessageBody) (config : CoapConfig) (validate : Bool)
    (bounded : ¬ dataLen > 2 ^ 32 - 1) (memory : Mem) :
    body.parse config validate dataLen memory =
      parseOptionLoop config (.received validate) dataLen dataLen
        (body.parser memory) :=
  coapOscoreParseOptions_eq config _ memory _ _ bounded

theorem parser_agree (body : MessageBody)
    (inside : body.tokenStart + body.tokenLen ≤ dataLen)
    (agree : AgreeBelow dataLen memory other) :
    body.parser other = { body.parser memory with memory := other } := by
  have token : other.read body.tokenStart body.tokenLen =
      memory.read body.tokenStart body.tokenLen := by
    apply Mem.read_congr
    intro address _ upper
    exact (agree address (by omega)).symm
  unfold parser
  rw [token]
  rfl

theorem parseOptionLoop_done {mode : ParseMode} {dataLen fuel : Nat}
    {parser : OptionParser} (done : dataLen ≤ parser.current) :
    parseOptionLoop config mode dataLen fuel parser =
      ⟨parser.lastError, parser.memory, parser.packet⟩ := by
  cases fuel with
  | zero => rfl
  | succ fuel => rw [parseOptionLoop, if_neg (Nat.not_lt_of_le done)]

theorem token_inside (body : MessageBody) (bounded : ¬ dataLen > 2 ^ 32 - 1)
    (started : body.tokenStart ≤ dataLen)
    (determined : Determined dataLen
      (body.parse config validate dataLen) memory) :
    body.tokenStart + body.tokenLen ≤ dataLen := by
  by_contra outside
  have last : dataLen ≤ body.tokenStart + body.tokenLen - 1 := by omega
  have result : ∀ value,
      (body.parse config validate dataLen (memory.store
        (body.tokenStart + body.tokenLen - 1) value)).packet.token =
      (memory.store (body.tokenStart + body.tokenLen - 1) value).read
        body.tokenStart body.tokenLen := by
    intro value
    rw [parse_eq body config validate bounded, parseOptionLoop_done]
    · rfl
    · exact Nat.le_of_not_le outside
  have packets := (determined _ _
    (agreeBelow_store memory last 0)
    (agreeBelow_store memory last 1)).packet
  have tokens := congrArg CoapPacket.token packets
  rw [result, result] at tokens
  have bytes := @Mem.eq_of_read_eq _ _ _ _ tokens
    (body.tokenStart + body.tokenLen - 1) (by omega) (by omega)
  rw [Mem.store_same, Mem.store_same] at bytes
  exact absurd bytes (by decide)

theorem determined_iff (body : MessageBody) (config : CoapConfig)
    (validate : Bool) (memory : Mem) (bounded : ¬ dataLen > 2 ^ 32 - 1)
    (started : body.tokenStart ≤ dataLen)
    (cleared : Room body.tokenStart body.header) :
    Determined dataLen (body.parse config validate dataLen) memory ↔
      body.Inside config validate dataLen memory := by
  constructor
  · intro determined
    have inside := body.token_inside bounded started determined
    refine ⟨inside, ?_⟩
    refine @confined_of_alike config (.received validate) dataLen rfl
      (body.parser memory) dataLen ?_ (Nat.le_add_right _ _) ?_
    · have room := cleared.advance
        (Nat.le_add_right body.tokenStart body.tokenLen)
      exact ⟨room.path, room.query⟩
    · intro left right agreeLeft agreeRight
      have alike := determined left right agreeLeft agreeRight
      rw [parse_eq body config validate bounded,
        parse_eq body config validate bounded,
        body.parser_agree inside agreeLeft,
        body.parser_agree inside agreeRight] at alike
      exact alike
  · rintro ⟨inside, confined⟩
    have fromMemory : ∀ other, AgreeBelow dataLen memory other →
        Alike dataLen (body.parse config validate dataLen memory)
          (body.parse config validate dataLen other) := by
      intro other agree
      rw [parse_eq body config validate bounded,
        parse_eq body config validate bounded,
        body.parser_agree inside agree]
      exact parseOptionLoop_alike rfl dataLen
        ⟨rfl, rfl, rfl, rfl, agree⟩ confined
    intro left right agreeLeft agreeRight
    exact (fromMemory left agreeLeft).symm.trans
      (fromMemory right agreeRight)

end MessageBody

def headerTokenLen (memory : Mem) : Nat := 0x0F &&& (memory 0).toNat

def udpHeader (memory : Mem) : InPacket :=
  { CoapPacket.zero Span.null with
    transportType := .udp
    version := UInt8.ofNat ((0xC0 &&& (memory 0).toNat) >>> 6)
    type := .ofBits ((0x30 &&& (memory 0).toNat) >>> 4)
    code := memory 1
    mid := UInt16.ofNat ((memory 2).toNat <<< 8 ||| (memory 3).toNat) }

def udpBody (memory : Mem) : MessageBody :=
  ⟨udpHeader memory, 4, headerTokenLen memory⟩

theorem coapUdpParseMessage_eq (config : CoapConfig) (memory : Mem)
    (dataLen : Nat) (validate : Bool) :
    coapUdpParseMessage config memory dataLen validate =
      if dataLen > 65535 then
        ⟨.badRequest, memory, CoapPacket.zero Span.null⟩
      else if (udpHeader memory).version ≠ 1 then
        ⟨.badRequest, memory, udpHeader memory⟩
      else if headerTokenLen memory > coapTokenLen then
        ⟨.badRequest, memory, udpHeader memory⟩
      else (udpBody memory).parse config validate dataLen memory :=
  rfl

/-- The result depends on the message alone, and a message that is not even
complete up to its token is rejected. -/
structure ParsedFromMessage (dataLen : Nat) (parse : Mem → ParseResult)
    (memory : Mem) (complete : Prop) : Prop where
  determined : MessageBody.Determined dataLen parse memory
  short : ¬ complete → (parse memory).status = .badRequest

def UdpComplete (memory : Mem) (dataLen : Nat) : Prop :=
  4 ≤ dataLen ∧ 4 + headerTokenLen memory ≤ dataLen

/-- Nothing outside the message is used: it is too long for UDP, or its
header is complete and either rejected or followed by a token and options
inside the message. -/
def UdpConfined (config : CoapConfig) (memory : Mem) (dataLen : Nat)
    (validate : Bool) : Prop :=
  65535 < dataLen ∨
    4 ≤ dataLen ∧
      ((udpHeader memory).version ≠ 1 ∨
        coapTokenLen < headerTokenLen memory ∨
        (udpBody memory).Inside config validate dataLen memory)

theorem udpBody_agree (complete : 4 ≤ dataLen)
    (agree : AgreeBelow dataLen memory other) :
    udpBody other = udpBody memory := by
  unfold udpBody udpHeader headerTokenLen
  rw [agree 0 (by omega), agree 1 (by omega), agree 2 (by omega),
    agree 3 (by omega)]

private theorem mid_differs (high : UInt8) :
    UInt16.ofNat (high.toNat <<< 8 ||| (0 : UInt8).toNat) ≠
      UInt16.ofNat (high.toNat <<< 8 ||| (1 : UInt8).toNat) := by
  have all : ∀ value : Fin 256,
      UInt16.ofNat (value.val <<< 8 ||| (0 : UInt8).toNat) ≠
        UInt16.ofNat (value.val <<< 8 ||| (1 : UInt8).toNat) := by
    decide +kernel
  exact all ⟨high.toNat, high.toNat_lt⟩

private theorem coapUdpParseMessage_short (short : dataLen < 4) :
    (coapUdpParseMessage config memory dataLen validate).packet.mid =
      (udpHeader memory).mid := by
  rw [coapUdpParseMessage_eq, if_neg (by omega)]
  split_ifs
  · rfl
  · rfl
  · rw [MessageBody.parse_eq _ config validate (by omega),
      MessageBody.parseOptionLoop_done]
    · rfl
    · exact Nat.le_trans (Nat.le_of_lt short) (Nat.le_add_right 4 _)

private theorem udp_header_inside
    (determined : MessageBody.Determined dataLen
      (coapUdpParseMessage config · dataLen validate) memory) :
    4 ≤ dataLen := by
  by_contra short
  have packets := (determined (memory.store 3 0) (memory.store 3 1)
    (agreeBelow_store memory (by omega) 0)
    (agreeBelow_store memory (by omega) 1)).packet
  have mids := congrArg CoapPacket.mid packets
  simp only at mids
  rw [coapUdpParseMessage_short (by omega),
    coapUdpParseMessage_short (by omega)] at mids
  unfold udpHeader at mids
  simp only at mids
  rw [Mem.store_same, Mem.store_same, Mem.store_other (by decide),
    Mem.store_other (by decide)] at mids
  exact mid_differs (memory 2) mids

theorem MessageBody.determined_congr {parse other : Mem → ParseResult}
    (same : ∀ buffer, AgreeBelow dataLen memory buffer →
      parse buffer = other buffer) :
    Determined dataLen parse memory ↔ Determined dataLen other memory := by
  unfold Determined
  constructor
  · intro determined left right agreeLeft agreeRight
    rw [← same left agreeLeft, ← same right agreeRight]
    exact determined left right agreeLeft agreeRight
  · intro determined left right agreeLeft agreeRight
    rw [same left agreeLeft, same right agreeRight]
    exact determined left right agreeLeft agreeRight

theorem parsedFromMessage_of_rejected {parse : Mem → ParseResult}
    {complete : Prop} (packet : InPacket)
    (rejected : ∀ buffer, AgreeBelow dataLen memory buffer →
      parse buffer = ⟨.badRequest, buffer, packet⟩) :
    ParsedFromMessage dataLen parse memory complete where
  determined := by
    intro left right agreeLeft agreeRight
    rw [rejected left agreeLeft, rejected right agreeRight]
    exact ⟨rfl, rfl, agreeLeft.symm.trans agreeRight⟩
  short := by
    intro _
    rw [rejected memory fun _ _ => rfl]

theorem parsedFromMessage_iff_inside {parse : Mem → ParseResult}
    {complete : Prop} (body : MessageBody) (bounded : ¬ dataLen > 2 ^ 32 - 1)
    (started : body.tokenStart ≤ dataLen)
    (cleared : Room body.tokenStart body.header)
    (accepted : ∀ buffer, AgreeBelow dataLen memory buffer →
      parse buffer = body.parse config validate dataLen buffer)
    (completes : body.tokenStart + body.tokenLen ≤ dataLen → complete) :
    ParsedFromMessage dataLen parse memory complete ↔
      body.Inside config validate dataLen memory := by
  have determined : MessageBody.Determined dataLen parse memory ↔
      body.Inside config validate dataLen memory :=
    (MessageBody.determined_congr accepted).trans
      (body.determined_iff config validate memory bounded started cleared)
  constructor
  · intro parsed
    exact determined.mp parsed.determined
  · intro inside
    refine ⟨determined.mpr inside, ?_⟩
    intro short
    exact absurd (completes inside.1) short

theorem udp_parsed_iff (config : CoapConfig) (memory : Mem)
    (dataLen : Nat) (validate : Bool) :
    ParsedFromMessage dataLen (coapUdpParseMessage config · dataLen validate)
        memory (UdpComplete memory dataLen) ↔
      UdpConfined config memory dataLen validate := by
  by_cases large : 65535 < dataLen
  · refine iff_of_true ⟨?_, ?_⟩ (.inl large)
    · intro left right agreeLeft agreeRight
      simp only [coapUdpParseMessage_eq, large, gt_iff_lt, if_true]
      exact ⟨rfl, rfl, agreeLeft.symm.trans agreeRight⟩
    · intro _
      simp only [coapUdpParseMessage_eq, large, gt_iff_lt, if_true]
  · by_cases complete : 4 ≤ dataLen
    · have header : ∀ buffer, AgreeBelow dataLen memory buffer →
          udpHeader buffer = udpHeader memory ∧
            headerTokenLen buffer = headerTokenLen memory := by
        intro buffer agree
        have same := udpBody_agree complete agree
        exact ⟨congrArg MessageBody.header same,
          congrArg MessageBody.tokenLen same⟩
      have start : ∀ buffer, AgreeBelow dataLen memory buffer →
          coapUdpParseMessage config buffer dataLen validate =
            if (udpHeader memory).version ≠ 1 ∨
                coapTokenLen < headerTokenLen memory then
              ⟨.badRequest, buffer, udpHeader memory⟩
            else (udpBody memory).parse config validate dataLen buffer := by
        intro buffer agree
        rw [coapUdpParseMessage_eq, if_neg large,
          udpBody_agree complete agree, (header buffer agree).1,
          (header buffer agree).2]
        by_cases version : (udpHeader memory).version ≠ 1
        · rw [if_pos version, if_pos (.inl version)]
        · rw [if_neg version]
          by_cases long : headerTokenLen memory > coapTokenLen
          · rw [if_pos long, if_pos (.inr long)]
          · rw [if_neg long, if_neg (not_or.mpr ⟨version, long⟩)]
      by_cases rejected : (udpHeader memory).version ≠ 1 ∨
          coapTokenLen < headerTokenLen memory
      · refine iff_of_true ?_ (.inr ⟨complete, ?_⟩)
        · apply parsedFromMessage_of_rejected (udpHeader memory)
          intro buffer agree
          rw [start buffer agree, if_pos rejected]
        · exact rejected.imp id .inl
      · obtain ⟨version, long⟩ := not_or.mp rejected
        rw [parsedFromMessage_iff_inside (udpBody memory) (by omega) complete
          ⟨.inl rfl, .inl rfl⟩ ?_ fun inside => ⟨complete, inside⟩]
        · constructor
          · intro inside
            exact .inr ⟨complete, .inr (.inr inside)⟩
          · rintro (tooLong | ⟨-, other | other | inside⟩)
            · exact absurd tooLong large
            · exact absurd other version
            · exact absurd other long
            · exact inside
        · intro buffer agree
          rw [start buffer agree, if_neg rejected]
    · refine iff_of_false ?_ ?_
      · intro parsed
        exact complete (udp_header_inside parsed.determined)
      · rintro (long | ⟨header, -⟩)
        · exact large long
        · exact complete header

def tcpHeader (memory : Mem) (extendedBytes : Nat) : InPacket :=
  { CoapPacket.zero Span.null with
    transportType := .tcp
    type := .non
    mid := 0
    code := memory (1 + extendedBytes) }

def tcpBody (memory : Mem) (extendedBytes : Nat) : MessageBody :=
  ⟨tcpHeader memory extendedBytes, 2 + extendedBytes, headerTokenLen memory⟩

theorem coapTcpParseMessage_none (bounded : ¬ dataLen > 2 ^ 32 - 1)
    (incomplete : coapTcpParseMessageLength memory dataLen = none) :
    coapTcpParseMessage config memory dataLen validate =
      ⟨.badRequest, memory,
        { CoapPacket.zero Span.null with transportType := .tcp }⟩ := by
  unfold coapTcpParseMessage
  rw [if_neg bounded, incomplete]

variable {extendedBytes : Nat}

theorem coapTcpParseMessage_some (bounded : ¬ dataLen > 2 ^ 32 - 1)
    (found : coapTcpParseMessageLength memory dataLen =
      some (length, extendedBytes)) :
    coapTcpParseMessage config memory dataLen validate =
      if headerTokenLen memory > coapTokenLen then
        ⟨.badRequest, memory, tcpHeader memory extendedBytes⟩
      else (tcpBody memory extendedBytes).parse config validate dataLen
        memory := by
  unfold coapTcpParseMessage
  rw [if_neg bounded, found]
  rfl

def TcpComplete (memory : Mem) (dataLen : Nat) : Prop :=
  1 ≤ dataLen ∧ ∃ length extendedBytes,
    coapTcpParseMessageLength memory dataLen = some (length, extendedBytes) ∧
      2 + extendedBytes + headerTokenLen memory ≤ dataLen

/-- The length field is incomplete, or it is followed by a code, a token and
options inside the message. -/
def TcpConfined (config : CoapConfig) (memory : Mem) (dataLen : Nat)
    (validate : Bool) : Prop :=
  2 ^ 32 - 1 < dataLen ∨
    1 ≤ dataLen ∧
      (coapTcpParseMessageLength memory dataLen = none ∨
        ∃ length extendedBytes,
          coapTcpParseMessageLength memory dataLen =
              some (length, extendedBytes) ∧
            2 + extendedBytes ≤ dataLen ∧
            (coapTokenLen < headerTokenLen memory ∨
              (tcpBody memory extendedBytes).Inside config validate dataLen
                memory))

theorem coapTcpParseMessageLength_agree (started : 1 ≤ dataLen)
    (agree : AgreeBelow dataLen memory other) :
    coapTcpParseMessageLength other dataLen =
      coapTcpParseMessageLength memory dataLen := by
  unfold coapTcpParseMessageLength
  rw [← agree 0 started]
  simp only
  split_ifs with short cut
  · rfl
  · rfl
  all_goals
    rw [Mem.read_congr fun address _ upper => (agree address (by omega)).symm]

private theorem coapTcpParseMessage_code (bounded : ¬ dataLen > 2 ^ 32 - 1)
    (found : coapTcpParseMessageLength memory dataLen =
      some (length, extendedBytes)) (short : dataLen < 2 + extendedBytes) :
    (coapTcpParseMessage config memory dataLen validate).packet.code =
      memory (1 + extendedBytes) := by
  rw [coapTcpParseMessage_some bounded found]
  split_ifs
  · rfl
  · rw [MessageBody.parse_eq _ config validate bounded,
      MessageBody.parseOptionLoop_done]
    · rfl
    · exact Nat.le_trans (Nat.le_of_lt short) (Nat.le_add_right _ _)

private theorem tcp_code_inside (bounded : ¬ dataLen > 2 ^ 32 - 1)
    (found : ∀ value, coapTcpParseMessageLength
      (memory.store (1 + extendedBytes) value) dataLen =
        some (length, extendedBytes))
    (determined : MessageBody.Determined dataLen
      (coapTcpParseMessage config · dataLen validate) memory) :
    2 + extendedBytes ≤ dataLen := by
  by_contra short
  have outside : dataLen ≤ 1 + extendedBytes := by omega
  have packets := (determined _ _
    (agreeBelow_store memory outside 0)
    (agreeBelow_store memory outside 1)).packet
  have codes := congrArg CoapPacket.code packets
  simp only at codes
  rw [coapTcpParseMessage_code bounded (found 0) (by omega),
    coapTcpParseMessage_code bounded (found 1) (by omega),
    Mem.store_same, Mem.store_same] at codes
  exact absurd codes (by decide)

private theorem tcp_started
    (determined : MessageBody.Determined dataLen
      (coapTcpParseMessage config · dataLen validate) memory) :
    1 ≤ dataLen := by
  by_contra empty
  obtain rfl : dataLen = 0 := by omega
  have blank : MessageBody.Determined 0
      (coapTcpParseMessage config · 0 validate) (.ofBytes []) :=
    fun left right _ _ => determined left right
      (fun _ below => absurd below (Nat.not_lt_zero _))
      (fun _ below => absurd below (Nat.not_lt_zero _))
  have length : ∀ value, coapTcpParseMessageLength
      ((Mem.ofBytes []).store (1 + 0) value) 0 = some (0, 0) := by
    intro value
    have first : (Mem.ofBytes []).store (1 + 0) value 0 = 0 := rfl
    unfold coapTcpParseMessageLength
    rw [first]
    rfl
  have inside := tcp_code_inside (by decide) length blank
  omega

theorem tcp_parsed_iff (config : CoapConfig) (memory : Mem)
    (dataLen : Nat) (validate : Bool) :
    ParsedFromMessage dataLen (coapTcpParseMessage config · dataLen validate)
        memory (TcpComplete memory dataLen) ↔
      TcpConfined config memory dataLen validate := by
  by_cases large : 2 ^ 32 - 1 < dataLen
  · refine iff_of_true ?_ (.inl large)
    apply parsedFromMessage_of_rejected (CoapPacket.zero Span.null)
    intro buffer _
    unfold coapTcpParseMessage
    rw [if_pos large]
  by_cases started : 1 ≤ dataLen
  · have same : ∀ buffer, AgreeBelow dataLen memory buffer →
        coapTcpParseMessageLength buffer dataLen =
          coapTcpParseMessageLength memory dataLen :=
      fun buffer agree => coapTcpParseMessageLength_agree started agree
    cases found : coapTcpParseMessageLength memory dataLen with
    | none =>
        refine iff_of_true ?_ (.inr ⟨started, .inl found⟩)
        apply parsedFromMessage_of_rejected
          { CoapPacket.zero Span.null with transportType := .tcp }
        intro buffer agree
        exact coapTcpParseMessage_none large ((same buffer agree).trans found)
    | some lengths =>
        obtain ⟨length, extendedBytes⟩ := lengths
        have confinedIff : TcpConfined config memory dataLen validate ↔
            2 + extendedBytes ≤ dataLen ∧
              (coapTokenLen < headerTokenLen memory ∨
                (tcpBody memory extendedBytes).Inside config validate dataLen
                  memory) := by
          unfold TcpConfined
          rw [found]
          constructor
          · rintro (tooLong | ⟨-, missing | ⟨_, _, equal, inside⟩⟩)
            · exact absurd tooLong large
            · cases missing
            · cases equal
              exact inside
          · intro inside
            exact .inr ⟨started, .inr ⟨length, extendedBytes, rfl, inside⟩⟩
        rw [confinedIff]
        by_cases code : 2 + extendedBytes ≤ dataLen
        · have token : ∀ buffer, AgreeBelow dataLen memory buffer →
              headerTokenLen buffer = headerTokenLen memory := by
            intro buffer agree
            unfold headerTokenLen
            rw [agree 0 started]
          have header : ∀ buffer, AgreeBelow dataLen memory buffer →
              tcpHeader buffer extendedBytes =
                tcpHeader memory extendedBytes := by
            intro buffer agree
            unfold tcpHeader
            rw [agree _ (by omega)]
          by_cases long : headerTokenLen memory > coapTokenLen
          · refine iff_of_true ?_ ⟨code, .inl long⟩
            apply parsedFromMessage_of_rejected
              (tcpHeader memory extendedBytes)
            intro buffer agree
            rw [coapTcpParseMessage_some large
              ((same buffer agree).trans found), token buffer agree,
              header buffer agree, if_pos long]
          · rw [parsedFromMessage_iff_inside (tcpBody memory extendedBytes)
              large code ⟨.inl rfl, .inl rfl⟩ ?_ fun inside =>
                ⟨started, length, extendedBytes, found, inside⟩]
            · constructor
              · intro inside
                exact ⟨code, .inr inside⟩
              · rintro ⟨-, other | inside⟩
                · exact absurd other long
                · exact inside
            · intro buffer agree
              rw [coapTcpParseMessage_some large
                ((same buffer agree).trans found), token buffer agree,
                if_neg long]
              unfold tcpBody
              rw [token buffer agree, header buffer agree]
        · refine iff_of_false ?_ fun inside => code inside.1
          intro parsed
          apply code
          have outside : dataLen ≤ 1 + extendedBytes := by omega
          have kept : ∀ value, coapTcpParseMessageLength
              (memory.store (1 + extendedBytes) value) dataLen =
                some (length, extendedBytes) := by
            intro value
            exact (same _ (agreeBelow_store memory outside value)).trans found
          exact tcp_code_inside large kept parsed.determined
  · refine iff_of_false ?_ ?_
    · intro parsed
      exact started (tcp_started parsed.determined)
    · rintro (long | ⟨header, -⟩)
      · exact large long
      · exact started header

/-- A message is parsed from its own bytes exactly when its fixed header, its
token and the deltas of its options lie inside it. -/
theorem received_bytes_iff (config : CoapConfig) (memory : Mem)
    (dataLen : Nat) (validate : Bool) :
    (ParsedFromMessage dataLen (coapUdpParseMessage config · dataLen validate)
        memory (UdpComplete memory dataLen) ↔
      UdpConfined config memory dataLen validate) ∧
    (ParsedFromMessage dataLen (coapTcpParseMessage config · dataLen validate)
        memory (TcpComplete memory dataLen) ↔
      TcpConfined config memory dataLen validate) :=
  ⟨udp_parsed_iff config memory dataLen validate,
    tcp_parsed_iff config memory dataLen validate⟩

section Datagrams

private def datagramConfig : CoapConfig :=
  ⟨true, false, false, false, false, true, false, false, false, 1024⟩

/-- A datagram that holds the first byte of a header and nothing else. -/
private def oneByte : Mem := .ofBytes [0x40]

theorem not_parsedFromMessage_oneByte :
    ¬ ParsedFromMessage 1 (coapUdpParseMessage datagramConfig · 1 false)
      oneByte (UdpComplete oneByte 1) := by
  intro parsed
  have accepted : (coapUdpParseMessage datagramConfig oneByte 1
      false).status = .noError := by decide +kernel
  have rejected := parsed.short fun complete =>
    absurd complete.1 (by decide)
  rw [accepted] at rejected
  cases rejected

end Datagrams

end IotivityLite
