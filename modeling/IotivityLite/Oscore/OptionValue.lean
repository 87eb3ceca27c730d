import IotivityLite.Coap.OptionSemantics
import IotivityLite.Oscore.Receive

/-!
# The value of the OSCORE option

RFC 8613, section 6.1: a byte of flags, the Partial IV, the kid context with
its length, and the kid as the remainder.  The reader trusts the lengths in
the value: a Partial IV of seven bytes is copied to an array of five, and what
is left of the value is counted by an unsigned number that wraps.  The writer
marks the kid as present by the code of the message.
-/

namespace IotivityLite

def oscoreIdctxLen : Nat := 16

/-- The addresses a call of `coap_parse_oscore_option` looks at, and how many
bytes it copies to each of its three arrays. -/
structure OscoreOptionTrace where
  looked : List Nat
  piv : Nat
  kidCtx : Nat
  kid : Nat
  deriving DecidableEq

def coapParseOscoreOptionTrace (memory : Mem) (option : Span) :
    OscoreOptionTrace :=
  if option.length = 0 then ⟨[], 0, 0, 0⟩
  else
    let flags := memory option.start
    let current := option.start + 1
    let length := sizeSub option.length 1
    let pivLen := (flags &&& 0x07).toNat
    let looked := option.start :: List.range' current pivLen
    let current := current + pivLen
    let length := sizeSub length pivLen
    let hasKidCtx : Bool := flags &&& 0x10 ≠ 0
    let kidCtxLen := if hasKidCtx then (memory current).toNat else 0
    let looked := looked ++ if hasKidCtx then [current] else []
    if kidCtxLen > oscoreIdctxLen then ⟨looked, pivLen, 0, 0⟩
    else
      let looked := looked ++
        if hasKidCtx then List.range' (current + 1) kidCtxLen else []
      let current := if hasKidCtx then current + 1 + kidCtxLen else current
      let length :=
        if hasKidCtx then sizeSub (sizeSub length 1) kidCtxLen else length
      let hasKid : Bool := flags &&& 0x08 ≠ 0
      if hasKid ∧ length > oscoreCtxidLen then ⟨looked, pivLen, kidCtxLen, 0⟩
      else
        ⟨looked ++ (if hasKid then List.range' current length else []), pivLen,
          kidCtxLen, if hasKid then length else 0⟩

namespace OscoreValue

variable (value : Bytes)

def flags : UInt8 := value.getD 0 0

def pivLen : Nat := (flags value &&& 0x07).toNat

def hasKidCtx : Bool := flags value &&& 0x10 ≠ 0

def hasKid : Bool := flags value &&& 0x08 ≠ 0

def kidCtxLen : Nat :=
  if hasKidCtx value then (value.getD (1 + pivLen value) 0).toNat else 0

/-- Where the kid begins. -/
def kidStart : Nat :=
  1 + pivLen value + if hasKidCtx value then 1 + kidCtxLen value else 0

/-- No reserved flag is set, and the fields fit into the value and into their
arrays. -/
def WellFormed : Prop :=
  value = [] ∨
    (flags value &&& 0xE0 = 0 ∧ pivLen value ≤ oscorePivLen ∧
      kidCtxLen value ≤ oscoreIdctxLen ∧ kidStart value ≤ value.length ∧
      if hasKid value then value.length - kidStart value ≤ oscoreCtxidLen
      else value.length = kidStart value)

/-- The Partial IV fits into the value and its array, and so does the kid
context unless its length is refused; what remains is refused as too long, or
no reserved flag is set and only a kid remains. -/
def Handled : Prop :=
  value = [] ∨
    (pivLen value ≤ oscorePivLen ∧ 1 + pivLen value ≤ value.length ∧
      (hasKidCtx value → 2 + pivLen value ≤ value.length) ∧
      (oscoreIdctxLen < kidCtxLen value ∨
        kidStart value ≤ value.length ∧
          (hasKid value ∧
              oscoreCtxidLen < value.length - kidStart value ∨
            flags value &&& 0xE0 = 0 ∧
              (hasKid value ∨ value.length = kidStart value))))

instance : Decidable (Handled value) :=
  inferInstanceAs (Decidable (_ ∨ _))

end OscoreValue

section Calls

variable (memory : Mem) (packet : InPacket) (option : Span)

/-- The flags, as they are found in memory. -/
private def foundFlags : UInt8 := memory option.start

private def foundPivLen : Nat := (foundFlags memory option &&& 0x07).toNat

private def foundHasKidCtx : Bool := foundFlags memory option &&& 0x10 ≠ 0

private def foundHasKid : Bool := foundFlags memory option &&& 0x08 ≠ 0

/-- The length of the kid context, wherever its byte lies. -/
private def foundKidCtxLen : Nat :=
  if foundHasKidCtx memory option then
    (memory (option.start + 1 + foundPivLen memory option)).toNat
  else 0

/-- What the counter says is left for the kid. -/
private def foundRest : Nat :=
  if foundHasKidCtx memory option then
    sizeSub (sizeSub (sizeSub (sizeSub option.length 1)
      (foundPivLen memory option)) 1) (foundKidCtxLen memory option)
  else sizeSub (sizeSub option.length 1) (foundPivLen memory option)

private def headLooks : List Nat :=
  option.start ::
      List.range' (option.start + 1) (foundPivLen memory option) ++
    if foundHasKidCtx memory option then
      [option.start + 1 + foundPivLen memory option]
    else []

private def kidCtxLooks : List Nat :=
  headLooks memory option ++
    if foundHasKidCtx memory option then
      List.range' (option.start + 1 + foundPivLen memory option + 1)
        (foundKidCtxLen memory option)
    else []

private theorem call_empty (empty : option.length = 0) :
    coapParseOscoreOptionTrace memory option = ⟨[], 0, 0, 0⟩ ∧
      coapParseOscoreOption memory packet option = some packet := by
  unfold coapParseOscoreOptionTrace coapParseOscoreOption
  rw [if_pos empty, if_pos empty]
  exact ⟨rfl, rfl⟩

private theorem call_kidCtx (filled : option.length ≠ 0)
    (long : oscoreIdctxLen < foundKidCtxLen memory option) :
    coapParseOscoreOptionTrace memory option =
        ⟨headLooks memory option, foundPivLen memory option, 0, 0⟩ ∧
      coapParseOscoreOption memory packet option = none := by
  unfold coapParseOscoreOptionTrace coapParseOscoreOption
  rw [if_neg filled, if_neg filled]
  exact ⟨if_pos long, if_pos long⟩

private theorem call_kid (filled : option.length ≠ 0)
    (short : foundKidCtxLen memory option ≤ oscoreIdctxLen)
    (present : foundHasKid memory option = true)
    (long : oscoreCtxidLen < foundRest memory option) :
    coapParseOscoreOptionTrace memory option =
        ⟨kidCtxLooks memory option, foundPivLen memory option,
          foundKidCtxLen memory option, 0⟩ ∧
      coapParseOscoreOption memory packet option = none := by
  unfold coapParseOscoreOptionTrace coapParseOscoreOption
  rw [if_neg filled, if_neg filled]
  refine ⟨(if_neg (Nat.not_lt_of_le short)).trans ?_,
    (if_neg (Nat.not_lt_of_le short)).trans ?_⟩
  · exact if_pos ⟨present, long⟩
  · exact if_pos ⟨present, long⟩

private def kidLooks : List Nat :=
  if foundHasKid memory option then
    List.range'
      (if foundHasKidCtx memory option then
        option.start + 1 + foundPivLen memory option + 1 +
          foundKidCtxLen memory option
      else option.start + 1 + foundPivLen memory option)
      (foundRest memory option)
  else []

/-- The packet with the fields that were found. -/
private def readPacket : InPacket :=
  { packet with
    oscoreFlags := foundFlags memory option
    piv := memory.read (option.start + 1) (foundPivLen memory option)
    kidCtx :=
      if foundHasKidCtx memory option then
        memory.read (option.start + 1 + foundPivLen memory option + 1)
          (foundKidCtxLen memory option)
      else []
    kid :=
      if foundHasKid memory option then
        memory.read
          (if foundHasKidCtx memory option then
            option.start + 1 + foundPivLen memory option + 1 +
              foundKidCtxLen memory option
          else option.start + 1 + foundPivLen memory option)
          (foundRest memory option)
      else [] }

private theorem call_accepts (filled : option.length ≠ 0)
    (short : foundKidCtxLen memory option ≤ oscoreIdctxLen)
    (fits : ¬ (foundHasKid memory option = true ∧
      oscoreCtxidLen < foundRest memory option)) :
    coapParseOscoreOptionTrace memory option =
        ⟨kidCtxLooks memory option ++ kidLooks memory option,
          foundPivLen memory option, foundKidCtxLen memory option,
          if foundHasKid memory option then foundRest memory option else 0⟩ ∧
      coapParseOscoreOption memory packet option =
        some (readPacket memory packet option) := by
  unfold coapParseOscoreOptionTrace coapParseOscoreOption
  rw [if_neg filled, if_neg filled]
  exact ⟨(if_neg (Nat.not_lt_of_le short)).trans (if_neg fits),
    (if_neg (Nat.not_lt_of_le short)).trans (if_neg fits)⟩

private theorem call_cases :
    option.length = 0 ∨
    (option.length ≠ 0 ∧
      (oscoreIdctxLen < foundKidCtxLen memory option ∨
        foundKidCtxLen memory option ≤ oscoreIdctxLen ∧
          (foundHasKid memory option = true ∧
              oscoreCtxidLen < foundRest memory option ∨
            ¬ (foundHasKid memory option = true ∧
              oscoreCtxidLen < foundRest memory option)))) := by
  rcases Nat.eq_zero_or_pos option.length with empty | filled
  · exact .inl empty
  · refine .inr ⟨Nat.ne_of_gt filled, ?_⟩
    rcases Nat.lt_or_ge oscoreIdctxLen (foundKidCtxLen memory option) with
      long | short
    · exact .inl long
    · exact .inr ⟨short, em _⟩

/-- The value is read inside its bytes, and the fields stay inside their
arrays. -/
structure OscoreOptionTrace.Inside (option : Span)
    (trace : OscoreOptionTrace) : Prop where
  looked : ∀ address ∈ trace.looked,
    option.start ≤ address ∧ address < option.stop
  piv : trace.piv ≤ oscorePivLen
  kidCtx : trace.kidCtx ≤ oscoreIdctxLen
  kid : trace.kid ≤ oscoreCtxidLen

private theorem range_inside {start length : Nat} :
    (∀ address ∈ List.range' start length,
        option.start ≤ address ∧ address < option.stop) ↔
      length = 0 ∨
        option.start ≤ start ∧ start + length ≤ option.stop := by
  constructor
  · intro inside
    rcases Nat.eq_zero_or_pos length with empty | filled
    · exact .inl empty
    · have first := inside start (List.mem_range'_1.mpr (by omega))
      have last := inside (start + length - 1)
        (List.mem_range'_1.mpr (by omega))
      right
      omega
  · intro inside address member
    have range := List.mem_range'_1.mp member
    omega

private theorem headLooks_inside :
    (∀ address ∈ headLooks memory option,
        option.start ≤ address ∧ address < option.stop) ↔
      1 + foundPivLen memory option ≤ option.length ∧
        (foundHasKidCtx memory option = true →
          2 + foundPivLen memory option ≤ option.length) := by
  unfold headLooks
  rw [List.forall_mem_append, List.forall_mem_cons, range_inside]
  unfold Span.stop
  cases foundHasKidCtx memory option with
  | true =>
      rw [if_pos rfl, List.forall_mem_singleton]
      simp only [true_imp_iff]
      omega
  | false =>
      rw [if_neg Bool.false_ne_true]
      simp only [List.not_mem_nil, Bool.false_eq_true, false_imp_iff,
        implies_true, and_true]
      omega

/-- Where the kid begins, relative to the option. -/
private def foundKidStart : Nat :=
  1 + foundPivLen memory option +
    if foundHasKidCtx memory option then 1 + foundKidCtxLen memory option
    else 0

private theorem kidCtxLooks_inside :
    (∀ address ∈ kidCtxLooks memory option,
        option.start ≤ address ∧ address < option.stop) ↔
      foundKidStart memory option ≤ option.length := by
  unfold kidCtxLooks
  rw [List.forall_mem_append, headLooks_inside]
  unfold foundKidStart
  cases present : foundHasKidCtx memory option with
  | true =>
      rw [if_pos rfl, if_pos rfl, range_inside]
      unfold Span.stop
      simp only [true_imp_iff]
      omega
  | false =>
      rw [if_neg Bool.false_ne_true, if_neg Bool.false_ne_true]
      simp

private theorem foundRest_eq (sized : option.length < 2 ^ 64)
    (inside : foundKidStart memory option ≤ option.length) :
    foundRest memory option =
      option.length - foundKidStart memory option := by
  unfold foundKidStart at inside ⊢
  unfold foundRest
  generalize foundPivLen memory option = pivLen at *
  have one : sizeSub option.length 1 = option.length - 1 :=
    sizeSub_of_le sized (by omega)
  have two : sizeSub (option.length - 1) pivLen =
      option.length - 1 - pivLen :=
    sizeSub_of_le (by omega) (by omega)
  cases present : foundHasKidCtx memory option with
  | true =>
      rw [present, if_pos rfl] at inside
      generalize foundKidCtxLen memory option = kidCtxLen at *
      have three : sizeSub (option.length - 1 - pivLen) 1 =
          option.length - 1 - pivLen - 1 :=
        sizeSub_of_le (by omega) (by omega)
      have four : sizeSub (option.length - 1 - pivLen - 1) kidCtxLen =
          option.length - 1 - pivLen - 1 - kidCtxLen :=
        sizeSub_of_le (by omega) (by omega)
      rw [if_pos rfl, if_pos rfl, one, two, three, four]
      omega
  | false =>
      rw [present, if_neg Bool.false_ne_true] at inside
      rw [if_neg Bool.false_ne_true, if_neg Bool.false_ne_true, one, two]
      omega

theorem Mem.getD_text {index : Nat} (inside : index < option.length) :
    (memory.text option).getD index 0 = memory (option.start + index) := by
  obtain ⟨start, length⟩ := option
  unfold Mem.text
  simp only at inside ⊢
  induction length generalizing start index with
  | zero => exact absurd inside (Nat.not_lt_zero index)
  | succ length ih =>
      cases index with
      | zero => rfl
      | succ index =>
          change (memory.read (start + 1) length).getD index 0 = _
          rw [ih (start + 1) (by omega)]
          congr 1
          omega

variable {memory packet option}

private theorem text_eq_nil_iff :
    memory.text option = [] ↔ option.length = 0 := by
  rw [← List.length_eq_zero_iff]
  unfold Mem.text
  rw [Mem.length_read]

private theorem flags_text (filled : option.length ≠ 0) :
    OscoreValue.flags (memory.text option) = foundFlags memory option := by
  unfold OscoreValue.flags
  rw [Mem.getD_text memory option (Nat.pos_of_ne_zero filled)]
  rfl

private theorem fields_text (filled : option.length ≠ 0) :
    OscoreValue.pivLen (memory.text option) = foundPivLen memory option ∧
      OscoreValue.hasKidCtx (memory.text option) =
        foundHasKidCtx memory option ∧
      OscoreValue.hasKid (memory.text option) =
        foundHasKid memory option := by
  unfold OscoreValue.pivLen OscoreValue.hasKidCtx OscoreValue.hasKid
  rw [flags_text filled]
  exact ⟨rfl, rfl, rfl⟩

private theorem kidCtxLen_text (filled : option.length ≠ 0)
    (inside : foundHasKidCtx memory option = true →
      2 + foundPivLen memory option ≤ option.length) :
    OscoreValue.kidCtxLen (memory.text option) =
        foundKidCtxLen memory option ∧
      OscoreValue.kidStart (memory.text option) =
        foundKidStart memory option := by
  obtain ⟨pivLen, hasKidCtx, -⟩ := @fields_text memory option filled
  have same : OscoreValue.kidCtxLen (memory.text option) =
      foundKidCtxLen memory option := by
    unfold OscoreValue.kidCtxLen foundKidCtxLen
    rw [hasKidCtx, pivLen]
    split_ifs with present
    · have place := inside present
      rw [Mem.getD_text memory option (by omega), ← Nat.add_assoc]
    · rfl
  refine ⟨same, ?_⟩
  unfold OscoreValue.kidStart foundKidStart
  rw [same, hasKidCtx, pivLen]

variable (memory packet option)

/-- The call stays inside the value and the arrays, and a value that is not
well formed is refused. -/
def OscoreOptionBounded : Prop :=
  (coapParseOscoreOptionTrace memory option).Inside option ∧
    (¬ OscoreValue.WellFormed (memory.text option) →
      coapParseOscoreOption memory packet option = none)

variable {memory packet option}

private theorem Handled.fields (filled : option.length ≠ 0)
    (handled : OscoreValue.Handled (memory.text option)) :
    foundPivLen memory option ≤ oscorePivLen ∧
      1 + foundPivLen memory option ≤ option.length ∧
      (foundHasKidCtx memory option = true →
        2 + foundPivLen memory option ≤ option.length) ∧
      (oscoreIdctxLen < foundKidCtxLen memory option ∨
        foundKidStart memory option ≤ option.length ∧
          (foundHasKid memory option = true ∧
              oscoreCtxidLen <
                option.length - foundKidStart memory option ∨
            foundFlags memory option &&& 0xE0 = 0 ∧
              (foundHasKid memory option = true ∨
                option.length = foundKidStart memory option))) := by
  have length : (memory.text option).length = option.length :=
    Mem.length_read _ _ _
  obtain ⟨pivLen, hasKidCtx, hasKid⟩ := @fields_text memory option filled
  rcases handled with nil | ⟨small, inside, place, rest⟩
  · exact absurd (text_eq_nil_iff.mp nil) filled
  · rw [pivLen] at small inside place
    rw [hasKidCtx] at place
    rw [length] at inside place
    obtain ⟨kidCtxLen, kidStart⟩ := kidCtxLen_text filled place
    rw [kidCtxLen, kidStart, length, hasKid, flags_text filled] at rest
    exact ⟨small, inside, place, rest⟩

private theorem handled_of_fields (filled : option.length ≠ 0)
    (small : foundPivLen memory option ≤ oscorePivLen)
    (inside : 1 + foundPivLen memory option ≤ option.length)
    (place : foundHasKidCtx memory option = true →
      2 + foundPivLen memory option ≤ option.length)
    (rest : oscoreIdctxLen < foundKidCtxLen memory option ∨
      foundKidStart memory option ≤ option.length ∧
        (foundHasKid memory option = true ∧
            oscoreCtxidLen < option.length - foundKidStart memory option ∨
          foundFlags memory option &&& 0xE0 = 0 ∧
            (foundHasKid memory option = true ∨
              option.length = foundKidStart memory option))) :
    OscoreValue.Handled (memory.text option) := by
  have length : (memory.text option).length = option.length :=
    Mem.length_read _ _ _
  obtain ⟨pivLen, hasKidCtx, hasKid⟩ := @fields_text memory option filled
  obtain ⟨kidCtxLen, kidStart⟩ := kidCtxLen_text filled place
  right
  rw [pivLen, hasKidCtx, hasKid, kidCtxLen, kidStart, length,
    flags_text filled]
  exact ⟨small, inside, place, rest⟩

private theorem wellFormed_of_fields (filled : option.length ≠ 0)
    (small : foundPivLen memory option ≤ oscorePivLen)
    (place : foundHasKidCtx memory option = true →
      2 + foundPivLen memory option ≤ option.length)
    (short : foundKidCtxLen memory option ≤ oscoreIdctxLen)
    (start : foundKidStart memory option ≤ option.length)
    (reserved : foundFlags memory option &&& 0xE0 = 0)
    (kid : foundHasKid memory option = true ∨
      option.length = foundKidStart memory option)
    (fits : foundHasKid memory option = true →
      option.length - foundKidStart memory option ≤ oscoreCtxidLen) :
    OscoreValue.WellFormed (memory.text option) := by
  have length : (memory.text option).length = option.length :=
    Mem.length_read _ _ _
  obtain ⟨pivLen, hasKidCtx, hasKid⟩ := @fields_text memory option filled
  obtain ⟨kidCtxLen, kidStart⟩ := kidCtxLen_text filled place
  right
  rw [pivLen, hasKid, kidCtxLen, kidStart, length, flags_text filled]
  refine ⟨reserved, small, short, start, ?_⟩
  split_ifs with present
  · exact fits present
  · exact kid.resolve_left present

private theorem fields_of_kidStart
    (inside : foundKidStart memory option ≤ option.length) :
    1 + foundPivLen memory option ≤ option.length ∧
      (foundHasKidCtx memory option = true →
        2 + foundPivLen memory option ≤ option.length) := by
  unfold foundKidStart at inside
  refine ⟨by omega, ?_⟩
  intro present
  rw [if_pos present] at inside
  omega

theorem OscoreValue.WellFormed.handled {value : Bytes}
    (wellFormed : OscoreValue.WellFormed value) :
    OscoreValue.Handled value := by
  rcases wellFormed with nil | ⟨reserved, piv, kidCtx, inside, kid⟩
  · exact .inl nil
  · have start := inside
    unfold OscoreValue.kidStart at start
    refine .inr ⟨piv, by omega, ?_, .inr ⟨inside, .inr ⟨reserved, ?_⟩⟩⟩
    · intro present
      rw [if_pos present] at start
      omega
    · cases present : OscoreValue.hasKid value with
      | true => exact .inl rfl
      | false =>
          rw [present] at kid
          exact .inr kid

private theorem bounded_kidCtx (filled : option.length ≠ 0)
    (long : oscoreIdctxLen < foundKidCtxLen memory option) :
    OscoreOptionBounded memory packet option ↔
      OscoreValue.Handled (memory.text option) := by
  obtain ⟨trace, refused⟩ := call_kidCtx memory packet option filled long
  unfold OscoreOptionBounded
  rw [trace]
  constructor
  · rintro ⟨⟨looked, piv, -, -⟩, -⟩
    obtain ⟨inside, place⟩ := (headLooks_inside memory option).mp looked
    exact handled_of_fields filled piv inside place (.inl long)
  · intro handled
    obtain ⟨piv, inside, place, -⟩ := Handled.fields filled handled
    exact ⟨⟨(headLooks_inside memory option).mpr ⟨inside, place⟩, piv,
      Nat.zero_le _, Nat.zero_le _⟩, fun _ => refused⟩

private theorem bounded_kid (sized : option.length < 2 ^ 64)
    (filled : option.length ≠ 0)
    (short : foundKidCtxLen memory option ≤ oscoreIdctxLen)
    (present : foundHasKid memory option = true)
    (long : oscoreCtxidLen < foundRest memory option) :
    OscoreOptionBounded memory packet option ↔
      OscoreValue.Handled (memory.text option) := by
  obtain ⟨trace, refused⟩ :=
    call_kid memory packet option filled short present long
  unfold OscoreOptionBounded
  rw [trace]
  constructor
  · rintro ⟨⟨looked, piv, -, -⟩, -⟩
    have start := (kidCtxLooks_inside memory option).mp looked
    obtain ⟨inside, place⟩ := fields_of_kidStart start
    rw [foundRest_eq memory option sized start] at long
    exact handled_of_fields filled piv inside place
      (.inr ⟨start, .inl ⟨present, long⟩⟩)
  · intro handled
    obtain ⟨piv, -, -, wide | ⟨start, -⟩⟩ := Handled.fields filled handled
    · exact absurd wide (Nat.not_lt_of_le short)
    · exact ⟨⟨(kidCtxLooks_inside memory option).mpr start, piv, short,
        Nat.zero_le _⟩, fun _ => refused⟩

private theorem kidLooks_inside (sized : option.length < 2 ^ 64)
    (start : foundKidStart memory option ≤ option.length) :
    ∀ address ∈ kidLooks memory option,
      option.start ≤ address ∧ address < option.stop := by
  have rest := foundRest_eq memory option sized start
  unfold kidLooks
  split_ifs with present context
  · rw [range_inside]
    unfold foundKidStart at start rest
    rw [if_pos context] at start rest
    unfold Span.stop
    omega
  · rw [range_inside]
    unfold foundKidStart at start rest
    rw [if_neg context] at start rest
    unfold Span.stop
    omega
  · exact List.forall_mem_nil _

private theorem bounded_accepts (sized : option.length < 2 ^ 64)
    (filled : option.length ≠ 0)
    (short : foundKidCtxLen memory option ≤ oscoreIdctxLen)
    (fits : ¬ (foundHasKid memory option = true ∧
      oscoreCtxidLen < foundRest memory option)) :
    OscoreOptionBounded memory packet option ↔
      OscoreValue.Handled (memory.text option) := by
  obtain ⟨trace, accepted⟩ :=
    call_accepts memory packet option filled short fits
  unfold OscoreOptionBounded
  rw [trace, accepted]
  constructor
  · rintro ⟨-, refuses⟩
    by_contra unhandled
    exact Option.some_ne_none _
      (refuses fun wellFormed => unhandled wellFormed.handled)
  · intro handled
    obtain ⟨piv, inside, place, wide | ⟨start, rest⟩⟩ :=
      Handled.fields filled handled
    · exact absurd wide (Nat.not_lt_of_le short)
    · have left := foundRest_eq memory option sized start
      have kidFits : foundHasKid memory option = true →
          foundRest memory option ≤ oscoreCtxidLen := fun present =>
        Nat.le_of_not_lt fun long => fits ⟨present, long⟩
      rcases rest with ⟨present, long⟩ | ⟨reserved, kid⟩
      · have bound := kidFits present
        rw [left] at bound
        exact absurd long (Nat.not_lt_of_le bound)
      · refine ⟨⟨?_, piv, short, ?_⟩, ?_⟩
        · exact List.forall_mem_append.mpr
            ⟨(kidCtxLooks_inside memory option).mpr start,
              kidLooks_inside sized start⟩
        · simp only
          split_ifs with present
          · exact kidFits present
          · exact Nat.zero_le _
        · intro malformed
          refine absurd ?_ malformed
          rw [left] at kidFits
          exact wellFormed_of_fields filled piv place short start reserved
            kid kidFits

variable (memory packet option)

theorem oscoreOptionBounded_iff (sized : option.length < 2 ^ 64) :
    OscoreOptionBounded memory packet option ↔
      OscoreValue.Handled (memory.text option) := by
  rcases call_cases memory option with empty | ⟨filled, long | ⟨short,
    ⟨present, rest⟩ | fits⟩⟩
  · obtain ⟨trace, -⟩ := call_empty memory packet option empty
    have nil := (@text_eq_nil_iff memory option).mpr empty
    refine iff_of_true ⟨?_, ?_⟩ (.inl nil)
    · rw [trace]
      exact ⟨List.forall_mem_nil _, Nat.zero_le _, Nat.zero_le _,
        Nat.zero_le _⟩
    · intro malformed
      exact absurd (.inl nil) malformed
  · exact bounded_kidCtx filled long
  · exact bounded_kid sized filled short present rest
  · exact bounded_accepts sized filled short fits

variable {memory packet option}

private theorem kid_of_no_flag (filled : option.length ≠ 0)
    (absent : foundHasKid memory option = false) {parsed : InPacket}
    (accepted : coapParseOscoreOption memory packet option = some parsed) :
    parsed.kid = [] := by
  rcases call_cases memory option with empty | ⟨-, long | ⟨short,
    ⟨present, -⟩ | fits⟩⟩
  · exact absurd empty filled
  · rw [(call_kidCtx memory packet option filled long).2] at accepted
    cases accepted
  · rw [absent] at present
    cases present
  · rw [(call_accepts memory packet option filled short fits).2] at accepted
    obtain rfl := Option.some.inj accepted
    unfold readPacket
    simp only [absent, Bool.false_eq_true, if_false]

end Calls

/-- Empty fields leave in the packet what was there. -/
def coapSetHeaderOscore (packet : OutPacket) (piv kid kidCtx : Bytes) :
    OutPacket :=
  let flags := UInt8.ofNat piv.length
  let flags := if packet.code ≤ ocFetch then flags ||| 0x08 else flags
  let flags := if kidCtx.length > 0 then flags ||| 0x10 else flags
  { packet with
    oscoreFlags := flags
    piv := if piv.length > 0 then piv else packet.piv
    kid := if kid.length > 0 then kid else packet.kid
    kidCtx := if kidCtx.length > 0 then kidCtx else packet.kidCtx }.setOption
      CoapOption.oscore

/-- The packet carries no OSCORE fields yet. -/
structure Unprotected {Text : Type} (packet : CoapPacket Text) : Prop where
  piv : packet.piv = []
  kid : packet.kid = []
  kidCtx : packet.kidCtx = []

/-- Whoever reads the option value finds the fields that were written.  With
no flags nothing is written, and the value is what the buffer held before. -/
def ReadsBack (packet : OutPacket) (piv kid kidCtx : Bytes) : Prop :=
  ∀ (memory : Mem) (start : Nat) (reader : InPacket), Unprotected reader →
    ((coapSetHeaderOscore packet piv kid kidCtx).oscoreFlags ≠ 0 →
      memory.Holds start
        (oscoreOptionValue (coapSetHeaderOscore packet piv kid
          kidCtx)).bytes) →
    ∃ parsed,
      coapParseOscoreOption memory reader
          ⟨start, (oscoreOptionValue (coapSetHeaderOscore packet piv kid
            kidCtx)).size⟩ = some parsed ∧
        parsed.piv = piv ∧ parsed.kid = kid ∧ parsed.kidCtx = kidCtx

section Writing

variable {packet : OutPacket} {piv kid kidCtx : Bytes}

private theorem flags_fields {count : Nat} (small : count ≤ oscorePivLen)
    (kid context : Prop) [Decidable kid] [Decidable context] :
    let flags := UInt8.ofNat count
    let flags := if kid then flags ||| 0x08 else flags
    let flags := if context then flags ||| 0x10 else flags
    (flags &&& 0x07).toNat = count ∧ (flags &&& 0x08 ≠ 0 ↔ kid) ∧
      (flags &&& 0x10 ≠ 0 ↔ context) ∧
      (flags = 0 ↔ count = 0 ∧ ¬ kid ∧ ¬ context) := by
  have bounded : count < 6 := Nat.lt_succ_of_le small
  have all : ∀ count : Fin 6, ∀ kid context : Bool,
      let flags := UInt8.ofNat count.val
      let flags := if kid then flags ||| 0x08 else flags
      let flags := if context then flags ||| 0x10 else flags
      (flags &&& 0x07).toNat = count.val ∧ (flags &&& 0x08 ≠ 0 ↔ kid) ∧
        (flags &&& 0x10 ≠ 0 ↔ context) ∧
        (flags = 0 ↔ count.val = 0 ∧ ¬ kid ∧ ¬ context) := by
    decide
  have found := all ⟨count, bounded⟩ (decide kid) (decide context)
  simpa using found

private theorem flags_coapSetHeaderOscore
    (small : piv.length ≤ oscorePivLen) :
    let flags := (coapSetHeaderOscore packet piv kid kidCtx).oscoreFlags
    (flags &&& 0x07).toNat = piv.length ∧
      (flags &&& 0x08 ≠ 0 ↔ packet.code ≤ ocFetch) ∧
      (flags &&& 0x10 ≠ 0 ↔ kidCtx.length > 0) ∧
      (flags = 0 ↔
        piv.length = 0 ∧ ¬ packet.code ≤ ocFetch ∧ ¬ kidCtx.length > 0) :=
  flags_fields small (packet.code ≤ ocFetch) (kidCtx.length > 0)

private theorem ite_length {values other : Bytes} (empty : other = []) :
    (if values.length > 0 then values else other) = values := by
  split_ifs with filled
  · rfl
  · rw [empty]
    exact (List.length_eq_zero_iff.mp (by omega)).symm

private theorem bytes_oscoreOptionValue (blank : Unprotected packet)
    (flagged : (coapSetHeaderOscore packet piv kid kidCtx).oscoreFlags ≠ 0) :
    (oscoreOptionValue (coapSetHeaderOscore packet piv kid kidCtx)).bytes =
      (coapSetHeaderOscore packet piv kid kidCtx).oscoreFlags ::
        (piv ++ ((if kidCtx.length > 0 then
          UInt8.ofNat kidCtx.length :: kidCtx else []) ++ kid)) := by
  unfold oscoreOptionValue
  simp only [if_pos flagged]
  simp only [coapSetHeaderOscore, CoapPacket.setOption,
    ite_length blank.piv, ite_length blank.kid, ite_length blank.kidCtx]
  simp

private theorem size_oscoreOptionValue (blank : Unprotected packet) :
    (oscoreOptionValue (coapSetHeaderOscore packet piv kid kidCtx)).size =
      piv.length + kid.length + kidCtx.length +
        (if kidCtx.length > 0 then 1 else 0) +
        if (coapSetHeaderOscore packet piv kid kidCtx).oscoreFlags ≠ 0 then 1
        else 0 := by
  have positive : ∀ flags : UInt8, flags > 0 ↔ flags ≠ 0 :=
    fun _ => UInt8.pos_iff_ne_zero
  unfold oscoreOptionValue
  simp only [positive]
  simp only [coapSetHeaderOscore, CoapPacket.setOption,
    ite_length blank.piv, ite_length blank.kid, ite_length blank.kidCtx]

private theorem parse_written (blank : Unprotected packet)
    (small : piv.length ≤ oscorePivLen)
    (kidSmall : kid.length ≤ oscoreCtxidLen)
    (kidCtxSmall : kidCtx.length ≤ oscoreIdctxLen)
    (flagged : (coapSetHeaderOscore packet piv kid kidCtx).oscoreFlags ≠ 0)
    {memory : Mem} {start : Nat} (reader : InPacket)
    (held : memory.Holds start
      (oscoreOptionValue (coapSetHeaderOscore packet piv kid
        kidCtx)).bytes) :
    ∃ parsed,
      coapParseOscoreOption memory reader
          ⟨start, (oscoreOptionValue (coapSetHeaderOscore packet piv kid
            kidCtx)).size⟩ = some parsed ∧
        parsed.piv = piv ∧ parsed.kidCtx = kidCtx ∧
        parsed.kid = if packet.code ≤ ocFetch then kid else [] := by
  obtain ⟨count, kidFlag, kidCtxFlag, -⟩ :=
    @flags_coapSetHeaderOscore packet piv kid kidCtx small
  have size := @size_oscoreOptionValue packet piv kid kidCtx blank
  rw [if_pos flagged] at size
  rw [bytes_oscoreOptionValue blank flagged, Mem.holds_cons,
    Mem.holds_append, Mem.holds_append] at held
  obtain ⟨flagsHeld, pivHeld, kidCtxHeld, kidHeld⟩ := held
  generalize (oscoreOptionValue (coapSetHeaderOscore packet piv kid
    kidCtx)).size = length at *
  have found : foundFlags memory ⟨start, length⟩ =
      (coapSetHeaderOscore packet piv kid kidCtx).oscoreFlags := flagsHeld
  generalize (coapSetHeaderOscore packet piv kid kidCtx).oscoreFlags = flags
    at *
  have pivLen : foundPivLen memory ⟨start, length⟩ = piv.length := by
    unfold foundPivLen
    rw [found, count]
  have hasKid : foundHasKid memory ⟨start, length⟩ =
      decide (packet.code ≤ ocFetch) := by
    unfold foundHasKid
    rw [found]
    exact decide_eq_decide.mpr kidFlag
  have hasKidCtx : foundHasKidCtx memory ⟨start, length⟩ =
      decide (kidCtx.length > 0) := by
    unfold foundHasKidCtx
    rw [found]
    exact decide_eq_decide.mpr kidCtxFlag
  have kidCtxLen : foundKidCtxLen memory ⟨start, length⟩ = kidCtx.length := by
    unfold foundKidCtxLen
    rw [hasKidCtx, pivLen]
    by_cases context : kidCtx.length > 0
    · rw [if_pos (decide_eq_true context)]
      rw [if_pos context, Mem.holds_cons] at kidCtxHeld
      rw [kidCtxHeld.1, UInt8.toNat_ofNat_of_lt']
      exact Nat.lt_of_le_of_lt kidCtxSmall (by decide)
    · rw [if_neg (by simpa using context)]
      omega
  have kidStart : foundKidStart memory ⟨start, length⟩ =
      1 + piv.length + if kidCtx.length > 0 then 1 + kidCtx.length else 0 := by
    unfold foundKidStart
    rw [hasKidCtx, pivLen, kidCtxLen]
    simp only [decide_eq_true_eq]
  have whole : length = foundKidStart memory ⟨start, length⟩ + kid.length := by
    rw [kidStart, size]
    split_ifs
    · omega
    · omega
  have bounded : length < 2 ^ 64 := by
    simp only [oscorePivLen, oscoreCtxidLen, oscoreIdctxLen] at *
    rw [size]
    split_ifs
    · omega
    · omega
  have rest : foundRest memory ⟨start, length⟩ = kid.length := by
    rw [foundRest_eq memory ⟨start, length⟩ bounded (by simp only; omega)]
    simp only
    omega
  have fits : ¬ (foundHasKid memory ⟨start, length⟩ = true ∧
      oscoreCtxidLen < foundRest memory ⟨start, length⟩) := by
    rw [rest]
    exact fun long => absurd long.2 (Nat.not_lt_of_le kidSmall)
  have filled : length ≠ 0 := by omega
  have accepted := (call_accepts memory reader ⟨start, length⟩ filled
    (kidCtxLen.trans_le kidCtxSmall) fits).2
  refine ⟨_, accepted, ?_, ?_, ?_⟩
  · unfold readPacket
    rw [pivLen]
    exact pivHeld
  · unfold readPacket
    simp only [hasKidCtx, pivLen, kidCtxLen, decide_eq_true_eq]
    split_ifs with context
    · rw [if_pos context, Mem.holds_cons] at kidCtxHeld
      exact kidCtxHeld.2
    · exact (List.length_eq_zero_iff.mp (by omega)).symm
  · unfold readPacket
    simp only [hasKid, hasKidCtx, pivLen, kidCtxLen, rest,
      decide_eq_true_eq]
    congr 1
    split_ifs with context
    · rw [if_pos context, List.length_cons, Nat.add_comm kidCtx.length,
        ← Nat.add_assoc] at kidHeld
      exact kidHeld
    · rw [if_neg context] at kidHeld
      exact kidHeld

theorem readsBack_iff (blank : Unprotected packet)
    (small : piv.length ≤ oscorePivLen)
    (kidSmall : kid.length ≤ oscoreCtxidLen)
    (kidCtxSmall : kidCtx.length ≤ oscoreIdctxLen) :
    ReadsBack packet piv kid kidCtx ↔
      packet.code ≤ ocFetch ∨ kid = [] := by
  have size := @size_oscoreOptionValue packet piv kid kidCtx blank
  constructor
  · intro readsBack
    by_contra lost
    obtain ⟨response, given⟩ := not_or.mp lost
    have present := List.length_pos_of_ne_nil given
    by_cases flagged :
        (coapSetHeaderOscore packet piv kid kidCtx).oscoreFlags = 0
    · -- nothing was written, and the buffer may hold zeros
      obtain ⟨parsed, accepted, -, kidRead, -⟩ := readsBack (fun _ => 0) 0
        (CoapPacket.zero Span.null) ⟨rfl, rfl, rfl⟩
        fun present => absurd flagged present
      have absent (option : Span) :
          foundHasKid (fun _ => 0) option = false := by
        have zero : (0 : UInt8) &&& 0x08 = 0 := by decide
        exact decide_eq_false (not_not_intro zero)
      rw [kid_of_no_flag (by simp only; omega) (absent _) accepted] at kidRead
      exact given kidRead.symm
    · have held := Mem.holds_ofBytes (oscoreOptionValue
        (coapSetHeaderOscore packet piv kid kidCtx)).bytes
      obtain ⟨parsed, accepted, -, kidRead, -⟩ := readsBack _ 0
        (CoapPacket.zero Span.null) ⟨rfl, rfl, rfl⟩ fun _ => held
      obtain ⟨written, same, -, -, kidWritten⟩ := parse_written blank small
        kidSmall kidCtxSmall flagged (CoapPacket.zero Span.null) held
      rw [accepted] at same
      obtain rfl := Option.some.inj same
      rw [kidWritten, if_neg response] at kidRead
      exact given kidRead.symm
  · intro request memory start reader readerBlank held
    by_cases flagged :
        (coapSetHeaderOscore packet piv kid kidCtx).oscoreFlags = 0
    · obtain ⟨pivEmpty, response, kidCtxEmpty⟩ :=
        (@flags_coapSetHeaderOscore packet piv kid kidCtx small).2.2.2.mp
          flagged
      have kidEmpty := request.resolve_left response
      have contextEmpty : kidCtx = [] :=
        List.length_eq_zero_iff.mp (by omega)
      have nothing : (oscoreOptionValue (coapSetHeaderOscore packet piv kid
          kidCtx)).size = 0 := by
        rw [size, if_neg kidCtxEmpty, if_neg (not_not_intro flagged),
          kidEmpty]
        simp only [List.length_nil]
        omega
      refine ⟨reader, (call_empty memory reader ⟨start, _⟩ nothing).2, ?_, ?_,
        ?_⟩
      · rw [readerBlank.piv, List.length_eq_zero_iff.mp pivEmpty]
      · rw [readerBlank.kid, kidEmpty]
      · rw [readerBlank.kidCtx, contextEmpty]
    · obtain ⟨parsed, accepted, pivRead, kidCtxRead, kidRead⟩ := parse_written
        blank small kidSmall kidCtxSmall flagged reader (held flagged)
      refine ⟨parsed, accepted, pivRead, ?_, kidCtxRead⟩
      rw [kidRead]
      split_ifs with allowed
      · rfl
      · exact (request.resolve_left allowed).symm

end Writing

/-- Reading an OSCORE option stays inside its value and the arrays of the
packet, and refuses what is not well formed, exactly for the values that are
handled; and the fields that were written come back exactly if the message is
a request or has no kid. -/
theorem oscore_option_bounded_and_inverse_iff (memory : Mem) :
    (∀ (reader : InPacket) (option : Span),
      option.length < 2 ^ 64 →
      (OscoreOptionBounded memory reader option ↔
        OscoreValue.Handled (memory.text option))) ∧
    ∀ (packet : OutPacket) (piv kid kidCtx : Bytes), Unprotected packet →
      piv.length ≤ oscorePivLen → kid.length ≤ oscoreCtxidLen →
      kidCtx.length ≤ oscoreIdctxLen →
      (ReadsBack packet piv kid kidCtx ↔
        packet.code ≤ ocFetch ∨ kid = []) :=
  ⟨oscoreOptionBounded_iff memory, fun _ _ _ _ => readsBack_iff⟩

namespace ReadOption

/-- A Partial IV and a kid of one byte each. -/
def plain : Mem := .ofBytes [0x09, 20, 1]

/-- A Partial IV of seven bytes. -/
def longPiv : Mem := .ofBytes [0x07, 1, 2, 3, 4, 5, 6, 7]

end ReadOption

theorem oscore_option_of_request :
    OscoreOptionBounded ReadOption.plain (CoapPacket.zero Span.null)
        ⟨0, 3⟩ ∧
      ReadsBack { CoapPacket.zero CString.null with code := ocPost } [20] [1]
        [] :=
  ⟨((oscore_option_bounded_and_inverse_iff ReadOption.plain).1
      (CoapPacket.zero Span.null) ⟨0, 3⟩ (by decide)).mpr (by decide),
    ((oscore_option_bounded_and_inverse_iff ReadOption.plain).2
      { CoapPacket.zero CString.null with code := ocPost } [20] [1] []
      ⟨rfl, rfl, rfl⟩ (by decide) (by decide) (by decide)).mpr
      (.inl (by decide))⟩

/-- Seven bytes are copied to the array of five. -/
theorem oscore_option_overruns_piv :
    ¬ OscoreOptionBounded ReadOption.longPiv (CoapPacket.zero Span.null)
      ⟨0, 8⟩ := by
  rintro ⟨inside, -⟩
  have copied : (coapParseOscoreOptionTrace ReadOption.longPiv ⟨0, 8⟩).piv =
      7 := by
    decide
  have bounded := inside.piv
  rw [copied] at bounded
  exact absurd bounded (by decide)

end IotivityLite
