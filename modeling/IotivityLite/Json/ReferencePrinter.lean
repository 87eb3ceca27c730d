import IotivityLite.Json.CallSequences

/-!
# The encoder for JSON prints trees

A printer goes through a tree and puts commas between the parts of containers
and colons behind keys.  It has no text for a tree with a scalar that the
encoder refuses.  The calls of a well-nested sequence all succeed where the
printer has a text that fits the buffer, and then this text is what they
write, whatever flags the encoders have had in between.
-/

namespace IotivityLite

/-- All of the texts, if none is missing. -/
def allTexts : List (Option Bytes) → Option (List Bytes)
  | [] => some []
  | text :: texts => text.bind fun first => (allTexts texts).map (first :: ·)

def braced (texts : List Bytes) : Bytes := 123 :: (separated texts ++ [125])

section Printer

variable (formatDouble : UInt64 → Bytes)

/-- The text of a scalar.  Byte strings and floating-point numbers other than
doubles have none, nor have integers outside of the range of JSON. -/
def RepItem.jsonText : RepItem → Option Bytes
  | .null => some (ascii "null")
  | .boolean value => some (boolText value)
  | .int value =>
      if ocRepJsonIntMin ≤ value.toInt ∧ value.toInt ≤ ocRepJsonIntMax then
        some (intText value)
      else none
  | .uint value =>
      if value.toNat ≤ ocRepJsonUintMax then some (decimal value.toNat)
      else none
  | .double bits => some (formatDouble bits)
  | .textString text => some (quoted text)
  | .floatingPoint _ => none
  | .byteString _ => none

mutual

/-- The text of a tree, if all of its scalars have one. -/
def JsonTree.print : JsonTree → Option Bytes
  | .scalar item => item.jsonText formatDouble
  | .array items => (allTexts (itemTexts items)).map bracketed
  | .object members => (allTexts (memberTexts members)).map braced

def itemTexts : List JsonTree → List (Option Bytes)
  | [] => []
  | item :: items => item.print :: itemTexts items

def memberTexts : List (Bytes × JsonTree) → List (Option Bytes)
  | [] => []
  | (key, value) :: members =>
      (value.print.map fun text => quoted key ++ 58 :: text) ::
        memberTexts members

end

end Printer

namespace JsonEncoder

/-- An encoder that stands behind a text. -/
def standing (block : HeapBlock) (text : Bytes) (flags : UInt8) :
    SubEncoder where
  data := block.ptr + text.length
  endPtr := block.ptr + block.size
  items := { flags }

/-- The innermost encoder stands behind the text, which is in the buffer. -/
structure Behind (block : HeapBlock) (outer : List SubEncoder) (text : Bytes)
    (flags : UInt8) (state : JsonEncoder) : Prop where
  encoder : state.encoder = standing block text flags
  content : state.content.read 0 text.length = text
  outer : state.outer = outer
  inside : text.length ≤ block.size

theorem behind_init (block : HeapBlock) :
    Behind block [] [] 0 (init block) := by
  refine ⟨?_, rfl, rfl, Nat.zero_le _⟩
  simp [init, standing]

section Calls

variable {formatDouble : UInt64 → Bytes} {block : HeapBlock}
  {outer : List SubEncoder} {prior : Bytes} {before after inner : UInt8}
  {state : JsonEncoder} {pieces : List Bytes} {content : Mem}

theorem appendPieces_standing (holds : content.read 0 prior.length = prior)
    (fits : (prior ++ pieces.flatten).length ≤ block.size) :
    ∃ written, appendPieces block.ptr pieces
        ⟨standing block prior before, content⟩ =
          (true, ⟨standing block (prior ++ pieces.flatten) before, written⟩) ∧
      written.read 0 (prior ++ pieces.flatten).length =
        prior ++ pieces.flatten := by
  rw [List.length_append] at fits
  refine ⟨content.patch prior.length pieces.flatten, ?_, ?_⟩
  · rw [standing, appendPieces_of_le fits, standing, List.length_append]
  · rw [List.length_append, Mem.read_append, Nat.zero_add, Mem.read_patch]
    have front : (content.patch prior.length pieces.flatten).read 0
        prior.length = content.read 0 prior.length := by
      apply Mem.read_congr
      intro address _ below
      exact Mem.patch_outside (by omega)
    rw [front, holds]

theorem appendPieces_standing_full (inside : prior.length ≤ block.size)
    (full : ¬(prior ++ pieces.flatten).length ≤ block.size) :
    ∃ writing, appendPieces block.ptr pieces
        ⟨standing block prior before, content⟩ = (false, writing) := by
  rw [List.length_append] at full
  have known : block.ptr + block.size = 0 → block.ptr = 0 := by
    have nonneg := block.ptr_nonneg
    omega
  obtain ⟨written, failed, -⟩ := @appendPieces_of_lt block.ptr block.size
    prior.length { flags := before } pieces content known inside (by omega)
  exact ⟨_, failed⟩

/-- What a call does that writes a text if it fits. -/
structure Adds (formatDouble : UInt64 → Bytes) (block : HeapBlock)
    (outer : List SubEncoder) (text : Bytes) (flags : UInt8)
    (state : JsonEncoder) (call : JsonCall) : Prop where
  fits : text.length ≤ block.size →
    state.Accepts formatDouble block.ptr call ∧
      Behind block outer text flags (state.step formatDouble block.ptr call)
  full : ¬text.length ≤ block.size →
    ¬state.Accepts formatDouble block.ptr call

theorem adds_of_pieces {flags : UInt8} {call : JsonCall}
    {next : Mem → JsonEncoder}
    (holds : state.content.read 0 prior.length = prior)
    (inside : prior.length ≤ block.size)
    (done : ∀ written, appendPieces block.ptr pieces
        ⟨standing block prior before, state.content⟩ =
          (true, ⟨standing block (prior ++ pieces.flatten) before, written⟩) →
      state.call formatDouble block.ptr call = (.noError, next written))
    (failed : ∀ writing, appendPieces block.ptr pieces
        ⟨standing block prior before, state.content⟩ = (false, writing) →
      (state.call formatDouble block.ptr call).1 = .outOfMemory)
    (encoder : ∀ written, (next written).encoder =
      standing block (prior ++ pieces.flatten) flags)
    (content : ∀ written, (next written).content = written)
    (isOuter : ∀ written, (next written).outer = outer) :
    Adds formatDouble block outer (prior ++ pieces.flatten) flags state
      call := by
  constructor
  · intro fits
    obtain ⟨written, appended, isWritten⟩ :=
      @appendPieces_standing block prior before pieces _ holds fits
    rw [Accepts, JsonEncoder.step, done written appended]
    refine ⟨rfl, encoder written, ?_, isOuter written, fits⟩
    rw [content]
    exact isWritten
  · intro full accepted
    obtain ⟨writing, appended⟩ := @appendPieces_standing_full block prior
      before pieces state.content inside full
    rw [Accepts, failed writing appended] at accepted
    cases accepted

theorem adds_write (behind : Behind block outer prior before state)
    {item : RepItem}
    (plan : (ocRepJsonEncoder formatDouble).item { flags := before } item =
      .append pieces { flags := after } { flags := before }) :
    Adds formatDouble block outer (prior ++ pieces.flatten) after state
      (.write item) := by
  obtain ⟨isEncoder, holds, isOuter, inside⟩ := behind
  apply @adds_of_pieces _ _ _ _ before _ _ _ _ (fun written =>
    { state with
      content := written
      encoder := standing block (prior ++ pieces.flatten) after }) holds inside
  · intro written appended
    simp only [JsonEncoder.call, JsonEncoder.write, isEncoder, standing,
      plan] at appended ⊢
    rw [appended]
  · intro writing appended
    simp only [JsonEncoder.call, JsonEncoder.write, isEncoder, standing,
      plan] at appended ⊢
    rw [appended]
  · exact fun _ => rfl
  · exact fun _ => rfl
  · exact fun _ => isOuter

theorem adds_create (behind : Behind block outer prior before state)
    {isMap : Bool}
    (plan : (ocRepJsonEncoder formatDouble).container { flags := before } isMap
      none = .append pieces { flags := after } { flags := before }
        { flags := inner }) :
    Adds formatDouble block
      (standing block (prior ++ pieces.flatten) after :: outer)
      (prior ++ pieces.flatten) inner state (.create isMap) := by
  obtain ⟨isEncoder, holds, isOuter, inside⟩ := behind
  apply @adds_of_pieces _ _ _ _ before _ _ _ _ (fun written =>
    { content := written
      encoder := standing block (prior ++ pieces.flatten) inner
      outer := standing block (prior ++ pieces.flatten) after ::
        state.outer }) holds inside
  · intro written appended
    simp only [JsonEncoder.call, JsonEncoder.create, isEncoder, standing,
      plan] at appended ⊢
    rw [appended]
  · intro writing appended
    simp only [JsonEncoder.call, JsonEncoder.create, isEncoder, standing,
      plan] at appended ⊢
    rw [appended]
  · exact fun _ => rfl
  · exact fun _ => rfl
  · exact fun _ => congrArg _ isOuter

theorem adds_close {opened : Bytes}
    (behind : Behind block (standing block opened after :: outer) prior inner
      state)
    (plan : (ocRepJsonEncoder formatDouble).close { flags := inner } =
      .append pieces) :
    Adds formatDouble block outer (prior ++ pieces.flatten) after state
      .close := by
  obtain ⟨isEncoder, holds, isOuter, inside⟩ := behind
  apply @adds_of_pieces _ _ _ _ after _ _ _ _ (fun written =>
    { content := written
      encoder := standing block (prior ++ pieces.flatten) after
      outer }) holds inside
  · intro written appended
    simp only [JsonEncoder.call, JsonEncoder.close, isOuter, isEncoder,
      standing, plan] at appended ⊢
    rw [appended]
    rfl
  · intro writing appended
    simp only [JsonEncoder.call, JsonEncoder.close, isOuter, isEncoder,
      standing, plan] at appended ⊢
    rw [appended]
    rfl
  · exact fun _ => rfl
  · exact fun _ => rfl
  · exact fun _ => rfl

end Calls

end JsonEncoder

section Sequences

open JsonEncoder

variable (formatDouble : UInt64 → Bytes) (block : HeapBlock)

/-- The calls all succeed if the text exists and fits, and then they write
it. -/
def Prints (calls : List JsonCall) (text : Option Bytes)
    (before after : UInt8) : Prop :=
  ∀ state outer prior, Behind block outer prior before state →
    (Along (step formatDouble block.ptr) (Accepts formatDouble block.ptr) state
        calls ↔
      ∃ more, text = some more ∧ (prior ++ more).length ≤ block.size) ∧
    ∀ more, text = some more → (prior ++ more).length ≤ block.size →
      Behind block outer (prior ++ more) after
        (runFrom (step formatDouble block.ptr) state calls)

variable {formatDouble} {block} {calls : List JsonCall} {text : Option Bytes}
  {before between after inner last : UInt8}

theorem Prints.nil (flags : UInt8) :
    Prints formatDouble block [] (some []) flags flags := by
  intro state outer prior behind
  constructor
  · refine iff_of_true trivial ⟨[], rfl, ?_⟩
    rw [List.append_nil]
    exact behind.inside
  · intro more isMore _
    cases isMore
    rw [List.append_nil]
    exact behind

/-- A text behind another one. -/
def behindText (text more : Option Bytes) : Option Bytes :=
  text.bind fun first => more.map (first ++ ·)

variable {also : List JsonCall}

theorem Prints.append {more : Option Bytes}
    (prints : Prints formatDouble block calls text before between)
    (later : Prints formatDouble block also more between after) :
    Prints formatDouble block (calls ++ also) (behindText text more) before
      after := by
  intro state outer prior behind
  obtain ⟨along, stands⟩ := prints state outer prior behind
  cases text with
  | none =>
      refine ⟨iff_of_false ?_ ?_, ?_⟩
      · intro both
        obtain ⟨_, none, -⟩ := along.mp (along_append.mp both).1
        cases none
      · rintro ⟨_, none, -⟩
        cases none
      · intro _ none
        cases none
  | some first =>
      by_cases fits : (prior ++ first).length ≤ block.size
      · obtain ⟨alongLater, standsLater⟩ :=
          later _ _ _ (stands first rfl fits)
        have fine := along.mpr ⟨first, rfl, fits⟩
        rw [along_append, and_iff_right fine, alongLater]
        constructor
        · constructor
          · rintro ⟨second, rfl, room⟩
            exact ⟨first ++ second, rfl, by rwa [← List.append_assoc]⟩
          · rintro ⟨both, isBoth, room⟩
            obtain ⟨second, rfl, rfl⟩ := Option.map_eq_some_iff.mp isBoth
            exact ⟨second, rfl, by rwa [List.append_assoc]⟩
        · intro both isBoth room
          obtain ⟨second, rfl, rfl⟩ := Option.map_eq_some_iff.mp isBoth
          rw [runFrom_append, ← List.append_assoc]
          exact standsLater second rfl (by rwa [List.append_assoc])
      · have beyond : ∀ both, behindText (some first) more = some both →
            ¬(prior ++ both).length ≤ block.size := by
          intro both isBoth room
          obtain ⟨second, rfl, rfl⟩ := Option.map_eq_some_iff.mp isBoth
          simp only [List.length_append] at fits room
          omega
        refine ⟨iff_of_false ?_ ?_, fun both isBoth room =>
          absurd room (beyond both isBoth)⟩
        · intro both
          obtain ⟨_, isFirst, room⟩ := along.mp (along_append.mp both).1
          cases isFirst
          exact fits room
        · rintro ⟨both, isBoth, room⟩
          exact beyond both isBoth room

theorem Prints.item {item : RepItem} {pieces : List Bytes}
    (plan : (ocRepJsonEncoder formatDouble).item { flags := before } item =
      .append pieces { flags := after } { flags := before }) :
    Prints formatDouble block [.write item] (some pieces.flatten) before
      after := by
  intro state outer prior behind
  obtain ⟨fits, full⟩ := adds_write behind plan
  constructor
  · constructor
    · rintro ⟨accepted, -⟩
      refine ⟨_, rfl, ?_⟩
      by_contra beyond
      exact full beyond accepted
    · rintro ⟨more, isText, room⟩
      cases isText
      exact ⟨(fits room).1, trivial⟩
  · intro more isText room
    cases isText
    exact (fits room).2

theorem Prints.refused {item : RepItem} {error : RepRefusal}
    (plan : (ocRepJsonEncoder formatDouble).item { flags := before } item =
      .refused error) :
    Prints formatDouble block [.write item] none before after := by
  intro state outer prior behind
  refine ⟨iff_of_false ?_ ?_, ?_⟩
  · rintro ⟨accepted, -⟩
    rw [Accepts] at accepted
    simp only [JsonEncoder.call, JsonEncoder.write, behind.encoder, standing,
      plan] at accepted
    cases accepted
  · rintro ⟨_, none, -⟩
    cases none
  · intro _ none
    cases none

theorem Prints.enclosed {isMap : Bool} {opening closing : List Bytes}
    (opens : (ocRepJsonEncoder formatDouble).container { flags := before } isMap
      none = .append opening { flags := after } { flags := before }
        { flags := inner })
    (prints : Prints formatDouble block calls text inner last)
    (closes : (ocRepJsonEncoder formatDouble).close { flags := last } =
      .append closing) :
    Prints formatDouble block (.create isMap :: (calls ++ [.close]))
      (text.map fun inside => opening.flatten ++ (inside ++ closing.flatten))
      before after := by
  intro state outer prior behind
  obtain ⟨fits, full⟩ := adds_create behind opens
  by_cases room : (prior ++ opening.flatten).length ≤ block.size
  · obtain ⟨created, opened⟩ := fits room
    obtain ⟨along, stands⟩ := prints _ _ _ opened
    have inside : Along (step formatDouble block.ptr)
        (Accepts formatDouble block.ptr) state
          (.create isMap :: (calls ++ [.close])) ↔
        ∃ more, text = some more ∧
          (prior ++ opening.flatten ++ more ++ closing.flatten).length ≤
            block.size := by
      rw [Along, and_iff_right created, along_append, along]
      constructor
      · rintro ⟨⟨more, isText, room⟩, closed, -⟩
        refine ⟨more, isText, ?_⟩
        by_contra beyond
        exact (adds_close (stands more isText room) closes).full beyond
          closed
      · rintro ⟨more, isText, room⟩
        have before_close :
            (prior ++ opening.flatten ++ more).length ≤ block.size := by
          rw [List.length_append] at room
          omega
        have closed := adds_close (stands more isText before_close) closes
        exact ⟨⟨more, isText, before_close⟩, (closed.fits room).1, trivial⟩
    constructor
    · rw [inside]
      constructor
      · rintro ⟨more, rfl, room⟩
        refine ⟨_, rfl, ?_⟩
        simpa only [List.append_assoc] using room
      · rintro ⟨whole, isWhole, room⟩
        obtain ⟨more, isText, rfl⟩ := Option.map_eq_some_iff.mp isWhole
        exact ⟨more, isText, by simpa only [List.append_assoc] using room⟩
    · intro whole isWhole room
      obtain ⟨more, isText, rfl⟩ := Option.map_eq_some_iff.mp isWhole
      simp only [← List.append_assoc] at room ⊢
      have before_close :
          (prior ++ opening.flatten ++ more).length ≤ block.size := by
        rw [List.length_append] at room
        omega
      have closed := adds_close (stands more isText before_close) closes
      rw [runFrom_cons, runFrom_append]
      exact (closed.fits room).2
  · have beyond : ∀ whole, (text.map fun inside =>
        opening.flatten ++ (inside ++ closing.flatten)) = some whole →
          ¬(prior ++ whole).length ≤ block.size := by
      intro whole isWhole fits
      obtain ⟨more, isText, rfl⟩ := Option.map_eq_some_iff.mp isWhole
      simp only [List.length_append] at room fits
      omega
    refine ⟨iff_of_false ?_ ?_, fun whole isWhole fits =>
      absurd fits (beyond whole isWhole)⟩
    · rintro ⟨created, -⟩
      exact full room created
    · rintro ⟨whole, isWhole, fits⟩
      exact beyond whole isWhole fits

/-- The flags behind a value that is written with one call. -/
def afterItem (flags : UInt8) : RepItem → UInt8
  | .textString _ => afterText flags
  | _ => afterValue flags

variable {flags : UInt8}

theorem prints_plain (due : expectsKey flags = false) {item : RepItem}
    {written : Bytes}
    (plan : (ocRepJsonEncoder formatDouble).item { flags } item =
      repJsonEncode { flags } written) :
    Prints formatDouble block [.write item] (some (lead flags ++ written))
      flags (afterValue flags) := by
  have isText : lead flags ++ written =
      (repJsonAppendSeparator flags ++ [written]).flatten := by
    simp [lead]
  rw [isText]
  apply Prints.item
  rw [plan, repJsonEncode, due]
  rfl

theorem prints_textString (flags : UInt8) (written : Bytes) :
    Prints formatDouble block [.write (.textString written)]
      (some (lead flags ++ quoted written)) flags (afterText flags) := by
  have quote : ascii "\"" = [34] := by decide
  have isText : lead flags ++ quoted written =
      (repJsonAppendSeparator flags ++
        [ascii "\"", written, ascii "\""]).flatten := by
    simp [lead, quoted, quote]
  rw [isText]
  exact Prints.item rfl

theorem prints_number (due : expectsKey flags = false) {item : RepItem}
    {accepted : Bool} {number : Int} {printed : Option Bytes}
    (plan : (ocRepJsonEncoder formatDouble).item { flags } item =
      repJsonEncodeNumber { flags } accepted number)
    (isPrinted : printed = if accepted then some (decimal number) else none) :
    Prints formatDouble block [.write item] (printed.map (lead flags ++ ·))
      flags (afterValue flags) := by
  have notKey : ¬expectsKey flags = true := by
    rw [due]
    exact Bool.false_ne_true
  rw [isPrinted]
  cases accepted with
  | true =>
      rw [repJsonEncodeNumber, if_neg notKey, if_pos rfl] at plan
      exact prints_plain due plan
  | false =>
      rw [repJsonEncodeNumber, if_neg notKey, if_neg Bool.false_ne_true] at plan
      exact Prints.refused plan

theorem prints_scalar (due : expectsKey flags = false) (item : RepItem) :
    Prints formatDouble block [.write item]
      ((item.jsonText formatDouble).map (lead flags ++ ·)) flags
      (afterItem flags item) := by
  cases item with
  | null => exact prints_plain due rfl
  | boolean value => exact prints_plain due rfl
  | double bits => exact prints_plain due rfl
  | int value =>
      refine prints_number due rfl ?_
      rw [RepItem.jsonText, intText]
      simp only [Bool.and_eq_true, decide_eq_true_eq, and_comm]
  | uint value =>
      refine prints_number due rfl ?_
      rw [RepItem.jsonText]
      simp only [decide_eq_true_eq]
  | textString text => exact prints_textString flags text
  | floatingPoint value => exact Prints.refused rfl
  | byteString value => exact Prints.refused rfl

theorem prints_container {flags : UInt8} (due : expectsKey flags = false)
    {isMap : Bool} {calls : List JsonCall} {texts : Option (List Bytes)}
    {last : UInt8} (isLast : last &&& JsonFlag.mapType ≠ 0 ↔ isMap = true)
    (prints : Prints formatDouble block calls (texts.map separated)
      (firstFlags isMap) last) :
    Prints formatDouble block (.create isMap :: (calls ++ [.close]))
      ((texts.map (if isMap then braced else bracketed)).map (lead flags ++ ·))
      flags (afterValue flags) := by
  have opens : (ocRepJsonEncoder formatDouble).container { flags } isMap none =
      .append (repJsonAppendSeparator flags ++
          [if isMap then ascii "\x7b" else ascii "["])
        { flags := afterValue flags } { flags }
        { flags := firstFlags isMap } := by
    simp only [ocRepJsonEncoder, due, Bool.false_eq_true, if_false]
    cases isMap <;> rfl
  have closes : (ocRepJsonEncoder formatDouble).close { flags := last } =
      .append [if isMap then ascii "\x7d" else ascii "]"] := by
    simp only [ocRepJsonEncoder]
    cases isMap with
    | true => rw [if_pos (isLast.mpr rfl)]; rfl
    | false =>
        rw [if_neg fun isMap => Bool.false_ne_true (isLast.mp isMap)]
        rfl
  have brackets : ascii "\x7b" = [123] ∧ ascii "[" = [91] ∧
      ascii "\x7d" = [125] ∧ ascii "]" = [93] := by decide
  have isText : ((texts.map (if isMap then braced else bracketed)).map
      (lead flags ++ ·)) = (texts.map separated).map fun inside =>
        (repJsonAppendSeparator flags ++
          [if isMap then ascii "\x7b" else ascii "["]).flatten ++
        (inside ++ [if isMap then ascii "\x7d" else ascii "]"].flatten) := by
    rw [Option.map_map, Option.map_map]
    congr 1
    funext inside
    cases isMap <;> simp [lead, brackets, braced, bracketed]
  rw [isText]
  exact Prints.enclosed opens prints closes

/-- Calls that print a part of a container, behind a comma if it is not the
first one. -/
def PrintsPart (formatDouble : UInt64 → Bytes) (block : HeapBlock)
    (isMap : Bool) (calls : List JsonCall) (text : Option Bytes) : Prop :=
  ∀ flags, flags = firstFlags isMap ∨ flags = laterFlags isMap →
    Prints formatDouble block calls (text.map (lead flags ++ ·)) flags
      (laterFlags isMap)

variable {isMap : Bool} {texts : List (Option Bytes)}

theorem PrintsPart.cons {also : List JsonCall} {flags : UInt8}
    (prints : PrintsPart formatDouble block isMap calls text)
    (isFlags : flags = firstFlags isMap ∨ flags = laterFlags isMap)
    (later : Prints formatDouble block also ((allTexts texts).map laterTexts)
      (laterFlags isMap) (laterFlags isMap)) :
    Prints formatDouble block (calls ++ also)
      ((allTexts (text :: texts)).map fun parts =>
        lead flags ++ separated parts) flags (laterFlags isMap) := by
  have both := (prints flags isFlags).append later
  have isText : behindText (text.map (lead flags ++ ·))
      ((allTexts texts).map laterTexts) =
        (allTexts (text :: texts)).map fun parts =>
          lead flags ++ separated parts := by
    cases text with
    | none => rfl
    | some first =>
        cases parts : allTexts texts with
        | none => simp [allTexts, behindText, parts]
        | some others =>
            simp [allTexts, behindText, parts, separated_cons]
  rw [← isText]
  exact both

theorem PrintsPart.later
    (prints : PrintsPart formatDouble block isMap calls text)
    (later : Prints formatDouble block also ((allTexts texts).map laterTexts)
      (laterFlags isMap) (laterFlags isMap)) :
    Prints formatDouble block (calls ++ also)
      ((allTexts (text :: texts)).map laterTexts) (laterFlags isMap)
      (laterFlags isMap) := by
  have both := prints.cons (.inr rfl) later
  have isText : ((allTexts (text :: texts)).map fun parts =>
      lead (laterFlags isMap) ++ separated parts) =
        (allTexts (text :: texts)).map laterTexts := by
    cases text with
    | none => rfl
    | some first =>
        cases parts : allTexts texts with
        | none => simp [allTexts, parts]
        | some others =>
            simp [allTexts, parts, separated_cons, lead_later, laterTexts]
  rw [← isText]
  exact both

theorem PrintsPart.first
    (prints : PrintsPart formatDouble block isMap calls text)
    (later : Prints formatDouble block also ((allTexts texts).map laterTexts)
      (laterFlags isMap) (laterFlags isMap)) :
    Prints formatDouble block (calls ++ also)
      ((allTexts (text :: texts)).map separated) (firstFlags isMap)
      (laterFlags isMap) := by
  have both := prints.cons (.inl rfl) later
  rw [lead_first] at both
  exact both

theorem prints_member {key : Bytes}
    (prints : Prints formatDouble block calls (text.map (lead 9 ++ ·)) 9
      (laterFlags true)) :
    PrintsPart formatDouble block true (.write (.textString key) :: calls)
      (text.map fun value => quoted key ++ 58 :: value) := by
  intro flags isFlags
  have isKey : afterText flags = 9 := by
    rcases isFlags with rfl | rfl <;> decide
  have first := @prints_textString formatDouble block flags key
  rw [isKey] at first
  have both := first.append prints
  have colon : lead 9 = [58] := by decide
  have isText : behindText (some (lead flags ++ quoted key))
      (text.map (lead 9 ++ ·)) =
        (text.map fun value => quoted key ++ 58 :: value).map
          (lead flags ++ ·) := by
    cases text with
    | none => rfl
    | some value => simp [behindText, colon]
  rw [← isText]
  exact both

/-- The flags behind a tree. -/
def JsonTree.flagsAfter (flags : UInt8) : JsonTree → UInt8
  | .scalar item => afterItem flags item
  | _ => afterValue flags

theorem after_of_same (same : afterText flags = afterValue flags)
    (tree : JsonTree) : tree.flagsAfter flags = afterValue flags := by
  cases tree with
  | scalar item =>
      cases item with
      | textString text => exact same
      | _ => rfl
  | _ => rfl

theorem prints_item {tree : JsonTree}
    (prints : ∀ flags, expectsKey flags = false →
      Prints formatDouble block tree.calls
        ((tree.print formatDouble).map (lead flags ++ ·)) flags
        (tree.flagsAfter flags)) :
    PrintsPart formatDouble block false tree.calls
      (tree.print formatDouble) := by
  intro flags isFlags
  obtain ⟨due, later, laterText⟩ := array_flags isFlags
  have value := prints flags due
  rw [after_of_same (laterText.trans later.symm), later] at value
  exact value

theorem prints_value {tree : JsonTree} (key : Bytes)
    (prints : ∀ flags, expectsKey flags = false →
      Prints formatDouble block tree.calls
        ((tree.print formatDouble).map (lead flags ++ ·)) flags
        (tree.flagsAfter flags)) :
    PrintsPart formatDouble block true
      (.write (.textString key) :: tree.calls)
      ((tree.print formatDouble).map fun value =>
        quoted key ++ 58 :: value) := by
  have value := prints 9 (by decide)
  have same : afterText 9 = afterValue 9 := by decide
  have later : afterValue 9 = laterFlags true := by decide
  rw [after_of_same same, later] at value
  exact prints_member value

mutual

/-- The calls for a tree print it. -/
theorem JsonTree.prints : (tree : JsonTree) → ∀ flags,
    expectsKey flags = false →
    Prints formatDouble block tree.calls
      ((tree.print formatDouble).map (lead flags ++ ·)) flags
      (tree.flagsAfter flags)
  | .scalar item, flags, due => prints_scalar due item
  | .array [], flags, due =>
      @prints_container _ _ flags due false [] (some []) _ (by decide) (.nil _)
  | .array (item :: items), flags, due => by
      rw [JsonTree.calls, JsonTree.print, itemCalls, itemTexts]
      exact prints_container due (by decide)
        ((prints_item item.prints).first (prints_itemCalls items))
  | .object [], flags, due =>
      @prints_container _ _ flags due true [] (some []) _ (by decide) (.nil _)
  | .object ((key, value) :: members), flags, due => by
      rw [JsonTree.calls, JsonTree.print, memberCalls, memberTexts]
      exact prints_container due (by decide)
        ((prints_value key value.prints).first (prints_memberCalls members))

theorem prints_itemCalls : (items : List JsonTree) →
    Prints formatDouble block (itemCalls items)
      ((allTexts (itemTexts formatDouble items)).map laterTexts)
      (laterFlags false) (laterFlags false)
  | [] => .nil _
  | item :: items => by
      rw [itemCalls, itemTexts]
      exact (prints_item item.prints).later (prints_itemCalls items)

theorem prints_memberCalls : (members : List (Bytes × JsonTree)) →
    Prints formatDouble block (memberCalls members)
      ((allTexts (memberTexts formatDouble members)).map laterTexts)
      (laterFlags true) (laterFlags true)
  | [] => .nil _
  | (key, value) :: members => by
      rw [memberCalls, memberTexts]
      exact (prints_value key value.prints).later (prints_memberCalls members)

end

/-- The calls all succeed if and only if the text exists and fits the buffer,
and then they leave it there and no container open. -/
structure Produces (formatDouble : UInt64 → Bytes) (block : HeapBlock)
    (calls : List JsonCall) (text : Option Bytes) : Prop where
  accepted : Along (step formatDouble block.ptr)
      (Accepts formatDouble block.ptr) (init block) calls ↔
    ∃ written, text = some written ∧ written.length ≤ block.size
  written : ∀ written, text = some written → written.length ≤ block.size →
    let final := runFrom (step formatDouble block.ptr) (init block) calls
    final.outer = [] ∧ final.bufferSize block.ptr = written.length ∧
      final.content.read 0 written.length = written

/-- A well-nested sequence of calls writes what the printer prints for its
tree. -/
theorem json_encoder_prints (formatDouble : UInt64 → Bytes)
    (block : HeapBlock) {calls : List JsonCall} (nested : WellNested calls) :
    (∃ tree, JsonTree.calls tree = calls) ∧
      ∀ tree, JsonTree.calls tree = calls →
        Produces formatDouble block calls (tree.print formatDouble) := by
  refine ⟨nested.exists_tree, ?_⟩
  rintro tree rfl
  have nothing : lead 0 = [] := by decide
  obtain ⟨accepted, written⟩ := @JsonTree.prints formatDouble block tree 0
    (by decide) _ _ _ (behind_init block)
  have isText : (tree.print formatDouble).map (lead 0 ++ ·) =
      tree.print formatDouble := by
    rw [nothing]
    cases tree.print formatDouble <;> rfl
  rw [isText] at accepted written
  refine ⟨accepted, ?_⟩
  intro text isPrinted fits
  obtain ⟨isEncoder, content, isOuter, -⟩ := written text isPrinted fits
  refine ⟨isOuter, ?_, content⟩
  simp [JsonEncoder.bufferSize, isEncoder, standing]

end Sequences

namespace JsonCalls

/-- `\x7b"a":[1,null],"b":\x7b\x7d\x7d` -/
def calls : List JsonCall :=
  [.create true, .write (.textString [97]), .create false, .write (.int 1),
    .write .null, .close, .write (.textString [98]), .create true, .close,
    .close]

def tree : JsonTree :=
  .object [([97], .array [.scalar (.int 1), .scalar .null]),
    ([98], .object [])]

end JsonCalls

open JsonCalls in
theorem json_encoder_prints_calls :
    WellNested calls ∧ tree.calls = calls ∧
      Produces (fun _ => []) (RawWrite.block 64) calls
        (some (ascii "\x7b\"a\":[1,null],\"b\":\x7b\x7d\x7d")) := by
  have nested : WellNested calls := by unfold WellNested; decide
  have isTree : tree.calls = calls := by
    simp [tree, calls, JsonTree.calls, itemCalls, memberCalls]
  have printed : tree.print (fun _ => []) =
      some (ascii "\x7b\"a\":[1,null],\"b\":\x7b\x7d\x7d") := by rfl
  refine ⟨nested, isTree, ?_⟩
  rw [← printed]
  exact (json_encoder_prints (fun _ => []) (RawWrite.block 64) nested).2 tree
    isTree

end IotivityLite
