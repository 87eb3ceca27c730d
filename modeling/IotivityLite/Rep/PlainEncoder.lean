import IotivityLite.Rep.RepEncoder
import Mathlib.Data.List.GetD
import Mathlib.Tactic.Ring

/-!
# Encoders without a buffer

An encoder without a buffer only has a limit for the bytes it may write.  What
is appended over a buffer that grows lands where it does without a buffer, and
fails where it exceeds the limit.
-/

namespace IotivityLite

/-- An encoder stands at a position, or has exceeded the limit. -/
structure PlainSub where
  position : Option Nat := some 0
  items : ItemState := {}

/-- The bytes that were written, up to the largest position so far. -/
structure PlainEncoder where
  text : Mem
  extent : Nat
  subs : Nat → PlainSub

namespace PlainEncoder

def init : PlainEncoder where
  text := fun _ => 0
  extent := 0
  subs := Function.update (fun _ => {}) 0
    { items := { remaining := some 2 } }

section Limit

variable (impl : EncoderImpl) (limit : Option Nat)

def Admits (size : Nat) : Prop := ∀ maximum, limit = some maximum →
  size ≤ maximum

instance (size : Nat) : Decidable (Admits limit size) :=
  match limit with
  | none => isTrue (by simp [Admits])
  | some maximum => decidable_of_iff (size ≤ maximum) (by simp [Admits])

/-- The pieces are written at the position, if they do not exceed the limit.
The new position is returned. -/
def place (encoder : PlainEncoder) (pieces : List Bytes)
    (position : Option Nat) : Option (Option Nat × PlainEncoder) :=
  match pieces, position with
  | [], _ => some (position, encoder)
  | _ :: _, none => none
  | _ :: _, some start =>
      if Admits limit (start + pieces.flatten.length) then
        some (some (start + pieces.flatten.length),
          { encoder with
            text := encoder.text.patch start pieces.flatten
            extent := max encoder.extent (start + pieces.flatten.length) })
      else none

def setSub (encoder : PlainEncoder) (index : Nat) (sub : PlainSub) :
    PlainEncoder :=
  { encoder with subs := Function.update encoder.subs index sub }

def write (encoder : PlainEncoder) (index : Nat) (item : RepItem) :
    RepResult × PlainEncoder :=
  let sub := encoder.subs index
  match impl.item sub.items item with
  | .refused error => (.refused error, encoder)
  | .append pieces done full =>
      match encoder.place limit pieces sub.position with
      | some (position, after) => (.noError, after.setSub index ⟨position, done⟩)
      | none => (.outOfMemory, encoder.setSub index ⟨none, full⟩)

def create (encoder : PlainEncoder) (index container : Nat) (isMap : Bool)
    (length : Option Nat) : RepResult × PlainEncoder :=
  let sub := encoder.subs index
  match impl.container sub.items isMap length with
  | .refused error => (.refused error, encoder)
  | .append pieces done full child =>
      match encoder.place limit pieces sub.position with
      | some (position, after) =>
          (.noError, (after.setSub index
            ⟨if impl.byParent then position else sub.position, done⟩).setSub
              container ⟨position, child⟩)
      | none =>
          (.outOfMemory,
            if impl.byParent then
              (encoder.setSub index ⟨none, full⟩).setSub container
                ⟨none, full⟩
            else
              (encoder.setSub index ⟨sub.position, full⟩).setSub container
                ⟨none, child⟩)

def close (encoder : PlainEncoder) (index container : Nat) :
    RepResult × PlainEncoder :=
  let inside := encoder.subs container
  let items := (encoder.subs index).items
  match impl.close inside.items with
  | .refused error =>
      (.refused error, encoder.setSub index ⟨inside.position, items⟩)
  | .append pieces =>
      match encoder.place limit pieces inside.position with
      | some (position, after) => (.noError, after.setSub index ⟨position, items⟩)
      | none => (.outOfMemory, encoder.setSub index ⟨none, items⟩)

def writeRaw (encoder : PlainEncoder) (data : Bytes) :
    RepResult × PlainEncoder :=
  let ctx := encoder.subs 0
  match ctx.position with
  | none => (.refused .internalError, encoder)
  | some start =>
      match encoder.place limit [data] (some start) with
      | some (position, after) => (.noError, after.setSub 0 { ctx with position })
      | none => (.outOfMemory, encoder)

def call (encoder : PlainEncoder) : RepCall → RepResult × PlainEncoder
  | .write index item => encoder.write impl limit index item
  | .create index container _ isMap length =>
      encoder.create impl limit index container isMap length
  | .close index container _ => encoder.close impl limit index container
  | .raw data => encoder.writeRaw limit data

def step (encoder : PlainEncoder) (call : RepCall) : PlainEncoder :=
  (encoder.call impl limit call).2

def result (encoder : PlainEncoder) (call : RepCall) : Option RepResult :=
  some (encoder.call impl limit call).1

end Limit

end PlainEncoder

namespace Mem

theorem patch_nil (memory : Mem) (start : Nat) :
    memory.patch start [] = memory := by
  funext address
  apply if_neg
  simp only [List.length_nil]
  omega

theorem patch_outside {memory : Mem} {start address : Nat} {bytes : Bytes}
    (outside : address < start ∨ start + bytes.length ≤ address) :
    memory.patch start bytes address = memory address := by
  apply if_neg
  omega

theorem patch_patch (memory : Mem) (start : Nat) (first second : Bytes) :
    (memory.patch start first).patch (start + first.length) second =
      memory.patch start (first ++ second) := by
  funext address
  simp only [patch, List.length_append]
  by_cases later : start + first.length ≤ address ∧
      address < start + first.length + second.length
  · have whole : start ≤ address ∧
        address < start + (first.length + second.length) := by omega
    rw [if_pos later, if_pos whole, List.getD_append_right _ _ _ _ (by omega)]
    congr 1
    omega
  · rw [if_neg later]
    by_cases earlier : start ≤ address ∧ address < start + first.length
    · have whole : start ≤ address ∧
          address < start + (first.length + second.length) := by omega
      rw [if_pos earlier, if_pos whole, List.getD_append _ _ _ _ (by omega)]
    · have outside : ¬ (start ≤ address ∧
          address < start + (first.length + second.length)) := by omega
      rw [if_neg earlier, if_neg outside]

theorem patch_congr {left right : Mem} {start address : Nat} {bytes : Bytes}
    (agree : address < start ∨ start + bytes.length ≤ address →
      left address = right address) :
    left.patch start bytes address = right.patch start bytes address := by
  unfold patch
  split
  · rfl
  · apply agree
    omega

end Mem

section Pieces

variable {ptr : Int} {size position : Nat} {items : ItemState}
  {pieces : List Bytes} {content : Mem}

theorem appendPieces_of_le
    (room : position + pieces.flatten.length ≤ size) :
    appendPieces ptr pieces ⟨⟨ptr + position, ptr + size, items⟩, content⟩ =
      (true, ⟨⟨ptr + (position + pieces.flatten.length : Nat), ptr + size,
        items⟩, content.patch position pieces.flatten⟩) := by
  induction pieces generalizing position content with
  | nil => simp [appendPieces, Mem.patch_nil]
  | cons piece pieces ih =>
      simp only [List.flatten_cons, List.length_append] at room ⊢
      have fits : ¬ (ptr + (size : Int) - (ptr + position) - piece.length <
          0) := by omega
      have offset : (ptr + (position : Int) - ptr).toNat = position := by
        omega
      have next : ptr + (position : Int) + (piece.length : Int) =
          ptr + ((position + piece.length : Nat) : Int) := by
        push_cast
        ring
      have rest := @ih (position + piece.length)
        (content.patch position piece) (by omega)
      simp only [appendPieces, appendToBuffer, if_neg fits, offset, next,
        rest, Mem.patch_patch, Bool.and_self, Nat.add_assoc]

theorem appendPieces_counting {missing : Int} (counting : 0 < missing) :
    appendPieces ptr pieces ⟨⟨missing, 0, items⟩, content⟩ =
      (pieces.isEmpty, ⟨⟨missing + pieces.flatten.length, 0, items⟩,
        content⟩) := by
  induction pieces generalizing missing with
  | nil => simp [appendPieces]
  | cons piece pieces ih =>
      have beyond : (0 : Int) - missing - piece.length < 0 := by omega
      have rest := @ih (missing + piece.length) (by omega)
      simp only [appendPieces, appendToBuffer, if_pos beyond, rest, ne_eq,
        not_true_eq_false, if_false, Bool.false_and, List.isEmpty_cons,
        List.flatten_cons, List.length_append, Nat.cast_add, Int.add_assoc]

theorem appendPieces_of_lt (known : ptr + size = 0 → ptr = 0)
    (inside : position ≤ size)
    (beyond : size < position + pieces.flatten.length) :
    ∃ after, appendPieces ptr pieces
        ⟨⟨ptr + position, ptr + size, items⟩, content⟩ =
      (false, ⟨⟨(position + pieces.flatten.length : Nat) - (size : Int), 0,
        items⟩, after⟩) ∧
      ∀ address, address < position ∨
          position + pieces.flatten.length ≤ address →
        after address = content address := by
  induction pieces generalizing position content with
  | nil =>
      simp only [List.flatten_nil, List.length_nil] at beyond
      omega
  | cons piece pieces ih =>
      simp only [List.flatten_cons, List.length_append] at beyond ⊢
      by_cases fits : position + piece.length ≤ size
      · have room : ¬ (ptr + (size : Int) - (ptr + position) - piece.length <
            0) := by omega
        have offset : (ptr + (position : Int) - ptr).toNat = position := by
          omega
        have next : ptr + (position : Int) + (piece.length : Int) =
            ptr + ((position + piece.length : Nat) : Int) := by
          push_cast
          ring
        obtain ⟨after, rest, frame⟩ := @ih (position + piece.length)
          (content.patch position piece) fits (by omega)
        refine ⟨after, ?_, ?_⟩
        · simp only [appendPieces, appendToBuffer, if_neg room, offset, next,
            rest, Bool.and_false, Nat.add_assoc]
        · intro address outside
          rw [frame address (by omega), Mem.patch_outside (by omega)]
      · have full : ptr + (size : Int) - (ptr + position) - piece.length <
            0 := by omega
        refine ⟨content, ?_, fun _ _ => rfl⟩
        by_cases null : ptr + (size : Int) = 0
        · have zero := known null
          rw [null] at full ⊢
          have missing : ptr + (position : Int) + piece.length =
              (position + piece.length : Nat) - (size : Int) := by omega
          have rest := @appendPieces_counting ptr items pieces content
            ((position + piece.length : Nat) - (size : Int)) (by omega)
          simp only [appendPieces, appendToBuffer, if_pos full, ne_eq,
            not_true_eq_false, if_false, missing]
          rw [rest]
          simp only [Bool.false_and, Prod.mk.injEq, Writing.mk.injEq,
            SubEncoder.mk.injEq, true_and, and_true]
          push_cast
          ring
        · have missing : (piece.length : Int) - (ptr + size -
              (ptr + position)) =
              (position + piece.length : Nat) - (size : Int) := by
            push_cast
            ring
          have rest := @appendPieces_counting ptr items pieces content
            ((position + piece.length : Nat) - (size : Int)) (by omega)
          simp only [appendPieces, appendToBuffer, if_pos full, ne_eq, null,
            not_false_eq_true, if_true, missing]
          rw [rest]
          simp only [Bool.false_and, Prod.mk.injEq, Writing.mk.injEq,
            SubEncoder.mk.injEq, true_and, and_true]
          push_cast
          ring

end Pieces

/-- Buffers that the calls can meet. -/
structure EncoderBuffer.Sound (buffer : EncoderBuffer) : Prop where
  ptr : 0 ≤ buffer.ptr
  null : buffer.ptr = 0 → buffer.size = 0
  size : buffer.size ≤ buffer.maxSize

/-- The later buffer is the earlier one or takes its place. -/
structure EncoderBuffer.Grows (before after : EncoderBuffer) : Prop where
  sound : after.Sound
  maxSize : after.maxSize = before.maxSize
  size : before.size ≤ after.size
  ptr : after.ptr = before.ptr ∨ after.ptr ≠ 0

/-- An encoder during a call, when its pointer is an address. -/
inductive StandsAt (buffer : EncoderBuffer) (extent : Nat) :
    SubEncoder → Option Nat → Prop where
  | here {position : Nat} {items : ItemState} (inside : position ≤ extent) :
      StandsAt buffer extent
        ⟨buffer.ptr + position, buffer.ptr + buffer.size, items⟩
        (some position)
  | full {missing : Int} {items : ItemState} (counting : 0 < missing)
      (exceeds : buffer.maxSize < buffer.size + missing) :
      StandsAt buffer extent ⟨missing, 0, items⟩ none

/-- An encoder between the calls, when its pointer is an offset. -/
inductive Stands (buffer : EncoderBuffer) (extent : Nat) :
    SubEncoder → PlainSub → Prop where
  | here {position : Nat} {endPtr : Int} {items : ItemState}
      (inside : position ≤ extent) (known : endPtr = 0 → position = 0)
      (null : buffer.ptr = 0 → endPtr = 0) :
      Stands buffer extent ⟨position, endPtr, items⟩ ⟨some position, items⟩
  | full {missing : Int} {items : ItemState} (counting : 0 < missing)
      (exceeds : buffer.maxSize < buffer.size + missing) :
      Stands buffer extent ⟨missing, 0, items⟩ ⟨none, items⟩

/-- The two encoders have done the same. -/
structure RepEncoder.Represents (encoder : RepEncoder)
    (plain : PlainEncoder) : Prop where
  sound : encoder.buffer.Sound
  extent : plain.extent ≤ encoder.buffer.size
  subs : ∀ index, Stands encoder.buffer plain.extent (encoder.subs index)
    (plain.subs index)

/-- The buffer holds what was written. -/
def EncoderBuffer.HoldsText (buffer : EncoderBuffer) (plain : PlainEncoder) :
    Prop :=
  ∀ address, address < plain.extent →
    buffer.content address = plain.text address

section Relations

variable {buffer grown : EncoderBuffer} {extent : Nat} {sub : SubEncoder}
  {plainSub : PlainSub} {position : Option Nat}

theorem EncoderBuffer.Sound.refl (sound : buffer.Sound) : buffer.Grows buffer :=
  ⟨sound, rfl, Nat.le_refl _, .inl rfl⟩

section

variable (stands : Stands buffer extent sub plainSub)

include stands

theorem Stands.grows {larger : Nat} (grows : buffer.Grows grown)
    (more : extent ≤ larger) : Stands grown larger sub plainSub := by
  cases stands with
  | here inside known null =>
      refine .here (Nat.le_trans inside more) known ?_
      intro zero
      rcases grows.ptr with same | other
      · exact null (same ▸ zero)
      · exact absurd zero other
  | full counting exceeds =>
      refine .full counting ?_
      have size := grows.size
      rw [grows.maxSize]
      omega

theorem Stands.withContent (memory : Mem) :
    Stands { buffer with content := memory } extent sub plainSub := by
  cases stands with
  | here inside known null => exact .here inside known null
  | full counting exceeds => exact .full counting exceeds

theorem Stands.items : sub.items = plainSub.items := by
  cases stands <;> rfl

theorem Stands.convert (sound : buffer.Sound) (room : extent ≤ buffer.size) :
    StandsAt buffer extent (sub.convertOffsetToPtr buffer.ptr buffer.size)
      plainSub.position := by
  cases stands with
  | @here position endPtr items inside known null =>
      by_cases zero : buffer.ptr = 0
      · have empty := sound.null zero
        have start : position = 0 := by omega
        have same : (⟨position, endPtr, items⟩ : SubEncoder) =
            ⟨buffer.ptr + position, buffer.ptr + buffer.size, items⟩ := by
          rw [null zero, zero, empty, start]
          rfl
        rw [SubEncoder.convertOffsetToPtr, if_pos (.inl zero), same]
        exact .here inside
      · have position_known : ¬ (buffer.ptr = 0 ∨
            ((position : Int) ≠ 0 ∧ endPtr = 0)) := by
          rintro (impossible | ⟨later, null⟩)
          · exact zero impossible
          · have := known null
            omega
        rw [SubEncoder.convertOffsetToPtr, if_neg position_known]
        exact .here inside
  | full counting exceeds =>
      rw [SubEncoder.convertOffsetToPtr, if_pos (.inr ⟨Int.ne_of_gt counting,
        rfl⟩)]
      exact .full counting exceeds

end

theorem items_convertOffsetToPtr {ptr : Int} {size : Nat} :
    (sub.convertOffsetToPtr ptr size).items = sub.items := by
  unfold SubEncoder.convertOffsetToPtr
  split <;> rfl

theorem convertOffsetToPtr_with_items (sub : SubEncoder) (ptr : Int)
    (size : Nat) :
    { sub.convertOffsetToPtr ptr size with items := sub.items } =
      sub.convertOffsetToPtr ptr size := by
  unfold SubEncoder.convertOffsetToPtr
  split <;> rfl

theorem extraBytesNeeded_convertPtrToOffset {ptr : Int}
    (counts : sub.endPtr = 0) :
    (sub.convertPtrToOffset ptr).extraBytesNeeded = sub.data := by
  rw [SubEncoder.convertPtrToOffset, if_pos (.inr (.inr counts)),
    SubEncoder.extraBytesNeeded, if_neg (not_not.mpr counts)]

theorem StandsAt.convert (stands : StandsAt buffer extent sub position)
    (sound : buffer.Sound) (room : extent ≤ buffer.size)
    (items : ItemState) :
    Stands buffer extent
      (SubEncoder.convertPtrToOffset buffer.ptr { sub with items })
      ⟨position, items⟩ := by
  have nonneg := sound.ptr
  cases stands with
  | @here position _ inside =>
      by_cases zero : buffer.ptr = 0
      · have empty := sound.null zero
        rw [SubEncoder.convertPtrToOffset, if_pos (.inl zero)]
        simp only [zero, empty, Nat.cast_zero, Int.zero_add]
        exact .here inside (fun _ => by omega) (fun _ => rfl)
      · have valid : ¬ (buffer.ptr = 0 ∨
            buffer.ptr + (position : Int) = 0 ∨
            buffer.ptr + (buffer.size : Int) = 0) := by omega
        rw [SubEncoder.convertPtrToOffset, if_neg valid]
        simp only [add_sub_cancel_left]
        exact .here inside (fun empty => by omega)
          (fun impossible => absurd impossible zero)
  | full counting exceeds =>
      rw [SubEncoder.convertPtrToOffset, if_pos (.inr (.inr rfl))]
      exact .full counting exceeds

end Relations

section Retry

variable {env : EncoderEnv} {Outcome : Type} {content : Outcome → Mem}
  {counting : Outcome → SubEncoder}
  {attempt : EncoderBuffer → RepResult × Outcome} {buffer : EncoderBuffer}

theorem retryGrown_of_ne (other : (attempt buffer).1 ≠ .outOfMemory) :
    retryGrown env content counting attempt buffer =
      ((attempt buffer).1,
        { buffer with content := content (attempt buffer).2 },
        (attempt buffer).2) := by
  unfold retryGrown
  split
  · rename_i result
    rw [result] at other
    exact absurd rfl other
  · rename_i result
    rw [result]

theorem realloc_of_lt {needed : Int}
    (exceeds : buffer.maxSize < buffer.size + needed) :
    buffer.realloc env needed = none := if_pos exceeds

theorem retryGrown_of_exceeds {state : Outcome}
    (failed : attempt buffer = (.outOfMemory, state))
    (exceeds : buffer.maxSize <
      buffer.size + (counting state).extraBytesNeeded) :
    retryGrown env content counting attempt buffer =
      (.outOfMemory, { buffer with content := content state },
        state) := by
  have no_memory : ({ buffer with content := content state } :
      EncoderBuffer).realloc env (counting state).extraBytesNeeded = none :=
    realloc_of_lt exceeds
  simp only [retryGrown, failed, no_memory]

theorem realloc_of_le {needed : Int}
    (positive : 0 < needed) (room : buffer.size + needed ≤ buffer.maxSize) :
    ∃ grown, buffer.realloc env needed = some grown ∧
      buffer.Grows grown ∧ buffer.size + needed ≤ grown.size ∧
      ∀ address, address < buffer.size →
        grown.content address = buffer.content address := by
  have allowed : ¬ (buffer.size + needed > buffer.maxSize) := by omega
  have address := env.address_pos buffer.reallocs
  unfold EncoderBuffer.realloc
  rw [if_neg allowed]
  refine ⟨_, rfl, ⟨⟨?_, ?_, ?_⟩, rfl, ?_, .inr ?_⟩, ?_, ?_⟩
  · exact Int.le_of_lt address
  · intro impossible
    exact absurd impossible (Int.ne_of_gt address)
  · simp only
    split <;> omega
  · simp only
    split <;> omega
  · exact Int.ne_of_gt address
  · simp only
    split <;> omega
  · intro place below
    exact if_pos below

theorem retryGrown_of_le {state : Outcome}
    (failed : attempt buffer = (.outOfMemory, state))
    (positive : 0 < (counting state).extraBytesNeeded)
    (room : buffer.size + (counting state).extraBytesNeeded ≤
      buffer.maxSize) :
    ∃ grown, retryGrown env content counting attempt buffer =
        ((attempt grown).1,
          { grown with content := content (attempt grown).2 },
          (attempt grown).2) ∧
      buffer.Grows grown ∧
      buffer.size + (counting state).extraBytesNeeded ≤ grown.size ∧
      ∀ address, address < buffer.size →
        grown.content address = content state address := by
  obtain ⟨grown, memory, grows, large, kept⟩ :=
    @realloc_of_le env { buffer with content := content state } _ positive
      room
  refine ⟨grown, ?_, ⟨grows.sound, grows.maxSize, grows.size, grows.ptr⟩,
    large, kept⟩
  simp only [retryGrown, failed, memory]

end Retry

/-- An attempt appends the pieces where the encoder stands, and does the rest
with what comes out of it. -/
structure Appends {Outcome : Type} (content : Outcome → Mem)
    (counting : Outcome → SubEncoder)
    (attempt : EncoderBuffer → RepResult × Outcome) (sub : SubEncoder)
    (own : ItemState) (pieces : List Bytes)
    (done full : EncoderBuffer → Writing → Outcome) : Prop where
  fits : ∀ buffer state,
    appendPieces buffer.ptr pieces
        ⟨{ sub.convertOffsetToPtr buffer.ptr buffer.size with items := own },
          buffer.content⟩ = (true, state) →
      attempt buffer = (.noError, done buffer state)
  lacks : ∀ buffer state,
    appendPieces buffer.ptr pieces
        ⟨{ sub.convertOffsetToPtr buffer.ptr buffer.size with items := own },
          buffer.content⟩ = (false, state) →
      attempt buffer = (.outOfMemory, full buffer state)
  content_done : ∀ buffer state, content (done buffer state) = state.content
  content_full : ∀ buffer state, content (full buffer state) = state.content
  counting : ∀ buffer state, state.sub.endPtr = 0 →
    (counting (full buffer state)).extraBytesNeeded = state.sub.data

section Placing

variable {env : EncoderEnv} {Outcome : Type} {content : Outcome → Mem}
  {counting : Outcome → SubEncoder}
  {attempt : EncoderBuffer → RepResult × Outcome} {sub : SubEncoder}
  {own : ItemState} {pieces : List Bytes}
  {done full : EncoderBuffer → Writing → Outcome} {buffer : EncoderBuffer}
  {plain : PlainEncoder} {plainSub : PlainSub}

/-- The call succeeds with and without a buffer. -/
def Succeeds (env : EncoderEnv) (content : Outcome → Mem)
    (counting : Outcome → SubEncoder)
    (attempt : EncoderBuffer → RepResult × Outcome) (own : ItemState)
    (pieces : List Bytes) (done : EncoderBuffer → Writing → Outcome)
    (buffer : EncoderBuffer) (plain : PlainEncoder)
    (start : Option Nat) : Prop :=
  ∃ position after grown state,
    plain.place (some buffer.maxSize) pieces start = some (position, after) ∧
    retryGrown env content counting attempt buffer =
      (.noError, { grown with content := state.content }, done grown state) ∧
    buffer.Grows grown ∧ plain.extent ≤ after.extent ∧
    after.extent ≤ grown.size ∧ after.subs = plain.subs ∧
    state.sub.items = own ∧ StandsAt grown after.extent state.sub position ∧
    (buffer.HoldsText plain →
      ({ grown with content := state.content } :
        EncoderBuffer).HoldsText after)

/-- The call fails with and without a buffer. -/
def Fails (env : EncoderEnv) (content : Outcome → Mem)
    (counting : Outcome → SubEncoder)
    (attempt : EncoderBuffer → RepResult × Outcome) (own : ItemState)
    (pieces : List Bytes) (full : EncoderBuffer → Writing → Outcome)
    (buffer : EncoderBuffer) (plain : PlainEncoder)
    (start : Option Nat) : Prop :=
  ∃ state,
    plain.place (some buffer.maxSize) pieces start = none ∧
    retryGrown env content counting attempt buffer =
      (.outOfMemory, { buffer with content := state.content },
        full buffer state) ∧
    state.sub.items = own ∧ StandsAt buffer plain.extent state.sub none

theorem place_cons {first : Bytes} {rest : List Bytes} {position maximum : Nat}
    (room : position + (first :: rest).flatten.length ≤ maximum) :
    plain.place (some maximum) (first :: rest) (some position) =
      some (some (position + (first :: rest).flatten.length),
        { plain with
          text := plain.text.patch position (first :: rest).flatten
          extent := max plain.extent
            (position + (first :: rest).flatten.length) }) := by
  apply if_pos
  rintro _ ⟨⟩
  exact room

theorem place_cons_none {first : Bytes} {rest : List Bytes}
    {position maximum : Nat}
    (exceeds : maximum < position + (first :: rest).flatten.length) :
    plain.place (some maximum) (first :: rest) (some position) = none := by
  apply if_neg
  intro admits
  have := admits maximum rfl
  omega

variable {position : Nat}

theorem holdsText_patch {bytes : Bytes} {memory : Mem}
    (inside : position ≤ plain.extent)
    (same : ∀ address, address < plain.extent →
      (address < position ∨ position + bytes.length ≤ address) →
      memory address = plain.text address) :
    ({ buffer with content := memory.patch position bytes } :
      EncoderBuffer).HoldsText
      { plain with
        text := plain.text.patch position bytes
        extent := max plain.extent (position + bytes.length) } := by
  intro address below
  apply Mem.patch_congr
  intro outside
  refine same address ?_ outside
  simp only at below
  omega

theorem Appends.attempt_of_le
    (appends : Appends content counting attempt sub own pieces done full)
    (converted : StandsAt buffer plain.extent
      (sub.convertOffsetToPtr buffer.ptr buffer.size) (some position))
    (room : position + pieces.flatten.length ≤ buffer.size) :
    attempt buffer = (.noError, done buffer
      ⟨⟨buffer.ptr + (position + pieces.flatten.length : Nat),
        buffer.ptr + buffer.size, own⟩,
        buffer.content.patch position pieces.flatten⟩) := by
  apply appends.fits
  generalize sub.convertOffsetToPtr buffer.ptr buffer.size = absolute at *
  cases converted with
  | here inside => exact appendPieces_of_le room

theorem Appends.attempt_of_lt
    (appends : Appends content counting attempt sub own pieces done full)
    (sound : buffer.Sound) (room : plain.extent ≤ buffer.size)
    (converted : StandsAt buffer plain.extent
      (sub.convertOffsetToPtr buffer.ptr buffer.size) (some position))
    (beyond : buffer.size < position + pieces.flatten.length) :
    ∃ partly, attempt buffer = (.outOfMemory, full buffer
        ⟨⟨(position + pieces.flatten.length : Nat) - (buffer.size : Int), 0,
          own⟩, partly⟩) ∧
      ∀ address, address < position ∨
          position + pieces.flatten.length ≤ address →
        partly address = buffer.content address := by
  have nonneg := sound.ptr
  have known : buffer.ptr + (buffer.size : Int) = 0 → buffer.ptr = 0 := by
    omega
  generalize same : sub.convertOffsetToPtr buffer.ptr buffer.size =
    absolute at converted
  cases converted with
  | here inside =>
      obtain ⟨partly, result, frame⟩ := @appendPieces_of_lt buffer.ptr
        buffer.size position own pieces buffer.content known (by omega) beyond
      refine ⟨partly, appends.lacks buffer _ ?_, frame⟩
      rw [same]
      exact result

theorem Appends.outcome_here {first : Bytes} {rest : List Bytes}
    (appends : Appends content counting attempt sub own (first :: rest) done
      full) (sound : buffer.Sound) (room : plain.extent ≤ buffer.size)
    (stands : Stands buffer plain.extent sub plainSub)
    (here : plainSub.position = some position)
    (inside : position ≤ plain.extent) :
    Succeeds env content counting attempt own (first :: rest) done buffer
        plain plainSub.position ∨
      Fails env content counting attempt own (first :: rest) full buffer
        plain plainSub.position := by
  have converted := stands.convert sound room
  rw [here] at converted
  rw [here]
  rcases Nat.lt_or_ge buffer.maxSize
    (position + (first :: rest).flatten.length) with exceeds | allowed
  · right
    have size := sound.size
    obtain ⟨partly, failed, -⟩ := appends.attempt_of_lt sound room converted
      (by omega)
    have again := @retryGrown_of_exceeds env _ content counting attempt
      buffer _ failed (by rw [appends.counting _ _ rfl]; simp only; omega)
    rw [appends.content_full] at again
    refine ⟨_, place_cons_none exceeds, again, rfl, ?_⟩
    apply StandsAt.full
    · omega
    · omega
  · left
    rcases Nat.lt_or_ge buffer.size
      (position + (first :: rest).flatten.length) with beyond | fits
    · obtain ⟨partly, failed, frame⟩ := appends.attempt_of_lt sound room
        converted beyond
      have missing := appends.counting buffer _ (rfl : (⟨⟨(position +
        (first :: rest).flatten.length : Nat) - (buffer.size : Int), 0,
          own⟩, partly⟩ : Writing).sub.endPtr = 0)
      simp only at missing
      obtain ⟨grown, again, grows, large, kept⟩ :=
        @retryGrown_of_le env _ content counting attempt buffer _ failed
          (by omega) (by omega)
      have enough : position + (first :: rest).flatten.length ≤
          grown.size := by omega
      have later : plain.extent ≤ grown.size :=
        Nat.le_trans room grows.size
      have converted := (stands.grows grows (Nat.le_refl _)).convert
        grows.sound later
      rw [here] at converted
      rw [appends.attempt_of_le converted enough, appends.content_done]
        at again
      refine ⟨_, _, grown, _, place_cons allowed, again, grows,
        Nat.le_max_left _ _, ?_, rfl, rfl, ?_, ?_⟩
      · exact Nat.max_le.mpr ⟨later, enough⟩
      · exact .here (Nat.le_max_right _ _)
      · intro holds
        apply holdsText_patch inside
        intro address below outside
        rw [kept address (by omega), appends.content_full]
        exact (frame address outside).trans (holds address below)
    · have attempted := appends.attempt_of_le converted fits
      have once := @retryGrown_of_ne env _ content counting attempt buffer
        (by rw [attempted]; exact RepResult.noConfusion)
      rw [attempted, appends.content_done] at once
      refine ⟨_, _, buffer, _, place_cons allowed, once, sound.refl,
        Nat.le_max_left _ _, ?_, rfl, rfl, ?_, ?_⟩
      · exact Nat.max_le.mpr ⟨room, fits⟩
      · exact .here (Nat.le_max_right _ _)
      · intro holds
        apply holdsText_patch inside
        intro address below _
        exact holds address below

theorem Appends.outcome_nil
    (appends : Appends content counting attempt sub own [] done full)
    (sound : buffer.Sound) (room : plain.extent ≤ buffer.size)
    (stands : Stands buffer plain.extent sub plainSub) :
    Succeeds env content counting attempt own [] done buffer plain
      plainSub.position := by
  obtain ⟨position, items⟩ := plainSub
  have attempted := appends.fits buffer _ rfl
  have once := @retryGrown_of_ne env _ content counting attempt buffer
    (by rw [attempted]; exact RepResult.noConfusion)
  rw [attempted, appends.content_done] at once
  refine ⟨position, plain, buffer, _, rfl, once, sound.refl,
    Nat.le_refl _, room, rfl, rfl, ?_, id⟩
  have converted := stands.convert sound room
  generalize sub.convertOffsetToPtr buffer.ptr buffer.size = absolute at *
  cases converted with
  | here inside => exact .here inside
  | full counting exceeds => exact .full counting exceeds

theorem Appends.outcome_full {first : Bytes} {rest : List Bytes}
    (appends : Appends content counting attempt sub own (first :: rest) done
      full)
    (sound : buffer.Sound) (room : plain.extent ≤ buffer.size)
    (stands : Stands buffer plain.extent sub plainSub)
    (counts : plainSub.position = none) :
    Fails env content counting attempt own (first :: rest) full buffer plain
      plainSub.position := by
  have converted := stands.convert sound room
  rw [counts] at converted ⊢
  generalize same : sub.convertOffsetToPtr buffer.ptr buffer.size =
    absolute at converted
  cases converted with
  | @full missing _ positive exceeds =>
      have result : appendPieces buffer.ptr (first :: rest)
          ⟨⟨missing, 0, own⟩, buffer.content⟩ =
          (false, ⟨⟨missing + (first :: rest).flatten.length, 0, own⟩,
            buffer.content⟩) := appendPieces_counting positive
      have failed := appends.lacks buffer _ (by rw [same]; exact result)
      have again := @retryGrown_of_exceeds env _ content counting attempt
        buffer _ failed (by rw [appends.counting _ _ rfl]; simp only; omega)
      rw [appends.content_full] at again
      refine ⟨_, rfl, again, rfl, ?_⟩
      apply StandsAt.full
      · omega
      · omega

theorem Appends.outcome (env : EncoderEnv)
    (appends : Appends content counting attempt sub own pieces done full)
    (sound : buffer.Sound) (room : plain.extent ≤ buffer.size)
    (stands : Stands buffer plain.extent sub plainSub) :
    Succeeds env content counting attempt own pieces done buffer plain
        plainSub.position ∨
      Fails env content counting attempt own pieces full buffer plain
        plainSub.position := by
  cases pieces with
  | nil => exact .inl (appends.outcome_nil sound room stands)
  | cons first rest =>
      cases position : plainSub.position with
      | none =>
          right
          rw [← position]
          exact appends.outcome_full sound room stands position
      | some start =>
          rw [← position]
          apply appends.outcome_here sound room stands position
          cases stands with
          | here inside =>
              cases position
              exact inside
          | full counting exceeds => cases position

end Placing

end IotivityLite
