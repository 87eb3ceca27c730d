import IotivityLite.Rep.PlainEncoder

/-!
# Calls over a buffer that grows

Every call over a buffer does what the call without a buffer does, apart from
raw writes to an encoder that does not know the end of its buffer, and from
null that is written by another encoder than the global one.
-/

namespace IotivityLite

section Call

variable {impl : EncoderImpl} {env : EncoderEnv} {encoder : RepEncoder}
  {plain : PlainEncoder}

/-- What the calls of the two encoders have in common. -/
structure Agrees (before : RepEncoder) (beforePlain : PlainEncoder)
    (after : RepResult × RepEncoder)
    (afterPlain : RepResult × PlainEncoder) : Prop where
  result : after.1 = afterPlain.1
  represents : after.2.Represents afterPlain.2
  maxSize : after.2.buffer.maxSize = before.buffer.maxSize
  content : after.1 ≠ .outOfMemory →
    before.buffer.HoldsText beforePlain →
    after.2.buffer.HoldsText afterPlain.2

theorem RepEncoder.Represents.update {buffer : EncoderBuffer} {memory : Mem}
    {after : PlainEncoder} {index : Nat} {sub : SubEncoder}
    {plainSub : PlainSub} (represents : encoder.Represents plain)
    (grows : encoder.buffer.Grows buffer)
    (more : plain.extent ≤ after.extent) (room : after.extent ≤ buffer.size)
    (others : after.subs = plain.subs)
    (stands : Stands buffer after.extent sub plainSub) :
    RepEncoder.Represents
      { buffer := { buffer with content := memory }
        subs := Function.update encoder.subs index sub }
      (after.setSub index plainSub) := by
  refine ⟨⟨grows.sound.ptr, grows.sound.null, grows.sound.size⟩, room, ?_⟩
  intro other
  by_cases same : other = index
  · subst same
    simp only [PlainEncoder.setSub, Function.update_self]
    exact stands.withContent memory
  · simp only [PlainEncoder.setSub, Function.update_of_ne same, others]
    exact ((represents.subs other).grows grows more).withContent memory

theorem RepEncoder.Represents.update_pair {buffer : EncoderBuffer}
    {memory : Mem} {after : PlainEncoder} {index container : Nat}
    {sub inside : SubEncoder} {plainSub plainInside : PlainSub}
    (represents : encoder.Represents plain)
    (grows : encoder.buffer.Grows buffer)
    (more : plain.extent ≤ after.extent) (room : after.extent ≤ buffer.size)
    (others : after.subs = plain.subs)
    (stands : Stands buffer after.extent sub plainSub)
    (stands_inside : Stands buffer after.extent inside plainInside) :
    RepEncoder.Represents
      { buffer := { buffer with content := memory }
        subs := Function.update (Function.update encoder.subs index sub)
          container inside }
      ((after.setSub index plainSub).setSub container plainInside) := by
  have first := @RepEncoder.Represents.update encoder plain buffer memory
    after index sub plainSub represents grows more room others stands
  exact @RepEncoder.Represents.update _ _ { buffer with content := memory }
    memory _ container _ _ first first.sound.refl (Nat.le_refl _) room rfl
    (stands_inside.withContent memory)

theorem appends_write (env : EncoderEnv) {index : Nat} {item : RepItem}
    {pieces : List Bytes} {done full : ItemState}
    (plan : impl.item (encoder.subs index).items item =
      .append pieces done full) :
    Appends Writing.content Writing.sub
      (fun buffer => writeInternal impl env buffer item (encoder.subs index))
      (encoder.subs index) (encoder.subs index).items pieces
      (fun buffer state => { state with
        sub := SubEncoder.convertPtrToOffset (buffer.backPtr env item)
          { state.sub with items := done } })
      (fun buffer state => { state with
        sub := SubEncoder.convertPtrToOffset (buffer.backPtr env item)
          { state.sub with items := full } }) := by
  have planned : ∀ buffer : EncoderBuffer, impl.item
      ((encoder.subs index).convertOffsetToPtr buffer.ptr buffer.size).items
      item = .append pieces done full := by
    intro buffer
    rw [items_convertOffsetToPtr, plan]
  constructor
  · intro buffer state appended
    rw [convertOffsetToPtr_with_items] at appended
    simp only [writeInternal, planned, appended]
  · intro buffer state appended
    rw [convertOffsetToPtr_with_items] at appended
    simp only [writeInternal, planned, appended]
  · intro buffer state
    rfl
  · intro buffer state
    rfl
  · intro buffer state counts
    exact extraBytesNeeded_convertPtrToOffset counts

/-- Pointers are converted back for the right buffer. -/
def EncoderEnv.Converts (env : EncoderEnv) (item : RepItem) : Prop :=
  ∀ buffer : EncoderBuffer, buffer.backPtr env item = buffer.ptr

theorem PlainEncoder.setSub_self (plain : PlainEncoder) (index : Nat) :
    plain.setSub index (plain.subs index) = plain := by
  simp [PlainEncoder.setSub]

theorem Stands.refused {buffer : EncoderBuffer} {extent : Nat}
    {sub : SubEncoder} {plainSub : PlainSub}
    (stands : Stands buffer extent sub plainSub) (sound : buffer.Sound)
    (room : extent ≤ buffer.size) :
    Stands buffer extent
      (SubEncoder.convertPtrToOffset buffer.ptr
        (sub.convertOffsetToPtr buffer.ptr buffer.size)) plainSub := by
  have back := (stands.convert sound room).convert sound room plainSub.items
  rwa [← stands.items, convertOffsetToPtr_with_items, stands.items] at back

theorem agrees_write {index : Nat} {item : RepItem}
    (represents : encoder.Represents plain) (converts : env.Converts item) :
    Agrees encoder plain (encoder.write impl env index item)
      (plain.write impl (some encoder.buffer.maxSize) index item) := by
  have stands := represents.subs index
  have sound := represents.sound
  have room := represents.extent
  have items := stands.items
  cases plan : impl.item (encoder.subs index).items item with
  | refused error =>
      have attempted : writeInternal impl env encoder.buffer item
          (encoder.subs index) = (.refused error,
            ⟨SubEncoder.convertPtrToOffset encoder.buffer.ptr
              ((encoder.subs index).convertOffsetToPtr encoder.buffer.ptr
                encoder.buffer.size), encoder.buffer.content⟩) := by
        simp only [writeInternal, items_convertOffsetToPtr, plan,
          converts encoder.buffer]
      have once := @retryGrown_of_ne env _ Writing.content Writing.sub
        (fun buffer => writeInternal impl env buffer item
          (encoder.subs index)) encoder.buffer
        (by rw [attempted]; exact RepResult.noConfusion)
      rw [attempted] at once
      have plainly : plain.write impl (some encoder.buffer.maxSize) index
          item = (.refused error, plain) := by
        simp only [PlainEncoder.write, ← items, plan]
      rw [plainly]
      simp only [RepEncoder.write, once]
      refine ⟨rfl, ?_, rfl, fun _ holds => holds⟩
      have after := @RepEncoder.Represents.update encoder plain _
        encoder.buffer.content plain index _ _ represents sound.refl
        (Nat.le_refl _) room rfl (stands.refused sound room)
      rwa [PlainEncoder.setSub_self] at after
  | append pieces done full =>
      rcases (appends_write env plan).outcome env sound room stands with
        ⟨position, after, grown, state, placed, result, grows, more, enough,
          others, -, standing, holds⟩ | ⟨state, placed, result, -, standing⟩
      · have plainly : plain.write impl (some encoder.buffer.maxSize) index
            item = (.noError, after.setSub index ⟨position, done⟩) := by
          simp only [PlainEncoder.write, ← items, plan, placed]
        rw [plainly]
        simp only [RepEncoder.write, result, converts grown]
        refine ⟨rfl, ?_, grows.maxSize, fun _ => holds⟩
        exact represents.update grows more enough others
          (standing.convert grows.sound enough done)
      · have plainly : plain.write impl (some encoder.buffer.maxSize) index
            item = (.outOfMemory, plain.setSub index ⟨none, full⟩) := by
          simp only [PlainEncoder.write, ← items, plan, placed]
        rw [plainly]
        simp only [RepEncoder.write, result, converts encoder.buffer]
        refine ⟨rfl, ?_, rfl, fun impossible => absurd rfl impossible⟩
        exact represents.update sound.refl (Nat.le_refl _) room rfl
          (standing.convert sound room full)

theorem appends_create {index container : Nat} {isMap : Bool}
    {length : Option Nat} {pieces : List Bytes} {done full child : ItemState}
    (plan : impl.container (encoder.subs index).items isMap length =
      .append pieces done full child) :
    Appends PairWriting.content PairWriting.container
      (fun buffer => createInternal impl buffer isMap length
        (encoder.subs index) (encoder.subs container))
      (encoder.subs index) (encoder.subs index).items pieces
      (fun buffer state =>
        { sub := SubEncoder.convertPtrToOffset buffer.ptr
            { if impl.byParent then state.sub
              else (encoder.subs index).convertOffsetToPtr buffer.ptr
                buffer.size with items := done }
          container := SubEncoder.convertPtrToOffset buffer.ptr
            { state.sub with items := child }
          content := state.content })
      (fun buffer state =>
        { sub := SubEncoder.convertPtrToOffset buffer.ptr
            { if impl.byParent then state.sub
              else (encoder.subs index).convertOffsetToPtr buffer.ptr
                buffer.size with items := full }
          container := SubEncoder.convertPtrToOffset buffer.ptr
            { state.sub with items := if impl.byParent then full else child }
          content := state.content }) := by
  have planned : ∀ buffer : EncoderBuffer, impl.container
      ((encoder.subs index).convertOffsetToPtr buffer.ptr buffer.size).items
      isMap length = .append pieces done full child := by
    intro buffer
    rw [items_convertOffsetToPtr, plan]
  constructor
  · intro buffer state appended
    rw [convertOffsetToPtr_with_items] at appended
    simp only [createInternal, planned, appended]
    cases impl.byParent <;> rfl
  · intro buffer state appended
    rw [convertOffsetToPtr_with_items] at appended
    simp only [createInternal, planned, appended]
    cases impl.byParent <;> rfl
  · intro buffer state
    rfl
  · intro buffer state
    rfl
  · intro buffer state counts
    exact extraBytesNeeded_convertPtrToOffset counts

theorem agrees_create {index container : Nat} {isMap : Bool}
    {length : Option Nat} (represents : encoder.Represents plain) :
    Agrees encoder plain
      (encoder.writePair env index container PairWriting.container
        (createInternal impl · isMap length))
      (plain.create impl (some encoder.buffer.maxSize) index container isMap
        length) := by
  have stands := represents.subs index
  have inside := represents.subs container
  have sound := represents.sound
  have room := represents.extent
  have items := stands.items
  cases plan : impl.container (encoder.subs index).items isMap length with
  | refused error =>
      have attempted : createInternal impl encoder.buffer isMap length
          (encoder.subs index) (encoder.subs container) = (.refused error,
            ⟨SubEncoder.convertPtrToOffset encoder.buffer.ptr
              ((encoder.subs index).convertOffsetToPtr encoder.buffer.ptr
                encoder.buffer.size),
              SubEncoder.convertPtrToOffset encoder.buffer.ptr
              ((encoder.subs container).convertOffsetToPtr encoder.buffer.ptr
                encoder.buffer.size), encoder.buffer.content⟩) := by
        simp only [createInternal, items_convertOffsetToPtr, plan]
      have once := @retryGrown_of_ne env _ PairWriting.content
        PairWriting.container
        (fun buffer => createInternal impl buffer isMap length
          (encoder.subs index) (encoder.subs container)) encoder.buffer
        (by rw [attempted]; exact RepResult.noConfusion)
      rw [attempted] at once
      have plainly : plain.create impl (some encoder.buffer.maxSize) index
          container isMap length = (.refused error, plain) := by
        simp only [PlainEncoder.create, ← items, plan]
      rw [plainly]
      simp only [RepEncoder.writePair, once]
      refine ⟨rfl, ?_, rfl, fun _ holds => holds⟩
      have after := @RepEncoder.Represents.update_pair encoder plain _
        encoder.buffer.content plain index container _ _ _ _ represents
        sound.refl (Nat.le_refl _) room rfl (stands.refused sound room)
        (inside.refused sound room)
      rwa [PlainEncoder.setSub_self, PlainEncoder.setSub_self] at after
  | append pieces done full child =>
      rcases (@appends_create impl encoder index container _ _ _ _ _ _
        plan).outcome env sound room stands with
        ⟨position, after, grown, state, placed, result, grows, more, enough,
          others, -, standing, holds⟩ | ⟨state, placed, result, -, standing⟩
      · have plainly : plain.create impl (some encoder.buffer.maxSize) index
            container isMap length = (.noError, (after.setSub index
              ⟨if impl.byParent then position
                else (plain.subs index).position, done⟩).setSub container
                ⟨position, child⟩) := by
          simp only [PlainEncoder.create, ← items, plan, placed]
        rw [plainly]
        simp only [RepEncoder.writePair, result]
        refine ⟨rfl, ?_, grows.maxSize, fun _ => holds⟩
        apply represents.update_pair grows more enough others
        · cases impl.byParent with
          | true => exact standing.convert grows.sound enough done
          | false =>
              exact ((stands.grows grows more).convert grows.sound
                enough).convert grows.sound enough done
        · exact standing.convert grows.sound enough child
      · have plainly : plain.create impl (some encoder.buffer.maxSize) index
            container isMap length = (.outOfMemory, (plain.setSub index
              ⟨if impl.byParent then none
                else (plain.subs index).position, full⟩).setSub container
                ⟨none, if impl.byParent then full else child⟩) := by
          simp only [PlainEncoder.create, ← items, plan, placed]
          cases impl.byParent <;> rfl
        rw [plainly]
        simp only [RepEncoder.writePair, result]
        refine ⟨rfl, ?_, rfl, fun impossible => absurd rfl impossible⟩
        apply represents.update_pair sound.refl (Nat.le_refl _) room rfl
        · cases impl.byParent with
          | true => exact standing.convert sound room full
          | false =>
              exact (stands.convert sound room).convert sound room full
        · exact standing.convert sound room _

theorem appends_close {index container : Nat} {pieces : List Bytes}
    (plan : impl.close (encoder.subs container).items = .append pieces) :
    Appends PairWriting.content PairWriting.sub
      (fun buffer => closeInternal impl buffer (encoder.subs index)
        (encoder.subs container))
      (encoder.subs container) (encoder.subs index).items pieces
      (fun buffer state =>
        { sub := state.sub.convertPtrToOffset buffer.ptr
          container := SubEncoder.convertPtrToOffset buffer.ptr
            ((encoder.subs container).convertOffsetToPtr buffer.ptr
              buffer.size)
          content := state.content })
      (fun buffer state =>
        { sub := state.sub.convertPtrToOffset buffer.ptr
          container := SubEncoder.convertPtrToOffset buffer.ptr
            ((encoder.subs container).convertOffsetToPtr buffer.ptr
              buffer.size)
          content := state.content }) := by
  have planned : ∀ buffer : EncoderBuffer, impl.close
      ((encoder.subs container).convertOffsetToPtr buffer.ptr
        buffer.size).items = .append pieces := by
    intro buffer
    rw [items_convertOffsetToPtr, plan]
  have taken : ∀ buffer : EncoderBuffer,
      ({ (encoder.subs container).convertOffsetToPtr buffer.ptr
          buffer.size with items := (encoder.subs index).items } :
          SubEncoder) =
        { (encoder.subs index).convertOffsetToPtr buffer.ptr buffer.size with
          data := ((encoder.subs container).convertOffsetToPtr buffer.ptr
            buffer.size).data
          endPtr := ((encoder.subs container).convertOffsetToPtr buffer.ptr
            buffer.size).endPtr } := by
    intro buffer
    simp only [items_convertOffsetToPtr]
  constructor
  · intro buffer state appended
    rw [taken] at appended
    simp only [closeInternal, planned, appended]
  · intro buffer state appended
    rw [taken] at appended
    simp only [closeInternal, planned, appended]
  · intro buffer state
    rfl
  · intro buffer state
    rfl
  · intro buffer state counts
    exact extraBytesNeeded_convertPtrToOffset counts

theorem StandsAt.withItems {buffer : EncoderBuffer} {extent : Nat}
    {sub : SubEncoder} {position : Option Nat}
    (stands : StandsAt buffer extent sub position) (sound : buffer.Sound)
    (room : extent ≤ buffer.size) :
    Stands buffer extent (sub.convertPtrToOffset buffer.ptr)
      ⟨position, sub.items⟩ :=
  stands.convert sound room sub.items

theorem agrees_close {index container : Nat} (distinct : index ≠ container)
    (represents : encoder.Represents plain) :
    Agrees encoder plain
      (encoder.writePair env index container PairWriting.sub
        (closeInternal impl))
      (plain.close impl (some encoder.buffer.maxSize) index container) := by
  have stands := represents.subs index
  have inside := represents.subs container
  have sound := represents.sound
  have room := represents.extent
  have items := inside.items
  have own := stands.items
  -- the container itself stays where it is
  have stays : ∀ (after : PlainEncoder) (sub : PlainSub),
      after.subs = plain.subs →
      (after.setSub index sub).setSub container (plain.subs container) =
        after.setSub index sub := by
    intro after sub same
    have here : (after.setSub index sub).subs container =
        plain.subs container := by
      simp [PlainEncoder.setSub, Function.update_of_ne distinct.symm, same]
    rw [← here, PlainEncoder.setSub_self]
  cases plan : impl.close (encoder.subs container).items with
  | refused error =>
      have attempted : closeInternal impl encoder.buffer
          (encoder.subs index) (encoder.subs container) = (.refused error,
            ⟨SubEncoder.convertPtrToOffset encoder.buffer.ptr
              { (encoder.subs container).convertOffsetToPtr
                  encoder.buffer.ptr encoder.buffer.size with
                items := (plain.subs index).items },
              SubEncoder.convertPtrToOffset encoder.buffer.ptr
              ((encoder.subs container).convertOffsetToPtr encoder.buffer.ptr
                encoder.buffer.size), encoder.buffer.content⟩) := by
        simp only [closeInternal, items_convertOffsetToPtr, plan, own]
      have once := @retryGrown_of_ne env _ PairWriting.content
        PairWriting.sub
        (fun buffer => closeInternal impl buffer (encoder.subs index)
          (encoder.subs container)) encoder.buffer
        (by rw [attempted]; exact RepResult.noConfusion)
      rw [attempted] at once
      have plainly : plain.close impl (some encoder.buffer.maxSize) index
          container = (.refused error, plain.setSub index
            ⟨(plain.subs container).position,
              (plain.subs index).items⟩) := by
        simp only [PlainEncoder.close, ← items, plan]
      rw [plainly]
      simp only [RepEncoder.writePair, once]
      refine ⟨rfl, ?_, rfl, fun _ holds => holds⟩
      rw [← stays plain _ rfl]
      exact @RepEncoder.Represents.update_pair encoder plain _
        encoder.buffer.content plain index container _ _ _ _ represents
        sound.refl (Nat.le_refl _) room rfl
        ((inside.convert sound room).convert sound room _)
        (inside.refused sound room)
  | append pieces =>
      rcases (@appends_close impl encoder index container _ plan).outcome env
        sound room inside with
        ⟨position, after, grown, state, placed, result, grows, more, enough,
          others, kept, standing, holds⟩ |
        ⟨state, placed, result, kept, standing⟩
      · have plainly : plain.close impl (some encoder.buffer.maxSize) index
            container = (.noError, after.setSub index
              ⟨position, (plain.subs index).items⟩) := by
          simp only [PlainEncoder.close, ← items, plan, placed]
        rw [plainly]
        simp only [RepEncoder.writePair, result]
        refine ⟨rfl, ?_, grows.maxSize, fun _ => holds⟩
        rw [← stays after _ others]
        have moved := standing.withItems grows.sound enough
        rw [kept, own] at moved
        exact represents.update_pair grows more enough others moved
          ((inside.grows grows more).refused grows.sound enough)
      · have plainly : plain.close impl (some encoder.buffer.maxSize) index
            container = (.outOfMemory, plain.setSub index
              ⟨none, (plain.subs index).items⟩) := by
          simp only [PlainEncoder.close, ← items, plan, placed]
        rw [plainly]
        simp only [RepEncoder.writePair, result]
        refine ⟨rfl, ?_, rfl, fun impossible => absurd rfl impossible⟩
        rw [← stays plain _ rfl]
        have moved := standing.withItems sound room
        rw [kept, own] at moved
        exact represents.update_pair sound.refl (Nat.le_refl _) room rfl
          moved (inside.refused sound room)

/-- The root encoder knows where the buffer ends, or counts. -/
def RepEncoder.EndKnown (encoder : RepEncoder) : Prop :=
  (encoder.subs 0).endPtr = 0 → (encoder.subs 0).data ≠ 0

theorem agrees_raw_of_le {data : Bytes} {position : Nat}
    {grown : EncoderBuffer} (represents : encoder.Represents plain)
    (here : (plain.subs 0).position = some position)
    (grows : encoder.buffer.Grows grown)
    (kept : ∀ address, address < encoder.buffer.size →
      grown.content address = encoder.buffer.content address)
    (enough : position + data.length ≤ grown.size)
    (allowed : position + data.length ≤ encoder.buffer.maxSize)
    (written : encoder.writeRaw env data = (.noError,
      { buffer := { grown with
          content := grown.content.patch
            (((encoder.subs 0).convertOffsetToPtr grown.ptr
              grown.size).data - grown.ptr).toNat data }
        subs := Function.update encoder.subs 0
          (SubEncoder.convertPtrToOffset grown.ptr
            { (encoder.subs 0).convertOffsetToPtr grown.ptr grown.size with
              data := ((encoder.subs 0).convertOffsetToPtr grown.ptr
                grown.size).data + data.length }) })) :
    Agrees encoder plain (encoder.writeRaw env data)
      (plain.writeRaw (some encoder.buffer.maxSize) data) := by
  have stands := represents.subs 0
  have room := represents.extent
  have later := (stands.grows grows (Nat.le_refl _)).convert grows.sound
    (Nat.le_trans room grows.size)
  have items := stands.items
  rw [here] at later
  have placed := @place_cons plain data [] position encoder.buffer.maxSize
    (by simpa using allowed)
  simp only [List.flatten_cons, List.flatten_nil, List.append_nil] at placed
  have plainly : plain.writeRaw (some encoder.buffer.maxSize) data =
      (.noError, PlainEncoder.setSub
        { plain with
          text := plain.text.patch position data
          extent := max plain.extent (position + data.length) } 0
        ⟨some (position + data.length), (plain.subs 0).items⟩) := by
    simp only [PlainEncoder.writeRaw, here, placed]
  rw [written, plainly]
  have own : ((encoder.subs 0).convertOffsetToPtr grown.ptr
      grown.size).items = (plain.subs 0).items := by
    rw [items_convertOffsetToPtr, items]
  generalize (encoder.subs 0).convertOffsetToPtr grown.ptr grown.size =
    absolute at later own ⊢
  cases later with
  | @here _ held inside =>
      have offset : (grown.ptr + (position : Int) - grown.ptr).toNat =
          position := by omega
      have next : grown.ptr + (position : Int) + (data.length : Int) =
          grown.ptr + ((position + data.length : Nat) : Int) := by
        push_cast
        ring
      simp only [offset, next]
      have sized : max plain.extent (position + data.length) ≤
          grown.size := Nat.max_le.mpr ⟨Nat.le_trans room grows.size, enough⟩
      have moved : StandsAt grown
          (max plain.extent (position + data.length))
          ⟨grown.ptr + ((position + data.length : Nat) : Int),
            grown.ptr + grown.size, held⟩
          (some (position + data.length)) := .here (Nat.le_max_right _ _)
      refine ⟨rfl, ?_, grows.maxSize, ?_⟩
      · have back := moved.withItems grows.sound sized
        simp only at own
        rw [own] at back
        exact represents.update grows (Nat.le_max_left _ _) sized rfl
          (own ▸ back)
      · intro _ holds
        apply holdsText_patch inside
        intro address below _
        rw [kept address (by omega)]
        exact holds address below

theorem agrees_raw {data : Bytes} (represents : encoder.Represents plain)
    (known : encoder.EndKnown) :
    Agrees encoder plain (encoder.writeRaw env data)
      (plain.writeRaw (some encoder.buffer.maxSize) data) := by
  have stands := represents.subs 0
  have sound := represents.sound
  have room := represents.extent
  cases start : (plain.subs 0).position with
  | none =>
      have ended : (encoder.subs 0).endPtr = 0 := by
        generalize encoder.subs 0 = sub at stands
        generalize plain.subs 0 = plainSub at stands start
        cases stands with
        | here inside _ _ => cases start
        | full counting exceeds => rfl
      have failed : encoder.writeRaw env data =
          (.refused .internalError, encoder) := if_pos ended
      have plainly : plain.writeRaw (some encoder.buffer.maxSize) data =
          (.refused .internalError, plain) := by
        simp only [PlainEncoder.writeRaw, start]
      rw [failed, plainly]
      exact ⟨rfl, represents, rfl, fun _ holds => holds⟩
  | some position =>
      have place : (encoder.subs 0).data = position ∧
          position ≤ plain.extent ∧ (encoder.subs 0).endPtr ≠ 0 := by
        unfold RepEncoder.EndKnown at known
        generalize encoder.subs 0 = sub at stands known
        generalize plain.subs 0 = plainSub at stands start
        cases stands with
        | here inside ended _ =>
            cases start
            refine ⟨rfl, inside, ?_⟩
            intro zero
            have := known zero
            have := ended zero
            simp only at *
            omega
        | full counting exceeds => cases start
      obtain ⟨offset, inside, ended⟩ := place
      have remaining : (encoder.buffer.size : Int) - (encoder.subs 0).data =
          encoder.buffer.size - position := by rw [offset]
      by_cases fits : (encoder.buffer.size : Int) - position < data.length
      · rcases Nat.lt_or_ge encoder.buffer.maxSize
          (position + data.length) with exceeds | allowed
        · have failed : encoder.writeRaw env data =
              (.outOfMemory, encoder) := by
            simp only [RepEncoder.writeRaw, if_neg ended, remaining,
              if_pos fits]
            rw [realloc_of_lt (by omega)]
          have plainly : plain.writeRaw (some encoder.buffer.maxSize) data =
              (.outOfMemory, plain) := by
            have nowhere := @place_cons_none plain data [] position
              encoder.buffer.maxSize (by simpa using exceeds)
            simp only [PlainEncoder.writeRaw, start, nowhere]
          rw [failed, plainly]
          exact ⟨rfl, represents, rfl,
            fun impossible => absurd rfl impossible⟩
        · obtain ⟨grown, memory, grows, large, kept⟩ :=
            @realloc_of_le env encoder.buffer
              (data.length - (encoder.buffer.size - position)) (by omega)
              (by omega)
          apply agrees_raw_of_le represents start grows kept (by omega)
            allowed
          simp only [RepEncoder.writeRaw, if_neg ended, remaining,
            if_pos fits, memory]
      · have size := sound.size
        apply agrees_raw_of_le represents start sound.refl (fun _ _ => rfl)
          (by omega) (by omega)
        simp only [RepEncoder.writeRaw, if_neg ended, remaining, if_neg fits]

/-- The calls that do not run into a defect: a raw write needs a root encoder
that knows the end of the buffer, and null must not be written by another
encoder than the global one. -/
def RepEncoder.Admits (env : EncoderEnv) (encoder : RepEncoder) :
    RepCall → Prop
  | .raw _ => encoder.EndKnown
  | .write _ .null => env.globalPtr = none
  | _ => True

theorem agrees_call {call : RepCall} (represents : encoder.Represents plain)
    (admits : encoder.Admits env call) :
    Agrees encoder plain (encoder.call impl env call)
      (plain.call impl (some encoder.buffer.maxSize) call) := by
  cases call with
  | write index item =>
      apply agrees_write represents
      intro buffer
      cases item with
      | null =>
          simp only [RepEncoder.Admits] at admits
          simp only [EncoderBuffer.backPtr, admits, Option.getD_none]
      | _ => rfl
  | create index container distinct isMap length =>
      exact agrees_create represents
  | close index container distinct => exact agrees_close distinct represents
  | raw data => exact agrees_raw represents admits

end Call

end IotivityLite
