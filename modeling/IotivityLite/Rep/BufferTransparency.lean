import IotivityLite.Foundation.Run
import IotivityLite.Rep.BufferGrowth

/-!
# The growth of the buffer cannot be seen

Runs over buffers of different sizes return the same codes and write the same
payload, and they fail where the payload exceeds the maximum.
-/

namespace IotivityLite

section Runs

variable {impl : EncoderImpl} {env : EncoderEnv}

/-- The codes that the calls return. -/
def RepEncoder.results (impl : EncoderImpl) (env : EncoderEnv)
    (encoder : RepEncoder) (calls : List RepCall) : List RepResult :=
  runOutputs (RepEncoder.step impl env) (RepEncoder.result impl env) encoder
    calls

def PlainEncoder.results (impl : EncoderImpl) (limit : Option Nat)
    (plain : PlainEncoder) (calls : List RepCall) : List RepResult :=
  runOutputs (PlainEncoder.step impl limit) (PlainEncoder.result impl limit)
    plain calls

theorem represents_init (block : HeapBlock) {maxSize : Nat}
    (small : block.size ≤ maxSize) :
    (RepEncoder.init block maxSize).Represents .init := by
  have nonneg := block.ptr_nonneg
  have sound : (RepEncoder.init block maxSize).buffer.Sound :=
    ⟨block.ptr_nonneg, block.size_of_null, small⟩
  refine ⟨sound, Nat.zero_le _, ?_⟩
  intro index
  by_cases root : index = 0
  · subst root
    have start : StandsAt (RepEncoder.init block maxSize).buffer 0
        ⟨block.ptr + (0 : Nat), block.ptr + block.size,
          { remaining := some 2 }⟩ (some 0) := .here (Nat.le_refl 0)
    have stands := start.withItems sound (Nat.zero_le _)
    simp only [Nat.cast_zero, Int.add_zero] at stands
    exact stands
  · simp only [RepEncoder.init, PlainEncoder.init,
      Function.update_of_ne root]
    exact .here (Nat.le_refl 0) (fun _ => rfl) (fun _ => rfl)

/-- In a run the growing buffer answers like one of the maximum size. -/
theorem agrees_run {calls : List RepCall} {encoder : RepEncoder}
    {plain : PlainEncoder} {maxSize : Nat}
    (represents : encoder.Represents plain)
    (maximum : encoder.buffer.maxSize = maxSize)
    (along : Along (RepEncoder.step impl env) (RepEncoder.Admits env)
      encoder calls) :
    encoder.results impl env calls =
        plain.results impl (some maxSize) calls ∧
      (runFrom (RepEncoder.step impl env) encoder calls).Represents
        (runFrom (PlainEncoder.step impl (some maxSize)) plain calls) ∧
      (RepResult.outOfMemory ∉ encoder.results impl env calls →
        encoder.buffer.HoldsText plain →
        (runFrom (RepEncoder.step impl env) encoder calls).buffer.HoldsText
          (runFrom (PlainEncoder.step impl (some maxSize)) plain
            calls)) := by
  induction calls generalizing encoder plain with
  | nil => exact ⟨rfl, represents, fun _ holds => holds⟩
  | cons call calls ih =>
      obtain ⟨admits, later⟩ := along
      have agrees := @agrees_call impl env encoder plain call represents
        admits
      rw [maximum] at agrees
      obtain ⟨same, final, holds⟩ := ih agrees.represents
        (agrees.maxSize.trans maximum) later
      have outputs : encoder.results impl env (call :: calls) =
          (encoder.call impl env call).1 ::
            (encoder.step impl env call).results impl env calls := rfl
      refine ⟨?_, final, ?_⟩
      · rw [outputs, agrees.result]
        exact congrArg (List.cons _) same
      · rw [outputs, List.mem_cons, not_or]
        rintro ⟨first, rest⟩ start
        exact holds rest (agrees.content (Ne.symm first) start)

/-- Every encoder stands somewhere. -/
def PlainEncoder.Free (plain : PlainEncoder) : Prop :=
  ∀ index, (plain.subs index).position.isSome = true

theorem PlainEncoder.free_init : PlainEncoder.init.Free := by
  intro index
  by_cases root : index = 0
  · subst root
    rfl
  · simp [PlainEncoder.init, Function.update_of_ne root]

theorem PlainEncoder.Free.setSub {plain : PlainEncoder} {index : Nat}
    {sub : PlainSub} (free : plain.Free)
    (some : sub.position.isSome = true) : (plain.setSub index sub).Free := by
  intro other
  by_cases same : other = index
  · subst same
    simpa [PlainEncoder.setSub] using some
  · simpa [PlainEncoder.setSub, Function.update_of_ne same] using free other

theorem place_limit (plain : PlainEncoder) (pieces : List Bytes)
    (start maxSize : Nat) :
    ∃ position after,
      plain.place none pieces (some start) = some (some position, after) ∧
      after.subs = plain.subs ∧ plain.extent ≤ after.extent ∧
      (after.extent ≤ maxSize →
        plain.place (some maxSize) pieces (some start) =
          some (some position, after)) ∧
      (plain.extent ≤ maxSize → maxSize < after.extent →
        plain.place (some maxSize) pieces (some start) = none) := by
  cases pieces with
  | nil =>
      refine ⟨start, plain, rfl, rfl, Nat.le_refl _, fun _ => rfl, ?_⟩
      intro small large
      omega
  | cons first rest =>
      have unlimited : PlainEncoder.Admits none
          (start + (first :: rest).flatten.length) := by
        rintro _ ⟨⟩
      refine ⟨start + (first :: rest).flatten.length,
        { plain with
          text := plain.text.patch start (first :: rest).flatten
          extent := max plain.extent
            (start + (first :: rest).flatten.length) },
        ?_, rfl, Nat.le_max_left _ _, ?_, ?_⟩
      · simp only [PlainEncoder.place, if_pos unlimited]
      · intro small
        exact place_cons (Nat.le_trans (Nat.le_max_right _ _) small)
      · intro small large
        apply place_cons_none
        simp only at large
        omega

/-- What a call without a limit does, and what a limit changes. -/
structure LimitOnly (maxSize : Nat) (plain : PlainEncoder)
    (unlimited limited : RepResult × PlainEncoder) : Prop where
  result : unlimited.1 ≠ .outOfMemory
  free : unlimited.2.Free
  extent : plain.extent ≤ unlimited.2.extent
  within : unlimited.2.extent ≤ maxSize → limited = unlimited
  exceeds : plain.extent ≤ maxSize → maxSize < unlimited.2.extent →
    limited.1 = .outOfMemory

section Limit

variable {plain : PlainEncoder} {maxSize : Nat}

theorem limitOnly_refused {after : PlainEncoder} {error : RepRefusal}
    (free : after.Free) (same : after.extent = plain.extent) :
    LimitOnly maxSize plain (.refused error, after)
      (.refused error, after) where
  result := RepResult.noConfusion
  free := free
  extent := Nat.le_of_eq same.symm
  within := fun _ => rfl
  exceeds := by
    intro small large
    simp only at large
    omega

theorem limitOnly_placed {pieces : List Bytes} {start : Nat}
    {done : Option Nat → PlainEncoder → PlainEncoder}
    {full : PlainEncoder}
    {call : Option Nat → RepResult × PlainEncoder} (free : plain.Free)
    (placed : ∀ limit position after,
      plain.place limit pieces (some start) = some (position, after) →
      call limit = (.noError, done position after))
    (failed : ∀ limit, plain.place limit pieces (some start) = none →
      call limit = (.outOfMemory, full))
    (extent : ∀ position after, (done position after).extent = after.extent)
    (keeps : ∀ position after, after.Free →
      (done (some position) after).Free) :
    LimitOnly maxSize plain (call none) (call (some maxSize)) := by
  obtain ⟨position, after, found, subs, more, within, exceeds⟩ :=
    place_limit plain pieces start maxSize
  have unlimited := placed none _ _ found
  have free_after : after.Free := by
    intro index
    rw [subs]
    exact free index
  rw [unlimited]
  refine ⟨RepResult.noConfusion, keeps _ _ free_after, ?_, ?_, ?_⟩
  · simp only [extent]
    exact more
  · intro small
    simp only [extent] at small
    exact placed _ _ _ (within small)
  · intro small large
    simp only [extent] at large
    rw [failed _ (exceeds small large)]

theorem limitOnly_write (free : plain.Free) (index : Nat) (item : RepItem) :
    LimitOnly maxSize plain (plain.write impl none index item)
      (plain.write impl (some maxSize) index item) := by
  obtain ⟨start, here⟩ := Option.isSome_iff_exists.mp (free index)
  cases plan : impl.item (plain.subs index).items item with
  | refused error =>
      simp only [PlainEncoder.write, plan]
      exact limitOnly_refused free rfl
  | append pieces done full =>
      refine @limitOnly_placed plain maxSize pieces start
        (fun position after => after.setSub index ⟨position, done⟩)
        (plain.setSub index ⟨none, full⟩)
        (fun limit => plain.write impl limit index item) free ?_ ?_ ?_ ?_
      · intro limit position after found
        simp only [PlainEncoder.write, plan, here, found]
      · intro limit found
        simp only [PlainEncoder.write, plan, here, found]
      · intro position after
        rfl
      · intro position after rest
        exact rest.setSub rfl

theorem limitOnly_create (free : plain.Free) (index container : Nat)
    (isMap : Bool) (length : Option Nat) :
    LimitOnly maxSize plain
      (plain.create impl none index container isMap length)
      (plain.create impl (some maxSize) index container isMap length) := by
  obtain ⟨start, here⟩ := Option.isSome_iff_exists.mp (free index)
  cases plan : impl.container (plain.subs index).items isMap length with
  | refused error =>
      simp only [PlainEncoder.create, plan]
      exact limitOnly_refused free rfl
  | append pieces done full child =>
      refine @limitOnly_placed plain maxSize pieces start
        (fun position after => (after.setSub index
          ⟨if impl.byParent then position else some start, done⟩).setSub
            container ⟨position, child⟩)
        (if impl.byParent then
          (plain.setSub index ⟨none, full⟩).setSub container ⟨none, full⟩
        else
          (plain.setSub index ⟨some start, full⟩).setSub container
            ⟨none, child⟩)
        (fun limit => plain.create impl limit index container isMap length)
        free ?_ ?_ ?_ ?_
      · intro limit position after found
        simp only [PlainEncoder.create, plan, here, found]
      · intro limit found
        simp only [PlainEncoder.create, plan, here, found]
      · intro position after
        rfl
      · intro position after rest
        refine (rest.setSub ?_).setSub rfl
        cases impl.byParent <;> rfl

theorem limitOnly_close (free : plain.Free) (index container : Nat) :
    LimitOnly maxSize plain (plain.close impl none index container)
      (plain.close impl (some maxSize) index container) := by
  obtain ⟨start, here⟩ := Option.isSome_iff_exists.mp (free container)
  cases plan : impl.close (plain.subs container).items with
  | refused error =>
      simp only [PlainEncoder.close, plan]
      exact limitOnly_refused (free.setSub (free container)) rfl
  | append pieces =>
      refine @limitOnly_placed plain maxSize pieces start
        (fun position after => after.setSub index
          ⟨position, (plain.subs index).items⟩)
        (plain.setSub index ⟨none, (plain.subs index).items⟩)
        (fun limit => plain.close impl limit index container) free
        ?_ ?_ ?_ ?_
      · intro limit position after found
        simp only [PlainEncoder.close, plan, here, found]
      · intro limit found
        simp only [PlainEncoder.close, plan, here, found]
      · intro position after
        rfl
      · intro position after rest
        exact rest.setSub rfl

theorem limitOnly_raw (free : plain.Free) (data : Bytes) :
    LimitOnly maxSize plain (plain.writeRaw none data)
      (plain.writeRaw (some maxSize) data) := by
  obtain ⟨start, here⟩ := Option.isSome_iff_exists.mp (free 0)
  refine @limitOnly_placed plain maxSize [data] start
    (fun position after => after.setSub 0
      { plain.subs 0 with position }) plain
    (fun limit => plain.writeRaw limit data) free ?_ ?_ ?_ ?_
  · intro limit position after found
    simp only [PlainEncoder.writeRaw, here, found]
  · intro limit found
    simp only [PlainEncoder.writeRaw, here, found]
  · intro position after
    rfl
  · intro position after rest
    exact rest.setSub rfl

theorem limitOnly_call (free : plain.Free) (call : RepCall) :
    LimitOnly maxSize plain (plain.call impl none call)
      (plain.call impl (some maxSize) call) := by
  cases call with
  | write index item => exact limitOnly_write free index item
  | create index container distinct isMap length =>
      exact limitOnly_create free index container isMap length
  | close index container distinct =>
      exact limitOnly_close free index container
  | raw data => exact limitOnly_raw free data

theorem free_run (free : plain.Free) (calls : List RepCall) :
    (runFrom (PlainEncoder.step impl none) plain calls).Free ∧
      plain.extent ≤
        (runFrom (PlainEncoder.step impl none) plain calls).extent := by
  induction calls generalizing plain with
  | nil => exact ⟨free, Nat.le_refl _⟩
  | cons call calls ih =>
      have only := @limitOnly_call impl plain 0 free call
      obtain ⟨rest, more⟩ := ih only.free
      exact ⟨rest, Nat.le_trans only.extent more⟩

theorem limited_run (free : plain.Free) (small : plain.extent ≤ maxSize)
    (calls : List RepCall) :
    (RepResult.outOfMemory ∈ plain.results impl (some maxSize) calls ↔
      maxSize < (runFrom (PlainEncoder.step impl none) plain
        calls).extent) ∧
    (RepResult.outOfMemory ∉ plain.results impl (some maxSize) calls →
      runFrom (PlainEncoder.step impl (some maxSize)) plain calls =
        runFrom (PlainEncoder.step impl none) plain calls) := by
  induction calls generalizing plain with
  | nil =>
      refine ⟨iff_of_false List.not_mem_nil (Nat.not_lt.mpr small), ?_⟩
      intro _
      rfl
  | cons call calls ih =>
      have only := @limitOnly_call impl plain maxSize free call
      have outputs : plain.results impl (some maxSize) (call :: calls) =
          (plain.call impl (some maxSize) call).1 ::
            (plain.step impl (some maxSize) call).results impl
              (some maxSize) calls := rfl
      rw [outputs, runFrom_cons, runFrom_cons]
      rcases Nat.lt_or_ge maxSize
        (plain.step impl none call).extent with exceeds | within
      · have failed := only.exceeds small exceeds
        have later := (@free_run impl _ only.free calls).2
        rw [failed]
        refine ⟨iff_of_true List.mem_cons_self
          (Nat.lt_of_lt_of_le exceeds later), ?_⟩
        intro never
        exact absurd List.mem_cons_self never
      · have same := only.within within
        have stepped : plain.step impl (some maxSize) call =
            plain.step impl none call := congrArg Prod.snd same
        obtain ⟨fails, equal⟩ := ih only.free within
        have fine : RepResult.outOfMemory ≠
            (plain.call impl (some maxSize) call).1 := by
          rw [same]
          exact only.result.symm
        rw [stepped, List.mem_cons, or_iff_right fine]
        exact ⟨fails, equal⟩

end Limit

/-- The payload that is written without a limit. -/
def PlainEncoder.fullExtent (impl : EncoderImpl) (calls : List RepCall) :
    Nat :=
  (runFrom (PlainEncoder.step impl none) .init calls).extent

theorem payload_of_represents {encoder : RepEncoder} {plain : PlainEncoder}
    {position : Nat} (represents : encoder.Represents plain)
    (here : (plain.subs 0).position = some position)
    (holds : encoder.buffer.HoldsText plain) (calls : List RepCall)
    (results : List RepResult) :
    encoder.payloadSize calls results =
        (if gErr calls results false then -1 else (position : Int)) ∧
      encoder.payload (encoder.payloadSize calls results) =
        plain.text.read 0
          (if gErr calls results false then -1 else (position : Int)).toNat := by
  have converted := (represents.subs 0).convert represents.sound
    represents.extent
  rw [here] at converted
  have size : encoder.payloadSize calls results =
      if gErr calls results false then -1 else (position : Int) := by
    unfold RepEncoder.payloadSize
    generalize SubEncoder.convertOffsetToPtr encoder.buffer.ptr
      encoder.buffer.size (encoder.subs 0) = absolute at converted ⊢
    cases converted with
    | here inside => simp only [add_sub_cancel_left]
  have inside : position ≤ plain.extent := by
    generalize SubEncoder.convertOffsetToPtr encoder.buffer.ptr
      encoder.buffer.size (encoder.subs 0) = absolute at converted
    cases converted with
    | here inside => exact inside
  refine ⟨size, ?_⟩
  rw [size]
  apply Mem.read_congr
  intro address _ below
  apply holds address
  split at below
  · simp only [Nat.zero_add] at below
    omega
  · simp only [Nat.zero_add, Int.toNat_natCast] at below
    omega

/-- Runs of the same calls over buffers of two sizes return the same codes.
If none of them is for a lack of memory, they leave the same payload, and one
of them is if and only if the whole payload exceeds the maximum. -/
theorem buffer_growth_transparent (impl : EncoderImpl)
    (firstEnv secondEnv : EncoderEnv) (first second : HeapBlock)
    {maxSize : Nat} (first_le : first.size ≤ maxSize)
    (second_le : second.size ≤ maxSize) (calls : List RepCall)
    (firstAlong : Along (RepEncoder.step impl firstEnv)
      (RepEncoder.Admits firstEnv) (.init first maxSize) calls)
    (secondAlong : Along (RepEncoder.step impl secondEnv)
      (RepEncoder.Admits secondEnv) (.init second maxSize) calls) :
    let firstResults := RepEncoder.results impl firstEnv
      (.init first maxSize) calls
    let secondResults := RepEncoder.results impl secondEnv
      (.init second maxSize) calls
    let firstEnd := runFrom (RepEncoder.step impl firstEnv)
      (.init first maxSize) calls
    let secondEnd := runFrom (RepEncoder.step impl secondEnv)
      (.init second maxSize) calls
    firstResults = secondResults ∧
      (RepResult.outOfMemory ∉ firstResults →
        firstEnd.payloadSize calls firstResults =
            secondEnd.payloadSize calls secondResults ∧
          firstEnd.payload (firstEnd.payloadSize calls firstResults) =
            secondEnd.payload
              (secondEnd.payloadSize calls secondResults)) ∧
      (RepResult.outOfMemory ∈ firstResults ↔
        maxSize < PlainEncoder.fullExtent impl calls) := by
  intro firstResults secondResults firstEnd secondEnd
  obtain ⟨firstSame, firstRep, firstHolds⟩ :=
    @agrees_run impl firstEnv calls _ _ maxSize
      (represents_init first first_le) rfl firstAlong
  obtain ⟨secondSame, secondRep, secondHolds⟩ :=
    @agrees_run impl secondEnv calls _ _ maxSize
      (represents_init second second_le) rfl secondAlong
  obtain ⟨fails, equal⟩ := @limited_run impl .init maxSize
    PlainEncoder.free_init (Nat.zero_le _) calls
  have same : firstResults = secondResults := firstSame.trans secondSame.symm
  refine ⟨same, ?_, ?_⟩
  · intro fine
    have free := (@free_run impl .init PlainEncoder.free_init calls).1 0
    rw [← equal (firstSame ▸ fine)] at free
    obtain ⟨position, here⟩ := Option.isSome_iff_exists.mp free
    have nothing : ∀ block : HeapBlock,
        (RepEncoder.init block maxSize).buffer.HoldsText .init := by
      intro block address below
      exact absurd below (Nat.not_lt_zero address)
    have fine_second : RepResult.outOfMemory ∉ secondResults := by
      rw [← same]
      exact fine
    have atFirst := payload_of_represents firstRep here
      (firstHolds fine (nothing first)) calls firstResults
    have atSecond := payload_of_represents secondRep here
      (secondHolds fine_second (nothing second)) calls secondResults
    rw [← same] at atSecond ⊢
    exact ⟨atFirst.1.trans atSecond.1.symm, atFirst.2.trans atSecond.2.symm⟩
  · have failing : RepResult.outOfMemory ∈ firstResults ↔
        RepResult.outOfMemory ∈
          PlainEncoder.init.results impl (some maxSize) calls := by
      rw [← firstSame]
    exact failing.trans fails

end Runs

namespace RawWrite

theorem address_pos (count : Nat) : (0 : Int) < 4096 + count := by omega

def env : EncoderEnv where
  address := fun count => 4096 + count
  address_pos := address_pos
  fresh := fun _ _ => 0
  globalPtr := none

theorem block_nonneg : (0 : Int) ≤ 4096 := by decide

theorem block_null (size : Nat) : (4096 : Int) = 0 → size = 0 := by
  intro impossible
  cases impossible

def block (size : Nat) : HeapBlock where
  ptr := 4096
  size
  content := fun _ => 0
  ptr_nonneg := block_nonneg
  size_of_null := block_null size

def impl : EncoderImpl := ocRepJsonEncoder fun _ => []

def calls : List RepCall :=
  [.raw [91, 49, 44, 32, 50], .write 0 .null, .raw [93]]

end RawWrite

open RawWrite in
/-- Buffers of four and of sixteen bytes, of which the first one grows. -/
theorem buffer_growth_transparent_calls :
    Along (RepEncoder.step impl env) (RepEncoder.Admits env)
        (.init (block 4) 16) calls ∧
      RepEncoder.results impl env (.init (block 4) 16) calls =
        RepEncoder.results impl env (.init (block 16) 16) calls := by
  have along : ∀ size, size = 4 ∨ size = 16 →
      Along (RepEncoder.step impl env) (RepEncoder.Admits env)
        (.init (block size) 16) calls := by
    rintro size (rfl | rfl)
    · refine ⟨?_, rfl, ?_, trivial⟩
      · intro null
        cases null
      · intro null
        revert null
        decide
    · refine ⟨?_, rfl, ?_, trivial⟩
      · intro null
        cases null
      · intro null
        revert null
        decide
  refine ⟨along 4 (.inl rfl), ?_⟩
  exact (buffer_growth_transparent impl env env (block 4) (block 16)
    (by decide) (by decide) calls (along 4 (.inl rfl))
    (along 16 (.inr rfl))).1

open RawWrite in
/-- A raw write of one byte fails if the buffer has none to begin with, and
succeeds if it has eight. -/
theorem not_buffer_growth_transparent_raw :
    ¬ ∀ (impl : EncoderImpl) (env : EncoderEnv) (first second : HeapBlock)
        (maxSize : Nat) (calls : List RepCall),
      first.size ≤ maxSize → second.size ≤ maxSize →
      RepEncoder.results impl env (.init first maxSize) calls =
        RepEncoder.results impl env (.init second maxSize) calls := by
  intro always
  have same := always impl env (block 0) (block 8) 8 [.raw [1]] (by decide)
    (by decide)
  revert same
  decide

end IotivityLite
