import IotivityLite.Util.StaticPool

/-!
# Compaction of static memory pools

The blocks of a pool stand one behind the other from its start on, in the order
of the list, and what is in them is what was written to them last.
-/

namespace IotivityLite

section Laid

variable {Handle Item : Type}

/-- The blocks stand one behind the other from an index on, where the handles
say, with these contents. -/
inductive Laid (slots : Nat → Item) (ptr size : Handle → Nat) :
    Nat → List (Handle × List Item) → Prop where
  | nil (start : Nat) : Laid slots ptr size start []
  | cons {start : Nat} {m : Handle} {items : List Item}
      {blocks : List (Handle × List Item)} :
      ptr m = start → size m = items.length →
      (∀ offset (inside : offset < items.length),
        slots (start + offset) = items[offset]) →
      Laid slots ptr size (start + items.length) blocks →
      Laid slots ptr size start ((m, items) :: blocks)

variable {slots : Nat → Item} {ptr size : Handle → Nat} {start : Nat}
  {blocks : List (Handle × List Item)}

@[simp] theorem totalSize_nil :
    totalSize ([] : List (Handle × List Item)) = 0 := rfl

@[simp] theorem totalSize_cons (block : Handle × List Item) :
    totalSize (block :: blocks) = block.2.length + totalSize blocks := by
  simp [totalSize]

@[simp] theorem totalSize_append (first second : List (Handle × List Item)) :
    totalSize (first ++ second) = totalSize first + totalSize second := by
  simp [totalSize]

theorem laid_append {first second : List (Handle × List Item)} :
    Laid slots ptr size start (first ++ second) ↔
      Laid slots ptr size start first ∧
        Laid slots ptr size (start + totalSize first) second := by
  induction first generalizing start with
  | nil => simp [Laid.nil start]
  | cons block first ih =>
      obtain ⟨m, items⟩ := block
      have place : start + totalSize ((m, items) :: first) =
          start + items.length + totalSize first := by
        simp only [totalSize_cons]
        omega
      rw [List.cons_append, place]
      constructor
      · intro laid
        cases laid with
        | cons isPtr isSize holds rest =>
            obtain ⟨rest, more⟩ := ih.mp rest
            exact ⟨.cons isPtr isSize holds rest, more⟩
      · rintro ⟨laid, more⟩
        cases laid with
        | cons isPtr isSize holds rest =>
            exact .cons isPtr isSize holds (ih.mpr ⟨rest, more⟩)

theorem Laid.congr {slots' : Nat → Item} {ptr' size' : Handle → Nat}
    (laid : Laid slots ptr size start blocks)
    (sameSlots : ∀ index, start ≤ index → index < start + totalSize blocks →
      slots' index = slots index)
    (sameHandles : ∀ block ∈ blocks,
      ptr' block.1 = ptr block.1 ∧ size' block.1 = size block.1) :
    Laid slots' ptr' size' start blocks := by
  induction laid with
  | nil start => exact .nil start
  | @cons start m items blocks isPtr isSize holds _ ih =>
      obtain ⟨samePtr, sameSize⟩ := sameHandles (m, items) (by simp)
      simp only [totalSize_cons] at sameSlots
      refine .cons (samePtr.trans isPtr) (sameSize.trans isSize) ?_ (ih ?_ ?_)
      · intro offset inside
        rw [sameSlots (start + offset) (by omega) (by omega)]
        exact holds offset inside
      · intro index after before
        exact sameSlots index (by omega) (by omega)
      · intro block member
        exact sameHandles block (List.mem_cons_of_mem _ member)

theorem Laid.shift {slots' : Nat → Item} {ptr' : Handle → Nat} {count : Nat}
    (laid : Laid slots ptr size (start + count) blocks)
    (moved : ∀ index, start ≤ index → index < start + totalSize blocks →
      slots' index = slots (index + count))
    (lowered : ∀ block ∈ blocks, ptr' block.1 = ptr block.1 - count) :
    Laid slots' ptr' size start blocks := by
  generalize isPlace : start + count = place at laid
  induction laid generalizing start with
  | nil place => exact .nil start
  | @cons place m items blocks isPtr isSize holds _ ih =>
      simp only [totalSize_cons] at moved
      have isLowered := lowered (m, items) (by simp)
      refine .cons ?_ isSize ?_ (ih ?_ ?_ ?_)
      · simp only at isLowered
        omega
      · intro offset inside
        rw [moved (start + offset) (by omega) (by omega), ← holds offset inside]
        exact congrArg slots (by omega)
      · intro index after before
        exact moved index (by omega) (by omega)
      · intro block member
        exact lowered block (List.mem_cons_of_mem _ member)
      · omega

theorem Laid.place {first second : List (Handle × List Item)} {m : Handle}
    {items : List Item}
    (laid : Laid slots ptr size start (first ++ (m, items) :: second)) :
    ptr m = start + totalSize first ∧ size m = items.length := by
  obtain ⟨-, laid⟩ := laid_append.mp laid
  cases laid with
  | cons isPtr isSize _ _ => exact ⟨isPtr, isSize⟩

end Laid

variable {Handle : Type}

/-- The state of the pools is the one that the blocks stand for. -/
structure Compact (poolSize : PoolType → Nat) (mem : Mmem Handle)
    (blocks : PoolBlocks Handle) : Prop where
  handles : ∀ type, mem.list type = (blocks type).map Prod.fst
  laid : ∀ type, Laid (mem.slots type) mem.ptr mem.size 0 (blocks type)
  room : ∀ type, mem.avail type + totalSize (blocks type) = poolSize type
  nodup : ∀ type, (mem.list type).Nodup
  apart : ∀ type other m, type ≠ other → m ∈ mem.list type →
    m ∉ mem.list other

variable {poolSize : PoolType → Nat} {mem : Mmem Handle}
  {blocks : PoolBlocks Handle}

theorem Compact.init (slots : (type : PoolType) → Nat → type.Item)
    (ptr size : Handle → Nat) :
    Compact poolSize (.init poolSize slots ptr size) fun _ => [] where
  handles := fun _ => rfl
  laid := fun _ => .nil 0
  room := fun _ => rfl
  nodup := fun _ => List.nodup_nil
  apart := fun _ _ _ _ member => absurd member List.not_mem_nil

variable {type : PoolType}

theorem Compact.mem_list (compact : Compact poolSize mem blocks)
    {block : Handle × List type.Item} (member : block ∈ blocks type) :
    block.1 ∈ mem.list type := by
  rw [compact.handles]
  exact List.mem_map_of_mem member

theorem Compact.split (compact : Compact poolSize mem blocks) {m : Handle}
    (live : m ∈ mem.list type) :
    ∃ first items second, blocks type = first ++ (m, items) :: second ∧
      m ∉ first.map Prod.fst ∧ m ∉ second.map Prod.fst ∧
      mem.ptr m = totalSize first ∧ mem.size m = items.length := by
  have nodup := compact.nodup type
  have laid := compact.laid type
  rw [compact.handles] at live nodup
  obtain ⟨⟨_, items⟩, member, rfl⟩ := List.mem_map.mp live
  obtain ⟨first, second, isSplit⟩ := List.append_of_mem member
  rw [isSplit, List.map_append, List.map_cons] at nodup
  rw [isSplit] at laid
  obtain ⟨isPtr, isSize⟩ := laid.place
  rw [Nat.zero_add] at isPtr
  obtain ⟨-, distinct, notIn⟩ := List.nodup_append.mp nodup
  refine ⟨first, items, second, isSplit, ?_, ?_, isPtr, isSize⟩
  · intro inFirst
    exact notIn _ inFirst _ List.mem_cons_self rfl
  · exact (List.nodup_cons.mp distinct).1

section Steps

theorem Compact.update (compact : Compact poolSize mem blocks)
    {type : PoolType} {after : Mmem Handle}
    {entries : List (Handle × List type.Item)}
    (list : after.list = Function.update mem.list type (entries.map Prod.fst))
    (slots : ∀ other, other ≠ type → after.slots other = mem.slots other)
    (avail : ∀ other, other ≠ type → after.avail other = mem.avail other)
    (frame : ∀ other, other ≠ type → ∀ m ∈ mem.list other,
      after.ptr m = mem.ptr m ∧ after.size m = mem.size m)
    (laid : Laid (after.slots type) after.ptr after.size 0 entries)
    (room : after.avail type + totalSize entries = poolSize type)
    (nodup : (entries.map Prod.fst).Nodup)
    (apart : ∀ other, other ≠ type → ∀ m ∈ entries.map Prod.fst,
      m ∉ mem.list other) :
    Compact poolSize after (Function.update blocks type entries) := by
  have isList (other : PoolType) (different : other ≠ type) :
      after.list other = mem.list other := by
    rw [list, Function.update_of_ne different]
  have isOwn : after.list type = entries.map Prod.fst := by
    rw [list, Function.update_self]
  refine ⟨?_, ?_, ?_, ?_, ?_⟩
  · intro other
    by_cases same : other = type
    · subst same
      rw [isOwn, Function.update_self]
    · rw [isList other same, Function.update_of_ne same, compact.handles]
  · intro other
    by_cases same : other = type
    · subst same
      rw [Function.update_self]
      exact laid
    · rw [Function.update_of_ne same]
      refine (compact.laid other).congr ?_ ?_
      · intro index _ _
        rw [slots other same]
      · intro block member
        exact frame other same block.1 (compact.mem_list member)
  · intro other
    by_cases same : other = type
    · subst same
      rw [Function.update_self]
      exact room
    · rw [Function.update_of_ne same, avail other same]
      exact compact.room other
  · intro other
    by_cases same : other = type
    · subst same
      rw [isOwn]
      exact nodup
    · rw [isList other same]
      exact compact.nodup other
  · intro one other m different inOne inOther
    by_cases isOne : one = type
    · subst isOne
      rw [isOwn] at inOne
      rw [isList other (Ne.symm different)] at inOther
      exact apart other (Ne.symm different) m inOne inOther
    · rw [isList one isOne] at inOne
      by_cases isOther : other = type
      · subst isOther
        rw [isOwn] at inOther
        exact apart one isOne m inOther inOne
      · rw [isList other isOther] at inOther
        exact compact.apart one other m different inOne inOther

variable [DecidableEq Handle]

theorem Compact.alloc (compact : Compact poolSize mem blocks)
    {type : PoolType} {m : Handle} {size : Nat}
    (unused : ∀ type, m ∉ mem.list type) :
    ∃ after, BlockStep poolSize blocks (.alloc type m size) after ∧
      Compact poolSize (mem.alloc poolSize type m size).2 after := by
  have room := compact.room type
  unfold Mmem.alloc
  split_ifs with exhausted
  · exact ⟨blocks, .exhausted (by omega), compact⟩
  · let fresh := (List.range size).map fun offset =>
      mem.slots type (totalSize (blocks type) + offset)
    have isSize : fresh.length = size := by simp [fresh]
    have others (other : PoolType) : ∀ n ∈ mem.list other,
        Function.update mem.ptr m (poolSize type - mem.avail type) n =
            mem.ptr n ∧
          Function.update mem.size m size n = mem.size n := by
      intro n member
      have different : n ≠ m := fun same => unused other (same ▸ member)
      exact ⟨Function.update_of_ne different _ _,
        Function.update_of_ne different _ _⟩
    have handles : (blocks type ++ [(m, fresh)]).map Prod.fst =
        mem.list type ++ [m] := by
      rw [List.map_append, compact.handles]
      rfl
    refine ⟨Function.update blocks type (blocks type ++ [(m, fresh)]), ?_, ?_⟩
    · have step := @BlockStep.alloc Handle _ poolSize blocks type m fresh
        (by omega)
      rwa [isSize] at step
    · refine compact.update ?_ (fun _ _ => rfl) ?_ (fun other _ => others other)
        ?_ ?_ ?_ ?_
      · rw [handles]
      · intro other different
        exact Function.update_of_ne different _ _
      · refine laid_append.mpr ⟨?_, .cons ?_ ?_ ?_ (.nil _)⟩
        · refine (compact.laid type).congr (fun _ _ _ => rfl) ?_
          intro block member
          exact others type block.1 (compact.mem_list member)
        · simp only [Function.update_self]
          omega
        · simp only [Function.update_self, isSize]
        · intro offset inside
          simp [fresh]
      · simp only [Function.update_self, totalSize_append, totalSize_cons,
          totalSize_nil, isSize]
        omega
      · rw [handles]
        refine List.nodup_append.mpr ⟨compact.nodup type,
          List.pairwise_singleton _ m, ?_⟩
        intro n member other isM
        rw [List.mem_singleton.mp isM]
        exact fun same => unused type (same ▸ member)
      · intro other different n member
        rw [handles] at member
        rcases List.mem_append.mp member with inList | isM
        · exact compact.apart type other n (Ne.symm different) inList
        · rw [List.mem_singleton.mp isM]
          exact unused other

theorem following_split {before after : List Handle} {m : Handle}
    (notBefore : m ∉ before) :
    Mmem.following m (before ++ m :: after) = after := by
  induction before with
  | nil => simp [Mmem.following]
  | cons n before ih =>
      have different : n ≠ m := fun same =>
        notBefore (same ▸ List.mem_cons_self)
      have rest := ih fun member => notBefore (List.mem_cons_of_mem n member)
      simpa [Mmem.following, different] using rest

theorem lower_eq {handles : List Handle} (nodup : handles.Nodup) (count : Nat)
    (ptr : Handle → Nat) (n : Handle) :
    Mmem.lower count handles ptr n =
      if n ∈ handles then ptr n - count else ptr n := by
  induction handles generalizing ptr with
  | nil => rfl
  | cons m handles ih =>
      obtain ⟨notIn, nodup⟩ := List.nodup_cons.mp nodup
      have step : Mmem.lower count (m :: handles) ptr =
          Mmem.lower count handles
            (Function.update ptr m (ptr m - count)) := rfl
      rw [step, ih nodup]
      by_cases same : n = m
      · subst same
        simp [notIn]
      · simp [same]

section

variable (compact : Compact poolSize mem blocks)

include compact

theorem free_eq {m : Handle} {first second : List (Handle × List type.Item)}
    {items : List type.Item}
    (isSplit : blocks type = first ++ (m, items) :: second)
    (notFirst : m ∉ first.map Prod.fst) (isPtr : mem.ptr m = totalSize first)
    (isSize : mem.size m = items.length) :
    let after := mem.free poolSize type m
    after.list = Function.update mem.list type ((first ++ second).map Prod.fst) ∧
    after.avail = Function.update mem.avail type
      (mem.avail type + items.length) ∧
    after.size = mem.size ∧
    (∀ other, other ≠ type → after.slots other = mem.slots other) ∧
    (∀ n, after.ptr n = if n ∈ second.map Prod.fst then
      mem.ptr n - items.length else mem.ptr n) ∧
    ∀ index, after.slots type index =
      if totalSize first ≤ index ∧ index < totalSize first + totalSize second then
        mem.slots type (index + items.length)
      else mem.slots type index := by
  have handles : mem.list type =
      first.map Prod.fst ++ m :: second.map Prod.fst := by
    rw [compact.handles, isSplit, List.map_append, List.map_cons]
  have later : Mmem.following m (mem.list type) = second.map Prod.fst := by
    rw [handles]
    exact following_split notFirst
  have erased : (mem.list type).erase m = (first ++ second).map Prod.fst := by
    rw [handles, List.erase_append_right _ notFirst, List.erase_cons_head,
      List.map_append]
  have nodup : (second.map Prod.fst).Nodup := by
    have all := compact.nodup type
    rw [handles] at all
    exact (List.nodup_cons.mp (List.nodup_append.mp all).2.1).2
  cases second with
  | nil =>
      simp only [Mmem.free, later, List.map_nil, erased, isSize]
      refine ⟨trivial, trivial, trivial, fun _ _ => trivial, fun n => ?_,
        fun index => ?_⟩
      · rw [if_neg List.not_mem_nil]
      · rw [totalSize_nil, if_neg (by omega)]
  | cons block second =>
      obtain ⟨next, nextItems⟩ := block
      have laid := compact.laid type
      have room := compact.room type
      have again : blocks type = (first ++ [(m, items)]) ++
          (next, nextItems) :: second := by
        rw [isSplit, List.append_assoc]
        rfl
      rw [again] at laid
      have nextPtr := laid.place.1
      rw [isSplit] at room
      simp only [totalSize_append, totalSize_cons, totalSize_nil] at nextPtr room
      simp only [Mmem.free, later, List.map_cons, erased, isSize]
      refine ⟨trivial, trivial, trivial, ?_, ?_, ?_⟩
      · intro other different
        exact Function.update_of_ne different _ _
      · intro n
        exact lower_eq nodup _ _ n
      · intro index
        simp only [Function.update_self, moveSlots, isPtr, nextPtr,
          totalSize_cons]
        have bound : totalSize first + (poolSize type - mem.avail type -
            (0 + (totalSize first + (items.length + 0)))) =
            totalSize first + (nextItems.length + totalSize second) := by
          omega
        rw [bound]
        split_ifs with inside
        · exact congrArg (mem.slots type) (by omega)
        · rfl

theorem Compact.free {m : Handle} (live : m ∈ mem.list type) :
    ∃ after, BlockStep poolSize blocks (.free type m) after ∧
      Compact poolSize (mem.free poolSize type m) after := by
  obtain ⟨first, items, second, isSplit, notFirst, notSecond, isPtr, isSize⟩ :=
    compact.split live
  have room := compact.room type
  have laid := compact.laid type
  have nodup := compact.nodup type
  have filtered : (blocks type).filter (fun block => block.1 ≠ m) =
      first ++ second := by
    have keep {part : List (Handle × List type.Item)}
        (notPart : m ∉ part.map Prod.fst) :
        part.filter (fun block => block.1 ≠ m) = part := by
      refine List.filter_eq_self.mpr fun block member => ?_
      have different : block.1 ≠ m := fun same =>
        notPart (same ▸ List.mem_map_of_mem member)
      exact decide_eq_true different
    rw [isSplit, List.filter_append, keep notFirst, List.filter_cons_of_neg
      (by simp), keep notSecond]
  obtain ⟨list, avail, size, others, ptr, slots⟩ :=
    free_eq compact isSplit notFirst isPtr isSize
  rw [isSplit] at room laid
  rw [compact.handles, isSplit] at nodup
  simp only [totalSize_append, totalSize_cons] at room
  obtain ⟨laidFirst, laidRest⟩ := laid_append.mp laid
  have stays : ∀ n ∈ first.map Prod.fst, n ∉ second.map Prod.fst := by
    rw [List.map_append, List.map_cons] at nodup
    intro n inFirst inSecond
    exact (List.nodup_append.mp nodup).2.2 n inFirst n
      (List.mem_cons_of_mem m inSecond) rfl
  refine ⟨_, .free, ?_⟩
  rw [filtered]
  refine compact.update list others ?_ ?_ ?_ ?_ ?_ ?_
  · intro other different
    rw [avail, Function.update_of_ne different]
  · intro other different n member
    rw [ptr, size]
    refine ⟨if_neg fun inSecond => ?_, rfl⟩
    refine compact.apart other type n different member ?_
    rw [compact.handles, isSplit, List.map_append, List.map_cons]
    exact List.mem_append_right _ (List.mem_cons_of_mem m inSecond)
  · rw [size]
    refine laid_append.mpr ⟨?_, ?_⟩
    · refine laidFirst.congr ?_ ?_
      · intro index _ before
        rw [slots, if_neg (by omega)]
      · intro block member
        rw [ptr, if_neg (stays block.1 (List.mem_map_of_mem member))]
        exact ⟨rfl, rfl⟩
    · cases laidRest with
      | cons _ _ _ laidSecond =>
          refine laidSecond.shift ?_ ?_
          · intro index after before
            rw [slots, if_pos (by omega)]
          · intro block member
            rw [ptr, if_pos (List.mem_map_of_mem member)]
  · rw [avail, Function.update_self, totalSize_append]
    omega
  · rw [List.map_append, List.map_cons] at nodup
    rw [List.map_append]
    exact nodup.sublist ((List.Sublist.refl _).append (List.sublist_cons_self ..))
  · intro other different n member
    refine compact.apart type other n (Ne.symm different) ?_
    rw [compact.handles, isSplit]
    rw [List.map_append] at member ⊢
    rcases List.mem_append.mp member with inFirst | inSecond
    · exact List.mem_append_left _ inFirst
    · exact List.mem_append_right _ (List.mem_cons_of_mem m inSecond)

theorem Compact.write {m : Handle} {offset : Nat} {value : type.Item}
    (live : m ∈ mem.list type) (inside : offset < mem.size m) :
    ∃ after, BlockStep poolSize blocks (.write type m offset value) after ∧
      Compact poolSize (mem.write type m offset value) after := by
  obtain ⟨first, items, second, isSplit, notFirst, notSecond, isPtr, isSize⟩ :=
    compact.split live
  have room := compact.room type
  have laid := compact.laid type
  have handles := compact.handles type
  have mapped : (blocks type).map (fun block =>
      if block.1 = m then (m, block.2.set offset value) else block) =
      first ++ (m, items.set offset value) :: second := by
    have keep {part : List (Handle × List type.Item)}
        (notPart : m ∉ part.map Prod.fst) :
        part.map (fun block =>
          if block.1 = m then (m, block.2.set offset value) else block) =
        part := by
      have same : part.map (fun block =>
          if block.1 = m then (m, block.2.set offset value) else block) =
          part.map id := by
        refine List.map_congr_left fun block member => ?_
        have different : block.1 ≠ m := fun same =>
          notPart (same ▸ List.mem_map_of_mem member)
        exact if_neg different
      rw [same, List.map_id]
    rw [isSplit, List.map_append, keep notFirst, List.map_cons, keep notSecond,
      if_pos rfl]
  rw [isSplit] at room laid handles
  obtain ⟨laidFirst, laidRest⟩ := laid_append.mp laid
  have sameHandles : (first ++ (m, items.set offset value) :: second).map
      Prod.fst = mem.list type := by
    rw [handles, List.map_append, List.map_append]
    rfl
  refine ⟨_, .write, ?_⟩
  rw [mapped]
  refine compact.update ?_ ?_ (fun _ _ => rfl) (fun _ _ _ _ => ⟨rfl, rfl⟩) ?_ ?_
    ?_ ?_
  · rw [sameHandles, Function.update_eq_self]
    rfl
  · intro other different
    exact Function.update_of_ne different _ _
  · have slots : (mem.write type m offset value).slots type =
        storeSlot (mem.slots type) (totalSize first + offset) value := by
      simp only [Mmem.write, Function.update_self, isPtr]
    rw [slots]
    cases laidRest with
    | cons isPtr isSize holds laidSecond =>
        refine laid_append.mpr ⟨?_, .cons isPtr ?_ ?_ ?_⟩
        · refine laidFirst.congr ?_ fun _ _ => ⟨rfl, rfl⟩
          intro index _ before
          exact storeSlot_of_ne value (by omega)
        · rw [List.length_set]
          exact isSize
        · intro other inside
          rw [List.length_set] at inside
          by_cases same : offset = other
          · subst same
            simp only [List.getElem_set_self]
            exact if_pos (by omega)
          · rw [List.getElem_set_ne same]
            rw [storeSlot_of_ne value (by omega)]
            exact holds other inside
        · rw [List.length_set]
          refine laidSecond.congr ?_ fun _ _ => ⟨rfl, rfl⟩
          intro index after _
          exact storeSlot_of_ne value (by omega)
  · simp only [totalSize_append, totalSize_cons, List.length_set] at room ⊢
    exact room
  · rw [sameHandles]
    exact compact.nodup type
  · intro other different n member
    rw [sameHandles] at member
    exact compact.apart type other n (Ne.symm different) member

theorem Compact.step {op : MmemOp Handle} (admits : mem.Admits op) :
    ∃ after, BlockStep poolSize blocks op after ∧
      Compact poolSize (mem.step poolSize op) after := by
  cases op with
  | alloc type m size => exact compact.alloc admits
  | free type m => exact compact.free admits
  | write type m offset value => exact compact.write admits.1 admits.2

theorem Compact.run {ops : List (MmemOp Handle)}
    (along : Along (Mmem.step poolSize) Mmem.Admits mem ops) :
    ∃ after, BlockRun poolSize blocks ops after ∧
      Compact poolSize (runFrom (Mmem.step poolSize) mem ops) after := by
  induction ops generalizing mem blocks with
  | nil => exact ⟨blocks, .nil blocks, compact⟩
  | cons op ops ih =>
      obtain ⟨admits, along⟩ := along
      obtain ⟨between, stepped, compact⟩ := compact.step admits
      obtain ⟨after, run, compact⟩ := ih compact along
      exact ⟨after, .cons stepped run, compact⟩

end

end Steps

theorem Laid.disjoint {Item : Type} {slots : Nat → Item}
    {ptr size : Handle → Nat} {start : Nat}
    {entries : List (Handle × List Item)}
    (laid : Laid slots ptr size start entries) {m n : Handle}
    (inM : m ∈ entries.map Prod.fst) (inN : n ∈ entries.map Prod.fst)
    (different : m ≠ n) : ptr m + size m ≤ ptr n ∨ ptr n + size n ≤ ptr m := by
  induction laid with
  | nil start => cases inM
  | @cons start k items entries isPtr isSize _ laid ih =>
      have behind {other : Handle} (member : other ∈ entries.map Prod.fst) :
          ptr k + size k ≤ ptr other := by
        obtain ⟨⟨other, others⟩, inEntries, rfl⟩ := List.mem_map.mp member
        obtain ⟨first, second, rfl⟩ := List.append_of_mem inEntries
        have place := laid.place.1
        simp only
        omega
      rw [List.map_cons] at inM inN
      rcases List.mem_cons.mp inM with rfl | restM
      · rcases List.mem_cons.mp inN with rfl | restN
        · exact absurd rfl different
        · exact .inl (behind restN)
      · rcases List.mem_cons.mp inN with rfl | restN
        · exact .inr (behind restM)
        · exact ih restM restN

theorem Laid.sum_sizes {Item : Type} {slots : Nat → Item}
    {ptr size : Handle → Nat} {start : Nat}
    {entries : List (Handle × List Item)}
    (laid : Laid slots ptr size start entries) :
    ((entries.map Prod.fst).map size).sum = totalSize entries := by
  induction laid with
  | nil start => rfl
  | cons _ isSize _ _ ih =>
      rw [List.map_cons, List.map_cons, List.sum_cons, ih, totalSize_cons,
        isSize]

/-- Whatever blocks are allocated, freed and written, the blocks that there are
by then are laid out in list order from the start of each pool, their contents
are what was written last, no two of them overlap, and the available space and
their sizes make up the pool. -/
theorem pools_compact [DecidableEq Handle] (poolSize : PoolType → Nat)
    (slots : (type : PoolType) → Nat → type.Item) (ptr size : Handle → Nat)
    (ops : List (MmemOp Handle))
    (along : Along (Mmem.step poolSize) Mmem.Admits
      (.init poolSize slots ptr size) ops) :
    let mem := runFrom (Mmem.step poolSize) (.init poolSize slots ptr size) ops
    ∃ blocks, BlockRun poolSize (fun _ => []) ops blocks ∧
      ∀ type,
        mem.list type = (blocks type).map Prod.fst ∧
        Laid (mem.slots type) mem.ptr mem.size 0 (blocks type) ∧
        (∀ m ∈ mem.list type, ∀ n ∈ mem.list type, m ≠ n →
          mem.ptr m + mem.size m ≤ mem.ptr n ∨
            mem.ptr n + mem.size n ≤ mem.ptr m) ∧
        mem.avail type + ((mem.list type).map mem.size).sum = poolSize type := by
  intro mem
  obtain ⟨blocks, run, compact⟩ := (Compact.init slots ptr size).run along
  refine ⟨blocks, run, fun type => ⟨compact.handles type, compact.laid type,
    ?_, ?_⟩⟩
  · intro m inM n inN different
    rw [compact.handles type] at inM inN
    exact (compact.laid type).disjoint inM inN different
  · rw [compact.handles type, ← compact.room type]
    rw [(compact.laid type).sum_sizes]

namespace PoolRun

/-- Two blocks, the first of which is freed. -/
def ops : List (MmemOp Nat) :=
  [.alloc .byte 0 2, .alloc .byte 1 3, .write .byte 1 0 (7 : UInt8),
    .free .byte 0]

def slots (type : PoolType) (_ : Nat) : type.Item :=
  match type with
  | .byte => (0 : UInt8)
  | .int => (0 : Int64)
  | .double => (0 : UInt64)

def start : Mmem Nat := .init (fun _ => 8) slots (fun _ => 0) fun _ => 0

theorem along : Along (Mmem.step fun _ => 8) Mmem.Admits start ops := by
  refine ⟨fun type => List.not_mem_nil, fun type => ?_, ⟨?_, ?_⟩, ?_, trivial⟩
  · cases type <;> decide
  · decide
  · decide
  · exact (by decide : (0 : Nat) ∈ [0, 1])

end PoolRun

open PoolRun in
theorem pools_compact_freed :
    let mem := runFrom (Mmem.step fun _ => 8) start ops
    ∃ blocks, BlockRun (fun _ => 8) (fun _ => []) ops blocks ∧
      ∀ type,
        mem.list type = (blocks type).map Prod.fst ∧
        Laid (mem.slots type) mem.ptr mem.size 0 (blocks type) ∧
        (∀ m ∈ mem.list type, ∀ n ∈ mem.list type, m ≠ n →
          mem.ptr m + mem.size m ≤ mem.ptr n ∨
            mem.ptr n + mem.size n ≤ mem.ptr m) ∧
        mem.avail type + ((mem.list type).map mem.size).sum = 8 :=
  pools_compact (fun _ => 8) slots (fun _ => 0) (fun _ => 0) ops along

end IotivityLite
