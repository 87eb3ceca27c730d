import Mathlib.Data.List.Nodup
import Mathlib.Data.Prod.Lex
import Mathlib.Logic.Function.Iterate
import Mathlib.Order.WellFounded

/-!
# Walks over a list that changes under way

A walk visits the items of a list one after the other.  Before a visit it
notes the item behind the one that is visited, and the visit may take items
out of the list and append new ones.  Then the walk goes on with the item it
noted, or starts again at the head.  It faults where it comes to an item that
is no longer in the list.
-/

namespace IotivityLite

/-- What a visit does: it touches what is gone, or leaves a world from which
the walk starts again or goes on. -/
inductive Visited (World : Type) where
  | faults
  | restarts (after : World)
  | continues (after : World)

/-- Where a walk is. -/
inductive Walk (World : Type) where
  | visiting (item : Nat) (world : World)
  | finished (world : World)
  | faulted

structure Walker (World : Type) where
  items : World → List Nat
  visit : Nat → World → Visited World

/-- The item behind another one. -/
def successor (item : Nat) (items : List Nat) : Option Nat :=
  (items.dropWhile (· != item)).tail.head?

namespace Walker

variable {World : Type} (walker : Walker World)

def resume (cursor : Option Nat) (world : World) : Walk World :=
  match cursor with
  | none => .finished world
  | some item => .visiting item world

def start (world : World) : Walk World :=
  resume (walker.items world).head? world

def step : Walk World → Walk World
  | .visiting item world =>
      if item ∈ walker.items world then
        match walker.visit item world with
        | .faults => .faulted
        | .restarts after => walker.start after
        | .continues after =>
            resume (successor item (walker.items world)) after
      else .faulted
  | .finished world => .finished world
  | .faulted => .faulted

/-- The walk after a number of visits. -/
def walk (world : World) (visits : Nat) : Walk World :=
  walker.step^[visits] (walker.start world)

/-- The visit does not fault, and the item that was noted stays. -/
def KeepsPlace (item : Nat) (world : World) : Prop :=
  match walker.visit item world with
  | .faults => False
  | .restarts _ => True
  | .continues after =>
      ∀ next ∈ successor item (walker.items world), next ∈ walker.items after

/-- Nothing is appended by a visit after which the walk goes on. -/
def AppendsNothing (item : Nat) (world : World) : Prop :=
  ∀ after, walker.visit item world = .continues after →
    (walker.items after).Sublist (walker.items world)

/-- The walk ends and never comes to an item that is gone. -/
structure Finishes (world : World) : Prop where
  never : ∀ visits, walker.walk world visits ≠ .faulted
  ends : ∃ visits left, walker.walk world visits = .finished left

/-- The worlds that a walk is used on: `invariant` is kept by every visit, a
visit appends new items only, and makes a list shorter if it starts again. -/
structure Lawful (invariant : World → Prop) : Prop where
  nodup : ∀ world, invariant world → (walker.items world).Nodup
  restarts : ∀ item world after, invariant world →
    walker.visit item world = .restarts after →
      invariant after ∧
        (walker.items after).length < (walker.items world).length
  continues : ∀ item world after, invariant world →
    walker.visit item world = .continues after →
      invariant after ∧ ∃ kept added,
        walker.items after = kept ++ added ∧
          kept.Sublist (walker.items world) ∧
          ∀ new ∈ added, new ∉ walker.items world

end Walker

section Successor

variable {item next : Nat} {items before rest : List Nat}

theorem successor_append (fresh : item ∉ before) :
    successor item (before ++ item :: rest) = rest.head? := by
  have skipped : (before ++ item :: rest).dropWhile (· != item) =
      item :: rest := by
    induction before with
    | nil => simp
    | cons first before ih =>
        rw [List.mem_cons, not_or] at fresh
        have other : (first != item) = true := by
          rw [bne_iff_ne]
          exact fun same => fresh.1 same.symm
        rw [List.cons_append, List.dropWhile_cons, if_pos other]
        exact ih fresh.2
  rw [successor, skipped, List.tail_cons]

theorem mem_of_successor (found : successor item items = some next) :
    next ∈ items := by
  have member := List.mem_of_mem_tail (List.mem_of_mem_head? found)
  exact (List.dropWhile_sublist _).subset member

theorem sublist_split {kept : List Nat}
    (distinct : (before ++ next :: rest).Nodup)
    (part : kept.Sublist (before ++ next :: rest)) (member : next ∈ kept) :
    ∃ first second, kept = first ++ next :: second ∧
      first.Sublist before ∧ second.Sublist rest := by
  obtain ⟨first, second, rfl, firstPart, secondPart⟩ :=
    List.sublist_append_iff.mp part
  have apart := List.nodup_append.mp distinct
  have inSecond : next ∈ second := by
    refine (List.mem_append.mp member).resolve_left ?_
    intro inFirst
    exact apart.2.2 next (firstPart.subset inFirst) next
      List.mem_cons_self rfl
  cases secondPart with
  | cons _ later =>
      exact absurd (later.subset inSecond)
        (List.nodup_cons.mp apart.2.1).1
  | cons_cons _ later => exact ⟨first, _, rfl, firstPart, later⟩

end Successor

namespace Walker

variable {World : Type} {walker : Walker World} {invariant : World → Prop}
  {world : World}

theorem walk_succ (world : World) (visits : Nat) :
    walker.walk world (visits + 1) = walker.step (walker.walk world visits) :=
  Function.iterate_succ_apply' _ _ _

theorem start_of_nil (empty : walker.items world = []) :
    walker.start world = .finished world := by
  rw [start, empty]
  rfl

theorem start_of_cons {head : Nat} {others : List Nat}
    (items_eq : walker.items world = head :: others) :
    walker.start world = .visiting head world := by
  rw [start, items_eq]
  rfl

variable {left : World}

theorem walk_of_finished {last visits : Nat}
    (ended : walker.walk world last = .finished left) (late : last ≤ visits) :
    walker.walk world visits = .finished left := by
  induction visits, late using Nat.le_induction with
  | base => exact ended
  | succ visits late ih => rw [walk_succ, ih, step]

/-- The item that is visited is there. -/
def Present (walker : Walker World) (invariant : World → Prop) :
    Walk World → Prop
  | .visiting item world => invariant world ∧ item ∈ walker.items world
  | .finished world => invariant world
  | .faulted => False

theorem present_resume {cursor : Option Nat} (holds : invariant world)
    (there : ∀ item ∈ cursor, item ∈ walker.items world) :
    walker.Present invariant (resume cursor world) := by
  cases cursor with
  | none => exact holds
  | some item => exact ⟨holds, there item rfl⟩

theorem present_start (holds : invariant world) :
    walker.Present invariant (walker.start world) := by
  apply present_resume holds
  intro item first
  exact List.mem_of_mem_head? first

theorem present_step (lawful : walker.Lawful invariant) {here : Walk World}
    (keeps : ∀ item world, here = .visiting item world →
      walker.KeepsPlace item world)
    (present : walker.Present invariant here) :
    walker.Present invariant (walker.step here) := by
  cases here with
  | faulted => exact present
  | finished world => exact present
  | visiting item world =>
      obtain ⟨holds, member⟩ := present
      have kept := keeps item world rfl
      rw [step, if_pos member]
      unfold KeepsPlace at kept
      rcases visited : walker.visit item world with - | after | after
      · rw [visited] at kept
        exact kept
      · exact present_start (lawful.restarts item world after holds visited).1
      · rw [visited] at kept
        exact present_resume
          (lawful.continues item world after holds visited).1 kept

theorem present_walk (lawful : walker.Lawful invariant)
    (holds : invariant world)
    (keeps : ∀ visits item left,
      walker.walk world visits = .visiting item left →
        walker.KeepsPlace item left) (visits : Nat) :
    walker.Present invariant (walker.walk world visits) := by
  induction visits with
  | zero => exact present_start holds
  | succ visits ih =>
      rw [walk_succ]
      exact present_step lawful (keeps visits) ih

theorem faulted_of_not_keepsPlace {visits item : Nat}
    (here : walker.walk world visits = .visiting item left)
    (lost : ¬walker.KeepsPlace item left) :
    ∃ later, walker.walk world later = .faulted := by
  have next := @walk_succ _ walker world visits
  rw [here, step] at next
  split_ifs at next with member
  · unfold KeepsPlace at lost
    rcases visited : walker.visit item left with - | after | after
    · rw [visited] at next
      exact ⟨visits + 1, next⟩
    · rw [visited] at lost
      exact absurd trivial lost
    · rw [visited] at lost next
      simp only [not_forall] at lost
      obtain ⟨noted, found, gone⟩ := lost
      rw [Option.mem_def] at found
      refine ⟨visits + 2, ?_⟩
      have second := @walk_succ _ walker world (visits + 1)
      rw [next, found] at second
      change _ = walker.step (.visiting noted after) at second
      rw [step, if_neg gone] at second
      exact second
  · exact ⟨visits + 1, next⟩

theorem never_faulted_iff (lawful : walker.Lawful invariant)
    (holds : invariant world) :
    (∀ visits, walker.walk world visits ≠ .faulted) ↔
      ∀ visits item left, walker.walk world visits = .visiting item left →
        walker.KeepsPlace item left := by
  constructor
  · intro never visits item left here
    by_contra lost
    obtain ⟨later, faulted⟩ := faulted_of_not_keepsPlace here lost
    exact never later faulted
  · intro keeps visits faulted
    have present := present_walk lawful holds keeps visits
    rw [faulted] at present
    exact present

section GoingOn

variable {item next : Nat} {before rest : List Nat} {after : World}

theorem rest_of_successor (distinct : (before ++ item :: rest).Nodup)
    (noted : successor item (before ++ item :: rest) = some next) :
    ∃ later, rest = next :: later := by
  have fresh : item ∉ before := by
    intro again
    exact (List.nodup_append.mp distinct).2.2 item again item
      List.mem_cons_self rfl
  rw [successor_append fresh] at noted
  cases rest with
  | nil => cases noted
  | cons head later => exact ⟨later, by rw [Option.some.inj noted]⟩

theorem before_of_continues (lawful : walker.Lawful invariant)
    (holds : invariant world)
    (items_eq : walker.items world = before ++ item :: rest)
    (visited : walker.visit item world = .continues after)
    (noted : successor item (walker.items world) = some next)
    (there : next ∈ walker.items after) :
    ∃ first second, walker.items after = first ++ next :: second ∧
      first.Sublist (before ++ [item]) := by
  have distinct := lawful.nodup world holds
  obtain ⟨-, kept, added, after_eq, part, new⟩ :=
    lawful.continues item world after holds visited
  have member : next ∈ kept := by
    rw [after_eq] at there
    refine (List.mem_append.mp there).resolve_right ?_
    intro inAdded
    exact new next inAdded (mem_of_successor noted)
  rw [items_eq] at distinct noted part
  obtain ⟨later, rfl⟩ := rest_of_successor distinct noted
  rw [List.append_cons] at distinct part
  obtain ⟨first, second, rfl, firstPart, -⟩ :=
    sublist_split distinct part member
  refine ⟨first, second ++ added, ?_, firstPart⟩
  rw [after_eq, List.append_assoc, List.cons_append]

theorem behind_of_continues (lawful : walker.Lawful invariant)
    (holds : invariant world)
    (items_eq : walker.items world = before ++ item :: rest)
    (shrunk : (walker.items after).Sublist (walker.items world))
    (noted : successor item (walker.items world) = some next)
    (there : next ∈ walker.items after) :
    ∃ first second, walker.items after = first ++ next :: second ∧
      second.length < rest.length := by
  have distinct := lawful.nodup world holds
  rw [items_eq] at distinct noted shrunk
  obtain ⟨later, rfl⟩ := rest_of_successor distinct noted
  rw [List.append_cons] at distinct shrunk
  obtain ⟨first, second, after_eq, -, secondPart⟩ :=
    sublist_split distinct shrunk there
  exact ⟨first, second, after_eq,
    Nat.lt_succ_of_le secondPart.length_le⟩

end GoingOn

theorem ends_of_appendsNothing (lawful : walker.Lawful invariant)
    (holds : invariant world)
    (keeps : ∀ visits item left,
      walker.walk world visits = .visiting item left →
        walker.KeepsPlace item left) {start : Nat}
    (appends : ∀ visits, start ≤ visits → ∀ item left,
      walker.walk world visits = .visiting item left →
        walker.AppendsNothing item left) :
    ∃ visits left, walker.walk world visits = .finished left := by
  -- The measure is the length of the list, and then what is behind the item.
  suffices decreasing : ∀ size : Nat ×ₗ Nat, ∀ visits, start ≤ visits →
      ∀ item left before rest,
        walker.walk world visits = .visiting item left →
        walker.items left = before ++ item :: rest →
        toLex ((walker.items left).length, rest.length) = size →
        ∃ visits left, walker.walk world visits = .finished left by
    have present := present_walk lawful holds keeps start
    rcases here : walker.walk world start with ⟨item, left⟩ | left | -
    · rw [here] at present
      obtain ⟨before, rest, items_eq⟩ := List.append_of_mem present.2
      exact decreasing _ start (Nat.le_refl _) item left before rest here
        items_eq rfl
    · exact ⟨start, left, here⟩
    · rw [here] at present
      exact present.elim
  intro size
  induction size using WellFoundedLT.induction with
  | ind size ih =>
  intro visits late item left before rest here items_eq measure
  have present := present_walk lawful holds keeps visits
  rw [here] at present
  obtain ⟨inv, member⟩ := present
  have next := @walk_succ _ walker world visits
  rw [here, step, if_pos member] at next
  have kept := keeps visits item left here
  unfold KeepsPlace at kept
  rcases visited : walker.visit item left with - | after | after
  · rw [visited] at kept
    exact kept.elim
  · rw [visited] at next
    have shorter := (lawful.restarts item left after inv visited).2
    rcases items_after : walker.items after with - | ⟨head, others⟩
    · refine ⟨visits + 1, after, ?_⟩
      rw [next]
      exact start_of_nil items_after
    · refine ih _ ?_ (visits + 1) (Nat.le_succ_of_le late) head after []
        others ?_ items_after rfl
      · rw [← measure]
        exact Prod.Lex.toLex_lt_toLex.mpr (.inl shorter)
      · rw [next]
        exact start_of_cons items_after
  · rw [visited] at kept next
    rcases noted : successor item (walker.items left) with - | follower
    · refine ⟨visits + 1, after, ?_⟩
      rw [next, noted]
      rfl
    · have there := kept follower noted
      have shrunk := appends visits late item left here after visited
      obtain ⟨first, second, after_eq, less⟩ := behind_of_continues lawful
        inv items_eq shrunk noted there
      refine ih _ ?_ (visits + 1) (Nat.le_succ_of_le late) follower after
        first second ?_ after_eq rfl
      · rw [← measure]
        rw [Prod.Lex.toLex_lt_toLex]
        rcases Nat.lt_or_eq_of_le shrunk.length_le with fewer | same
        · exact .inl fewer
        · exact .inr ⟨same, less⟩
      · rw [next, noted]
        rfl

theorem keepsPlace_iff_of_agrees (lawful : walker.Lawful invariant)
    (holds : invariant world) {keeps : Nat → World → Prop}
    (agrees : ∀ item left, invariant left → item ∈ walker.items left →
      (walker.KeepsPlace item left ↔ keeps item left)) :
    (∀ visits item left, walker.walk world visits = .visiting item left →
        walker.KeepsPlace item left) ↔
      ∀ visits item left, walker.walk world visits = .visiting item left →
        keeps item left := by
  constructor
  · intro places visits item left here
    have present := present_walk lawful holds places visits
    rw [here] at present
    exact (agrees item left present.1 present.2).mp
      (places visits item left here)
  · intro conditions
    have present : ∀ visits,
        walker.Present invariant (walker.walk world visits) := by
      intro visits
      induction visits with
      | zero => exact present_start holds
      | succ visits ih =>
          rw [walk_succ]
          refine present_step lawful ?_ ih
          intro item left here
          rw [here] at ih
          exact (agrees item left ih.1 ih.2).mpr
            (conditions visits item left here)
    intro visits item left here
    have there := present visits
    rw [here] at there
    exact (agrees item left there.1 there.2).mpr
      (conditions visits item left here)

theorem finishes_iff (lawful : walker.Lawful invariant)
    (holds : invariant world) {keeps quiet : Nat → World → Prop}
    (agrees : ∀ item left, invariant left → item ∈ walker.items left →
      (walker.KeepsPlace item left ↔ keeps item left))
    (silent : ∀ item left, quiet item left →
      walker.AppendsNothing item left) :
    walker.Finishes world ↔
      (∀ visits item left, walker.walk world visits = .visiting item left →
        keeps item left) ∧
      ∃ start, ∀ visits, start ≤ visits → ∀ item left,
        walker.walk world visits = .visiting item left → quiet item left := by
  rw [← keepsPlace_iff_of_agrees lawful holds agrees]
  constructor
  · rintro ⟨never, last, left, ended⟩
    refine ⟨(never_faulted_iff lawful holds).mp never, last, ?_⟩
    intro visits late item other here
    rw [walk_of_finished ended late] at here
    cases here
  · rintro ⟨places, start, calm⟩
    refine ⟨(never_faulted_iff lawful holds).mpr places, ?_⟩
    apply ends_of_appendsNothing lawful holds places
    intro visits late item left here
    exact silent item left (calm visits late item left here)

/-- Everything before the visited item is unwanted. -/
def Swept (walker : Walker World) (wanted : Nat → Prop) : Walk World → Prop
  | .visiting item world =>
      ∃ before rest, walker.items world = before ++ item :: rest ∧
        ∀ other ∈ before, ¬wanted other
  | .finished world => ∀ item ∈ walker.items world, ¬wanted item
  | .faulted => True

theorem swept_start (wanted : Nat → Prop) (world : World) :
    walker.Swept wanted (walker.start world) := by
  rcases items_eq : walker.items world with - | ⟨head, others⟩
  · rw [start_of_nil items_eq, Swept, items_eq]
    exact fun _ member => absurd member List.not_mem_nil
  · rw [start_of_cons items_eq]
    exact ⟨[], others, items_eq, fun _ member =>
      absurd member List.not_mem_nil⟩

section Sweeping

variable {wanted : Nat → Prop}

/-- A wanted item is taken out when it is visited, and never appended. -/
def Removes (walker : Walker World) (invariant : World → Prop)
    (wanted : Nat → Prop) : Prop :=
  ∀ item left after, invariant left →
    walker.visit item left = .continues after →
      (wanted item → item ∉ walker.items after) ∧
        ∀ other ∈ walker.items after, wanted other →
          other ∈ walker.items left

theorem swept_continues (lawful : walker.Lawful invariant)
    (removes : walker.Removes invariant wanted) (holds : invariant world)
    {item : Nat} {after : World}
    (visited : walker.visit item world = .continues after)
    (kept : ∀ next ∈ successor item (walker.items world),
      next ∈ walker.items after)
    (swept : walker.Swept wanted (.visiting item world)) :
    walker.Swept wanted
      (resume (successor item (walker.items world)) after) := by
  obtain ⟨before, rest, items_eq, unwanted⟩ := swept
  obtain ⟨taken, old⟩ := removes item world after holds visited
  have past : ∀ other ∈ before ++ [item], other ∈ walker.items after →
      ¬wanted other := by
    intro other member there wants
    rcases List.mem_append.mp member with earlier | visitedNow
    · exact unwanted other earlier wants
    · rw [List.mem_singleton] at visitedNow
      subst visitedNow
      exact taken wants there
  rcases noted : successor item (walker.items world) with - | next
  · intro other there wants
    have distinct := lawful.nodup world holds
    have fresh : item ∉ before := by
      intro again
      rw [items_eq] at distinct
      exact (List.nodup_append.mp distinct).2.2 item again item
        List.mem_cons_self rfl
    rw [items_eq, successor_append fresh,
      List.head?_eq_none_iff] at noted
    have place := old other there wants
    rw [items_eq, noted] at place
    exact past other place there wants
  · obtain ⟨first, second, after_eq, part⟩ := before_of_continues lawful
      holds items_eq visited noted (kept next noted)
    refine ⟨first, second, after_eq, ?_⟩
    intro other member
    apply past other (part.subset member)
    rw [after_eq]
    exact List.mem_append_left _ member

theorem Finishes.gone (finishes : walker.Finishes world)
    (lawful : walker.Lawful invariant) (holds : invariant world)
    (removes : walker.Removes invariant wanted) {visits : Nat}
    (ended : walker.walk world visits = .finished left) :
    ∀ item ∈ walker.items left, ¬wanted item := by
  have keeps := (never_faulted_iff lawful holds).mp finishes.never
  have swept : walker.Swept wanted (walker.walk world visits) := by
    clear ended
    induction visits with
    | zero => exact swept_start wanted world
    | succ visits ih =>
        have present := present_walk lawful holds keeps visits
        rw [walk_succ]
        rcases here : walker.walk world visits with ⟨item, other⟩ | other | -
        · rw [here] at present ih
          have kept := keeps visits item other here
          unfold KeepsPlace at kept
          rw [step, if_pos present.2]
          rcases visited : walker.visit item other with - | after | after
          · trivial
          · exact swept_start wanted after
          · rw [visited] at kept
            exact swept_continues lawful removes present.1 visited kept ih
        · rw [here] at ih
          exact ih
        · trivial
  rw [ended] at swept
  exact swept

end Sweeping

end Walker

end IotivityLite
