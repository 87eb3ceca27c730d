import IotivityLite.Foundation.Walk

/-!
# Callbacks for a change of ownership

The list of callbacks of `oc_doxm.c` and the two loops over it: one after the
resource was decoded, which notes the next record before it calls a callback,
and one in a reset, which reads the next record from the one whose callback it
has just called.  A callback may register and unregister callbacks.  A record
is told apart by the number of its allocation, as its storage is used again.
-/

namespace IotivityLite

/-- `oc_doxm_owned_cb_t` -/
structure OwnedCallback where
  /-- the pointer to the record -/
  serial : Nat
  cb : Nat
  data : Nat
  deriving DecidableEq

/-- The list of records, and the records whose callbacks were called. -/
structure OwnedCallbacks where
  records : List OwnedCallback
  allocated : Nat
  invoked : List Nat
  deriving DecidableEq

/-- What a callback may do to the list. -/
inductive OwnershipCall where
  | add (cb data : Nat) (memory : Bool)
  | remove (cb data : Nat)
  deriving DecidableEq

namespace OwnedCallbacks

def empty : OwnedCallbacks := ⟨[], 0, []⟩

def serials (list : OwnedCallbacks) : List Nat :=
  list.records.map (·.serial)

/-- `oc_add_ownership_status_cb_v1` -/
def ocAddOwnershipStatusCb (list : OwnedCallbacks) (cb data : Nat)
    (memory : Bool) : OwnedCallbacks :=
  if memory then
    ⟨list.records ++ [⟨list.allocated, cb, data⟩], list.allocated + 1,
      list.invoked⟩
  else list

/-- `oc_remove_ownership_status_cb`: the first record that
`oc_ownership_status_get_cb` finds is freed. -/
def ocRemoveOwnershipStatusCb (list : OwnedCallbacks) (cb data : Nat) :
    OwnedCallbacks :=
  ⟨list.records.eraseP fun record => record.cb == cb && record.data == data,
    list.allocated, list.invoked⟩

def act (list : OwnedCallbacks) : OwnershipCall → OwnedCallbacks
  | .add cb data memory => list.ocAddOwnershipStatusCb cb data memory
  | .remove cb data => list.ocRemoveOwnershipStatusCb cb data

/-- Callbacks and their data, registered in this order. -/
def registered (entries : List (Nat × Nat)) : OwnedCallbacks :=
  entries.foldl
    (fun list entry => list.ocAddOwnershipStatusCb entry.1 entry.2 true) empty

def note (list : OwnedCallbacks) (serial : Nat) : OwnedCallbacks :=
  ⟨list.records, list.allocated, list.invoked ++ [serial]⟩

/-- The callback of a record is called; `behaviour` tells what the callbacks
do, call after call. -/
def invoke (behaviour : Nat → List OwnershipCall) (list : OwnedCallbacks)
    (serial : Nat) : OwnedCallbacks :=
  (behaviour list.invoked.length).foldl act (list.note serial)

end OwnedCallbacks

/-- The loop of `oc_sec_decode_doxm` and the one of `oc_sec_doxm_default`. -/
inductive OwnershipLoop where
  | decoded
  | reset
  deriving DecidableEq

inductive OwnershipWalk where
  | visiting (serial : Nat) (list : OwnedCallbacks)
  | finished (list : OwnedCallbacks)
  /-- A record was touched that had been freed. -/
  | faulted (list : OwnedCallbacks)
  deriving DecidableEq

namespace OwnershipWalk

def list : OwnershipWalk → OwnedCallbacks
  | visiting _ list => list
  | finished list => list
  | faulted list => list

def resume (next : Option Nat) (list : OwnedCallbacks) : OwnershipWalk :=
  match next with
  | none => .finished list
  | some serial => .visiting serial list

def start (list : OwnedCallbacks) : OwnershipWalk :=
  resume list.serials.head? list

def step (loop : OwnershipLoop) (behaviour : Nat → List OwnershipCall) :
    OwnershipWalk → OwnershipWalk
  | .visiting serial list =>
      if serial ∈ list.serials then
        let after := list.invoke behaviour serial
        match loop with
        | .decoded => resume (successor serial list.serials) after
        | .reset =>
            if serial ∈ after.serials then
              resume (successor serial after.serials) after
            else .faulted after
      else .faulted list
  | .finished list => .finished list
  | .faulted list => .faulted list

/-- The loop after a number of calls. -/
def walk (loop : OwnershipLoop) (behaviour : Nat → List OwnershipCall)
    (list : OwnedCallbacks) (calls : Nat) : OwnershipWalk :=
  (step loop behaviour)^[calls] (start list)

/-- No freed record is touched, no callback is called twice, and those that
were registered at the start are all called unless they are unregistered. -/
structure NotifiesAll (loop : OwnershipLoop)
    (behaviour : Nat → List OwnershipCall) (list : OwnedCallbacks) : Prop where
  safe : ∀ calls left, walk loop behaviour list calls ≠ .faulted left
  once : ∀ calls, (walk loop behaviour list calls).list.invoked.Nodup
  all : ∃ calls, ∀ serial ∈ list.serials,
    serial ∈ (walk loop behaviour list calls).list.invoked ∨
      serial ∉ (walk loop behaviour list calls).list.serials

/-- The callback leaves the record from which its loop goes on. -/
def LeavesNext (behaviour : Nat → List OwnershipCall) (serial : Nat)
    (list : OwnedCallbacks) : OwnershipLoop → Prop
  | .decoded => ∀ next ∈ successor serial list.serials,
      next ∈ (list.invoke behaviour serial).serials
  | .reset => serial ∈ (list.invoke behaviour serial).serials

def AlwaysLeavesNext (loop : OwnershipLoop)
    (behaviour : Nat → List OwnershipCall) (list : OwnedCallbacks) : Prop :=
  ∀ calls serial left,
    walk loop behaviour list calls = .visiting serial left →
      LeavesNext behaviour serial left loop

end OwnershipWalk

namespace OwnedCallbacks

/-- Records stand in the order of their allocations. -/
structure Numbered (list : OwnedCallbacks) : Prop where
  sorted : list.serials.Pairwise (· < ·)
  bounded : ∀ serial ∈ list.serials, serial < list.allocated

theorem Numbered.nodup {list : OwnedCallbacks} (numbered : list.Numbered) :
    list.serials.Nodup :=
  numbered.sorted.imp fun less => Nat.ne_of_lt less

/-- Some records are kept in their order, and new ones come behind them. -/
structure Evolves (before after : OwnedCallbacks) : Prop where
  numbered : before.Numbered → after.Numbered
  invoked : after.invoked = before.invoked
  allocated : before.allocated ≤ after.allocated
  serials : ∃ kept added, after.serials = kept ++ added ∧
    kept.Sublist before.serials ∧
    ∀ serial ∈ added, before.allocated ≤ serial

variable (list : OwnedCallbacks)

theorem Evolves.refl : Evolves list list where
  numbered := id
  invoked := rfl
  allocated := Nat.le_refl _
  serials := ⟨list.serials, [], (List.append_nil _).symm,
    List.Sublist.refl _, by simp⟩

theorem Evolves.trans {first second third : OwnedCallbacks}
    (sooner : Evolves first second) (later : Evolves second third) :
    Evolves first third where
  numbered := fun numbered => later.numbered (sooner.numbered numbered)
  invoked := later.invoked.trans sooner.invoked
  allocated := Nat.le_trans sooner.allocated later.allocated
  serials := by
    obtain ⟨kept, added, equal, part, new⟩ := sooner.serials
    obtain ⟨still, last, equal', part', new'⟩ := later.serials
    rw [equal] at part'
    obtain ⟨old, recent, rfl, oldPart, recentPart⟩ :=
      List.sublist_append_iff.mp part'
    refine ⟨old, recent ++ last, ?_, oldPart.trans part, ?_⟩
    · rw [equal', List.append_assoc]
    · intro serial member
      rcases List.mem_append.mp member with early | late
      · exact new serial (recentPart.subset early)
      · exact Nat.le_trans sooner.allocated (new' serial late)

theorem evolves_add (cb data : Nat) (memory : Bool) :
    Evolves list (list.ocAddOwnershipStatusCb cb data memory) := by
  cases memory with
  | false => exact Evolves.refl list
  | true =>
      have serials_eq : (list.ocAddOwnershipStatusCb cb data true).serials =
          list.serials ++ [list.allocated] := by
        show (list.records ++ [_]).map _ = _
        rw [List.map_append]
        rfl
      refine ⟨?_, rfl, Nat.le_succ _, list.serials, [list.allocated],
        serials_eq, List.Sublist.refl _, by simp⟩
      intro numbered
      constructor
      · rw [serials_eq, List.pairwise_append]
        refine ⟨numbered.sorted, List.pairwise_singleton _ _, ?_⟩
        intro serial member last same
        rw [List.mem_singleton.mp same]
        exact numbered.bounded serial member
      · intro serial member
        rw [serials_eq] at member
        show serial < list.allocated + 1
        rcases List.mem_append.mp member with old | new
        · exact Nat.lt_succ_of_lt (numbered.bounded serial old)
        · rw [List.mem_singleton.mp new]
          exact Nat.lt_succ_self _

theorem evolves_remove (cb data : Nat) :
    Evolves list (list.ocRemoveOwnershipStatusCb cb data) := by
  have part : (list.ocRemoveOwnershipStatusCb cb data).serials.Sublist
      list.serials := List.eraseP_sublist.map _
  refine ⟨?_, rfl, Nat.le_refl _, _, [], (List.append_nil _).symm, part,
    by simp⟩
  intro numbered
  exact ⟨numbered.sorted.sublist part,
    fun serial member => numbered.bounded serial (part.subset member)⟩

theorem evolves_act (call : OwnershipCall) :
    Evolves list (list.act call) := by
  cases call with
  | add cb data memory => exact evolves_add list cb data memory
  | remove cb data => exact evolves_remove list cb data

theorem evolves_foldl_act (calls : List OwnershipCall)
    (list : OwnedCallbacks) : Evolves list (calls.foldl act list) := by
  induction calls generalizing list with
  | nil => exact Evolves.refl list
  | cons call calls ih => exact (evolves_act list call).trans (ih _)

theorem evolves_invoke (behaviour : Nat → List OwnershipCall)
    (list : OwnedCallbacks) (serial : Nat) :
    Evolves (list.note serial) (list.invoke behaviour serial) :=
  evolves_foldl_act _ _

theorem numbered_registered (entries : List (Nat × Nat)) :
    (registered entries).Numbered ∧ (registered entries).invoked = [] := by
  have evolves (entries : List (Nat × Nat)) (list : OwnedCallbacks) :
      Evolves list (entries.foldl (fun list entry =>
        list.ocAddOwnershipStatusCb entry.1 entry.2 true) list) := by
    induction entries generalizing list with
    | nil => exact Evolves.refl list
    | cons entry entries ih => exact (evolves_add list _ _ _).trans (ih _)
  have numbered : empty.Numbered := ⟨List.Pairwise.nil, by simp [serials, empty]⟩
  exact ⟨(evolves entries empty).numbered numbered,
    (evolves entries empty).invoked⟩

end OwnedCallbacks

namespace OwnershipWalk

open OwnedCallbacks

variable {loop : OwnershipLoop} {behaviour : Nat → List OwnershipCall}
  {list : OwnedCallbacks} {bound serial : Nat} {pending before rest : List Nat}

/-- The pending records were not called yet, and of those below the bound
that are registered the others were. -/
structure Pending (bound : Nat) (pending : List Nat)
    (list : OwnedCallbacks) : Prop where
  numbered : list.Numbered
  invokedBounded : ∀ serial ∈ list.invoked, serial < list.allocated
  once : list.invoked.Nodup
  fresh : ∀ serial ∈ pending, serial ∉ list.invoked
  covered : ∀ serial ∈ list.serials, serial < bound →
    serial ∈ pending ∨ serial ∈ list.invoked
  bound_le : bound ≤ list.allocated

theorem Pending.invoke (here : Pending bound (serial :: rest) list)
    (split : list.serials = before ++ serial :: rest)
    {first : List Nat}
    (after_eq : (list.invoke behaviour serial).serials = first ++ pending)
    (later : ∀ other ∈ pending, other ∈ rest ∨ list.allocated ≤ other)
    (earlier : ∀ other ∈ first,
      other ∈ before ∨ other = serial ∨ list.allocated ≤ other) :
    Pending bound pending (list.invoke behaviour serial) := by
  have evolves := evolves_invoke behaviour list serial
  have distinct := here.numbered.nodup
  rw [split] at distinct
  have apart := List.nodup_append.mp distinct
  have invoked : (list.invoke behaviour serial).invoked =
      list.invoked ++ [serial] := evolves.invoked
  have below : serial < list.allocated :=
    here.numbered.bounded serial (by simp [split])
  refine ⟨evolves.numbered ⟨here.numbered.sorted, here.numbered.bounded⟩,
    ?_, ?_, ?_, ?_, Nat.le_trans here.bound_le evolves.allocated⟩
  · intro other member
    rw [invoked] at member
    refine Nat.lt_of_lt_of_le ?_ evolves.allocated
    rcases List.mem_append.mp member with old | new
    · exact here.invokedBounded other old
    · rw [List.mem_singleton.mp new]
      exact below
  · rw [invoked]
    exact here.once.append (List.nodup_singleton serial)
      (List.disjoint_singleton.mpr
        (here.fresh serial List.mem_cons_self))
  · intro other member inside
    rw [invoked] at inside
    rcases List.mem_append.mp inside with old | new
    · rcases later other member with behind | recent
      · exact here.fresh other (List.mem_cons_of_mem _ behind) old
      · have less := here.invokedBounded other old
        omega
    · rw [List.mem_singleton.mp new] at member
      rcases later serial member with behind | recent
      · exact (List.nodup_cons.mp apart.2.1).1 behind
      · omega
  · intro other member initial
    rw [after_eq] at member
    rw [invoked]
    rcases List.mem_append.mp member with past | still
    · refine .inr ?_
      rcases earlier other past with inBefore | rfl | recent
      · have registered : other ∈ list.serials := by
          rw [split]
          exact List.mem_append_left _ inBefore
        rcases here.covered other registered initial with again | called
        · exact (apart.2.2 other inBefore other again rfl).elim
        · exact List.mem_append_left _ called
      · exact List.mem_append_right _ (List.mem_singleton_self _)
      · have initial := Nat.lt_of_lt_of_le initial here.bound_le
        omega
    · exact .inl still

/-- Where a loop is that has not touched a freed record. -/
def Proceeds (bound calls : Nat) : OwnershipWalk → Prop
  | .visiting serial list =>
      calls ≤ serial ∧ ∃ before rest,
        list.serials = before ++ serial :: rest ∧
          Pending bound (serial :: rest) list
  | .finished list => Pending bound [] list
  | .faulted _ => False

theorem proceeds_resume {calls : Nat} {first : List Nat}
    (serials_eq : list.serials = first ++ pending)
    (here : Pending bound pending list)
    (onward : ∀ next ∈ pending, calls ≤ next) :
    Proceeds bound calls (resume pending.head? list) := by
  cases pending with
  | nil => exact here
  | cons next others =>
      exact ⟨onward next List.mem_cons_self, first, others, serials_eq, here⟩

theorem step_decoded (member : serial ∈ list.serials) :
    step .decoded behaviour (.visiting serial list) =
      resume (successor serial list.serials)
        (list.invoke behaviour serial) :=
  if_pos member

theorem step_reset (member : serial ∈ list.serials)
    (leaves : serial ∈ (list.invoke behaviour serial).serials) :
    step .reset behaviour (.visiting serial list) =
      resume (successor serial (list.invoke behaviour serial).serials)
        (list.invoke behaviour serial) :=
  (if_pos member).trans (if_pos leaves)

theorem step_reset_of_gone (member : serial ∈ list.serials)
    (gone : serial ∉ (list.invoke behaviour serial).serials) :
    step .reset behaviour (.visiting serial list) =
      .faulted (list.invoke behaviour serial) :=
  (if_pos member).trans (if_neg gone)

variable {calls : Nat}

theorem proceeds_step_decoded (forward : calls ≤ serial)
    (split : list.serials = before ++ serial :: rest)
    (here : Pending bound (serial :: rest) list)
    (leaves : LeavesNext behaviour serial list .decoded) :
    Proceeds bound (calls + 1)
      (step .decoded behaviour (.visiting serial list)) := by
  have member : serial ∈ list.serials := by simp [split]
  obtain ⟨kept, added, after_eq, part, new⟩ :=
    (evolves_invoke behaviour list serial).serials
  have part : kept.Sublist (before ++ serial :: rest) := split ▸ part
  have distinct := here.numbered.nodup
  rw [split] at distinct
  have fresh : serial ∉ before := by
    intro again
    exact (List.nodup_append.mp distinct).2.2 serial again serial
      List.mem_cons_self rfl
  have noted : successor serial list.serials = rest.head? := by
    rw [split, successor_append fresh]
  rw [step_decoded member, noted]
  have leaves : ∀ next ∈ successor serial list.serials,
      next ∈ (list.invoke behaviour serial).serials := leaves
  rw [noted] at leaves
  cases rest with
  | nil =>
      -- the loop ends here, whatever was registered behind
      refine here.invoke split (List.append_nil _).symm (by simp) ?_
      intro other inside
      rw [after_eq] at inside
      rcases List.mem_append.mp inside with old | recent
      · rcases List.mem_append.mp (part.subset old) with past | same
        · exact .inl past
        · exact .inr (.inl (List.mem_singleton.mp same))
      · exact .inr (.inr (new other recent))
  | cons next others =>
      have there := leaves next rfl
      have registered : next ∈ list.serials := by simp [split]
      have inKept : next ∈ kept := by
        rw [after_eq] at there
        refine (List.mem_append.mp there).resolve_right fun recent => ?_
        have above : list.allocated ≤ next := new next recent
        have below := here.numbered.bounded next registered
        omega
      rw [List.append_cons] at distinct part
      obtain ⟨first, second, rfl, firstPart, secondPart⟩ :=
        sublist_split distinct part inKept
      have split' : (list.invoke behaviour serial).serials =
          first ++ next :: (second ++ added) := by
        rw [after_eq, List.append_assoc, List.cons_append]
      have less : serial < next := by
        have sorted := here.numbered.sorted
        rw [split, List.pairwise_append, List.pairwise_cons] at sorted
        exact sorted.2.1.1 next List.mem_cons_self
      refine ⟨by omega, first, second ++ added, split',
        here.invoke split split' ?_ ?_⟩
      · intro other inside
        rcases List.mem_cons.mp inside with rfl | behind
        · exact .inl List.mem_cons_self
        · exact (List.mem_append.mp behind).imp
            (fun old => List.mem_cons_of_mem _ (secondPart.subset old))
            (new other)
      · intro other inside
        rcases List.mem_append.mp (firstPart.subset inside) with past | same
        · exact .inl past
        · exact .inr (.inl (List.mem_singleton.mp same))

theorem proceeds_step_reset (forward : calls ≤ serial)
    (split : list.serials = before ++ serial :: rest)
    (here : Pending bound (serial :: rest) list)
    (leaves : LeavesNext behaviour serial list .reset) :
    Proceeds bound (calls + 1)
      (step .reset behaviour (.visiting serial list)) := by
  have member : serial ∈ list.serials := by simp [split]
  have leaves : serial ∈ (list.invoke behaviour serial).serials := leaves
  obtain ⟨kept, added, after_eq, part, new⟩ :=
    (evolves_invoke behaviour list serial).serials
  have part : kept.Sublist (before ++ serial :: rest) := split ▸ part
  have distinct := here.numbered.nodup
  rw [split] at distinct
  have inKept : serial ∈ kept := by
    rw [after_eq] at leaves
    refine (List.mem_append.mp leaves).resolve_right fun recent => ?_
    have above : list.allocated ≤ serial := new serial recent
    have below := here.numbered.bounded serial member
    omega
  obtain ⟨first, second, rfl, firstPart, secondPart⟩ :=
    sublist_split distinct part inKept
  have behind : (list.invoke behaviour serial).serials =
      first ++ serial :: (second ++ added) := by
    rw [after_eq, List.append_assoc, List.cons_append]
  have numbered := (evolves_invoke behaviour list serial).numbered
    ⟨here.numbered.sorted, here.numbered.bounded⟩
  have fresh : serial ∉ first := by
    have distinct := numbered.nodup
    rw [behind] at distinct
    intro again
    exact (List.nodup_append.mp distinct).2.2 serial again serial
      List.mem_cons_self rfl
  have stepped : step .reset behaviour (.visiting serial list) =
      resume (second ++ added).head? (list.invoke behaviour serial) := by
    rw [step_reset member leaves, behind, successor_append fresh]
  rw [stepped]
  have split' : (list.invoke behaviour serial).serials =
      (first ++ [serial]) ++ (second ++ added) := by
    rw [behind, List.append_assoc, List.singleton_append]
  refine proceeds_resume split' (here.invoke split split' ?_ ?_) ?_
  · intro other inside
    exact (List.mem_append.mp inside).imp (fun old => secondPart.subset old)
      (new other)
  · intro other inside
    rcases List.mem_append.mp inside with old | same
    · exact .inl (firstPart.subset old)
    · exact .inr (.inl (List.mem_singleton.mp same))
  · intro next inside
    have sorted := numbered.sorted
    rw [behind, List.pairwise_append, List.pairwise_cons] at sorted
    have less := sorted.2.1.1 next inside
    omega

theorem walk_succ (list : OwnedCallbacks) (calls : Nat) :
    walk loop behaviour list (calls + 1) =
      step loop behaviour (walk loop behaviour list calls) :=
  Function.iterate_succ_apply' _ _ _

variable {here : OwnershipWalk}

/-- A step that leaves the next record in the list touches no freed one. -/
theorem proceeds_step (proceeds : Proceeds bound calls here)
    (leaves : ∀ serial left, here = .visiting serial left →
      LeavesNext behaviour serial left loop) :
    Proceeds bound (calls + 1) (step loop behaviour here) := by
  cases here with
  | finished list => exact proceeds
  | faulted list => exact proceeds
  | visiting serial list =>
      obtain ⟨forward, before, rest, split, pending⟩ := proceeds
      have leaves := leaves serial list rfl
      cases loop with
      | decoded => exact proceeds_step_decoded forward split pending leaves
      | reset => exact proceeds_step_reset forward split pending leaves

theorem proceeds_start (numbered : list.Numbered) (new : list.invoked = []) :
    Proceeds list.allocated 0 (start list) := by
  have pending : Pending list.allocated list.serials list :=
    ⟨numbered, by simp [new], by simp [new], by simp [new],
      fun serial member _ => .inl member, Nat.le_refl _⟩
  exact @proceeds_resume list list.allocated list.serials 0 [] rfl pending
    fun _ _ => Nat.zero_le _

theorem proceeds_walk (numbered : list.Numbered) (new : list.invoked = [])
    (leaves : AlwaysLeavesNext loop behaviour list) (calls : Nat) :
    Proceeds list.allocated calls (walk loop behaviour list calls) := by
  induction calls with
  | zero => exact proceeds_start numbered new
  | succ calls ih =>
      rw [walk_succ]
      exact proceeds_step ih (leaves calls)

theorem once_of_proceeds (proceeds : Proceeds bound calls here) :
    here.list.invoked.Nodup := by
  cases here with
  | faulted list => exact proceeds.elim
  | finished list => exact proceeds.once
  | visiting serial list =>
      obtain ⟨-, before, rest, -, pending⟩ := proceeds
      exact pending.once

theorem covered_of_proceeds (proceeds : Proceeds bound bound here)
    {serial : Nat} (initial : serial < bound)
    (registered : serial ∈ here.list.serials) : serial ∈ here.list.invoked := by
  cases here with
  | faulted list => exact proceeds.elim
  | finished list =>
      exact (proceeds.covered serial registered initial).resolve_left
        List.not_mem_nil
  | visiting next list =>
      obtain ⟨forward, before, rest, split, pending⟩ := proceeds
      refine (pending.covered serial registered initial).resolve_left ?_
      intro behind
      have sorted := pending.numbered.sorted
      rw [split, List.pairwise_append, List.pairwise_cons] at sorted
      rcases List.mem_cons.mp behind with rfl | later
      · omega
      · have less := sorted.2.1.1 serial later
        omega

theorem faulted_of_not_leavesNext {left : OwnedCallbacks}
    (here : walk loop behaviour list calls = .visiting serial left)
    (lost : ¬ LeavesNext behaviour serial left loop) :
    ∃ calls left, walk loop behaviour list calls = .faulted left := by
  have next := @walk_succ loop behaviour list calls
  rw [here] at next
  by_cases member : serial ∈ left.serials
  · cases loop with
    | reset =>
        rw [step_reset_of_gone member lost] at next
        exact ⟨calls + 1, _, next⟩
    | decoded =>
        unfold LeavesNext at lost
        simp only [not_forall] at lost
        obtain ⟨noted, found, gone⟩ := lost
        rw [step_decoded member, Option.mem_def.mp found] at next
        have second := @walk_succ .decoded behaviour list (calls + 1)
        rw [next] at second
        exact ⟨calls + 2, _, second.trans (if_neg gone)⟩
  · exact ⟨calls + 1, _, next.trans (if_neg member)⟩

end OwnershipWalk

open OwnershipWalk in
/-- A notification is right exactly if no callback unregisters the record
from which its loop goes on. -/
theorem ownership_notification (loop : OwnershipLoop)
    (behaviour : Nat → List OwnershipCall) (entries : List (Nat × Nat)) :
    NotifiesAll loop behaviour (OwnedCallbacks.registered entries) ↔
      AlwaysLeavesNext loop behaviour
        (OwnedCallbacks.registered entries) := by
  obtain ⟨numbered, new⟩ := OwnedCallbacks.numbered_registered entries
  constructor
  · intro notifies calls serial left here
    by_contra lost
    obtain ⟨later, gone, faulted⟩ := faulted_of_not_leavesNext here lost
    exact notifies.safe later gone faulted
  · intro leaves
    have proceeds := proceeds_walk numbered new leaves
    refine ⟨?_, fun calls => once_of_proceeds (proceeds calls), ?_⟩
    · intro calls left faulted
      have here := proceeds calls
      rw [faulted] at here
      exact here
    · refine ⟨(OwnedCallbacks.registered entries).allocated, ?_⟩
      intro serial initial
      by_cases registered : serial ∈ (walk loop behaviour
          (OwnedCallbacks.registered entries)
          (OwnedCallbacks.registered entries).allocated).list.serials
      · exact .inl (covered_of_proceeds (proceeds _)
          (numbered.bounded serial initial) registered)
      · exact .inr registered

open OwnershipWalk in
/-- The first of two callbacks unregisters itself in a reset. -/
theorem not_notifiesAll_unregistersItself :
    ¬ NotifiesAll .reset (fun _ => [.remove 1 7])
      (OwnedCallbacks.registered [(1, 7), (2, 7)]) := by
  intro notifies
  exact notifies.safe 1 ⟨[⟨1, 2, 7⟩], 2, [0]⟩ (by decide)

end IotivityLite
