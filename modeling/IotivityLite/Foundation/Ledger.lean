import Mathlib.Data.List.Nodup
import Mathlib.Data.List.Perm.Basic

/-!
# Records that are allocated and freed

A record has an address, which may be given out again once the record has been
freed, and a number that no other record ever gets.  `Ledger` relates the
records in use, the numbers of those that were freed and the next number: none
is lost and none is freed twice.
-/

namespace IotivityLite

/-- A pointer; the program sees its address only. -/
structure Handle where
  id : Nat
  address : Nat
  deriving DecidableEq, Repr

structure Ledger (live : List Handle) (freed : List Nat) (next : Nat) :
    Prop where
  ids : (live.map (·.id)).Nodup
  addresses : (live.map (·.address)).Nodup
  below : ∀ handle ∈ live, handle.id < next
  freedBelow : ∀ id ∈ freed, id < next
  apart : ∀ handle ∈ live, handle.id ∉ freed
  once : freed.Nodup
  accounted : ∀ id < next, id ∈ freed ∨ ∃ handle ∈ live, handle.id = id

namespace Ledger

variable {live other : List Handle} {freed : List Nat} {next : Nat}
  {handle second : Handle}

theorem empty : Ledger [] [] 0 where
  ids := List.nodup_nil
  addresses := List.nodup_nil
  below := fun _ member => nomatch member
  freedBelow := fun _ member => nomatch member
  apart := fun _ member => nomatch member
  once := List.nodup_nil
  accounted := fun id small => absurd small (Nat.not_lt_zero id)

theorem eq_of_address (ledger : Ledger live freed next)
    (member : handle ∈ live) (secondMember : second ∈ live)
    (same : handle.address = second.address) : handle = second :=
  List.inj_on_of_nodup_map ledger.addresses member secondMember same

theorem perm (ledger : Ledger live freed next) (order : live.Perm other) :
    Ledger other freed next where
  ids := (order.map _).nodup_iff.mp ledger.ids
  addresses := (order.map _).nodup_iff.mp ledger.addresses
  below := fun handle member => ledger.below handle (order.mem_iff.mpr member)
  freedBelow := ledger.freedBelow
  apart := fun handle member => ledger.apart handle (order.mem_iff.mpr member)
  once := ledger.once
  accounted := by
    intro id small
    rcases ledger.accounted id small with gone | ⟨handle, member, same⟩
    · exact .inl gone
    · exact .inr ⟨handle, order.mem_iff.mp member, same⟩

theorem alloc (ledger : Ledger live freed next) {address : Nat}
    (unused : ∀ handle ∈ live, handle.address ≠ address) :
    Ledger (⟨next, address⟩ :: live) freed (next + 1) where
  ids := by
    rw [List.map_cons, List.nodup_cons]
    refine ⟨?_, ledger.ids⟩
    intro member
    obtain ⟨handle, handleMember, same⟩ := List.mem_map.mp member
    exact absurd same (Nat.ne_of_lt (ledger.below handle handleMember))
  addresses := by
    rw [List.map_cons, List.nodup_cons]
    refine ⟨?_, ledger.addresses⟩
    intro member
    obtain ⟨handle, handleMember, same⟩ := List.mem_map.mp member
    exact unused handle handleMember same
  below := by
    intro handle member
    rcases List.mem_cons.mp member with rfl | old
    · exact Nat.lt_succ_self next
    · exact Nat.lt_succ_of_lt (ledger.below handle old)
  freedBelow := fun id member => Nat.lt_succ_of_lt (ledger.freedBelow id member)
  apart := by
    intro handle member gone
    rcases List.mem_cons.mp member with rfl | old
    · exact Nat.lt_irrefl next (ledger.freedBelow next gone)
    · exact ledger.apart handle old gone
  once := ledger.once
  accounted := by
    intro id small
    by_cases new : id = next
    · exact .inr ⟨_, List.mem_cons_self, new.symm⟩
    · rcases ledger.accounted id (by omega) with gone | ⟨handle, old, same⟩
      · exact .inl gone
      · exact .inr ⟨handle, List.mem_cons_of_mem _ old, same⟩

theorem free (ledger : Ledger (handle :: live) freed next) :
    Ledger live (handle.id :: freed) next where
  ids := (List.nodup_cons.mp ledger.ids).2
  addresses := (List.nodup_cons.mp ledger.addresses).2
  below := fun other member =>
    ledger.below other (List.mem_cons_of_mem _ member)
  freedBelow := by
    intro id member
    rcases List.mem_cons.mp member with rfl | old
    · exact ledger.below handle List.mem_cons_self
    · exact ledger.freedBelow id old
  apart := by
    intro other member gone
    rcases List.mem_cons.mp gone with same | old
    · exact (List.nodup_cons.mp ledger.ids).1
        (List.mem_map.mpr ⟨other, member, same⟩)
    · exact ledger.apart other (List.mem_cons_of_mem _ member) old
  once := List.nodup_cons.mpr
    ⟨ledger.apart handle List.mem_cons_self, ledger.once⟩
  accounted := by
    intro id small
    rcases ledger.accounted id small with gone | ⟨other, member, same⟩
    · exact .inl (List.mem_cons_of_mem _ gone)
    · rcases List.mem_cons.mp member with rfl | later
      · exact .inl (same ▸ List.mem_cons_self)
      · exact .inr ⟨other, later, same⟩

theorem freeAll (ledger : Ledger live freed next) :
    Ledger [] ((live.map (·.id)).reverse ++ freed) next := by
  induction live generalizing freed with
  | nil => exact ledger
  | cons handle live ih =>
      rw [List.map_cons, List.reverse_cons, List.append_assoc]
      exact ih ledger.free

end Ledger

end IotivityLite
