import Mathlib.Data.Fintype.Order
import Mathlib.Logic.Relation
import Mathlib.Order.WellFounded

/-!
# Walks that need not end

In a finite graph a walk can go on for ever if and only if it can get to a
cycle.
-/

namespace IotivityLite

open Relation

variable {Node : Type} {edge : Node → Node → Prop} {node : Node}

/-- A cycle can be reached from the node. -/
def ReachesCycle (edge : Node → Node → Prop) (node : Node) : Prop :=
  ∃ turn, ReflTransGen edge node turn ∧ TransGen edge turn turn

theorem ReachesCycle.next (endless : ReachesCycle edge node) :
    ∃ next, edge node next ∧ ReachesCycle edge next := by
  obtain ⟨turn, reached, cycle⟩ := endless
  rcases ReflTransGen.cases_head reached with rfl | ⟨next, here, later⟩
  · obtain ⟨next, here, later⟩ := TransGen.head'_iff.mp cycle
    exact ⟨next, here, node, later, cycle⟩
  · exact ⟨next, here, turn, later, cycle⟩

/-- The nodes that can be reached. -/
abbrev ReachedNode (edge : Node → Node → Prop) (node : Node) : Type :=
  { other : Node // ReflTransGen edge node other }

/-- One node lies behind another one. -/
def LiesBehind (later sooner : ReachedNode edge node) : Prop :=
  TransGen edge sooner.val later.val

theorem wellFounded_behind [Finite Node]
    (ends : ¬ ReachesCycle edge node) :
    WellFounded (@LiesBehind Node edge node) := by
  have transitive : IsTrans (ReachedNode edge node) LiesBehind :=
    ⟨fun _ _ _ first second => second.trans first⟩
  have irreflexive : Std.Irrefl (@LiesBehind Node edge node) :=
    ⟨fun other cycle => ends ⟨other.val, other.property, cycle⟩⟩
  exact Finite.wellFounded_of_trans_of_irrefl LiesBehind

theorem acc_of_not_reachesCycle [Finite Node]
    (ends : ¬ ReachesCycle edge node) : Acc (Function.swap edge) node := by
  have each : ∀ other : ReachedNode edge node,
      Acc (Function.swap edge) other.val := by
    intro other
    induction other using (wellFounded_behind ends).induction with
    | _ other ih =>
        refine Acc.intro _ fun next here => ?_
        exact ih ⟨next, other.property.tail here⟩ (.single here)
  exact each ⟨node, .refl⟩

theorem exists_bound_forall_mem {enough : Node → Nat → Prop} {nodes : List Node}
    (each : ∀ node ∈ nodes, ∃ least, ∀ amount ≥ least, enough node amount) :
    ∃ least, ∀ amount ≥ least, ∀ node ∈ nodes, enough node amount := by
  induction nodes with
  | nil => exact ⟨0, by simp⟩
  | cons node nodes ih =>
      rw [List.forall_mem_cons] at each
      obtain ⟨first, here⟩ := each.1
      obtain ⟨second, later⟩ := ih each.2
      refine ⟨max first second, fun amount bound => ?_⟩
      rw [ge_iff_le, max_le_iff] at bound
      exact List.forall_mem_cons.mpr
        ⟨here amount bound.1, later amount bound.2⟩

end IotivityLite
