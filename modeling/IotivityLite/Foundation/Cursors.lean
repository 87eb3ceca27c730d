import Mathlib.Data.List.TakeWhile

/-!
# Searches that are started again

A linked list is searched for the next node that fits, the node is used, and
the search is started again from it.  A pointer to a node is the list from
that node on, and NULL the empty list.  The search either looks behind the
node it is given or at this node first; from NULL it starts at the head.
-/

namespace IotivityLite

namespace Cursors

variable {α State : Type} (fits : α → Bool) (all : List α)
  (visit : State → α → State)

/-- The loop over the nodes from a pointer on. -/
def findNode : List α → List α
  | [] => []
  | node :: nodes =>
      if fits node then node :: nodes else findNode nodes

theorem findNode_length (nodes : List α) :
    (findNode fits nodes).length ≤ nodes.length := by
  induction nodes with
  | nil => exact le_refl _
  | cons node nodes ih =>
      rw [findNode]
      split
      · exact le_refl _
      · exact Nat.le_succ_of_le ih

/-- The search behind a node. -/
def findBehind : (start : List α) → List α
  | [] => findNode fits all
  | _ :: next => findNode fits next

/-- The search from a node on, this node included. -/
def findFrom : (start : List α) → List α
  | [] => findNode fits all
  | start => findNode fits start

/-- How far a search from a pointer can go. -/
def ahead : (start : List α) → Nat
  | [] => all.length + 1
  | start => start.length

variable {node : α}

theorem findBehind_ahead {start next : List α}
    (found : findBehind fits all start = node :: next) :
    ahead all (node :: next) < ahead all start := by
  cases start with
  | nil =>
      have bound := findNode_length fits all
      rw [show findNode fits all = node :: next from found] at bound
      exact Nat.lt_succ_of_le bound
  | cons first rest =>
      have bound := findNode_length fits rest
      rw [show findNode fits rest = node :: next from found] at bound
      exact Nat.lt_succ_of_le bound

theorem findFrom_ahead {start next : List α}
    (found : findFrom fits all start = node :: next) :
    next.length < ahead all start := by
  cases start with
  | nil =>
      have bound := findNode_length fits all
      rw [show findNode fits all = node :: next from found,
        List.length_cons] at bound
      exact Nat.lt_succ_of_lt bound
  | cons first rest =>
      have bound := findNode_length fits (first :: rest)
      rw [show findNode fits (first :: rest) = node :: next from found,
        List.length_cons] at bound
      exact bound

/-- `do start = find(start) while (start != NULL)`, looking behind the last
node. -/
def collectBehind (start : List α) (state : State) : State :=
  match _found : findBehind fits all start with
  | [] => state
  | node :: next => collectBehind (node :: next) (visit state node)
  termination_by ahead all start
  decreasing_by exact findBehind_ahead fits all _found

/-- `do start = find(start); …; start = start->next while (start != NULL)`,
looking at the node that it is given. -/
def collectFrom (start : List α) (state : State) : State :=
  match _found : findFrom fits all start with
  | [] => state
  | node :: next =>
      if next.isEmpty then visit state node
      else collectFrom next (visit state node)
  termination_by ahead all start
  decreasing_by
    have := findFrom_ahead fits all _found
    cases next with
    | nil => simp at *
    | cons first rest => exact this

section Rules

variable {fits all visit}

theorem filter_findNode (nodes : List α) :
    (findNode fits nodes).filter fits = nodes.filter fits := by
  induction nodes with
  | nil => rfl
  | cons node nodes ih =>
      rw [findNode]
      split
      · rfl
      · next other => rw [ih, List.filter_cons_of_neg other]

theorem findNode_fits {nodes next : List α}
    (found : findNode fits nodes = node :: next) : fits node = true := by
  induction nodes with
  | nil => cases found
  | cons first nodes ih =>
      rw [findNode] at found
      split at found
      · next here =>
          cases found
          exact here
      · exact ih found

theorem filter_of_found {nodes next : List α}
    (found : findNode fits nodes = node :: next) :
    nodes.filter fits = node :: next.filter fits := by
  rw [← filter_findNode, found,
    List.filter_cons_of_pos (findNode_fits found)]

theorem filter_of_none {nodes : List α} (none : findNode fits nodes = []) :
    nodes.filter fits = [] := by
  rw [← filter_findNode, none, List.filter_nil]

theorem collectBehind_cons (node : α) (next : List α) (state : State) :
    collectBehind fits all visit (node :: next) state =
      (next.filter fits).foldl visit state := by
  induction left : next.length using Nat.strong_induction_on
    generalizing node next state with
  | _ left ih =>
      rw [collectBehind]
      split
      · next none =>
          rw [filter_of_none none]
          rfl
      · next later rest found =>
          have bound := findNode_length fits next
          rw [show findNode fits next = later :: rest from found,
            List.length_cons] at bound
          rw [ih rest.length (by omega) later rest _ rfl,
            filter_of_found found, List.foldl_cons]

theorem collectBehind_eq (state : State) :
    collectBehind fits all visit [] state =
      (all.filter fits).foldl visit state := by
  rw [collectBehind]
  split
  · next none =>
      rw [filter_of_none none]
      rfl
  · next found =>
      rw [collectBehind_cons, filter_of_found found, List.foldl_cons]

theorem collectFrom_cons (node : α) (next : List α) (state : State) :
    collectFrom fits all visit (node :: next) state =
      ((node :: next).filter fits).foldl visit state := by
  induction left : next.length using Nat.strong_induction_on
    generalizing node next state with
  | _ left ih =>
      rw [collectFrom]
      split
      · next none =>
          rw [filter_of_none none]
          rfl
      · next later rest found =>
          have bound := findNode_length fits (node :: next)
          rw [show findNode fits (node :: next) = later :: rest from found,
            List.length_cons, List.length_cons] at bound
          rw [filter_of_found found, List.foldl_cons]
          cases rest with
          | nil => rfl
          | cons first rest =>
              rw [List.length_cons] at bound
              exact ih rest.length (by omega) first rest _ rfl

theorem collectFrom_eq (state : State) :
    collectFrom fits all visit [] state =
      (all.filter fits).foldl visit state := by
  rw [collectFrom]
  split
  · next none =>
      rw [filter_of_none none]
      rfl
  · next node next found =>
      rw [filter_of_found found, List.foldl_cons]
      cases next with
      | nil => rfl
      | cons first rest => exact collectFrom_cons first rest _

end Rules

end Cursors

end IotivityLite
