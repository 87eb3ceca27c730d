import Mathlib.Data.List.Nodup
import Mathlib.Logic.Function.Basic

/-!
# Singly linked lists

A list in memory is a head and a link for every item.  `Linked` says that the
links lead from the head through the items to the end.  A link leads to one
place only, so that what ends visits no item twice.
-/

namespace IotivityLite

variable {α : Type}

/-- The links lead from the head through the items, in their order, and end. -/
inductive Linked (next : α → Option α) : Option α → List α → Prop where
  | nil : Linked next none []
  | cons {item : α} {rest : List α} :
      Linked next (next item) rest → Linked next (some item) (item :: rest)

namespace Linked

variable {next other : α → Option α} {head : Option α} {items : List α}

theorem eq_nil (linked : Linked next none items) : items = [] := by
  cases linked
  rfl

variable {first : α}

theorem exists_cons (linked : Linked next (some first) items) :
    ∃ rest, items = first :: rest ∧ Linked next (next first) rest := by
  cases linked with
  | cons later => exact ⟨_, rfl, later⟩

theorem head_eq {rest : List α} (linked : Linked next head (first :: rest)) :
    head = some first := by
  cases linked
  rfl

theorem head?_eq (linked : Linked next head items) : head = items.head? := by
  cases linked <;> rfl

theorem tail {rest : List α} (linked : Linked next head (first :: rest)) :
    Linked next (next first) rest := by
  cases linked with
  | cons later => exact later

theorem unique {left right : List α} (first : Linked next head left)
    (second : Linked next head right) : left = right := by
  induction first generalizing right with
  | nil => exact second.eq_nil.symm
  | cons _ ih =>
      obtain ⟨rest, rfl, later⟩ := second.exists_cons
      rw [ih later]

theorem suffix {before after : List α} {item : α}
    (linked : Linked next head (before ++ item :: after)) :
    Linked next (some item) (item :: after) := by
  induction before generalizing head with
  | nil =>
      cases linked with
      | cons later => exact .cons later
  | cons first before ih =>
      cases linked with
      | cons later => exact ih later

theorem nodup (linked : Linked next head items) : items.Nodup := by
  induction linked with
  | nil => exact List.nodup_nil
  | @cons item rest later ih =>
      rw [List.nodup_cons]
      refine ⟨?_, ih⟩
      intro again
      obtain ⟨before, after, rfl⟩ := List.append_of_mem again
      -- the list from the second visit on would be the whole list
      have same := (Linked.cons later).unique later.suffix
      have lengths := congrArg List.length same
      simp only [List.length_cons, List.length_append] at lengths
      omega

theorem congr (linked : Linked next head items)
    (same : ∀ item ∈ items, other item = next item) :
    Linked other head items := by
  induction linked with
  | nil => exact .nil
  | @cons item rest later ih =>
      rw [List.forall_mem_cons] at same
      refine .cons ?_
      rw [same.1]
      exact ih same.2

theorem update [DecidableEq α] {item : α} {link : Option α}
    (linked : Linked next head items) (outside : item ∉ items) :
    Linked (Function.update next item link) head items := by
  apply linked.congr
  intro candidate member
  have different : candidate ≠ item := by
    rintro rfl
    exact outside member
  exact Function.update_of_ne different _ _

theorem splice {before after replaced : List α} {item : α}
    (linked : Linked next head (before ++ item :: after))
    (same : ∀ candidate ∈ before, other candidate = next candidate)
    (rest : Linked other (some item) (item :: replaced)) :
    Linked other head (before ++ item :: replaced) := by
  induction before generalizing head with
  | nil =>
      cases linked with
      | cons _ => exact rest
  | cons first before ih =>
      rw [List.forall_mem_cons] at same
      cases linked with
      | cons later =>
          refine .cons ?_
          rw [same.1]
          exact ih later same.2

theorem unlink [DecidableEq α] {before after : List α} {last gone : α}
    (linked : Linked next head (before ++ last :: gone :: after)) :
    Linked (Function.update next last (next gone)) head
      (before ++ last :: after) := by
  have distinct := linked.nodup
  rw [List.nodup_append, List.nodup_cons] at distinct
  obtain ⟨-, ⟨fresh, -⟩, apart⟩ := distinct
  have rest : Linked next (next gone) after := linked.suffix.tail.tail
  refine linked.splice ?_ (.cons ?_)
  · intro candidate member
    exact Function.update_of_ne (apart candidate member last (by simp)) _ _
  · rw [Function.update_self]
    apply rest.update
    intro member
    exact fresh (List.mem_cons_of_mem gone member)

theorem insert [DecidableEq α] {before after : List α} {last fresh : α}
    (linked : Linked next head (before ++ last :: after))
    (outside : fresh ∉ before ++ last :: after) :
    Linked (Function.update (Function.update next fresh (next last)) last
      (some fresh)) head (before ++ last :: fresh :: after) := by
  have distinct := linked.nodup
  rw [List.nodup_append, List.nodup_cons] at distinct
  obtain ⟨-, ⟨once, -⟩, apart⟩ := distinct
  rw [List.mem_append, List.mem_cons, not_or, not_or] at outside
  obtain ⟨early, different, late⟩ := outside
  have rest : Linked next (next last) after := linked.suffix.tail
  refine linked.splice ?_ (.cons ?_)
  · intro candidate member
    rw [Function.update_of_ne (apart candidate member last (by simp)),
      Function.update_of_ne (ne_of_mem_of_not_mem member early)]
  · rw [Function.update_self]
    refine .cons ?_
    rw [Function.update_of_ne different, Function.update_self]
    exact (rest.update late).update once

theorem follow {before after others : List α} {item : α}
    (linked : Linked next head (before ++ item :: after))
    (same : ∀ candidate ∈ before, other candidate = next candidate)
    (ends : Linked other head others) :
    ∃ rest, others = before ++ item :: rest ∧
      Linked other (other item) rest := by
  induction before generalizing head others with
  | nil =>
      obtain rfl := linked.head_eq
      exact ends.exists_cons
  | cons first before ih =>
      rw [List.forall_mem_cons] at same
      obtain rfl := linked.head_eq
      obtain ⟨rest, rfl, onward⟩ := ends.exists_cons
      rw [same.1] at onward
      obtain ⟨tail, rfl, later⟩ := ih linked.tail same.2 onward
      exact ⟨tail, rfl, later⟩

end Linked

end IotivityLite
