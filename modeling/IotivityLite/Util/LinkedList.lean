import IotivityLite.Foundation.Linked
import IotivityLite.Foundation.Run
import Mathlib.Data.List.Perm.Subperm

/-!
# The lists of items

The lists of `oc_list.c` that the program uses.  A list is a head, and the
link is in the item, so that an item can be in one list only and does not tell
in which.  The loops follow as many links as there is fuel.
-/

namespace IotivityLite

/-- The heads of the lists and the links of the items. -/
structure OcLists (Name Item : Type) where
  head : Name → Option Item
  next : Item → Option Item

inductive ListCall (Name Item : Type) where
  | init (name : Name)
  | head (name : Name)
  | add (name : Name) (item : Item)
  | insert (name : Name) (previous : Option Item) (item : Item)
  | pop (name : Name)
  | remove (name : Name) (item : Item)
  | length (name : Name)
  | hasItem (name : Name) (item : Item)

inductive ListAnswer (Item : Type) where
  | done
  | item (found : Option Item)
  | length (count : Nat)
  | found (present : Bool)

variable {Name Item : Type}

namespace OcLists

variable [DecidableEq Name] [DecidableEq Item]

/-- Before the first call there is nothing in a list, and anything in the
links. -/
def empty (next : Item → Option Item) : OcLists Name Item :=
  ⟨fun _ => none, next⟩

def setHead (lists : OcLists Name Item) (name : Name)
    (link : Option Item) : OcLists Name Item :=
  { lists with head := Function.update lists.head name link }

def setNext (lists : OcLists Name Item) (item : Item)
    (link : Option Item) : OcLists Name Item :=
  { lists with next := Function.update lists.next item link }

/-- The loops of the lists: on to the first item that ends the loop, or to the
end of the list. -/
def follow (ends : Item → Bool) (next : Item → Option Item) :
    Nat → Option Item → Option (Option Item)
  | 0, _ => none
  | _ + 1, none => some none
  | fuel + 1, some item =>
      if ends item then some (some item) else follow ends next fuel (next item)

def ocListTail (lists : OcLists Name Item) (fuel : Nat) (name : Name) :
    Option (Option Item) :=
  follow (fun item => lists.next item = none) lists.next fuel
    (lists.head name)

def ocListAdd (lists : OcLists Name Item) (fuel : Nat) (name : Name)
    (item : Item) : Option (OcLists Name Item) :=
  ((lists.setNext item none).ocListTail fuel name).map fun
    | none => (lists.setNext item none).setHead name (some item)
    | some last => (lists.setNext item none).setNext last (some item)

def ocListPush (lists : OcLists Name Item) (name : Name) (item : Item) :
    OcLists Name Item :=
  (lists.setNext item (lists.head name)).setHead name (some item)

def ocListInsert (lists : OcLists Name Item) (name : Name)
    (previous : Option Item) (item : Item) : OcLists Name Item :=
  match previous with
  | none => lists.ocListPush name item
  | some previous =>
      (lists.setNext item (lists.next previous)).setNext previous (some item)

def ocListPop (lists : OcLists Name Item) (name : Name) :
    OcLists Name Item × Option Item :=
  match lists.head name with
  | none => (lists, none)
  | some first =>
      ((lists.setHead name (lists.next first)).setNext first none, some first)

/-- The loop goes over the head of the list and then over the links of the
items. -/
def ocListRemove2 (lists : OcLists Name Item) (fuel : Nat) (name : Name)
    (item : Item) : Option (OcLists Name Item × Option Item) :=
  if lists.head name = some item then
    some ((lists.setHead name (lists.next item)).setNext item none, some item)
  else
    (follow (fun place => lists.next place = some item) lists.next fuel
      (lists.head name)).map fun
        | none => (lists, none)
        | some place =>
            ((lists.setNext place (lists.next item)).setNext item none,
              some item)

def lengthFrom (next : Item → Option Item) :
    Nat → Option Item → Option Nat
  | 0, _ => none
  | _ + 1, none => some 0
  | fuel + 1, some item => (lengthFrom next fuel (next item)).map (· + 1)

def ocListLength (lists : OcLists Name Item) (fuel : Nat) (name : Name) :
    Option Nat :=
  lengthFrom lists.next fuel (lists.head name)

def ocListHasItem (lists : OcLists Name Item) (fuel : Nat) (name : Name)
    (item : Item) : Option Bool :=
  (follow (· = item) lists.next fuel (lists.head name)).map (·.isSome)

/-- The lists and the answer, if there is fuel for the loop. -/
def call (lists : OcLists Name Item) (fuel : Nat) :
    ListCall Name Item → Option (OcLists Name Item × ListAnswer Item)
  | .init name => some (lists.setHead name none, .done)
  | .head name => some (lists, .item (lists.head name))
  | .add name item => (lists.ocListAdd fuel name item).map (·, .done)
  | .insert name previous item =>
      some (lists.ocListInsert name previous item, .done)
  | .pop name =>
      some ((lists.ocListPop name).1, .item (lists.ocListPop name).2)
  | .remove name item =>
      (lists.ocListRemove2 fuel name item).map fun removed =>
        (removed.1, .item removed.2)
  | .length name =>
      (lists.ocListLength fuel name).map fun count => (lists, .length count)
  | .hasItem name item =>
      (lists.ocListHasItem fuel name item).map fun present =>
        (lists, .found present)

/-- The lists and the answers after a run of calls. -/
def run (lists : OcLists Name Item) (fuel : Nat) :
    List (ListCall Name Item) →
      Option (OcLists Name Item × List (ListAnswer Item))
  | [] => some (lists, [])
  | call :: calls =>
      match lists.call fuel call with
      | none => none
      | some (after, answer) =>
          (after.run fuel calls).map fun last => (last.1, answer :: last.2)

end OcLists

def insertBehind [DecidableEq Item] (previous item : Item) : List Item → List Item
  | [] => []
  | first :: rest =>
      if first = previous then first :: item :: rest
      else first :: insertBehind previous item rest

namespace ListCall

variable [DecidableEq Name] [DecidableEq Item]

def name : ListCall Name Item → Name
  | .init name | .head name | .add name _ | .insert name _ _ | .pop name
  | .remove name _ | .length name | .hasItem name _ => name

/-- The item that comes into the list. -/
def added : ListCall Name Item → Option Item
  | .add _ item | .insert _ _ item => some item
  | _ => none

def previous : ListCall Name Item → Option Item
  | .insert _ previous _ => previous
  | _ => none

/-- What the call is for, on the sequence of its list. -/
def sequence (items : List Item) : ListCall Name Item → List Item
  | .init _ => []
  | .add _ item => items ++ [item]
  | .insert _ none item => item :: items
  | .insert _ (some previous) item => insertBehind previous item items
  | .pop _ => items.tail
  | .remove _ item => items.erase item
  | .head _ | .length _ | .hasItem _ _ => items

def answer (items : List Item) : ListCall Name Item → ListAnswer Item
  | .init _ | .add _ _ | .insert _ _ _ => .done
  | .head _ | .pop _ => .item items.head?
  | .remove _ item => .item (if item ∈ items then some item else none)
  | .length _ => .length items.length
  | .hasItem _ item => .found (decide (item ∈ items))

/-- The sequences of all lists after a call. -/
def applied (contents : Name → List Item) (call : ListCall Name Item) :
    Name → List Item :=
  Function.update contents call.name (call.sequence (contents call.name))

def answered (contents : Name → List Item) (call : ListCall Name Item) :
    Option (ListAnswer Item) :=
  some (call.answer (contents call.name))

/-- The item is in no list yet, and the one to come behind is in this
list. -/
structure Allowed (contents : Name → List Item)
    (call : ListCall Name Item) : Prop where
  fresh : ∀ item ∈ call.added, ∀ other, item ∉ contents other
  behind : ∀ previous ∈ call.previous, previous ∈ contents call.name

end ListCall

/-- The lists are these sequences, and no two of them share an item. -/
structure OcLists.Represents (lists : OcLists Name Item)
    (contents : Name → List Item) : Prop where
  linked : ∀ name, Linked lists.next (lists.head name) (contents name)
  apart : ∀ first second, ∀ item ∈ contents first, item ∈ contents second →
    first = second

section Loops

variable {next : Item → Option Item} {head : Option Item}
  {items : List Item} {item : Item} {fuel : Nat}

section

variable (linked : Linked next head items)

include linked

theorem follow_eq {ends : Item → Bool} (enough : items.length < fuel) :
    OcLists.follow ends next fuel head = some (items.find? ends) := by
  induction linked generalizing fuel with
  | nil =>
      cases fuel with
      | zero => cases enough
      | succ fuel => rfl
  | @cons first rest later ih =>
      cases fuel with
      | zero => cases enough
      | succ fuel =>
          rw [OcLists.follow, ih (Nat.lt_of_succ_lt_succ enough),
            List.find?_cons]
          cases ends first <;> rfl

theorem lengthFrom_eq (enough : items.length < fuel) :
    OcLists.lengthFrom next fuel head = some items.length := by
  induction linked generalizing fuel with
  | nil =>
      cases fuel with
      | zero => cases enough
      | succ fuel => rfl
  | cons later ih =>
      cases fuel with
      | zero => cases enough
      | succ fuel =>
          rw [OcLists.lengthFrom, ih (Nat.lt_of_succ_lt_succ enough)]
          rfl

theorem find_last :
    items.find? (fun place => next place = none) = items.getLast? := by
  induction linked with
  | nil => rfl
  | @cons first rest later ih =>
      rw [List.find?_cons, later.head?_eq, ih]
      cases rest with
      | nil => rfl
      | cons second rest => rw [List.getLast?_cons_cons]; rfl

theorem mem_of_next {place : Item} (member : place ∈ items)
    (behind : next place = some item) : item ∈ items := by
  induction linked with
  | nil => cases member
  | @cons first rest later ih =>
      rcases List.mem_cons.mp member with rfl | member
      · rw [behind] at later
        obtain ⟨others, rfl, -⟩ := later.exists_cons
        exact .tail _ (.head _)
      · exact .tail _ (ih member)

end

theorem find_place [DecidableEq Item] {before after : List Item} {last : Item}
    (linked : Linked next head (before ++ last :: item :: after)) :
    (before ++ last :: item :: after).find?
      (fun place => next place = some item) = some last := by
  rw [List.find?_append, List.find?_eq_none.mpr]
  · rw [Option.none_or, List.find?_cons_of_pos]
    exact decide_eq_true linked.suffix.tail.head_eq
  · intro place member behind
    -- the item would come at two places
    obtain ⟨front, back, rfl⟩ := List.append_of_mem member
    rw [List.append_assoc, List.cons_append] at linked
    have onward := linked.suffix.tail
    rw [of_decide_eq_true behind] at onward
    obtain ⟨others, same, -⟩ := onward.exists_cons
    have distinct := linked.suffix.tail.nodup
    cases back with
    | nil =>
        obtain rfl := (List.cons.inj same).1
        exact (List.nodup_cons.mp distinct).1 (.head _)
    | cons second back =>
        obtain rfl := (List.cons.inj same).1
        refine (List.nodup_cons.mp distinct).1 ?_
        exact List.mem_append_right _ (.tail _ (.head _))

end Loops

section Leads

variable [DecidableEq Item]

theorem insertBehind_append {before behind : List Item} {previous item : Item}
    (early : previous ∉ before) :
    insertBehind previous item (before ++ previous :: behind) =
      before ++ previous :: item :: behind := by
  induction before with
  | nil => exact if_pos rfl
  | cons first before ih =>
      rw [List.mem_cons, not_or] at early
      rw [List.cons_append, insertBehind, if_neg (Ne.symm early.1),
        ih early.2]
      rfl

theorem insertBehind_perm {previous item : Item} {items : List Item}
    (member : previous ∈ items) :
    (insertBehind previous item items).Perm (item :: items) := by
  induction items with
  | nil => cases member
  | cons first rest ih =>
      rw [insertBehind]
      split
      case isTrue same => exact .swap item first rest
      case isFalse different =>
          have later := List.mem_of_ne_of_mem (Ne.symm different) member
          exact ((ih later).cons first).trans (.swap item first rest)

namespace ListCall

variable {call : ListCall Name Item} {items : List Item} {item : Item}

theorem sequence_subperm (behind : ∀ previous ∈ call.previous,
    previous ∈ items) :
    (call.sequence items).Subperm (call.added.toList ++ items) := by
  cases call with
  | init name => exact List.nil_subperm
  | head name => exact List.Subperm.refl items
  | add name fresh => exact (List.perm_append_comm).subperm
  | insert name previous fresh =>
      cases previous with
      | none => exact List.Subperm.refl (fresh :: items)
      | some previous => exact (insertBehind_perm (behind previous rfl)).subperm
  | pop name => exact (List.tail_sublist items).subperm
  | remove name gone => exact List.erase_sublist.subperm
  | length name => exact List.Subperm.refl items
  | hasItem name candidate => exact List.Subperm.refl items

end ListCall

/-- The links of the list are those of the sequence, and only links of its
items and of the item that comes into it changed. -/
structure Leads (lists : OcLists Name Item) (items : List Item)
    (call : ListCall Name Item) (after : OcLists Name Item) : Prop where
  linked : Linked after.next (after.head call.name) (call.sequence items)
  heads : ∀ other, other ≠ call.name → after.head other = lists.head other
  links : ∀ item, item ∉ items → item ∉ call.added →
    after.next item = lists.next item

variable {lists : OcLists Name Item} {name : Name} {items : List Item}
  {item : Item} {fuel : Nat}

theorem Leads.same {call : ListCall Name Item}
    (linked : Linked lists.next (lists.head call.name) items)
    (same : call.sequence items = items) : Leads lists items call lists := by
  refine ⟨?_, fun _ _ => rfl, fun _ _ _ => rfl⟩
  rw [same]
  exact linked

theorem Leads.setNext {call : ListCall Name Item} {place : Item}
    {link change : Option Item}
    (linked : Linked (Function.update (Function.update lists.next item change)
      place link) (lists.head call.name) (call.sequence items))
    (known : item ∈ items ∨ item ∈ call.added)
    (placed : place ∈ items ∨ place ∈ call.added) :
    Leads lists items call
      ((lists.setNext item change).setNext place link) := by
  refine ⟨linked, fun _ _ => rfl, ?_⟩
  intro other outside notAdded
  show Function.update (Function.update _ _ _) _ _ other = _
  rw [Function.update_of_ne, Function.update_of_ne]
  · rintro rfl
    exact known.elim outside notAdded
  · rintro rfl
    exact placed.elim outside notAdded

variable [DecidableEq Name]

theorem Leads.setHead {call : ListCall Name Item} {link change : Option Item}
    (linked : Linked (Function.update lists.next item change) link
      (call.sequence items))
    (known : item ∈ items ∨ item ∈ call.added) :
    Leads lists items call
      ((lists.setNext item change).setHead call.name link) := by
  refine ⟨?_, ?_, ?_⟩
  · show Linked _ (Function.update lists.head call.name link call.name) _
    rw [Function.update_self]
    exact linked
  · intro other different
    exact Function.update_of_ne different _ _
  · intro other outside notAdded
    refine Function.update_of_ne ?_ _ _
    rintro rfl
    exact known.elim outside notAdded

section

variable (linked : Linked lists.next (lists.head name) items)

include linked

theorem leads_add (fresh : item ∉ items) (enough : items.length < fuel) :
    ∃ after, lists.ocListAdd fuel name item = some after ∧
      Leads lists items (.add name item) after := by
  have found : (lists.setNext item none).ocListTail fuel name =
      some items.getLast? := by
    have cleared := @Linked.update _ _ _ _ _ _ none linked fresh
    exact (follow_eq cleared enough).trans (congrArg some (find_last cleared))
  unfold OcLists.ocListAdd
  rw [found]
  rcases List.eq_nil_or_concat items with rfl | ⟨before, last, rfl⟩
  · refine ⟨_, rfl, Leads.setHead (.cons ?_) (.inr rfl)⟩
    rw [Function.update_self]
    exact .nil
  · rw [List.concat_eq_append] at *
    rw [List.getLast?_concat]
    refine ⟨_, rfl, Leads.setNext ?_ (.inr rfl) (.inl ?_)⟩
    · have inserted := linked.insert fresh
      rw [linked.suffix.tail.head?_eq] at inserted
      show Linked _ _ ((before ++ [last]) ++ [item])
      rw [List.append_assoc]
      exact inserted
    · exact List.mem_append_right _ (.head _)

theorem leads_insert {previous : Option Item} (fresh : item ∉ items)
    (behind : ∀ last ∈ previous, last ∈ items) :
    Leads lists items (.insert name previous item)
      (lists.ocListInsert name previous item) := by
  cases previous with
  | none =>
      refine Leads.setHead (.cons ?_) (.inr rfl)
      rw [Function.update_self]
      exact linked.update fresh
  | some last =>
      obtain ⟨before, after, rfl⟩ := List.append_of_mem (behind last rfl)
      have early : last ∉ before := by
        intro member
        exact (List.nodup_append.mp linked.nodup).2.2 last member last
          (.head _) rfl
      refine Leads.setNext ?_ (.inr rfl) (.inl (behind last rfl))
      show Linked _ _ (insertBehind last item (before ++ last :: after))
      rw [insertBehind_append early]
      exact linked.insert fresh

theorem leads_pop :
    (lists.ocListPop name).2 = items.head? ∧
      Leads lists items (.pop name) (lists.ocListPop name).1 := by
  unfold OcLists.ocListPop
  cases items with
  | nil =>
      rw [linked.head?_eq]
      exact ⟨rfl, .same linked rfl⟩
  | cons first rest =>
      have distinct := List.nodup_cons.mp linked.nodup
      rw [linked.head_eq]
      exact ⟨rfl, Leads.setHead (linked.tail.update distinct.1)
        (.inl (.head _))⟩

end

theorem leads_remove (item : Item)
    (linked : Linked lists.next (lists.head name) items)
    (enough : items.length < fuel) :
    ∃ after, lists.ocListRemove2 fuel name item =
        some (after, if item ∈ items then some item else none) ∧
      Leads lists items (.remove name item) after := by
  unfold OcLists.ocListRemove2
  rw [follow_eq linked enough]
  by_cases member : item ∈ items
  · rw [if_pos member]
    obtain ⟨before, behind, rfl⟩ := List.append_of_mem member
    have distinct := linked.nodup
    rw [List.nodup_append, List.nodup_cons] at distinct
    obtain ⟨-, ⟨late, -⟩, apart⟩ := distinct
    have early : item ∉ before := fun again =>
      apart item again item (.head _) rfl
    have erased : (before ++ item :: behind).erase item =
        before ++ behind := by
      rw [List.erase_append_right _ early, List.erase_cons_head]
    rcases List.eq_nil_or_concat before with rfl | ⟨front, last, rfl⟩
    · rw [if_pos linked.head_eq]
      refine ⟨_, rfl, Leads.setHead ?_ (.inl member)⟩
      show Linked _ _ (List.erase _ _)
      rw [erased]
      exact linked.tail.update late
    · rw [List.concat_eq_append] at *
      have notFirst : lists.head name ≠ some item := by
        rw [linked.head?_eq]
        intro first
        cases front with
        | nil =>
            obtain rfl := Option.some.inj first
            exact early (.head _)
        | cons other front =>
            obtain rfl := Option.some.inj first
            exact early (.head _)
      rw [List.append_assoc, List.singleton_append] at linked ⊢ erased
      rw [if_neg notFirst, find_place linked]
      have known : last ∈ front ++ last :: item :: behind :=
        List.mem_append_right _ (.head _)
      refine ⟨_, rfl, Leads.setNext ?_ (.inl known) (.inl ?_)⟩
      · show Linked _ _ (List.erase _ _)
        rw [erased, List.append_assoc, List.singleton_append]
        refine linked.unlink.update ?_
        rw [← List.singleton_append, ← List.append_assoc, List.mem_append,
          not_or]
        exact ⟨early, late⟩
      · exact List.mem_append_right _ (.tail _ (.head _))
  · rw [if_neg member]
    have notFirst : lists.head name ≠ some item := by
      rw [linked.head?_eq]
      exact fun first => member (List.mem_of_head? first)
    rw [if_neg notFirst, List.find?_eq_none.mpr]
    · exact ⟨_, rfl, .same linked (List.erase_of_not_mem member)⟩
    · intro place present behind
      exact member (mem_of_next linked present (of_decide_eq_true behind))

theorem find_self : items.find? (· = item) =
    if item ∈ items then some item else none := by
  induction items with
  | nil => rfl
  | cons first rest ih =>
      rw [List.find?_cons, ih]
      by_cases same : first = item
      · simp [same]
      · simp [same, Ne.symm same]

theorem call_leads {call : ListCall Name Item}
    (linked : Linked lists.next (lists.head call.name) items)
    (fresh : ∀ item ∈ call.added, item ∉ items)
    (behind : ∀ previous ∈ call.previous, previous ∈ items)
    (enough : items.length < fuel) :
    ∃ after, lists.call fuel call = some (after, call.answer items) ∧
      Leads lists items call after := by
  cases call with
  | init name =>
      refine ⟨_, rfl, ?_, ?_, fun _ _ _ => rfl⟩
      · show Linked _ (Function.update lists.head name none name) []
        rw [Function.update_self]
        exact .nil
      · exact fun other different => Function.update_of_ne different _ _
  | head name =>
      refine ⟨lists, ?_, .same linked rfl⟩
      change Linked lists.next (lists.head name) items at linked
      rw [OcLists.call, linked.head?_eq]
      rfl
  | add name item =>
      change Linked lists.next (lists.head name) items at linked
      obtain ⟨after, added, leads⟩ := leads_add linked (fresh item rfl) enough
      refine ⟨after, ?_, leads⟩
      rw [OcLists.call, added]
      rfl
  | insert name previous item =>
      exact ⟨_, rfl, leads_insert linked (fresh item rfl) behind⟩
  | pop name =>
      change Linked lists.next (lists.head name) items at linked
      obtain ⟨popped, leads⟩ := leads_pop linked
      refine ⟨_, ?_, leads⟩
      rw [OcLists.call, popped]
      rfl
  | remove name item =>
      change Linked lists.next (lists.head name) items at linked
      obtain ⟨after, removed, leads⟩ :=
        leads_remove item linked enough
      refine ⟨after, ?_, leads⟩
      rw [OcLists.call, removed]
      rfl
  | length name =>
      refine ⟨lists, ?_, .same linked rfl⟩
      change Linked lists.next (lists.head name) items at linked
      rw [OcLists.call, OcLists.ocListLength, lengthFrom_eq linked enough]
      rfl
  | hasItem name item =>
      refine ⟨lists, ?_, .same linked rfl⟩
      change Linked lists.next (lists.head name) items at linked
      rw [OcLists.call, OcLists.ocListHasItem, follow_eq linked enough,
        find_self]
      by_cases member : item ∈ items <;> simp [member, ListCall.answer]

theorem OcLists.Represents.call {contents : Name → List Item}
    {call : ListCall Name Item} (represents : lists.Represents contents)
    (allowed : call.Allowed contents)
    (enough : (contents call.name).length < fuel) :
    ∃ after, lists.call fuel call =
        some (after, call.answer (contents call.name)) ∧
      after.Represents (call.applied contents) := by
  obtain ⟨after, called, linked, heads, links⟩ := call_leads
    (represents.linked call.name) (fun item added => allowed.fresh item added _)
    allowed.behind enough
  have mine : ∀ item ∈ call.sequence (contents call.name),
      ∀ other, item ∈ contents other → other = call.name := by
    intro item member other present
    have known := (ListCall.sequence_subperm allowed.behind).subset member
    rw [List.mem_append, Option.mem_toList] at known
    rcases known with added | old
    · exact absurd present (allowed.fresh item added other)
    · exact represents.apart other call.name item present old
  refine ⟨after, called, ?_, ?_⟩
  · intro other
    unfold ListCall.applied
    by_cases same : other = call.name
    · subst other
      rw [Function.update_self]
      exact linked
    · rw [Function.update_of_ne same, heads other same]
      apply (represents.linked other).congr
      intro item present
      refine links item ?_ ?_
      · intro both
        exact same (represents.apart other call.name item present both)
      · intro added
        exact allowed.fresh item added other present
  · intro first second item inFirst inSecond
    unfold ListCall.applied at inFirst inSecond
    by_cases one : first = call.name <;> by_cases two : second = call.name
    · rw [one, two]
    · rw [one, Function.update_self] at inFirst
      rw [Function.update_of_ne two] at inSecond
      exact absurd (mine item inFirst second inSecond) two
    · rw [two, Function.update_self] at inSecond
      rw [Function.update_of_ne one] at inFirst
      exact absurd (mine item inSecond first inFirst) one
    · rw [Function.update_of_ne one] at inFirst
      rw [Function.update_of_ne two] at inSecond
      exact represents.apart first second item inFirst inSecond

end Leads

section Runs

variable [DecidableEq Name] [DecidableEq Item]

/-- Allowed calls answer as on the represented contents. -/
theorem OcLists.Represents.run {lists : OcLists Name Item}
    {contents : Name → List Item} {calls : List (ListCall Name Item)}
    {fuel : Nat} (represents : lists.Represents contents)
    (allowed : Along ListCall.applied ListCall.Allowed contents calls)
    (enough : ∀ name, (contents name).length + calls.length ≤ fuel) :
    ∃ last, lists.run fuel calls = some (last,
        runOutputs ListCall.applied ListCall.answered contents calls) ∧
      last.Represents (runFrom ListCall.applied contents calls) := by
  induction calls generalizing lists contents with
  | nil => exact ⟨lists, rfl, represents⟩
  | cons call calls ih =>
      obtain ⟨here, later⟩ := allowed
      have room : (contents call.name).length < fuel := by
        have all := enough call.name
        rw [List.length_cons] at all
        omega
      obtain ⟨after, called, kept⟩ := represents.call here room
      obtain ⟨last, ran, kept⟩ := ih kept later (by
        intro other
        have before := enough other
        rw [List.length_cons] at before
        unfold ListCall.applied
        by_cases same : other = call.name
        · subst other
          have grown :=
            (ListCall.sequence_subperm here.behind).length_le
          rw [List.length_append] at grown
          have one : call.added.toList.length ≤ 1 := by
            cases call.added <;> simp
          rw [Function.update_self]
          omega
        · rw [Function.update_of_ne same]
          omega)
      refine ⟨last, ?_, kept⟩
      rw [OcLists.run, called]
      show Option.map _ (after.run fuel calls) = _
      rw [ran]
      rfl

/-- Along every run that adds no item that is in a list, and inserts behind
items of the list only, the lists are sequences that share no item. -/
theorem lists_are_sequences (next : Item → Option Item)
    {calls : List (ListCall Name Item)} {fuel : Nat}
    (allowed : Along ListCall.applied ListCall.Allowed (fun _ => []) calls)
    (enough : calls.length ≤ fuel) :
    ∃ last, (OcLists.empty next).run fuel calls = some (last,
        runOutputs ListCall.applied ListCall.answered (fun _ => []) calls) ∧
      last.Represents (runFrom ListCall.applied (fun _ => []) calls) := by
  have start : (OcLists.empty next : OcLists Name Item).Represents
      fun _ => [] := ⟨fun _ => .nil, fun _ _ _ member => by cases member⟩
  exact start.run allowed fun _ => by
    rw [List.length_nil, Nat.zero_add]
    exact enough

/-- An item goes from one list to the other. -/
theorem lists_are_sequences_of_moved :
    ∃ last, (OcLists.empty (fun item : Nat => some item)).run 5
        [.add false 1, .insert false (some 1) 2, .remove false 1,
          .add true 1, .hasItem true 1] =
          some (last, [.done, .done, .item (some 1), .done, .found true]) ∧
      last.head true = some 1 ∧ last.head false = some 2 := by
  have allowed : Along ListCall.applied ListCall.Allowed
      (fun _ : Bool => ([] : List Nat)) [.add false 1,
        .insert false (some 1) 2, .remove false 1, .add true 1,
        .hasItem true 1] := by
    refine ⟨⟨?_, ?_⟩, ⟨?_, ?_⟩, ⟨?_, ?_⟩, ⟨?_, ?_⟩, ⟨?_, ?_⟩, trivial⟩
    all_goals
      intro item given
      cases given
    all_goals decide
  obtain ⟨last, ran, represents⟩ := @lists_are_sequences Bool Nat _ _
    (fun item => some item) _ 5 allowed (Nat.le_refl 5)
  exact ⟨last, ran, (represents.linked true).head_eq,
    (represents.linked false).head_eq⟩

/-- The lists stay sequences without a common item exactly if the item that is
added was in none of them: behind itself it closes a cycle, and a second list
shares it with the first, which loses what came behind it. -/
theorem ocListAdd_keeps_iff {lists : OcLists Name Item}
    {contents : Name → List Item} (represents : lists.Represents contents)
    {name : Name} {item : Item} {fuel : Nat}
    (enough : (contents name).length < fuel) :
    ∃ after, lists.ocListAdd fuel name item = some after ∧
      ((∃ others, after.Represents others) ↔
        ∀ other, item ∉ contents other) := by
  by_cases fresh : ∀ other, item ∉ contents other
  · have allowed : (ListCall.add name item).Allowed contents := by
      refine ⟨?_, fun _ absent => by cases absent⟩
      rintro _ ⟨rfl⟩
      exact fresh
    obtain ⟨after, called, kept⟩ := represents.call allowed enough
    rw [OcLists.call, Option.map_eq_some_iff] at called
    obtain ⟨_, added, same⟩ := called
    obtain ⟨rfl, -⟩ := Prod.mk.inj same
    exact ⟨_, added, iff_of_true ⟨_, kept⟩ fresh⟩
  · obtain ⟨other, member⟩ := not_forall_not.mp fresh
    have linked := represents.linked other
    obtain ⟨before, behind, cut⟩ := List.append_of_mem member
    rw [cut] at linked
    have early : ∀ place ∈ before, place ≠ item := fun place first =>
      (List.nodup_append.mp linked.nodup).2.2 place first item (.head _)
    by_cases same : other = name
    · subst other
      have cleared : Linked (lists.setNext item none).next (lists.head name)
          (before ++ [item]) := by
        refine linked.splice ?_ (.cons ?_)
        · exact fun place first => Function.update_of_ne (early place first) _ _
        · show Linked _ (Function.update lists.next item none item) []
          rw [Function.update_self]
          exact .nil
      have found : (lists.setNext item none).ocListTail fuel name =
          some (some item) := by
        rw [cut, List.length_append] at enough
        refine (follow_eq cleared ?_).trans ?_
        · rw [List.length_append]
          simp only [List.length_cons, List.length_nil] at enough ⊢
          omega
        · rw [find_last cleared, List.getLast?_concat]
      unfold OcLists.ocListAdd
      rw [found]
      refine ⟨_, rfl, iff_of_false ?_ fresh⟩
      rintro ⟨others, kept⟩
      obtain ⟨rest, path, later⟩ := linked.follow (fun place first => by
        show Function.update (Function.update _ _ _) _ _ place = _
        rw [Function.update_of_ne (early place first),
          Function.update_of_ne (early place first)]) (kept.linked name)
      have distinct := (kept.linked name).nodup
      rw [path] at distinct
      change Linked _ (Function.update (Function.update lists.next item none)
        item (some item) item) rest at later
      rw [Function.update_self] at later
      obtain ⟨more, rfl, -⟩ := later.exists_cons
      rw [List.nodup_append, List.nodup_cons] at distinct
      exact distinct.2.1.1 (.head _)
    · have absent : item ∉ contents name := fun present =>
        same (represents.apart other name item member present)
      obtain ⟨after, added, here, heads, links⟩ :=
        leads_add (represents.linked name) absent enough
      refine ⟨after, added, iff_of_false ?_ fresh⟩
      rintro ⟨others, kept⟩
      have mine : others name = contents name ++ [item] :=
        (kept.linked name).unique here
      have theirs := kept.linked other
      rw [heads other same] at theirs
      obtain ⟨rest, path, -⟩ := linked.follow (fun place first => by
        refine links place ?_ fun isItem => ?_
        · intro present
          refine same (represents.apart other name place ?_ present)
          rw [cut]
          exact List.mem_append_left _ first
        · exact early place first (Option.some.inj isItem).symm) theirs
      refine same (kept.apart other name item ?_ ?_)
      · rw [path]
        exact List.mem_append_right _ (.head _)
      · rw [mine]
        exact List.mem_append_right _ (.head _)

/-- An item of one list is added to another one. -/
theorem ocListAdd_keeps_iff_shared :
    ∃ after, (⟨fun name => bif name then none else some 1, fun _ => none⟩ :
        OcLists Bool Nat).ocListAdd 1 true 1 = some after ∧
      ((∃ others, after.Represents others) ↔
        ∀ other : Bool, 1 ∉ bif other then [] else [1]) := by
  refine @ocListAdd_keeps_iff Bool Nat _ _ _
    (fun name => bif name then [] else [1]) ⟨?_, ?_⟩ true 1 1 Nat.one_pos
  · intro name
    cases name with
    | false => exact .cons .nil
    | true => exact .nil
  · intro first second item inFirst inSecond
    cases first with
    | true => cases inFirst
    | false =>
        cases second with
        | true => cases inSecond
        | false => rfl

end Runs

end IotivityLite
