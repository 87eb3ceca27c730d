import IotivityLite.Coap.Retransmission
import IotivityLite.Foundation.Walk

/-!
# Going through the open transactions

`coap_check_transactions` and `coap_free_transactions_by_endpoint` call out
while they go through the list: a timeout and a closed connection are told to
the handlers of requests, which may cancel requests and issue new ones.  Both
note the next transaction before they call, and start again where the list
has become shorter.  A handler that takes transactions away and adds as many
leaves the length as it was, and then the loop goes on with one that is gone.

Transactions are numbered in the order of their creation; a pointer to one is
its number, and it dangles when the number is not in the list.
-/

namespace IotivityLite

/-- `transactions_list`; `calls` counts how often a loop has called out. -/
structure TransactionList where
  transactions : List (CoapTransaction × Nat)
  next : Nat
  calls : Nat

/-- What a call does to the list: some transactions are cleared, and new ones
are added at the end. -/
structure ListEffect where
  removed : Nat → Bool
  added : List CoapTransaction

/-- What the calls of `coap_send_transaction` do: `coap_send_message`, the
notices of a timeout, and `oc_tls_close_connection`. -/
structure CallEffects where
  sent : ListEffect
  notified : ListEffect
  closed : ListEffect

structure TraversalEnv where
  initialized : Bool
  random : Nat → UInt32
  effects : Nat → CallEffects

namespace TransactionList

def ofList (transactions : List CoapTransaction) : TransactionList :=
  ⟨transactions.zipIdx, transactions.length, 0⟩

def numbers (list : TransactionList) : List Nat :=
  list.transactions.map Prod.snd

def length (list : TransactionList) : Nat := list.transactions.length

def at? (list : TransactionList) (number : Nat) : Option CoapTransaction :=
  (list.transactions.find? (·.2 == number)).map Prod.fst

def update (list : TransactionList) (number : Nat)
    (transaction : CoapTransaction) : TransactionList :=
  { list with
    transactions := list.transactions.map fun entry =>
      if entry.2 == number then (transaction, number) else entry }

/-- `coap_clear_transaction` -/
def clear (list : TransactionList) (number : Nat) : TransactionList :=
  { list with
    transactions := list.transactions.filter (·.2 != number) }

def apply (list : TransactionList) (effect : ListEffect) : TransactionList :=
  { list with
    transactions :=
      list.transactions.filter (fun entry => !effect.removed entry.2) ++
        effect.added.zipIdx list.next
    next := list.next + effect.added.length }

def called (list : TransactionList) : TransactionList :=
  { list with calls := list.calls + 1 }

variable (env : TraversalEnv)

/-- `coap_send_transaction`; `none` where it touches a transaction that has
been cleared. -/
def coapSendTransaction (list : TransactionList) (number : Nat)
    (transaction : CoapTransaction) : Option TransactionList :=
  let effects := env.effects list.calls
  match transaction.coapSendTransaction env.initialized
      (env.random list.calls) with
  | .refused => some list.called
  | .unconfirmed =>
      let sent := list.called.apply effects.sent
      if number ∈ sent.numbers then some (sent.clear number) else none
  | .kept kept => some ((list.called.update number kept).apply effects.sent)
  | .timedOut =>
      let told := list.called.apply effects.notified
      if number ∈ told.numbers then
        if transaction.peer.endpoint.secured then
          some (told.apply effects.closed)
        else some (told.clear number)
      else none

/-- One round of `coap_check_transactions`. -/
def checkVisit (number : Nat) (list : TransactionList) :
    Visited TransactionList :=
  match list.at? number with
  | none => .faults
  | some transaction =>
      if transaction.expired then
        match (list.update number transaction.counted).coapSendTransaction env
            number transaction.counted with
        | none => .faults
        | some left =>
            if left.length + 1 < list.length then .restarts left
            else .continues left
      else .continues list

/-- One round of `coap_free_transactions_by_endpoint`. -/
def freeVisit (peer : Peer) (number : Nat) (list : TransactionList) :
    Visited TransactionList :=
  match list.at? number with
  | none => .faults
  | some transaction =>
      if transaction.peer.same peer then
        let left := list.called.apply (env.effects list.calls).notified
        if left.length < list.length then .restarts left
        else if number ∈ left.numbers then .continues (left.clear number)
        else .faults
      else .continues list

def coapCheckTransactions : Walker TransactionList :=
  ⟨numbers, checkVisit env⟩

def coapFreeTransactionsByEndpoint (peer : Peer) : Walker TransactionList :=
  ⟨numbers, freeVisit env peer⟩

/-- Every transaction has a number of its own, below the next one. -/
structure Numbered (list : TransactionList) : Prop where
  distinct : list.numbers.Nodup
  below : ∀ number ∈ list.numbers, number < list.next

/-- Transactions were taken out of the list and added at its end. -/
structure Changes (before after : TransactionList) : Prop where
  numbered : before.Numbered → after.Numbered
  next_le : before.next ≤ after.next
  parts : ∃ kept added, after.numbers = kept ++ added ∧
    kept.Sublist before.numbers ∧ ∀ number ∈ added, before.next ≤ number

namespace Changes

variable {first second third : TransactionList}

theorem of_sublist (part : second.numbers.Sublist first.numbers)
    (same : second.next = first.next) : Changes first second where
  numbered := by
    intro numbered
    refine ⟨numbered.distinct.sublist part, ?_⟩
    intro number member
    rw [same]
    exact numbered.below number (part.subset member)
  next_le := same.ge
  parts := ⟨second.numbers, [], (List.append_nil _).symm, part,
    fun _ member => absurd member List.not_mem_nil⟩

theorem trans (earlier : Changes first second)
    (later : Changes second third) : Changes first third where
  numbered := later.numbered ∘ earlier.numbered
  next_le := earlier.next_le.trans later.next_le
  parts := by
    obtain ⟨kept, added, second_eq, part, new⟩ := earlier.parts
    obtain ⟨left, more, third_eq, leftPart, newer⟩ := later.parts
    rw [second_eq] at leftPart
    obtain ⟨old, young, rfl, oldPart, youngPart⟩ :=
      List.sublist_append_iff.mp leftPart
    refine ⟨old, young ++ more, ?_, oldPart.trans part, ?_⟩
    · rw [third_eq, List.append_assoc]
    · intro number member
      rcases List.mem_append.mp member with earlier' | later'
      · exact new number (youngPart.subset earlier')
      · exact earlier.next_le.trans (newer number later')

end Changes

section Numbers

variable (list : TransactionList)

@[simp] theorem numbers_update (number : Nat)
    (transaction : CoapTransaction) :
    (list.update number transaction).numbers = list.numbers := by
  rw [numbers, numbers, update, List.map_map]
  apply List.map_congr_left
  intro entry _
  dsimp only [Function.comp_apply]
  split_ifs with same
  · exact (beq_iff_eq.mp same).symm
  · rfl

@[simp] theorem numbers_clear (number : Nat) :
    (list.clear number).numbers = list.numbers.filter (· != number) := by
  rw [numbers, numbers, clear, List.filter_map]
  rfl

@[simp] theorem numbers_apply (effect : ListEffect) :
    (list.apply effect).numbers =
      list.numbers.filter (fun number => !effect.removed number) ++
        List.range' list.next effect.added.length := by
  rw [numbers, apply, List.map_append, List.zipIdx_map_snd, numbers,
    List.filter_map]
  rfl

theorem length_numbers : list.numbers.length = list.length :=
  List.length_map _

end Numbers

/-- What relates a list to the one after each of the steps of a call. -/
structure StepRelation (effects : CallEffects)
    (related : TransactionList → TransactionList → Prop) : Prop where
  refl : ∀ list, related list list
  trans : ∀ {first second third}, related first second →
    related second third → related first third
  called : ∀ list, related list list.called
  update : ∀ list number transaction,
    related list (list.update number transaction)
  clear : ∀ list number, related list (list.clear number)
  sent : ∀ list, related list (list.apply effects.sent)
  notified : ∀ list, related list (list.apply effects.notified)
  closed : ∀ list, related list (list.apply effects.closed)

theorem changes_apply (list : TransactionList) (effect : ListEffect) :
    Changes list (list.apply effect) where
  numbered := by
    intro numbered
    refine ⟨?_, ?_⟩
    · rw [numbers_apply, List.nodup_append]
      refine ⟨numbered.distinct.filter _, List.nodup_range', ?_⟩
      intro old oldMember new newMember same
      have := numbered.below old (List.mem_of_mem_filter oldMember)
      have := (List.mem_range'_1.mp newMember).1
      omega
    · intro number member
      rw [numbers_apply] at member
      rcases List.mem_append.mp member with old | new
      · have := numbered.below number (List.mem_of_mem_filter old)
        exact Nat.lt_add_right _ this
      · exact (List.mem_range'_1.mp new).2
  next_le := Nat.le_add_right _ _
  parts := ⟨_, _, numbers_apply list effect, List.filter_sublist,
    fun _ member => (List.mem_range'_1.mp member).1⟩

theorem stepRelation_changes (effects : CallEffects) :
    StepRelation effects Changes where
  refl list := .of_sublist (List.Sublist.refl _) rfl
  trans := Changes.trans
  called list := .of_sublist (List.Sublist.refl _) rfl
  update list number transaction := by
    refine .of_sublist ?_ rfl
    rw [numbers_update]
  clear list number := by
    refine .of_sublist ?_ rfl
    rw [numbers_clear]
    exact List.filter_sublist
  sent list := changes_apply list _
  notified list := changes_apply list _
  closed list := changes_apply list _

/-- No transaction is added by a call. -/
structure AddNothing (effects : CallEffects) : Prop where
  sent : effects.sent.added = []
  notified : effects.notified.added = []
  closed : effects.closed.added = []

theorem sublist_apply (list : TransactionList) {effect : ListEffect}
    (nothing : effect.added = []) :
    (list.apply effect).numbers.Sublist list.numbers := by
  rw [numbers_apply, nothing]
  simp

theorem stepRelation_sublist {effects : CallEffects}
    (nothing : AddNothing effects) :
    StepRelation effects fun before after =>
      after.numbers.Sublist before.numbers where
  refl list := List.Sublist.refl _
  trans earlier later := later.trans earlier
  called list := List.Sublist.refl _
  update list number transaction := by
    rw [numbers_update]
  clear list number := by
    rw [numbers_clear]
    exact List.filter_sublist
  sent list := sublist_apply list nothing.sent
  notified list := sublist_apply list nothing.notified
  closed list := sublist_apply list nothing.closed

section Related

variable {env : TraversalEnv} {list left : TransactionList} {number : Nat}
  {related : TransactionList → TransactionList → Prop}

theorem send_related (steps : StepRelation (env.effects list.calls) related)
    {transaction : CoapTransaction}
    (sent : list.coapSendTransaction env number transaction = some left) :
    related list left := by
  unfold coapSendTransaction at sent
  dsimp only at sent
  have called := steps.called list
  rcases outcome : transaction.coapSendTransaction env.initialized
    (env.random list.calls) with - | - | kept | -
  · rw [outcome] at sent
    obtain rfl := Option.some.inj sent
    exact called
  · rw [outcome] at sent
    dsimp only at sent
    split_ifs at sent
    obtain rfl := Option.some.inj sent
    exact steps.trans (steps.trans called (steps.sent _)) (steps.clear _ _)
  · rw [outcome] at sent
    obtain rfl := Option.some.inj sent
    exact steps.trans (steps.trans called (steps.update _ _ _))
      (steps.sent _)
  · rw [outcome] at sent
    dsimp only at sent
    have told := steps.trans called (steps.notified _)
    split_ifs at sent
    · obtain rfl := Option.some.inj sent
      exact steps.trans told (steps.closed _)
    · obtain rfl := Option.some.inj sent
      exact steps.trans told (steps.clear _ _)

theorem checkVisit_related
    (steps : StepRelation (env.effects list.calls) related)
    (visited : checkVisit env number list = .restarts left ∨
      checkVisit env number list = .continues left) : related list left := by
  unfold checkVisit at visited
  rcases found : list.at? number with - | transaction
  · simp [found] at visited
  · simp only [found] at visited
    by_cases expired : transaction.expired = true
    · rw [if_pos expired] at visited
      rcases sent : (list.update number
        transaction.counted).coapSendTransaction env number
          transaction.counted with - | after
      · simp [sent] at visited
      · have changed := steps.trans (steps.update list number
          transaction.counted) (@send_related env
            (list.update number transaction.counted) after number related
            steps transaction.counted sent)
        rw [sent] at visited
        dsimp only at visited
        split_ifs at visited <;> simp at visited <;> rw [← visited] <;>
          exact changed
    · rw [if_neg expired] at visited
      simp only [reduceCtorEq, Visited.continues.injEq, false_or] at visited
      rw [← visited]
      exact steps.refl list

theorem freeVisit_related {peer : Peer}
    (steps : StepRelation (env.effects list.calls) related)
    (visited : freeVisit env peer number list = .restarts left ∨
      freeVisit env peer number list = .continues left) :
    related list left := by
  unfold freeVisit at visited
  rcases found : list.at? number with - | transaction
  · simp [found] at visited
  · simp only [found] at visited
    have told := steps.trans (steps.called list) (steps.notified _)
    split_ifs at visited <;> simp at visited <;> rw [← visited]
    · exact told
    · exact steps.trans told (steps.clear _ _)
    · exact steps.refl list

theorem length_of_checkVisit
    (visited : checkVisit env number list = .restarts left) :
    left.length < list.length := by
  unfold checkVisit at visited
  rcases found : list.at? number with - | transaction
  · simp [found] at visited
  · simp only [found] at visited
    split_ifs at visited
    rcases sent : (list.update number
      transaction.counted).coapSendTransaction env number
        transaction.counted with - | after
    · simp [sent] at visited
    · rw [sent] at visited
      dsimp only at visited
      split_ifs at visited with shorter
      obtain rfl := Visited.restarts.inj visited
      exact Nat.lt_of_succ_lt shorter

theorem length_of_freeVisit {peer : Peer}
    (visited : freeVisit env peer number list = .restarts left) :
    left.length < list.length := by
  unfold freeVisit at visited
  rcases found : list.at? number with - | transaction
  · simp [found] at visited
  · simp only [found] at visited
    split_ifs at visited with matching shorter
    obtain rfl := Visited.restarts.inj visited
    exact shorter

end Related

theorem lawful_of_changes {visit : Nat → TransactionList →
      Visited TransactionList} {invariant : TransactionList → Prop}
    (numbered : ∀ list, invariant list → list.Numbered)
    (changes : ∀ number list left, visit number list = .restarts left ∨
      visit number list = .continues left →
        Changes list left ∧ (invariant list → invariant left))
    (shorter : ∀ number list left, visit number list = .restarts left →
      left.length < list.length) :
    Walker.Lawful ⟨numbers, visit⟩ invariant where
  nodup list holds := (numbered list holds).distinct
  restarts number list left holds visited := by
    refine ⟨(changes number list left (.inl visited)).2 holds, ?_⟩
    change left.numbers.length < list.numbers.length
    rw [length_numbers, length_numbers]
    exact shorter number list left visited
  continues number list left holds visited := by
    obtain ⟨changed, keeps⟩ := changes number list left (.inr visited)
    obtain ⟨kept, added, left_eq, part, new⟩ := changed.parts
    refine ⟨keeps holds, kept, added, left_eq, part, ?_⟩
    intro other member old
    have := (numbered list holds).below other old
    have := new other member
    omega

theorem lawful_check (env : TraversalEnv) :
    (coapCheckTransactions env).Lawful Numbered := by
  refine lawful_of_changes (fun _ numbered => numbered) ?_
    fun _ _ _ => length_of_checkVisit
  intro number list left visited
  have changed := checkVisit_related (stepRelation_changes _) visited
  exact ⟨changed, changed.numbered⟩

/-- What has a number of the start is a transaction of the start. -/
structure Since (start list : TransactionList) : Prop where
  numbered : list.Numbered
  next_le : start.next ≤ list.next
  old : ∀ entry ∈ list.transactions, entry.2 < start.next →
    entry ∈ start.transactions

section Since

variable {start list : TransactionList}

theorem Numbered.since (numbered : start.Numbered) : Since start start :=
  ⟨numbered, Nat.le_refl _, fun _ member _ => member⟩

theorem Since.apply (since : Since start list) (effect : ListEffect) :
    Since start (list.apply effect) := by
  have changed := changes_apply list effect
  refine ⟨changed.numbered since.numbered,
    since.next_le.trans changed.next_le, ?_⟩
  intro entry member small
  rcases List.mem_append.mp member with kept | added
  · exact since.old entry (List.mem_of_mem_filter kept) small
  · have new := (List.mem_zipIdx_iff_le_and_getElem?_sub.mp added).1
    have := since.next_le
    omega

theorem Since.clear (since : Since start list) (number : Nat) :
    Since start (list.clear number) := by
  have changed := (stepRelation_changes ⟨⟨fun _ => false, []⟩,
    ⟨fun _ => false, []⟩, ⟨fun _ => false, []⟩⟩).clear list number
  refine ⟨changed.numbered since.numbered, since.next_le, ?_⟩
  intro entry member small
  exact since.old entry (List.mem_of_mem_filter member) small

theorem since_freeVisit {env : TraversalEnv} {peer : Peer} {number : Nat}
    {left : TransactionList}
    (visited : freeVisit env peer number list = .restarts left ∨
      freeVisit env peer number list = .continues left)
    (since : Since start list) : Since start left := by
  have called : Since start list.called :=
    ⟨⟨since.numbered.distinct, since.numbered.below⟩, since.next_le,
      since.old⟩
  unfold freeVisit at visited
  rcases found : list.at? number with - | transaction
  · simp [found] at visited
  · simp only [found] at visited
    have told := called.apply (env.effects list.calls).notified
    split_ifs at visited <;> simp at visited <;> rw [← visited]
    · exact told
    · exact told.clear number
    · exact since

theorem lawful_free (env : TraversalEnv) (peer : Peer) :
    (coapFreeTransactionsByEndpoint env peer).Lawful (Since start) := by
  refine lawful_of_changes (fun _ since => since.numbered) ?_
    fun _ _ _ => length_of_freeVisit
  intro number list left visited
  exact ⟨freeVisit_related (stepRelation_changes _) visited,
    since_freeVisit visited⟩

end Since

/-- The call for a transaction whose timer has expired leaves it alone until
`coap_send_transaction` is done with it, and then the list is shorter by two
at least or the noted transaction is still there. -/
def CheckKeepsPlace (env : TraversalEnv) (number : Nat)
    (list : TransactionList) : Prop :=
  ∀ transaction, list.at? number = some transaction →
    transaction.expired = true →
    ∃ left, (list.update number transaction.counted).coapSendTransaction env
        number transaction.counted = some left ∧
      (left.length + 1 < list.length ∨
        ∀ next ∈ successor number list.numbers, next ∈ left.numbers)

/-- The call for a transaction of the endpoint makes the list shorter, or
leaves both this transaction and the noted one. -/
def FreeKeepsPlace (env : TraversalEnv) (peer : Peer) (number : Nat)
    (list : TransactionList) : Prop :=
  ∀ transaction, list.at? number = some transaction →
    transaction.peer.same peer = true →
    let left := list.called.apply (env.effects list.calls).notified
    left.length < list.length ∨
      number ∈ left.numbers ∧
        ∀ next ∈ successor number list.numbers, next ∈ left.numbers

section KeepsPlace

variable {env : TraversalEnv} {list : TransactionList} {number : Nat}

theorem at?_of_mem (member : number ∈ list.numbers) :
    ∃ transaction, list.at? number = some transaction := by
  obtain ⟨entry, inside, rfl⟩ := List.mem_map.mp member
  have found : (list.transactions.find? (·.2 == entry.2)).isSome := by
    rw [List.find?_isSome]
    exact ⟨entry, inside, beq_self_eq_true _⟩
  obtain ⟨other, found⟩ := Option.isSome_iff_exists.mp found
  exact ⟨other.1, by rw [at?, found]; rfl⟩

theorem keepsPlace_check_iff (member : number ∈ list.numbers) :
    (coapCheckTransactions env).KeepsPlace number list ↔
      CheckKeepsPlace env number list := by
  obtain ⟨transaction, found⟩ := at?_of_mem member
  unfold Walker.KeepsPlace CheckKeepsPlace
  simp only [coapCheckTransactions, checkVisit, found, Option.some.injEq,
    forall_eq']
  by_cases expired : transaction.expired = true
  · simp only [expired, if_true, forall_true_left]
    rcases (list.update number transaction.counted).coapSendTransaction env
      number transaction.counted with - | left
    · simp
    · by_cases shorter : left.length + 1 < list.length
      · simp [shorter]
      · simp [shorter]
  · simp only [expired, Bool.false_eq_true, if_false, false_imp_iff,
      iff_true]
    intro next noted
    exact mem_of_successor noted

theorem successor_ne (numbered : list.Numbered) {next : Nat}
    (noted : successor number list.numbers = some next)
    (member : number ∈ list.numbers) : next ≠ number := by
  obtain ⟨before, rest, numbers_eq⟩ := List.append_of_mem member
  have distinct := numbered.distinct
  rw [numbers_eq] at distinct noted
  obtain ⟨later, rfl⟩ := Walker.rest_of_successor distinct noted
  rintro rfl
  have second := (List.nodup_append.mp distinct).2.1
  exact (List.nodup_cons.mp second).1 List.mem_cons_self

theorem keepsPlace_free_iff {peer : Peer} (numbered : list.Numbered)
    (member : number ∈ list.numbers) :
    (coapFreeTransactionsByEndpoint env peer).KeepsPlace number list ↔
      FreeKeepsPlace env peer number list := by
  obtain ⟨transaction, found⟩ := at?_of_mem member
  unfold Walker.KeepsPlace FreeKeepsPlace
  simp only [coapFreeTransactionsByEndpoint, freeVisit, found,
    Option.some.injEq, forall_eq']
  by_cases matching : transaction.peer.same peer = true
  · simp only [matching, if_true, forall_true_left]
    generalize list.called.apply (env.effects list.calls).notified = left
    by_cases shorter : left.length < list.length
    · simp [shorter]
    · by_cases there : number ∈ left.numbers
      · simp only [shorter, there, if_true, if_false, false_or, true_and]
        apply forall₂_congr
        intro next noted
        rw [numbers_clear, List.mem_filter, bne_iff_ne]
        exact and_iff_left (successor_ne numbered noted member)
      · simp [shorter, there]
  · simp only [matching, Bool.false_eq_true, if_false, false_imp_iff,
      iff_true]
    intro next noted
    exact mem_of_successor noted

end KeepsPlace

/-- From some round on the calls add no transaction. -/
def EventuallyAddNothing (env : TraversalEnv)
    (walker : Walker TransactionList) (list : TransactionList) : Prop :=
  ∃ start, ∀ rounds, start ≤ rounds → ∀ number left,
    walker.walk list rounds = .visiting number left →
      AddNothing (env.effects left.calls)

section Main

variable {env : TraversalEnv} {start : TransactionList}

theorem check_finishes_iff (numbered : start.Numbered) :
    (coapCheckTransactions env).Finishes start ↔
      (∀ rounds number list,
        (coapCheckTransactions env).walk start rounds =
            .visiting number list → CheckKeepsPlace env number list) ∧
      EventuallyAddNothing env (coapCheckTransactions env) start := by
  refine Walker.finishes_iff (lawful_check env) numbered ?_ ?_
  · intro number list _ member
    exact keepsPlace_check_iff member
  · intro number list nothing left visited
    exact checkVisit_related (stepRelation_sublist nothing) (.inr visited)

theorem free_finishes_iff (numbered : start.Numbered) (peer : Peer) :
    (coapFreeTransactionsByEndpoint env peer).Finishes start ↔
      (∀ rounds number list,
        (coapFreeTransactionsByEndpoint env peer).walk start rounds =
            .visiting number list → FreeKeepsPlace env peer number list) ∧
      EventuallyAddNothing env (coapFreeTransactionsByEndpoint env peer)
        start := by
  refine Walker.finishes_iff (lawful_free env peer) numbered.since ?_ ?_
  · intro number list since member
    exact keepsPlace_free_iff since.numbered member
  · intro number list nothing left visited
    exact freeVisit_related (stepRelation_sublist nothing) (.inr visited)

/-- The transactions of an endpoint that were there at the start are gone. -/
def RemovesAll (env : TraversalEnv) (peer : Peer)
    (start : TransactionList) : Prop :=
  ∀ rounds left,
    (coapFreeTransactionsByEndpoint env peer).walk start rounds =
        .finished left →
      ∀ entry ∈ start.transactions, entry.1.peer.same peer = true →
        entry.2 ∉ left.numbers

theorem mem_of_at? {list : TransactionList} {number : Nat}
    {transaction : CoapTransaction}
    (found : list.at? number = some transaction) :
    (transaction, number) ∈ list.transactions := by
  obtain ⟨entry, first, rfl⟩ := Option.map_eq_some_iff.mp found
  have same := List.find?_some first
  rw [beq_iff_eq] at same
  subst same
  exact List.mem_of_find?_eq_some first

theorem freeVisit_cleared {peer : Peer} {list after : TransactionList}
    {number : Nat} {transaction : CoapTransaction}
    (found : list.at? number = some transaction)
    (matching : transaction.peer.same peer = true)
    (visited : freeVisit env peer number list = .continues after) :
    number ∉ after.numbers := by
  simp only [freeVisit, found, matching, if_true] at visited
  split_ifs at visited
  rw [← Visited.continues.inj visited, numbers_clear, List.mem_filter]
  simp

theorem removes_free (numbered : start.Numbered) (peer : Peer) :
    (coapFreeTransactionsByEndpoint env peer).Removes (Since start)
      fun number => ∃ entry ∈ start.transactions,
        entry.2 = number ∧ entry.1.peer.same peer = true := by
  intro number list after since visited
  refine ⟨?_, ?_⟩
  · rintro ⟨entry, member, rfl, matching⟩
    rcases found : list.at? entry.2 with - | transaction
    · rw [coapFreeTransactionsByEndpoint] at visited
      simp [freeVisit, found] at visited
    · have small : entry.2 < start.next :=
        numbered.below entry.2 (List.mem_map_of_mem member)
      have old := since.old _ (mem_of_at? found) small
      have same : entry = (transaction, entry.2) :=
        List.inj_on_of_nodup_map numbered.distinct member old rfl
      rw [same] at matching
      exact freeVisit_cleared found matching visited
  · rintro other inside ⟨entry, member, rfl, -⟩
    have small : entry.2 < start.next :=
      numbered.below entry.2 (List.mem_map_of_mem member)
    obtain ⟨kept, added, after_eq, part, new⟩ :=
      (freeVisit_related (stepRelation_changes _) (.inr visited)).parts
    change entry.2 ∈ after.numbers at inside
    rw [after_eq] at inside
    rcases List.mem_append.mp inside with old | young
    · exact part.subset old
    · have := new entry.2 young
      have := since.next_le
      omega

theorem Finishes.removesAll (numbered : start.Numbered) {peer : Peer}
    (finishes : (coapFreeTransactionsByEndpoint env peer).Finishes start) :
    RemovesAll env peer start := by
  intro rounds left ended entry member matching inside
  exact finishes.gone (lawful_free env peer) numbered.since
    (removes_free numbered peer) ended entry.2 inside
    ⟨entry, member, rfl, matching⟩

end Main

theorem numbered_ofList (transactions : List CoapTransaction) :
    (ofList transactions).Numbered := by
  have numbers_eq : (ofList transactions).numbers =
      List.range' 0 transactions.length := List.zipIdx_map_snd 0 transactions
  refine ⟨?_, ?_⟩
  · rw [numbers_eq]
    exact List.nodup_range'
  · intro number member
    rw [numbers_eq, List.mem_range'_1] at member
    exact member.2.trans_eq (Nat.zero_add _)

end TransactionList

open TransactionList in
/-- Both loops are safe exactly if the calls they make keep their place in
the list, and only finitely many of them add a transaction. -/
theorem transaction_traversal_iff (env : TraversalEnv)
    (transactions : List CoapTransaction) (peer : Peer) :
    ((coapCheckTransactions env).Finishes (ofList transactions) ↔
      (∀ rounds number list,
        (coapCheckTransactions env).walk (ofList transactions) rounds =
            .visiting number list → CheckKeepsPlace env number list) ∧
      EventuallyAddNothing env (coapCheckTransactions env)
        (ofList transactions)) ∧
    ((coapFreeTransactionsByEndpoint env peer).Finishes
          (ofList transactions) ∧
        RemovesAll env peer (ofList transactions) ↔
      (∀ rounds number list,
        (coapFreeTransactionsByEndpoint env peer).walk (ofList transactions)
            rounds = .visiting number list →
          FreeKeepsPlace env peer number list) ∧
      EventuallyAddNothing env (coapFreeTransactionsByEndpoint env peer)
        (ofList transactions)) := by
  have numbered := numbered_ofList transactions
  refine ⟨check_finishes_iff numbered, ?_⟩
  rw [← free_finishes_iff numbered peer]
  constructor
  · exact And.left
  · intro finishes
    exact ⟨finishes, Finishes.removesAll numbered finishes⟩

namespace ReplacedRequests

/-- A peer with a DTLS session. -/
def peer (route : Nat) : Peer := ⟨⟨0, true, route, 0, .nil⟩, false, false⟩

def request (mid : UInt16) (route : Nat) : CoapTransaction :=
  .coapNewTransaction mid 0x40 (peer route)

def nothing : ListEffect := ⟨fun _ => false, []⟩

/-- The handler that is told of the first request closes the session of the
second one, which clears it, and sends a request to a third peer. -/
def env : TraversalEnv where
  initialized := true
  random _ := 0
  effects
    | 0 => ⟨nothing, ⟨(· == 1), [request 3 3]⟩, nothing⟩
    | _ => ⟨nothing, nothing, nothing⟩

end ReplacedRequests

open TransactionList ReplacedRequests in
/-- The list is as long as before, so the loop goes on to the second request. -/
theorem cleared_request_visited :
    ¬(coapFreeTransactionsByEndpoint env (peer 1)).Finishes
      (ofList [request 1 1, request 2 2]) := by
  intro finishes
  exact finishes.never 2 rfl

end IotivityLite
