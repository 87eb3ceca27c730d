import IotivityLite.Client.ClientCb
import IotivityLite.Foundation.Keyed

/-!
# Completion of client requests

Every unicast request that does not observe should end with one call of its
handler and with its record freed.  The books are balanced by the calls: a
handler was called once for every such record that is freed, out of the list
or being handled.
-/

namespace IotivityLite

/-- Every freed request was completed by one call of its handler, and when no
handler runs every other request can still be completed. -/
structure CompletedOnce (state : ClientState) : Prop where
  freedOnce : state.freed.Nodup
  completed : ∀ id ∈ state.plain, id ∈ state.freed →
    state.invoked.count id = 1
  pending : state.stack = [] → ∀ id ∈ state.plain, id ∉ state.freed →
    state.invoked.count id = 0 ∧
      ∃ cb ∈ state.cbs, cb.ref.id = id ∧ cb.refCount = 0

namespace ClientCb

variable {cb : ClientCb}

theorem not_plain_of_multicast (casts : cb.multicast = true) :
    ¬ cb.kind.plain = true := by
  rw [multicast, decide_eq_true_iff] at casts
  rw [casts]
  exact Bool.false_ne_true

theorem not_plain_of_discovery (discovers : cb.discovery = true) :
    ¬ cb.kind.plain = true := by
  rw [discovery, decide_eq_true_iff] at discovers
  rw [discovers]
  exact Bool.false_ne_true

end ClientCb

namespace ClientState

/-- The handler of a plain request is called for the response, or it stays for
a later one. -/
def Answers (env : ClientEnv) (response : ClientResponse) : Prop :=
  response.observe = observeNotSet ∧
    (response.payload = [] ∨ response.cbor = false ∨
      env.decodes response.payload = true)

/-- The record that a loop on top goes on with. -/
def nextFreed (state : ClientState) : Option ClientCb :=
  match state.stack with
  | .freeing filter :: _ => state.cbs.find? filter.selects
  | _ => none

/-- The pings whose handlers are being told of the timeout. -/
def pinged (state : ClientState) : List Handle :=
  state.stack.filterMap fun frame =>
    match frame with
    | .pinging cb => some cb
    | _ => none

/-- The steps that complete a plain request, or leave it alone: its responses
have no observe option and can be decoded, its lifetime does not end, it is
not taken for an observation, a record is not freed while it is handled, and
none is left at the shutdown. -/
def Completes (env : ClientEnv) (state : ClientState) : ClientInput → Prop
  | .response delivery response =>
      ∀ cb, state.cbs.find? delivery.finds = some cb →
        cb.kind.plain = true → Answers env response
  | .timer .lifetime cb =>
      ∀ record, state.at? cb = some record → record.kind.plain = false
  | .stopObserve uri endpoint _ result =>
      ∀ cb, state.ocRiGetClientCb uri endpoint = some cb →
        cb.kind.plain = false ∧
          (result = .notDispatched → cb.ref ∉ state.busy)
  | .resume _ =>
      ∀ cb, state.nextFreed = some cb → cb.ref ∉ state.pinged
  | .shutdown => ∀ cb ∈ state.cbs, cb.kind.plain = false
  | _ => True

instance (env : ClientEnv) (response : ClientResponse) :
    Decidable (Answers env response) :=
  inferInstanceAs (Decidable (_ ∧ _))

instance (env : ClientEnv) (state : ClientState) :
    ∀ input, Decidable (Completes env state input)
  | .response delivery response =>
      inferInstanceAs (Decidable (∀ cb ∈ state.cbs.find? delivery.finds,
        cb.kind.plain = true → Answers env response))
  | .timer .lifetime cb =>
      inferInstanceAs (Decidable (∀ record ∈ state.at? cb,
        record.kind.plain = false))
  | .stopObserve uri endpoint _ result =>
      inferInstanceAs (Decidable (∀ cb ∈ state.ocRiGetClientCb uri endpoint,
        cb.kind.plain = false ∧
          (result = .notDispatched → cb.ref ∉ state.busy)))
  | .resume _ =>
      inferInstanceAs (Decidable (∀ cb ∈ state.nextFreed,
        cb.ref ∉ state.pinged))
  | .shutdown =>
      inferInstanceAs (Decidable (∀ cb ∈ state.cbs, cb.kind.plain = false))
  | .timer .timeout _ | .timer .ping _ => isTrue trivial
  | .request _ _ | .nextBlock _ _ | .free _ | .stopMulticast => isTrue trivial

def detached (state : ClientState) : List ClientCb :=
  state.stack.filterMap ClientFrame.detached

def listed (state : ClientState) : List Handle :=
  state.cbs.map (·.ref)

/-- `owed` lists the handler calls that were made and are not yet booked. -/
structure Books (state : ClientState) (owed : List Nat) : Prop where
  ledger : Ledger (state.allocated.map (·.ref)) state.freed state.next
  kinds : ∀ cb ∈ state.allocated,
    (cb.kind.plain = true ↔ cb.ref.id ∈ state.plain)
  plainBelow : ∀ id ∈ state.plain, id < state.next
  invokedBelow : ∀ id ∈ state.invoked, id < state.next
  balance : ∀ id ∈ state.plain, state.invoked.count id =
    state.freed.count id + (state.detached.map (·.ref.id)).count id +
      (state.busy.map (·.id)).count id + owed.count id
  busyThere : ∀ ref ∈ state.busy, ref ∈ state.listed
  oneBusy : state.busy.length ≤ 1
  timersThere : ∀ timer ∈ state.timers, timer.2 ∈ state.listed

/-- `loose` lists the records whose flag is being changed. -/
structure Flags (state : ClientState) (loose : List Nat) : Prop where
  responding : ∀ cb delivery response,
    .responding cb delivery response ∈ state.stack →
      ∀ record ∈ state.cbs, record.ref = cb → record.refCount = 1 ∧
        (record.kind.plain = true → response.observe = observeNotSet)
  discovering : ∀ cb delivery response left,
    .discovering cb delivery response left ∈ state.stack →
      ∀ record ∈ state.cbs, record.ref = cb → record.discovery = true
  observed : ∀ record ∈ state.cbs, record.kind.plain = true →
    record.observeSeq = observeNotSet
  idle : ∀ record ∈ state.cbs, record.kind.plain = true →
    record.ref ∉ state.busy → record.ref.id ∉ loose → record.refCount = 0

variable {state : ClientState} {cb : Handle} {record : ClientCb}
  {owed loose : List Nat} {frame : ClientFrame} {rest : List ClientFrame}

namespace Books

theorem initial : Books initial [] where
  ledger := Ledger.empty
  kinds := fun _ member => nomatch member
  plainBelow := fun _ member => nomatch member
  invokedBelow := fun _ member => nomatch member
  balance := fun _ member => nomatch member
  busyThere := fun _ member => nomatch member
  oneBusy := Nat.zero_le 1
  timersThere := fun _ member => nomatch member

theorem mem_refs (member : cb ∈ state.listed) :
    cb ∈ state.allocated.map (·.ref) := by
  rw [allocated, List.map_append]
  exact List.mem_append_left _ member

section

variable (books : Books state owed)

include books

theorem addresses : (state.cbs.map (·.ref.address)).Nodup := by
  have sub : (state.cbs.map (·.ref)).Sublist (state.allocated.map (·.ref)) :=
    (List.sublist_append_left _ _).map _
  have distinct := books.ledger.addresses.sublist (sub.map (·.address))
  rwa [List.map_map] at distinct

theorem at?_eq_some_iff :
    state.at? cb = some record ↔
      record ∈ state.cbs ∧ record.ref.address = cb.address :=
  find?_key_some_iff books.addresses

theorem at?_ref (member : record ∈ state.cbs) :
    state.at? record.ref = some record :=
  books.at?_eq_some_iff.mpr ⟨member, rfl⟩

theorem at?_listed (member : cb ∈ state.listed) :
    ∃ record ∈ state.cbs, record.ref = cb ∧ state.at? cb = some record := by
  obtain ⟨record, there, rfl⟩ := List.mem_map.mp member
  exact ⟨record, there, rfl, books.at?_ref there⟩

theorem eq_of_id (member : record ∈ state.cbs) (listed : cb ∈ state.listed)
    (same : record.ref.id = cb.id) : record.ref = cb :=
  List.inj_on_of_nodup_map books.ledger.ids
    (mem_refs (List.mem_map_of_mem member)) (mem_refs listed) same

theorem plain_iff (member : record ∈ state.cbs) :
    record.kind.plain = true ↔ record.ref.id ∈ state.plain :=
  books.kinds record (List.mem_append_left _ member)

theorem owe {id : Nat} (other : id ∉ state.plain) :
    Books state (id :: owed) where
  __ := books
  balance := by
    intro wanted plain
    rw [books.balance wanted plain, List.count_cons_of_ne]
    rintro rfl
    exact other plain

end

theorem forgive (books : Books state (cb.id :: owed))
    (other : cb.id ∉ state.plain) : Books state owed where
  __ := books
  balance := by
    intro wanted plain
    have different : cb.id ≠ wanted := by
      rintro rfl
      exact other plain
    rw [books.balance wanted plain, List.count_cons_of_ne different]

theorem invoke (books : Books state owed) (member : cb ∈ state.listed) :
    Books (state.invoke cb) (cb.id :: owed) where
  __ := books
  invokedBelow := by
    intro id called
    rcases List.mem_cons.mp called with rfl | before
    · exact books.ledger.below cb (mem_refs member)
    · exact books.invokedBelow id before
  balance := by
    intro id plain
    have before := books.balance id plain
    change (cb.id :: state.invoked).count id = state.freed.count id +
      (state.detached.map (·.ref.id)).count id +
        (state.busy.map (·.id)).count id + (cb.id :: owed).count id
    rw [List.count_cons, List.count_cons, before]
    omega

theorem update (books : Books state owed) {change : ClientCb → ClientCb}
    (keeps : ∀ record, (change record).ref = record.ref ∧
      (change record).kind = record.kind) :
    Books (state.update cb change) owed := by
  have refs : (state.update cb change).listed = state.listed := by
    unfold listed ClientState.update
    rw [List.map_map]
    apply List.map_congr_left
    intro record _
    dsimp only [Function.comp_apply]
    split_ifs
    · exact (keeps record).1
    · rfl
  have all : (state.update cb change).allocated.map (·.ref) =
      state.allocated.map (·.ref) := by
    rw [allocated, allocated, List.map_append, List.map_append]
    exact congrArg (· ++ _) refs
  refine ⟨?_, ?_, books.plainBelow, books.invokedBelow, books.balance, ?_,
    books.oneBusy, ?_⟩
  · rw [all]
    exact books.ledger
  · intro record member
    rcases List.mem_append.mp member with there | out
    · obtain ⟨old, oldMember, rfl⟩ := List.mem_map.mp there
      have kinds := books.kinds old (List.mem_append_left _ oldMember)
      split_ifs
      · rw [(keeps old).1, (keeps old).2]
        exact kinds
      · exact kinds
    · exact books.kinds record (List.mem_append_right _ out)
  · intro ref handled
    rw [refs]
    exact books.busyThere ref handled
  · intro timer running
    rw [refs]
    exact books.timersThere timer running

theorem pushBusy (books : Books state (cb.id :: owed))
    (busy : frame.busy = some cb) (out : frame.detached = none)
    (none : state.busy = []) (member : cb ∈ state.listed) :
    Books (state.push frame) owed := by
  have busyEq : (state.push frame).busy = [cb] := by
    rw [ClientState.busy, push, List.filterMap_cons_some busy]
    exact congrArg (cb :: ·) none
  have outEq : (state.push frame).detached = state.detached := by
    rw [detached, push, List.filterMap_cons_none out, detached]
  have allEq : (state.push frame).allocated = state.allocated :=
    congrArg (state.cbs ++ ·) outEq
  refine ⟨?_, ?_, books.plainBelow, books.invokedBelow, ?_, ?_, ?_,
    books.timersThere⟩
  · rw [allEq]
    exact books.ledger
  · rw [allEq]
    exact books.kinds
  · intro id plain
    have before := books.balance id plain
    rw [none, List.count_cons] at before
    rw [busyEq, outEq, List.map_singleton, List.count_singleton]
    change state.invoked.count id = state.freed.count id + _ + _ + _
    simp only [List.map_nil, List.count_nil] at before
    omega
  · rw [busyEq]
    intro ref handled
    rw [List.mem_singleton.mp handled]
    exact member
  · rw [busyEq]
    exact Nat.le_refl 1

theorem restack (books : Books state owed) {stack : List ClientFrame}
    (busy : stack.filterMap ClientFrame.busy = state.busy)
    (out : stack.filterMap ClientFrame.detached = state.detached) :
    Books { state with stack := stack } owed := by
  have allEq : ({ state with stack := stack } : ClientState).allocated =
      state.allocated := congrArg (state.cbs ++ ·) out
  refine ⟨?_, ?_, books.plainBelow, books.invokedBelow, ?_, ?_, ?_,
    books.timersThere⟩
  · rw [allEq]
    exact books.ledger
  · rw [allEq]
    exact books.kinds
  · intro id plain
    change state.invoked.count id = state.freed.count id +
      ((stack.filterMap ClientFrame.detached).map (·.ref.id)).count id +
        ((stack.filterMap ClientFrame.busy).map (·.id)).count id + _
    rw [busy, out]
    exact books.balance id plain
  · intro ref handled
    exact books.busyThere ref (busy ▸ handled)
  · change (stack.filterMap ClientFrame.busy).length ≤ 1
    rw [busy]
    exact books.oneBusy

theorem pushFreeing (books : Books state owed) (filter : CbFilter) :
    Books (state.push (.freeing filter)) owed :=
  books.restack rfl rfl

theorem popBusy (books : Books state owed) (top : state.stack = frame :: rest)
    (busy : frame.busy = some cb) (out : frame.detached = none) :
    Books { state with stack := rest } (cb.id :: owed) ∧
      rest.filterMap ClientFrame.busy = [] ∧ cb ∈ state.listed := by
  have busyEq : state.busy = cb :: rest.filterMap ClientFrame.busy := by
    rw [ClientState.busy, top, List.filterMap_cons_some busy]
  have outEq : state.detached = rest.filterMap ClientFrame.detached := by
    rw [detached, top, List.filterMap_cons_none out]
  have none : rest.filterMap ClientFrame.busy = [] := by
    have one := books.oneBusy
    rw [busyEq, List.length_cons] at one
    exact List.eq_nil_of_length_eq_zero (by omega)
  have allEq : ({ state with stack := rest } : ClientState).allocated =
      state.allocated := congrArg (state.cbs ++ ·) outEq.symm
  refine ⟨⟨?_, ?_, books.plainBelow, books.invokedBelow, ?_, ?_, ?_,
    books.timersThere⟩, none, ?_⟩
  · rw [allEq]
    exact books.ledger
  · rw [allEq]
    exact books.kinds
  · intro id plain
    have before := books.balance id plain
    rw [busyEq, outEq, none] at before
    change state.invoked.count id = state.freed.count id +
      ((rest.filterMap ClientFrame.detached).map (·.ref.id)).count id +
        ((rest.filterMap ClientFrame.busy).map (·.id)).count id + _
    rw [none, List.count_cons]
    simp only [List.map_cons, List.map_nil, List.count_cons,
      List.count_nil] at before
    simp only [List.map_nil, List.count_nil]
    omega
  · intro ref handled
    exact nomatch (none ▸ handled : ref ∈ [])
  · change (rest.filterMap ClientFrame.busy).length ≤ 1
    rw [none]
    exact Nat.zero_le 1
  · apply books.busyThere
    rw [busyEq]
    exact List.mem_cons_self

theorem timersThere_removed (books : Books state owed)
    {timer : ClientTimer × Handle}
    (member : timer ∈ (state.clientCbRemoveFromLists cb).timers) :
    timer.2 ∈ (state.clientCbRemoveFromLists cb).listed := by
  obtain ⟨running, different⟩ := List.mem_filter.mp member
  obtain ⟨other, there, same⟩ :=
    List.mem_map.mp (books.timersThere timer running)
  refine List.mem_map.mpr ⟨other, ?_, same⟩
  apply (mem_eraseP_key_iff books.addresses).mpr
  refine ⟨there, ?_⟩
  rw [same]
  simpa using different

theorem busyThere_removed (books : Books state owed)
    (member : record ∈ state.cbs) (idle : record.ref ∉ state.busy)
    {ref : Handle} (handled : ref ∈ state.busy) :
    ref ∈ (state.clientCbRemoveFromLists record.ref).listed := by
  obtain ⟨other, there, rfl⟩ :=
    List.mem_map.mp (books.busyThere ref handled)
  refine List.mem_map_of_mem ((mem_eraseP_key_iff books.addresses).mpr
    ⟨there, ?_⟩)
  intro same
  have refEq := books.ledger.eq_of_address
    (mem_refs (List.mem_map_of_mem there))
    (mem_refs (List.mem_map_of_mem member)) same
  exact idle (refEq ▸ handled)

theorem perm_removed (books : Books state owed)
    (member : record ∈ state.cbs) :
    state.cbs.Perm (record ::
      state.cbs.eraseP (·.ref.address == record.ref.address)) :=
  perm_cons_eraseP_key books.addresses member

theorem ocClientCbFree (books : Books state (record.ref.id :: owed))
    (member : record ∈ state.cbs) (idle : record.ref ∉ state.busy) :
    Books (state.ocClientCbFree record.ref) owed := by
  have freedEq : (state.ocClientCbFree record.ref).freed =
      record.ref.id :: state.freed := by
    unfold ClientState.ocClientCbFree
    dsimp only
    rw [books.at?_ref member]
    rfl
  have order : state.allocated.Perm
      (record :: (state.ocClientCbFree record.ref).allocated) :=
    (books.perm_removed member).append_right _
  refine ⟨?_, ?_, books.plainBelow, books.invokedBelow, ?_, ?_, books.oneBusy,
    fun timer running => books.timersThere_removed running⟩
  · rw [freedEq]
    apply Ledger.free
    exact books.ledger.perm (order.map _)
  · intro other there
    exact books.kinds other
      (order.mem_iff.mpr (List.mem_cons_of_mem record there))
  · intro id plain
    have before := books.balance id plain
    rw [freedEq]
    rw [List.count_cons] at before ⊢
    change state.invoked.count id = _ +
      (state.detached.map (·.ref.id)).count id +
        (state.busy.map (·.id)).count id + _
    omega
  · intro ref handled
    exact books.busyThere_removed member idle handled

theorem clientCbNotifyWithCode (books : Books state owed)
    (member : record ∈ state.cbs) (idle : record.ref ∉ state.busy) :
    Books (state.clientCbNotifyWithCode record) owed := by
  have outEq : (state.clientCbNotifyWithCode record).detached =
      record :: state.detached := rfl
  have busyEq : (state.clientCbNotifyWithCode record).busy = state.busy := rfl
  have order : state.allocated.Perm
      (state.clientCbNotifyWithCode record).allocated :=
    ((books.perm_removed member).append_right _).trans
      List.perm_middle.symm
  refine ⟨books.ledger.perm (order.map _), ?_, books.plainBelow, ?_, ?_, ?_,
    books.oneBusy, fun timer running => books.timersThere_removed running⟩
  · intro other there
    exact books.kinds other (order.mem_iff.mpr there)
  · intro id called
    rcases List.mem_cons.mp called with rfl | before
    · exact books.ledger.below record.ref
        (mem_refs (List.mem_map_of_mem member))
    · exact books.invokedBelow id before
  · intro id plain
    have before := books.balance id plain
    rw [outEq, busyEq, List.map_cons, List.count_cons]
    change (record.ref.id :: state.invoked).count id = state.freed.count id +
      _ + _ + _
    rw [List.count_cons]
    omega
  · intro ref handled
    exact books.busyThere_removed member idle handled

theorem popNotifying (books : Books state owed)
    (top : state.stack = .notifying record :: rest) :
    Books { state with
      freed := record.ref.id :: state.freed, stack := rest } owed := by
  have outEq : state.detached =
      record :: rest.filterMap ClientFrame.detached := by
    rw [detached, top]
    rfl
  have busyEq : state.busy = rest.filterMap ClientFrame.busy := by
    rw [ClientState.busy, top]
    rfl
  have order : state.allocated.Perm
      (record :: (state.cbs ++ rest.filterMap ClientFrame.detached)) := by
    change (state.cbs ++ state.detached).Perm _
    rw [outEq]
    exact List.perm_middle
  refine ⟨Ledger.free (books.ledger.perm (order.map _)), ?_, books.plainBelow,
    books.invokedBelow, ?_, ?_, ?_, books.timersThere⟩
  · intro other there
    exact books.kinds other
      (order.mem_iff.mpr (List.mem_cons_of_mem record there))
  · intro id plain
    have before := books.balance id plain
    rw [outEq, busyEq, List.map_cons, List.count_cons] at before
    change state.invoked.count id = (record.ref.id :: state.freed).count id +
      ((rest.filterMap ClientFrame.detached).map (·.ref.id)).count id +
        ((rest.filterMap ClientFrame.busy).map (·.id)).count id + _
    rw [List.count_cons]
    omega
  · intro ref handled
    exact books.busyThere ref (busyEq ▸ handled)
  · change (rest.filterMap ClientFrame.busy).length ≤ 1
    rw [← busyEq]
    exact books.oneBusy

theorem keepTimers (books : Books state owed)
    {timers : List (ClientTimer × Handle)}
    (kept : ∀ timer ∈ timers, timer ∈ state.timers) :
    Books { state with timers := timers } owed where
  __ := books
  timersThere := fun timer running =>
    books.timersThere timer (kept timer running)

theorem removePingTimer (books : Books state owed) :
    Books (state.removePingTimer cb) owed :=
  books.keepTimers fun _ running => (List.mem_filter.mp running).1

theorem id_lt (books : Books state owed) (member : record ∈ state.allocated) :
    record.ref.id < state.next :=
  books.ledger.below _ (List.mem_map_of_mem member)

theorem busy_lt (books : Books state owed) (handled : cb ∈ state.busy) :
    cb.id < state.next :=
  books.ledger.below _ (mem_refs (books.busyThere cb handled))

theorem ocRiAllocClientCb (books : Books state []) (request : ClientRequest)
    (address : Nat) : Books (state.ocRiAllocClientCb request address) [] := by
  unfold ClientState.ocRiAllocClientCb
  by_cases used : state.allocated.any (·.ref.address == address) = true
  · rw [if_pos used]
    exact books
  rw [if_neg used]
  have unused : ∀ handle ∈ state.allocated.map (·.ref),
      handle.address ≠ address := by
    intro handle member same
    obtain ⟨record, there, rfl⟩ := List.mem_map.mp member
    exact used (List.any_eq_true.mpr ⟨record, there, by simpa using same⟩)
  have order : ((state.cbs ++ [request.cb ⟨state.next, address⟩]) ++
      state.detached).Perm
        (request.cb ⟨state.next, address⟩ :: state.allocated) := by
    rw [List.append_assoc]
    exact List.perm_middle
  refine ⟨?_, ?_, ?_, ?_, ?_, ?_, books.oneBusy, ?_⟩
  · refine Ledger.perm ?_ (order.map (·.ref)).symm
    exact books.ledger.alloc unused
  · intro cb member
    rcases List.mem_cons.mp (order.mem_iff.mp member) with rfl | old
    · change request.kind.plain = true ↔ state.next ∈
        (if request.kind.plain then state.next :: state.plain else state.plain)
      split_ifs with plain
      · exact iff_of_true plain List.mem_cons_self
      · refine iff_of_false plain ?_
        intro earlier
        exact Nat.lt_irrefl _ (books.plainBelow _ earlier)
    · have small := books.id_lt old
      rw [books.kinds cb old]
      split_ifs
      · rw [List.mem_cons, or_iff_right (Nat.ne_of_lt small)]
      · rfl
  · intro id plain
    split_ifs at plain
    · rcases List.mem_cons.mp plain with rfl | old
      · exact Nat.lt_succ_self _
      · exact Nat.lt_succ_of_lt (books.plainBelow id old)
    · exact Nat.lt_succ_of_lt (books.plainBelow id plain)
  · intro id called
    exact Nat.lt_succ_of_lt (books.invokedBelow id called)
  · intro id plain
    change state.invoked.count id = state.freed.count id +
      (state.detached.map (·.ref.id)).count id +
        (state.busy.map (·.id)).count id + [].count id
    by_cases new : id = state.next
    · -- Nothing was called, freed or handled under the new number.
      have uncalled : id ∉ state.invoked := fun called =>
        Nat.ne_of_lt (books.invokedBelow id called) new
      have unfreed : id ∉ state.freed := fun gone =>
        Nat.ne_of_lt (books.ledger.freedBelow id gone) new
      have inside : id ∉ state.detached.map (·.ref.id) := by
        intro out
        obtain ⟨record, there, rfl⟩ := List.mem_map.mp out
        exact Nat.ne_of_lt (books.id_lt (List.mem_append_right _ there)) new
      have unhandled : id ∉ state.busy.map (·.id) := by
        intro handled
        obtain ⟨cb, there, rfl⟩ := List.mem_map.mp handled
        exact Nat.ne_of_lt (books.busy_lt there) new
      rw [List.count_eq_zero_of_not_mem uncalled,
        List.count_eq_zero_of_not_mem unfreed,
        List.count_eq_zero_of_not_mem inside,
        List.count_eq_zero_of_not_mem unhandled, List.count_nil]
    · have old : id ∈ state.plain := by
        split_ifs at plain
        · exact (List.mem_cons.mp plain).resolve_left new
        · exact plain
      exact books.balance id old
  · intro ref handled
    exact List.mem_map.mpr (by
      obtain ⟨record, there, same⟩ :=
        List.mem_map.mp (books.busyThere ref handled)
      exact ⟨record, List.mem_append_left _ there, same⟩)
  · intro timer running
    rcases List.mem_append.mp running with old | started
    · obtain ⟨record, there, same⟩ :=
        List.mem_map.mp (books.timersThere timer old)
      exact List.mem_map.mpr ⟨record, List.mem_append_left _ there, same⟩
    · obtain ⟨kind, -, rfl⟩ := List.mem_map.mp started
      exact List.mem_map_of_mem
        (List.mem_append_right _ (List.mem_singleton.mpr rfl))

theorem ocClientCbsShutdown (books : Books state []) (top : state.stack = [])
    (others : ∀ cb ∈ state.cbs, cb.kind.plain = false) :
    Books state.ocClientCbsShutdown [] := by
  have outEq : state.detached = [] := by
    rw [detached, top]
    rfl
  have busyEq : state.busy = [] := by
    rw [ClientState.busy, top]
    rfl
  have allEq : state.allocated = state.cbs := by
    change state.cbs ++ state.detached = _
    rw [outEq, List.append_nil]
  have noneLeft : state.ocClientCbsShutdown.allocated = [] := by
    change [] ++ state.detached = []
    rw [outEq]
    rfl
  refine ⟨?_, ?_, books.plainBelow, books.invokedBelow, ?_, ?_, books.oneBusy,
    fun _ running => nomatch running⟩
  · rw [noneLeft]
    have ledger := books.ledger.freeAll
    rw [allEq, List.map_map] at ledger
    exact ledger
  · rw [noneLeft]
    exact fun _ member => nomatch member
  · intro id plain
    have unfreed : id ∉ (state.cbs.map (·.ref.id)).reverse := by
      rw [List.mem_reverse]
      intro member
      obtain ⟨cb, there, rfl⟩ := List.mem_map.mp member
      have listed := (books.plain_iff there).mpr plain
      rw [others cb there] at listed
      exact Bool.noConfusion listed
    change state.invoked.count id =
      ((state.cbs.map (·.ref.id)).reverse ++ state.freed).count id + _ + _ + _
    rw [List.count_append, List.count_eq_zero_of_not_mem unfreed,
      Nat.zero_add]
    exact books.balance id plain
  · intro ref handled
    exact nomatch (busyEq ▸ handled : ref ∈ [])

end Books

namespace Flags

theorem initial : Flags initial [] where
  responding := fun _ _ _ member => nomatch member
  discovering := fun _ _ _ _ member => nomatch member
  observed := fun _ member => nomatch member
  idle := fun _ member => nomatch member

theorem restack (flags : Flags state loose) {stack : List ClientFrame}
    {opened : List Nat}
    (responding : ∀ cb delivery response,
      .responding cb delivery response ∈ stack →
        .responding cb delivery response ∈ state.stack ∨
          ∀ record ∈ state.cbs, record.ref = cb → record.refCount = 1 ∧
            (record.kind.plain = true → response.observe = observeNotSet))
    (discovering : ∀ cb delivery response left,
      .discovering cb delivery response left ∈ stack →
        .discovering cb delivery response left ∈ state.stack ∨
          ∀ record ∈ state.cbs, record.ref = cb → record.discovery = true)
    (idle : ∀ record ∈ state.cbs, record.kind.plain = true →
      record.ref ∉ stack.filterMap ClientFrame.busy →
        record.ref.id ∉ opened →
          record.ref ∉ state.busy ∧ record.ref.id ∉ loose) :
    Flags { state with stack := stack } opened where
  responding := by
    intro cb delivery response member record there same
    rcases responding cb delivery response member with old | new
    · exact flags.responding cb delivery response old record there same
    · exact new record there same
  discovering := by
    intro cb delivery response left member record there same
    rcases discovering cb delivery response left member with old | new
    · exact flags.discovering cb delivery response left old record there same
    · exact new record there same
  observed := flags.observed
  idle := by
    intro record there plain unhandled closed
    obtain ⟨before, tight⟩ := idle record there plain unhandled closed
    exact flags.idle record there plain before tight

theorem pushFreeing (flags : Flags state loose) (filter : CbFilter) :
    Flags (state.push (.freeing filter)) loose := by
  refine flags.restack ?_ ?_ (fun _ _ _ unhandled closed =>
    ⟨unhandled, closed⟩)
  · intro cb delivery response member
    exact Or.inl (by simpa using member)
  · intro cb delivery response left member
    exact Or.inl (by simpa using member)

theorem pop (flags : Flags state []) (top : state.stack = frame :: rest)
    {opened : List Nat} (opens : ∀ cb, frame.busy = some cb → cb.id ∈ opened) :
    Flags { state with stack := rest } opened := by
  refine flags.restack ?_ ?_ ?_
  · intro cb delivery response member
    rw [top]
    exact Or.inl (List.mem_cons_of_mem _ member)
  · intro cb delivery response left member
    rw [top]
    exact Or.inl (List.mem_cons_of_mem _ member)
  · intro record there plain unhandled closed
    refine ⟨?_, List.not_mem_nil⟩
    intro handled
    rw [ClientState.busy, top] at handled
    cases busy : frame.busy with
    | none =>
        rw [List.filterMap_cons_none busy] at handled
        exact unhandled handled
    | some cb =>
        rw [List.filterMap_cons_some busy] at handled
        rcases List.mem_cons.mp handled with rfl | later
        · exact closed (opens _ busy)
        · exact unhandled later

theorem shrink (flags : Flags state loose) {cbs : List ClientCb}
    (sub : ∀ record ∈ cbs, record ∈ state.cbs) :
    Flags { state with cbs := cbs } loose where
  responding := fun cb delivery response member record there =>
    flags.responding cb delivery response member record (sub record there)
  discovering := fun cb delivery response left member record there =>
    flags.discovering cb delivery response left member record
      (sub record there)
  observed := fun record there => flags.observed record (sub record there)
  idle := fun record there => flags.idle record (sub record there)

theorem ocClientCbFree (flags : Flags state loose) :
    Flags (state.ocClientCbFree cb) loose := by
  have smaller := flags.shrink
    (fun record (there : record ∈ state.cbs.eraseP
      (·.ref.address == cb.address)) => List.mem_of_mem_eraseP there)
  exact ⟨smaller.responding, smaller.discovering, smaller.observed,
    smaller.idle⟩

theorem clientCbNotifyWithCode (flags : Flags state loose) :
    Flags (state.clientCbNotifyWithCode record) loose := by
  have smaller := flags.shrink
    (fun other (there : other ∈ state.cbs.eraseP
      (·.ref.address == record.ref.address)) => List.mem_of_mem_eraseP there)
  refine ⟨?_, ?_, smaller.observed, smaller.idle⟩
  · intro cb delivery response member
    rcases List.mem_cons.mp member with impossible | old
    · exact nomatch impossible
    · exact smaller.responding cb delivery response old
  · intro cb delivery response left member
    rcases List.mem_cons.mp member with impossible | old
    · exact nomatch impossible
    · exact smaller.discovering cb delivery response left old

theorem ocRiAllocClientCb (flags : Flags state []) (books : Books state owed)
    (request : ClientRequest) (address : Nat) :
    Flags (state.ocRiAllocClientCb request address) [] := by
  unfold ClientState.ocRiAllocClientCb
  by_cases used : state.allocated.any (·.ref.address == address) = true
  · rw [if_pos used]
    exact flags
  rw [if_neg used]
  -- The record of a frame is older than the new one.
  have older : ∀ frame ∈ state.stack, ∀ cb, frame.busy = some cb →
      (request.cb ⟨state.next, address⟩).ref ≠ cb := by
    intro frame member cb busy same
    have small := books.busy_lt (List.mem_filterMap.mpr ⟨frame, member, busy⟩)
    rw [← same] at small
    exact Nat.lt_irrefl _ small
  refine ⟨?_, ?_, ?_, ?_⟩
  · intro cb delivery response member record there same
    rcases List.mem_append.mp there with old | new
    · exact flags.responding cb delivery response member record old same
    · rw [List.mem_singleton.mp new] at same
      exact absurd same (older _ member cb rfl)
  · intro cb delivery response left member record there same
    rcases List.mem_append.mp there with old | new
    · exact flags.discovering cb delivery response left member record old same
    · rw [List.mem_singleton.mp new] at same
      exact absurd same (older _ member cb rfl)
  · intro record there plain
    rcases List.mem_append.mp there with old | new
    · exact flags.observed record old plain
    · rw [List.mem_singleton.mp new] at plain ⊢
      refine if_neg ?_
      intro observes
      change request.kind.plain = true at plain
      rw [observes] at plain
      exact Bool.noConfusion plain
  · intro record there plain unhandled closed
    rcases List.mem_append.mp there with old | new
    · exact flags.idle record old plain unhandled closed
    · rw [List.mem_singleton.mp new]
      rfl

theorem update (flags : Flags state loose) {change : ClientCb → ClientCb}
    {opened : List Nat}
    (keeps : ∀ record, (change record).ref = record.ref ∧
      (change record).kind = record.kind)
    (responding : ∀ record ∈ state.cbs, record.ref.address = cb.address →
      record.ref ∈ state.busy → (change record).refCount = record.refCount)
    (observed : ∀ record ∈ state.cbs, record.ref.address = cb.address →
      record.kind.plain = true → (change record).observeSeq = observeNotSet)
    (idle : ∀ record ∈ state.cbs, record.ref.address = cb.address →
      record.kind.plain = true → record.ref ∉ state.busy →
        record.ref.id ∉ opened → (change record).refCount = 0)
    (closed : ∀ record ∈ state.cbs, record.ref.id ∈ loose →
      record.ref.id ∉ opened → record.ref.address = cb.address) :
    Flags (state.update cb change) opened := by
  refine ⟨?_, ?_, ?_, ?_⟩
  · intro pointer delivery response member record there same
    obtain ⟨old, oldThere, rfl⟩ := List.mem_map.mp there
    have fits := flags.responding pointer delivery response member old oldThere
    split_ifs at same ⊢ with here
    · rw [(keeps old).1] at same
      have handled : old.ref ∈ state.busy :=
        List.mem_filterMap.mpr ⟨_, member, congrArg some same.symm⟩
      rw [responding old oldThere (by simpa using here) handled,
        (keeps old).2]
      exact fits same
    · exact fits same
  · intro pointer delivery response left member record there same
    obtain ⟨old, oldThere, rfl⟩ := List.mem_map.mp there
    have fits :=
      flags.discovering pointer delivery response left member old oldThere
    split_ifs at same ⊢ with here
    · rw [(keeps old).1] at same
      rw [ClientCb.discovery, (keeps old).2]
      exact fits same
    · exact fits same
  · intro record there plain
    obtain ⟨old, oldThere, rfl⟩ := List.mem_map.mp there
    split_ifs at plain ⊢ with here
    · rw [(keeps old).2] at plain
      exact observed old oldThere (by simpa using here) plain
    · exact flags.observed old oldThere plain
  · intro record there plain unhandled tight
    obtain ⟨old, oldThere, rfl⟩ := List.mem_map.mp there
    split_ifs at plain unhandled tight ⊢ with here
    · rw [(keeps old).2] at plain
      rw [(keeps old).1] at unhandled tight
      exact idle old oldThere (by simpa using here) plain unhandled tight
    · refine flags.idle old oldThere plain unhandled ?_
      intro open'
      exact here (by simpa using closed old oldThere open' tight)

end Flags

structure Valid (state : ClientState) : Prop where
  books : Books state []
  flags : Flags state []

/-- A record that was given up by its handler, called or not. -/
structure Handled (state : ClientState) (cb : Handle) (owed : List Nat) :
    Prop where
  books : Books state owed
  flags : Flags state [cb.id]
  quiet : state.busy = []
  member : cb ∈ state.listed
  owes : owed = [] ∨ owed = [cb.id]

namespace Handled

theorem flags_free (handled : Handled state cb owed) :
    Flags (state.ocClientCbFree cb) [] := by
  have flags : Flags (state.ocClientCbFree cb) [cb.id] :=
    handled.flags.ocClientCbFree
  refine ⟨flags.responding, flags.discovering, flags.observed, ?_⟩
  intro record there plain unhandled _
  apply flags.idle record there plain unhandled
  intro loose
  obtain ⟨before, different⟩ :=
    (mem_eraseP_key_iff handled.books.addresses).mp there
  exact different (congrArg Handle.address (handled.books.eq_of_id before
    handled.member (List.mem_singleton.mp loose)))

theorem free (handled : Handled state cb owed) (there : record ∈ state.cbs)
    (same : record.ref = cb)
    (called : record.kind.plain = true → owed = [cb.id]) :
    Valid (state.ocClientCbFree cb) := by
  subst same
  refine ⟨?_, handled.flags_free⟩
  have idle : record.ref ∉ state.busy := by
    rw [handled.quiet]
    exact List.not_mem_nil
  by_cases plain : record.kind.plain = true
  · have books := handled.books
    rw [called plain] at books
    exact books.ocClientCbFree there idle
  · rw [handled.books.plain_iff there] at plain
    rcases handled.owes with none | one
    · have books := handled.books
      rw [none] at books
      exact (books.owe plain).ocClientCbFree there idle
    · have books := handled.books
      rw [one] at books
      exact books.ocClientCbFree there idle

theorem books_of_stays (handled : Handled state cb owed)
    (there : record ∈ state.cbs) (same : record.ref = cb)
    (uncalled : record.kind.plain = true → owed = []) : Books state [] := by
  subst same
  by_cases plain : record.kind.plain = true
  · have books := handled.books
    rw [uncalled plain] at books
    exact books
  · rw [handled.books.plain_iff there] at plain
    rcases handled.owes with none | one
    · have books := handled.books
      rw [none] at books
      exact books
    · have books := handled.books
      rw [one] at books
      exact books.forgive plain

end Handled

theorem mem_update {change : ClientCb → ClientCb} (there : record ∈ state.cbs)
    (here : record.ref.address = cb.address) :
    change record ∈ (state.update cb change).cbs := by
  refine List.mem_map.mpr ⟨record, there, ?_⟩
  rw [if_pos (by simpa using here)]

theorem riClientCbSetObserveSeq_valid (valid : Valid state)
    (quiet : state.busy = []) (observeSeq : Int) (endpoint : OcEndpoint)
    (unobserved : ∀ other ∈ state.cbs,
      other.ref.address = record.ref.address → other.kind.plain = true →
        observeSeq = observeNotSet) :
    Valid (state.riClientCbSetObserveSeq record observeSeq endpoint) := by
  have updated : Valid (state.update record.ref
      ({ · with observeSeq := observeSeq })) := by
    refine ⟨valid.books.update fun _ => ⟨rfl, rfl⟩,
      valid.flags.update (fun _ => ⟨rfl, rfl⟩) (fun _ _ _ _ => rfl)
        unobserved ?_ ?_⟩
    · intro other otherThere _ plain unhandled tight
      exact valid.flags.idle other otherThere plain unhandled tight
    · intro other _ impossible
      exact nomatch impossible
  unfold riClientCbSetObserveSeq
  dsimp only
  split_ifs with registers
  · split
    · exact updated
    · next other found =>
      -- An observation is dropped, never a plain request.
      have otherThere := List.mem_of_find?_eq_some found
      have matching := List.find?_some found
      have other_plain : ¬ other.kind.plain = true := by
        intro plain
        have unset := updated.flags.observed other otherThere plain
        rw [unset] at matching
        simp at matching
      refine ⟨?_, updated.flags.ocClientCbFree⟩
      rw [updated.books.plain_iff otherThere] at other_plain
      apply (updated.books.owe other_plain).ocClientCbFree otherThere
      change other.ref ∉ state.busy
      rw [quiet]
      exact List.not_mem_nil
  · exact updated

theorem noteStop_valid (valid : Valid state) (stops : Bool) :
    Valid (state.noteStop record stops) :=
  ⟨⟨valid.books.ledger, valid.books.kinds, valid.books.plainBelow,
    valid.books.invokedBelow, valid.books.balance, valid.books.busyThere,
    valid.books.oneBusy, valid.books.timersThere⟩,
    ⟨valid.flags.responding, valid.flags.discovering, valid.flags.observed,
      valid.flags.idle⟩⟩

theorem pushFreeing_valid (valid : Valid state) (filter : CbFilter) :
    Valid (state.push (.freeing filter)) :=
  ⟨valid.books.pushFreeing filter, valid.flags.pushFreeing filter⟩

variable {response : ClientResponse}

namespace Handled

theorem noteStop (handled : Handled state cb owed) (stops : Bool) :
    Handled (state.noteStop record stops) cb owed :=
  ⟨⟨handled.books.ledger, handled.books.kinds, handled.books.plainBelow,
    handled.books.invokedBelow, handled.books.balance,
    handled.books.busyThere, handled.books.oneBusy,
    handled.books.timersThere⟩,
    ⟨handled.flags.responding, handled.flags.discovering,
      handled.flags.observed, handled.flags.idle⟩,
    handled.quiet, handled.member, handled.owes⟩

theorem clearFlag (handled : Handled state record.ref owed)
    (there : record ∈ state.cbs) :
    Flags (state.update record.ref ({ · with refCount := 0 })) [] := by
  refine handled.flags.update (fun _ => ⟨rfl, rfl⟩) ?_ ?_
    (fun _ _ _ _ _ _ => rfl) ?_
  · intro other _ _ busy
    rw [handled.quiet] at busy
    exact nomatch busy
  · intro other otherThere _ plain
    exact handled.flags.observed other otherThere plain
  · intro other otherThere loose _
    exact congrArg Handle.address (handled.books.eq_of_id otherThere
      (List.mem_map_of_mem there) (List.mem_singleton.mp loose))

theorem finishRecord (handled : Handled state cb owed) {separate : Bool}
    (completes : ∀ record ∈ state.cbs, record.ref = cb →
      record.kind.plain = true → response.observe = observeNotSet ∧
        owed = if separate then [] else [cb.id]) :
    Valid (state.finishRecord cb response separate) := by
  obtain ⟨record, there, rfl, found⟩ :=
    handled.books.at?_listed handled.member
  unfold ClientState.finishRecord
  rw [found]
  dsimp only
  have flags := handled.clearFlag there
  have thereNow : ({ record with refCount := 0 } : ClientCb) ∈
      (state.update record.ref ({ · with refCount := 0 })).cbs :=
    mem_update there rfl
  have updated : Handled (state.update record.ref
      ({ · with refCount := 0 })) record.ref owed :=
    ⟨handled.books.update fun _ => ⟨rfl, rfl⟩,
      ⟨flags.responding, flags.discovering, flags.observed,
        fun other there plain unhandled _ =>
          flags.idle other there plain unhandled List.not_mem_nil⟩,
      handled.quiet, List.mem_map.mpr ⟨_, thereNow, rfl⟩, handled.owes⟩
  split_ifs with ends casts stops
  · -- A multicast request that was stopped.
    have books := updated.books_of_stays thereNow rfl
      fun plain => absurd plain (ClientCb.not_plain_of_multicast casts)
    exact pushFreeing_valid (noteStop_valid ⟨books, flags⟩ _) _
  · have books := updated.books_of_stays thereNow rfl
      fun plain => absurd plain (ClientCb.not_plain_of_multicast casts)
    exact noteStop_valid ⟨books, flags⟩ _
  · apply Handled.free (updated.noteStop _) thereNow rfl
    intro plain
    obtain ⟨-, called⟩ := completes record there rfl plain
    rw [ends.2.1] at called
    exact called
  · -- The record stays for the response that was announced.
    have waits : record.kind.plain = true →
        response.observe = observeNotSet ∧ owed = [] := by
      intro plain
      obtain ⟨unobserved, called⟩ := completes record there rfl plain
      refine ⟨unobserved, ?_⟩
      cases separate with
      | true => exact called
      | false =>
          refine absurd ⟨unobserved, rfl, ?_⟩ ends
          rw [Bool.eq_false_iff]
          intro discovers
          exact ClientCb.not_plain_of_discovery discovers plain
    have books := updated.books_of_stays thereNow rfl
      fun plain => (waits plain).2
    refine riClientCbSetObserveSeq_valid (noteStop_valid ⟨books, flags⟩ _)
      handled.quiet _ _ ?_
    intro other otherThere same plain
    have otherEq := List.inj_on_of_nodup_map books.addresses otherThere
      thereNow same
    rw [otherEq] at plain
    exact (waits plain).1

theorem finishInvoke (handled : Handled state cb owed) (env : ClientEnv)
    {separate : Bool}
    (completes : ∀ record ∈ state.cbs, record.ref = cb →
      record.kind.plain = true → response.observe = observeNotSet ∧
        owed = if separate then [] else [cb.id]) :
    Valid (state.finishInvoke env cb response separate) := by
  unfold ClientState.finishInvoke
  split_ifs
  · have smaller : Handled (state.removePingTimer cb) cb owed :=
      ⟨handled.books.removePingTimer,
        ⟨handled.flags.responding, handled.flags.discovering,
          handled.flags.observed, handled.flags.idle⟩,
        handled.quiet, handled.member, handled.owes⟩
    exact smaller.finishRecord completes
  · exact handled.finishRecord completes

end Handled

theorem Handled.stopDiscovery (handled : Handled state cb owed)
    (others : ∀ record ∈ state.cbs, record.ref = cb →
      ¬ record.kind.plain = true) : Valid (state.stopDiscovery cb) := by
  obtain ⟨record, there, rfl, found⟩ :=
    handled.books.at?_listed handled.member
  have flags := handled.clearFlag there
  have books := handled.books_of_stays there rfl
    fun plain => absurd plain (others record there rfl)
  unfold ClientState.stopDiscovery
  rw [found]
  have updated : Valid (state.update record.ref
      ({ · with refCount := 0 })) :=
    ⟨books.update fun _ => ⟨rfl, rfl⟩, flags⟩
  exact pushFreeing_valid (noteStop_valid updated _) _

variable {env : ClientEnv}

theorem callHandler_valid (books : Books state []) (flags : Flags state loose)
    (quiet : state.busy = []) (there : record ∈ state.cbs)
    (opened : ∀ id ∈ loose, id = record.ref.id)
    (busy : frame.busy = some record.ref) (out : frame.detached = none)
    (responds : ∀ cb delivery response,
      frame = .responding cb delivery response → record.refCount = 1 ∧
        (record.kind.plain = true → response.observe = observeNotSet))
    (discovers : ∀ cb delivery response left,
      frame = .discovering cb delivery response left →
        record.discovery = true) :
    Valid ((state.invoke record.ref).push frame) := by
  have listed : record.ref ∈ state.listed := List.mem_map_of_mem there
  -- The frame speaks of this record only.
  have only : ∀ cb, frame.busy = some cb → ∀ other ∈ state.cbs,
      other.ref = cb → other = record := by
    intro cb same other otherThere otherSame
    rw [busy] at same
    apply List.inj_on_of_nodup_map books.addresses otherThere there
    rw [otherSame, ← Option.some.inj same]
  refine ⟨(books.invoke listed).pushBusy busy out quiet listed, ?_⟩
  have called : Flags (state.invoke record.ref) loose := { flags with }
  refine called.restack ?_ ?_ ?_
  · intro cb delivery response member
    rcases List.mem_cons.mp member with same | old
    · refine Or.inr ?_
      intro other otherThere otherSame
      rw [only cb (by rw [← same]; rfl) other otherThere otherSame]
      exact responds cb delivery response same.symm
    · exact Or.inl old
  · intro cb delivery response left member
    rcases List.mem_cons.mp member with same | old
    · refine Or.inr ?_
      intro other otherThere otherSame
      rw [only cb (by rw [← same]; rfl) other otherThere otherSame]
      exact discovers cb delivery response left same.symm
    · exact Or.inl old
  · intro other otherThere plain unhandled tight
    have different : other.ref ≠ record.ref := by
      intro same
      exact unhandled (List.mem_filterMap.mpr
        ⟨frame, List.mem_cons_self, by rw [busy, same]⟩)
    refine ⟨fun handled => ?_, fun open' => ?_⟩
    · exact nomatch (quiet ▸ handled : other.ref ∈ [])
    · exact different (books.eq_of_id otherThere listed (opened _ open'))

variable {delivery : Delivery}

theorem Handled.discoverNext (handled : Handled state cb owed)
    (others : ∀ record ∈ state.cbs, record.ref = cb →
      ¬ record.kind.plain = true)
    (discovers : ∀ record ∈ state.cbs, record.ref = cb →
      record.discovery = true) {left : Nat} :
    Valid ((state.invoke cb).push
      (.discovering cb delivery response left)) := by
  obtain ⟨record, there, rfl, -⟩ := handled.books.at?_listed handled.member
  have books := handled.books_of_stays there rfl
    fun plain => absurd plain (others record there rfl)
  refine callHandler_valid books handled.flags handled.quiet there ?_ rfl rfl
    (fun _ _ _ impossible => nomatch impossible)
    (fun _ _ _ _ _ => discovers record there rfl)
  intro id loose
  exact List.mem_singleton.mp loose

/-- A record at the start of `oc_client_cb_invoke`. -/
structure Opened (state : ClientState) (record : ClientCb) : Prop where
  books : Books state []
  flags : Flags state [record.ref.id]
  quiet : state.busy = []
  there : ∃ now ∈ state.cbs, now.ref = record.ref ∧
    now.kind = record.kind ∧ now.refCount = 1

namespace Opened

theorem setFlag (valid : Valid state) (quiet : state.busy = [])
    (there : record ∈ state.cbs) :
    Opened (state.update record.ref ({ · with refCount := 1 })) record where
  books := valid.books.update fun _ => ⟨rfl, rfl⟩
  flags := by
    refine valid.flags.update (fun _ => ⟨rfl, rfl⟩) ?_ ?_ ?_ ?_
    · intro other _ _ busy
      rw [quiet] at busy
      exact nomatch busy
    · intro other otherThere _ plain
      exact valid.flags.observed other otherThere plain
    · intro other otherThere same _ _ tight
      have otherEq := List.inj_on_of_nodup_map valid.books.addresses
        otherThere there same
      rw [otherEq] at tight
      exact absurd (List.mem_singleton.mpr rfl) tight
    · intro other _ impossible
      exact nomatch impossible
  quiet := quiet
  there := ⟨_, mem_update there rfl, rfl, rfl, rfl⟩

section

variable (opened : Opened state record)

include opened

theorem readNotificationNum (env : ClientEnv) (response : ClientResponse) :
    Opened (state.readNotificationNum env record.ref response) record := by
  unfold ClientState.readNotificationNum
  split_ifs
  · obtain ⟨now, there, same, kind, counted⟩ := opened.there
    refine ⟨opened.books.update fun _ => ⟨rfl, rfl⟩,
      opened.flags.update (fun _ => ⟨rfl, rfl⟩) (fun _ _ _ _ => rfl) ?_ ?_ ?_,
      opened.quiet,
      ⟨_, mem_update there (congrArg Handle.address same), same, kind,
        counted⟩⟩
    · intro other otherThere _ plain
      exact opened.flags.observed other otherThere plain
    · intro other otherThere _ plain unhandled tight
      exact opened.flags.idle other otherThere plain unhandled tight
    · intro other _ loose tight
      exact absurd loose tight
  · exact opened

theorem respond
    (unobserved : record.kind.plain = true → response.observe = observeNotSet) :
    Valid ((state.invoke record.ref).push
      (.responding record.ref delivery response)) := by
  obtain ⟨now, there, same, kind, counted⟩ := opened.there
  rw [← same]
  refine callHandler_valid opened.books opened.flags opened.quiet there ?_
    rfl rfl ?_ (fun _ _ _ _ impossible => nomatch impossible)
  · intro id loose
    rw [List.mem_singleton.mp loose, same]
  · intro cb sent answer frame
    cases frame
    rw [kind]
    exact ⟨counted, unobserved⟩

theorem discover (discovers : record.discovery = true) {left : Nat} :
    Valid ((state.invoke record.ref).push
      (.discovering record.ref delivery response left)) := by
  obtain ⟨now, there, same, kind, -⟩ := opened.there
  rw [← same]
  refine callHandler_valid opened.books opened.flags opened.quiet there ?_
    rfl rfl (fun _ _ _ impossible => nomatch impossible) ?_
  · intro id loose
    rw [List.mem_singleton.mp loose, same]
  · intro cb sent answer left frame
    rw [ClientCb.discovery, kind]
    exact discovers

theorem finish {separate : Bool}
    (waits : record.kind.plain = true →
      response.observe = observeNotSet ∧ separate = true) :
    Valid (state.finishInvoke env record.ref response separate) := by
  obtain ⟨now, there, same, kind, -⟩ := opened.there
  have handled : Handled state record.ref [] :=
    ⟨opened.books, opened.flags, opened.quiet,
      List.mem_map.mpr ⟨now, there, same⟩, Or.inl rfl⟩
  apply handled.finishInvoke
  intro other otherThere otherSame plain
  have otherEq := List.inj_on_of_nodup_map opened.books.addresses otherThere
    there (by rw [otherSame, same])
  rw [otherEq, kind] at plain
  obtain ⟨unobserved, separately⟩ := waits plain
  rw [separately]
  exact ⟨unobserved, rfl⟩

theorem leave (other : ¬ record.kind.plain = true) : Valid state := by
  obtain ⟨now, there, same, kind, -⟩ := opened.there
  refine ⟨opened.books, opened.flags.responding, opened.flags.discovering,
    opened.flags.observed, ?_⟩
  intro further furtherThere plain unhandled _
  apply opened.flags.idle further furtherThere plain unhandled
  intro loose
  have ref := opened.books.eq_of_id furtherThere
    (List.mem_map.mpr ⟨now, there, rfl⟩)
    (by rw [List.mem_singleton.mp loose, same])
  have furtherEq := List.inj_on_of_nodup_map opened.books.addresses
    furtherThere there (congrArg Handle.address ref)
  rw [furtherEq, kind] at plain
  exact other plain

end

end Opened

theorem ocClientCbInvoke_valid (valid : Valid state) (quiet : state.busy = [])
    (there : record ∈ state.cbs)
    (answers : record.kind.plain = true → Answers env response) :
    Valid (state.ocClientCbInvoke env record delivery response) := by
  have flagged := Opened.setFlag valid quiet there
  have opened := flagged.readNotificationNum env response
  unfold ocClientCbInvoke
  dsimp only
  split_ifs with stale payload discovers undecodable ack discovers
  · apply flagged.leave
    intro plain
    rw [staleNotification, (answers plain).1] at stale
    simp [observeNotSet, observeSequenceStartValue] at stale
  · split
    · exact opened.finish fun plain =>
        absurd plain (ClientCb.not_plain_of_discovery discovers)
    · exact opened.discover discovers
  · apply opened.finish
    intro plain
    obtain ⟨-, decodes⟩ := answers plain
    rcases decodes with empty | text | decodes
    · exact absurd empty payload
    · rw [text] at undecodable
      exact Bool.noConfusion undecodable.1
    · rw [decodes] at undecodable
      exact Bool.noConfusion undecodable.2
  · exact opened.respond fun plain => (answers plain).1
  · exact opened.finish fun plain => ⟨(answers plain).1, rfl⟩
  · exact opened.finish fun plain =>
      absurd plain (ClientCb.not_plain_of_discovery discovers)
  · exact opened.respond fun plain => (answers plain).1

theorem popBusy_handled (valid : Valid state)
    (top : state.stack = frame :: rest) (busy : frame.busy = some cb)
    (out : frame.detached = none) :
    Handled { state with stack := rest } cb [cb.id] := by
  obtain ⟨books, quiet, member⟩ := valid.books.popBusy top busy out
  refine ⟨books, valid.flags.pop top ?_, quiet, member, Or.inr rfl⟩
  intro other same
  rw [busy] at same
  rw [← Option.some.inj same]
  exact List.mem_singleton.mpr rfl

theorem selected_idle (valid : Valid state) {filter : CbFilter}
    (there : record ∈ state.cbs) (selected : filter.selects record = true)
    (unpinged : record.ref ∉ state.pinged) : record.ref ∉ state.busy := by
  have facts : record.discovery = false ∧ record.refCount = 0 := by
    simp only [CbFilter.selects, Bool.and_eq_true, Bool.not_eq_true',
      beq_iff_eq] at selected
    exact ⟨selected.1.1.2, selected.1.2⟩
  intro handled
  obtain ⟨frame, member, busy⟩ := List.mem_filterMap.mp handled
  cases frame with
  | responding cb delivery response =>
      have counted := (valid.flags.responding cb delivery response member
        record there (Option.some.inj busy).symm).1
      rw [facts.2] at counted
      exact Nat.zero_ne_one counted
  | discovering cb delivery response left =>
      have discovers := valid.flags.discovering cb delivery response left
        member record there (Option.some.inj busy).symm
      rw [facts.1] at discovers
      exact Bool.noConfusion discovers
  | notifying cb => exact nomatch busy
  | pinging cb =>
      exact unpinged (List.mem_filterMap.mpr ⟨_, member, busy⟩)
  | freeing filter => exact nomatch busy

theorem clientCbNotifyWithCode_valid (valid : Valid state)
    (there : record ∈ state.cbs) (idle : record.ref ∉ state.busy) :
    Valid (state.clientCbNotifyWithCode record) :=
  ⟨valid.books.clientCbNotifyWithCode there idle,
    valid.flags.clientCbNotifyWithCode⟩

theorem resume_valid (valid : Valid state) {stop : Bool}
    (completes : Completes env state (.resume stop)) :
    Valid (state.resume env stop) := by
  unfold resume
  split
  · exact valid
  · next cb delivery response rest top =>
    have handled := popBusy_handled valid top rfl rfl
    apply handled.finishInvoke
    intro record there same plain
    refine ⟨?_, rfl⟩
    exact (valid.flags.responding cb delivery response
      (by rw [top]; exact List.mem_cons_self) record there same).2 plain
  · next cb delivery response left rest top =>
    have handled := popBusy_handled valid top rfl rfl
    have others : ∀ record ∈ state.cbs, record.ref = cb →
        ¬ record.kind.plain = true := by
      intro record there same
      apply ClientCb.not_plain_of_discovery
      exact valid.flags.discovering cb delivery response left
        (by rw [top]; exact List.mem_cons_self) record there same
    split_ifs
    · exact handled.stopDiscovery others
    · split
      · apply handled.finishInvoke
        intro record there same plain
        exact absurd plain (others record there same)
      · exact handled.discoverNext others
          (valid.flags.discovering cb delivery response _
            (by rw [top]; exact List.mem_cons_self))
  · next record rest top =>
    have flags : Flags { state with stack := rest } [] :=
      valid.flags.pop top nofun
    exact ⟨valid.books.popNotifying top, flags.responding, flags.discovering,
      flags.observed, flags.idle⟩
  · next cb rest top =>
    have handled := popBusy_handled valid top rfl rfl
    obtain ⟨record, there, same, -⟩ :=
      handled.books.at?_listed handled.member
    exact handled.free there same fun _ => rfl
  · next filter rest top =>
    split
    · refine ⟨valid.books.restack ?_ ?_, valid.flags.pop top nofun⟩
      · rw [ClientState.busy, top]
        rfl
      · rw [detached, top]
        rfl
    · next record found =>
      have there := List.mem_of_find?_eq_some found
      apply clientCbNotifyWithCode_valid valid there
      apply selected_idle valid there (List.find?_some found)
      apply completes
      rw [nextFreed, top]
      exact found

theorem quiet_of_empty (top : state.stack = []) : state.busy = [] := by
  rw [ClientState.busy, top]
  rfl

theorem idle_of_empty (top : state.stack = []) : cb ∉ state.busy := by
  rw [quiet_of_empty top]
  exact List.not_mem_nil

theorem ocClientCbFree_valid (valid : Valid state)
    (there : record ∈ state.cbs) (idle : record.ref ∉ state.busy)
    (other : record.kind.plain = false) :
    Valid (state.ocClientCbFree record.ref) := by
  refine ⟨?_, valid.flags.ocClientCbFree⟩
  apply (valid.books.owe ?_).ocClientCbFree there idle
  rw [← valid.books.plain_iff there, other]
  exact Bool.false_ne_true

theorem runTimer_valid (valid : Valid state) (top : state.stack = [])
    {timer : ClientTimer}
    (completes : Completes env state (.timer timer cb)) :
    Valid (state.runTimer timer cb) := by
  unfold runTimer
  by_cases running : (timer, cb) ∈ state.timers
  · rw [if_pos running]
    obtain ⟨record, there, rfl, found⟩ :=
      valid.books.at?_listed (valid.books.timersThere _ running)
    rw [found]
    cases timer with
    | lifetime =>
        exact ocClientCbFree_valid valid there (idle_of_empty top)
          (completes record found)
    | timeout =>
        exact clientCbNotifyWithCode_valid valid there (idle_of_empty top)
    | ping =>
        have fewer := valid.books.keepTimers fun timer
          (kept : timer ∈ state.timers.erase (.ping, record.ref)) =>
            List.mem_of_mem_erase kept
        have flags : Flags { state with
            timers := state.timers.erase (.ping, record.ref) } [] :=
          ⟨valid.flags.responding, valid.flags.discovering,
            valid.flags.observed, valid.flags.idle⟩
        exact callHandler_valid fewer flags (quiet_of_empty top) there nofun
          rfl rfl nofun nofun
  · rw [if_neg running]
    exact valid

theorem update_valid (valid : Valid state) {change : ClientCb → ClientCb}
    (keeps : ∀ record, (change record).ref = record.ref ∧
      (change record).kind = record.kind ∧
        (change record).refCount = record.refCount)
    (observed : ∀ record ∈ state.cbs, record.ref.address = cb.address →
      record.kind.plain = true →
        (change record).observeSeq = observeNotSet) :
    Valid (state.update cb change) := by
  refine ⟨valid.books.update fun record =>
      ⟨(keeps record).1, (keeps record).2.1⟩,
    valid.flags.update
      (fun record => ⟨(keeps record).1, (keeps record).2.1⟩)
      (fun record _ _ _ => (keeps record).2.2) observed ?_ ?_⟩
  · intro record there _ plain unhandled tight
    rw [(keeps record).2.2]
    exact valid.flags.idle record there plain unhandled tight
  · intro record _ impossible
    exact nomatch impossible

theorem ocStopObserve_valid (valid : Valid state) {uri : Bytes}
    {endpoint : OcEndpoint} {mid : UInt16} {result : SendResult}
    (completes : Completes env state (.stopObserve uri endpoint mid result)) :
    Valid (state.ocStopObserve uri endpoint mid result) := by
  unfold ocStopObserve
  split
  · exact valid
  · next record found =>
    obtain ⟨other, idle⟩ := completes record found
    have there := List.mem_of_find?_eq_some found
    have updated : Valid (state.update record.ref
        ({ · with mid := mid, observeSeq := observeUnregister })) := by
      refine update_valid valid (fun _ => ⟨rfl, rfl, rfl⟩) ?_
      intro further furtherThere same plain
      have furtherEq := List.inj_on_of_nodup_map valid.books.addresses
        furtherThere there same
      rw [furtherEq, other] at plain
      exact Bool.noConfusion plain
    dsimp only
    split_ifs with failed
    · have thereNow : ({ record with
          mid := mid, observeSeq := observeUnregister } : ClientCb) ∈
          (state.update record.ref
            ({ · with mid := mid, observeSeq := observeUnregister })).cbs :=
        mem_update there rfl
      have freed := ocClientCbFree_valid updated thereNow (idle failed) other
      exact freed
    · exact updated

/-- Every input of the client keeps the invariant. -/
theorem step_valid (valid : Valid state) (input : ClientInput)
    (completes : Completes env state input) : Valid (state.step env input) := by
  cases input with
  | request request address =>
      simp only [step]
      split_ifs
      · exact ⟨valid.books.ocRiAllocClientCb request address,
          valid.flags.ocRiAllocClientCb valid.books request address⟩
      · exact valid
  | response delivery response =>
      simp only [step]
      split_ifs with empty
      · split
        · exact valid
        · next record found =>
          exact ocClientCbInvoke_valid valid
            (quiet_of_empty (List.isEmpty_iff.mp empty))
            (List.mem_of_find?_eq_some found) (completes record found)
      · exact valid
  | nextBlock delivery mid =>
      simp only [step]
      split_ifs
      · split
        · exact valid
        · refine update_valid valid (fun _ => ⟨rfl, rfl, rfl⟩) ?_
          intro record there _ plain
          exact valid.flags.observed record there plain
      · exact valid
  | free filter =>
      simp only [step]
      split_ifs
      · exact pushFreeing_valid valid filter
      · exact valid
  | stopObserve uri endpoint mid result =>
      simp only [step]
      split_ifs
      · exact ocStopObserve_valid valid completes
      · exact valid
  | stopMulticast =>
      simp only [step, ocStopMulticast]
      split
      · refine update_valid valid (fun _ => ⟨rfl, rfl, rfl⟩) ?_
        intro record there _ plain
        exact valid.flags.observed record there plain
      · exact valid
  | timer timer cb =>
      simp only [step]
      split_ifs with empty
      · exact runTimer_valid valid (List.isEmpty_iff.mp empty) completes
      · exact valid
  | resume stop => exact resume_valid valid completes
  | shutdown =>
      simp only [step]
      split_ifs with empty
      · have top := List.isEmpty_iff.mp empty
        refine ⟨valid.books.ocClientCbsShutdown top completes, ?_⟩
        have none := valid.flags.shrink
          (fun record (member : record ∈ []) => nomatch member)
        exact ⟨none.responding, none.discovering, none.observed, none.idle⟩
      · exact valid

theorem Valid.completedOnce (valid : Valid state) : CompletedOnce state where
  freedOnce := valid.books.ledger.once
  completed := by
    intro id plain gone
    have inside : id ∉ state.detached.map (·.ref.id) := by
      intro out
      obtain ⟨record, there, rfl⟩ := List.mem_map.mp out
      exact valid.books.ledger.apart record.ref
        (List.mem_map_of_mem (List.mem_append_right _ there)) gone
    have unhandled : id ∉ state.busy.map (·.id) := by
      intro handled
      obtain ⟨cb, there, rfl⟩ := List.mem_map.mp handled
      exact valid.books.ledger.apart cb
        (Books.mem_refs (valid.books.busyThere cb there)) gone
    rw [valid.books.balance id plain,
      List.count_eq_zero_of_not_mem inside,
      List.count_eq_zero_of_not_mem unhandled,
      List.count_eq_one_of_mem valid.books.ledger.once gone]
    rfl
  pending := by
    intro top id plain left
    have outEq : state.detached = [] := by
      rw [detached, top]
      rfl
    refine ⟨?_, ?_⟩
    · rw [valid.books.balance id plain, outEq, quiet_of_empty top,
        List.count_eq_zero_of_not_mem left]
      rfl
    · rcases valid.books.ledger.accounted id
        (valid.books.plainBelow id plain) with gone | ⟨ref, member, rfl⟩
      · exact absurd gone left
      · obtain ⟨record, there, rfl⟩ := List.mem_map.mp member
        change record ∈ state.cbs ++ state.detached at there
        rw [outEq, List.append_nil] at there
        exact ⟨record, there, rfl, valid.flags.idle record there
          ((valid.books.plain_iff there).mpr plain) (idle_of_empty top)
          List.not_mem_nil⟩

end ClientState

/-- In every run whose steps complete plain requests or leave them alone, the
handler of each was called once when it is freed, each is freed once, and the
others can still be completed when no handler runs. -/
theorem completedOnce_of_completes (env : ClientEnv)
    (inputs : List ClientInput)
    (along : Along (ClientState.step env) (ClientState.Completes env)
      ClientState.initial inputs) :
    CompletedOnce (ClientState.run env inputs) := by
  apply ClientState.Valid.completedOnce
  apply along.invariant
    ⟨ClientState.Books.initial, ClientState.Flags.initial⟩
  intro before input valid completes
  exact ClientState.step_valid valid input completes

namespace Completion

/-- The payload `[0]` cannot be decoded. -/
def env : ClientEnv where
  oscore := true
  tcp := true
  decodes := fun payload => payload != [0]
  links := fun _ => 1

def server : OcEndpoint := ⟨0, true, 1, 0, Uuid.nil⟩

def request (kind : RequestKind) (token : UInt8) : ClientRequest :=
  ⟨kind, if kind = .ping then ascii "/ping" else ascii "/light", server, 1,
    [token], token.toUInt16⟩

def response (payload : Bytes) (observe : Int) (notificationNum : Nat) :
    ClientResponse :=
  ⟨server, false, 69, 10000, payload, observe, notificationNum⟩

def undecodable : List ClientInput :=
  [.request (request (.ordinary false) 1) 1,
    .response (.token [1]) (response [0] observeNotSet 0)]

/-- A timeout that is longer than the lifetime of the exchange. -/
def outlived : List ClientInput :=
  [.request (request (.ordinary true) 1) 1, .timer .lifetime ⟨0, 1⟩]

/-- The handler of a ping that timed out closes the session. -/
def closedByPing : List ClientInput :=
  [.request (request .ping 1) 1, .timer .ping ⟨0, 1⟩,
    .free (.endpoint server), .resume false, .resume false, .resume false,
    .resume false]

/-- A server that answers with notifications, the second one an old one. -/
def notified : List ClientInput :=
  [.request (request (.ordinary false) 1) 1,
    .response (.token [1]) (response [1] 2 5), .resume false,
    .response (.token [1]) (response [1] 3 4)]

/-- The first request is acknowledged and answered, and its handler issues the
second one and cancels it; the third one times out. -/
def answered : List ClientInput :=
  [.request (request (.ordinary false) 1) 1,
    .response (.token [1])
      ⟨server, true, 0, 0, [], observeNotSet, 0⟩,
    .response (.token [1]) (response [1] observeNotSet 0),
    .request (request (.ordinary false) 2) 2, .free (.mid 2),
    .resume false, .resume false, .resume false, .resume false,
    .response (.token [1]) (response [1] observeNotSet 0),
    .request (request (.ordinary true) 3) 1, .timer .timeout ⟨2, 1⟩,
    .resume false]

end Completion

open Completion in
/-- A request whose answer cannot be decoded, or whose lifetime ends before
its timeout, is freed without a call; a ping is called and freed twice; a
request that is answered by notifications stays, with its flag set. -/
theorem not_completedOnce :
    ¬ CompletedOnce (ClientState.run env undecodable) ∧
      ¬ CompletedOnce (ClientState.run env outlived) ∧
      ¬ CompletedOnce (ClientState.run env closedByPing) ∧
      ¬ CompletedOnce (ClientState.run env notified) := by
  refine ⟨?_, ?_, ?_, ?_⟩
  · rintro ⟨-, completed, -⟩
    exact absurd (completed 0 (by decide +kernel) (by decide +kernel))
      (by decide +kernel)
  · rintro ⟨-, completed, -⟩
    exact absurd (completed 0 (by decide +kernel) (by decide +kernel))
      (by decide +kernel)
  · rintro ⟨freedOnce, -, -⟩
    exact absurd freedOnce (by decide +kernel)
  · rintro ⟨-, -, pending⟩
    obtain ⟨-, cb, there, -, unset⟩ :=
      pending rfl 0 (by decide +kernel) (by decide +kernel)
    revert unset
    revert cb
    decide +kernel

open Completion in
theorem completedOnce_answered :
    CompletedOnce (ClientState.run env answered) := by
  apply completedOnce_of_completes
  decide +kernel

end IotivityLite
