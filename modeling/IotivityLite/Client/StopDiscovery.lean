import IotivityLite.Client.ClientCb
import IotivityLite.Foundation.Keyed

/-!
# Stopping a discovery

A handler that returns `OC_STOP_DISCOVERY`, or that calls `oc_stop_multicast`,
wants no more responses.  The record is then to be freed by its message, but
`oc_ri_free_client_cbs_by_mid_v1` passes over discovery and multicast requests:
the record stays until its lifetime ends, and so does the handler.
-/

namespace IotivityLite

/-- The record is gone when the calls in progress have returned. -/
def RemovedByStop (env : ClientEnv) (state : ClientState) (id : Nat) : Prop :=
  ∀ returns,
    (runFrom (ClientState.step env) state
      (List.replicate returns (.resume false))).stack = [] →
    ∀ cb ∈ (runFrom (ClientState.step env) state
      (List.replicate returns (.resume false))).cbs, cb.ref.id ≠ id

/-- Whatever comes later, the handler is not called again. -/
def SilentAfterStop (env : ClientEnv) (state : ClientState) (id : Nat) :
    Prop :=
  ∀ later, (runFrom (ClientState.step env) state later).invoked.count id =
    state.invoked.count id

structure StoppedForGood (env : ClientEnv) (state : ClientState) (id : Nat) :
    Prop where
  removed : RemovedByStop env state id
  silent : SilentAfterStop env state id

namespace ClientState

/-- A record in the list is handled by the first call only. -/
def OnlyBottom : List ClientFrame → Prop
  | [] => True
  | frame :: rest => (frame.busy ≠ none → rest = []) ∧ OnlyBottom rest

/-- What holds in every run: the records have distinct addresses, and a
discovery payload whose links are being passed on has links. -/
structure Serving (env : ClientEnv) (state : ClientState) : Prop where
  addresses : (state.cbs.map (·.ref.address)).Nodup
  bottom : OnlyBottom state.stack
  discovers : ∀ cb delivery response left,
    .discovering cb delivery response left ∈ state.stack →
      response.payload ≠ [] ∧ 0 < env.links response.payload

variable {env : ClientEnv} {state : ClientState} {cb : Handle}
  {record : ClientCb}

theorem addresses_update {change : ClientCb → ClientCb}
    (keeps : ∀ record, (change record).ref = record.ref) :
    (state.update cb change).cbs.map (·.ref.address) =
      state.cbs.map (·.ref.address) := by
  unfold update
  rw [List.map_map]
  apply List.map_congr_left
  intro record _
  dsimp only [Function.comp_apply]
  split_ifs
  · rw [keeps]
  · rfl

theorem nodup_update {change : ClientCb → ClientCb}
    (keeps : ∀ record, (change record).ref = record.ref)
    (distinct : (state.cbs.map (·.ref.address)).Nodup) :
    ((state.update cb change).cbs.map (·.ref.address)).Nodup := by
  rw [addresses_update keeps]
  exact distinct

variable {rest : List ClientFrame}

namespace Serving

theorem initial : Serving env initial :=
  ⟨List.nodup_nil, trivial, fun _ _ _ _ member => nomatch member⟩

theorem withCbs (serving : Serving env state) {other : ClientState}
    (stack : other.stack = state.stack)
    (distinct : (other.cbs.map (·.ref.address)).Nodup) : Serving env other :=
  ⟨distinct, stack ▸ serving.bottom, stack ▸ serving.discovers⟩

theorem update (serving : Serving env state) {change : ClientCb → ClientCb}
    (keeps : ∀ record, (change record).ref = record.ref) :
    Serving env (state.update cb change) := by
  exact serving.withCbs rfl (nodup_update keeps serving.addresses)

theorem ocClientCbFree (serving : Serving env state) :
    Serving env (state.ocClientCbFree cb) :=
  serving.withCbs rfl (nodup_map_eraseP serving.addresses)

theorem push (serving : Serving env state) {frame : ClientFrame}
    (idle : frame.busy = none) : Serving env (state.push frame) := by
  refine ⟨serving.addresses, ⟨fun busy => absurd idle busy, serving.bottom⟩,
    ?_⟩
  intro cb delivery response left member
  rcases List.mem_cons.mp member with same | old
  · rw [← same] at idle
    exact nomatch idle
  · exact serving.discovers cb delivery response left old

variable {frame : ClientFrame}

section

variable (serving : Serving env state)

include serving

theorem pop (top : state.stack = frame :: rest) :
    Serving env { state with stack := rest } := by
  have bottom := serving.bottom
  rw [top] at bottom
  refine ⟨serving.addresses, bottom.2, ?_⟩
  intro cb delivery response left member
  exact serving.discovers cb delivery response left
    (by rw [top]; exact List.mem_cons_of_mem _ member)

theorem rest_eq (top : state.stack = frame :: rest) (busy : frame.busy ≠ none) :
    rest = [] := by
  have bottom := serving.bottom
  rw [top] at bottom
  exact bottom.1 busy

theorem clientCbNotifyWithCode :
    Serving env (state.clientCbNotifyWithCode record) := by
  have removed : Serving env
      ((state.clientCbRemoveFromLists record.ref).invoke record.ref) :=
    serving.withCbs rfl (nodup_map_eraseP serving.addresses)
  exact removed.push rfl

theorem riClientCbSetObserveSeq (observeSeq : Int) (endpoint : OcEndpoint) :
    Serving env
      (state.riClientCbSetObserveSeq record observeSeq endpoint) := by
  have updated : Serving env
      (state.update record.ref ({ · with observeSeq := observeSeq })) :=
    serving.update fun _ => rfl
  unfold ClientState.riClientCbSetObserveSeq
  dsimp only
  split_ifs
  · split
    · exact updated
    · exact updated.ocClientCbFree
  · exact updated

theorem finishRecord (response : ClientResponse) (separate : Bool) :
    Serving env (state.finishRecord cb response separate) := by
  unfold ClientState.finishRecord
  split
  · exact serving
  · next record found =>
    have updated : Serving env (state.update cb ({ · with refCount := 0 })) :=
      serving.update fun _ => rfl
    have noted : Serving env
        ((state.update cb ({ · with refCount := 0 })).noteStop record
          (record.multicast && record.stopMulticastReceive && !separate)) :=
      updated.withCbs rfl updated.addresses
    dsimp only
    split_ifs
    · exact noted.push rfl
    · exact noted
    · exact noted.ocClientCbFree
    · exact noted.riClientCbSetObserveSeq _ _

theorem finishInvoke (response : ClientResponse) (separate : Bool) :
    Serving env (state.finishInvoke env cb response separate) := by
  unfold ClientState.finishInvoke
  split_ifs
  · have fewer : Serving env (state.removePingTimer cb) :=
      serving.withCbs rfl serving.addresses
    exact fewer.finishRecord response separate
  · exact serving.finishRecord response separate

theorem stopDiscovery : Serving env (state.stopDiscovery cb) := by
  unfold ClientState.stopDiscovery
  split
  · exact serving
  · next record found =>
    have updated : Serving env (state.update cb ({ · with refCount := 0 })) :=
      serving.update fun _ => rfl
    have noted : Serving env ((state.update cb
        ({ · with refCount := 0 })).noteStop record record.discovery) :=
      updated.withCbs rfl updated.addresses
    exact noted.push rfl

theorem call (empty : state.stack = [])
    (discovers : ∀ cb delivery response left,
      frame = .discovering cb delivery response left →
        response.payload ≠ [] ∧ 0 < env.links response.payload) :
    Serving env ((state.invoke cb).push frame) := by
  refine ⟨serving.addresses, ⟨fun _ => empty, serving.bottom⟩, ?_⟩
  intro cb delivery response left member
  rcases List.mem_cons.mp member with same | old
  · exact discovers cb delivery response left same.symm
  · exact serving.discovers cb delivery response left old

theorem readNotificationNum (response : ClientResponse) :
    Serving env (state.readNotificationNum env cb response) := by
  unfold ClientState.readNotificationNum
  split_ifs
  · exact serving.update fun _ => rfl
  · exact serving

theorem ocClientCbInvoke (empty : state.stack = []) (delivery : Delivery)
    (response : ClientResponse) :
    Serving env (state.ocClientCbInvoke env record delivery response) := by
  have flagged : Serving env
      (state.update record.ref ({ · with refCount := 1 })) :=
    serving.update fun _ => rfl
  have opened : Serving env ((state.update record.ref
      ({ · with refCount := 1 })).readNotificationNum env record.ref
        response) := flagged.readNotificationNum response
  have still : ((state.update record.ref
      ({ · with refCount := 1 })).readNotificationNum env record.ref
        response).stack = [] := by
    unfold ClientState.readNotificationNum
    split_ifs <;> exact empty
  unfold ClientState.ocClientCbInvoke
  dsimp only
  split_ifs with _ payload
  · exact flagged
  · split
    · exact opened.finishInvoke response false
    · next left links =>
      refine opened.call still ?_
      intro cb sent answer more same
      cases same
      exact ⟨payload, by omega⟩
  · exact opened.finishInvoke response false
  · exact opened.call still nofun
  · exact opened.finishInvoke response true
  · exact opened.finishInvoke response false
  · exact opened.call still nofun

theorem ocRiAllocClientCb (request : ClientRequest) (address : Nat) :
    Serving env (state.ocRiAllocClientCb request address) := by
  unfold ClientState.ocRiAllocClientCb
  by_cases used : state.allocated.any (·.ref.address == address) = true
  · rw [if_pos used]
    exact serving
  · rw [if_neg used]
    refine serving.withCbs rfl ?_
    rw [List.map_append, List.map_singleton, List.nodup_append]
    refine ⟨serving.addresses, List.nodup_singleton _, ?_⟩
    intro old member new isNew same
    obtain ⟨record, there, rfl⟩ := List.mem_map.mp member
    rw [List.mem_singleton.mp isNew] at same
    exact used (List.any_eq_true.mpr
      ⟨record, List.mem_append_left _ there, beq_iff_eq.mpr same⟩)

theorem runTimer (empty : state.stack = []) (timer : ClientTimer) :
    Serving env (state.runTimer timer cb) := by
  unfold ClientState.runTimer
  split_ifs
  · split
    · exact serving
    · cases timer with
      | lifetime => exact serving.ocClientCbFree
      | timeout => exact serving.clientCbNotifyWithCode
      | ping =>
          have fewer : Serving env { state with
              timers := state.timers.erase (.ping, cb) } :=
            serving.withCbs rfl serving.addresses
          exact fewer.call empty nofun
  · exact serving

theorem ocStopObserve {uri : Bytes} {endpoint : OcEndpoint} {mid : UInt16}
    {result : SendResult} :
    Serving env (state.ocStopObserve uri endpoint mid result) := by
  unfold ClientState.ocStopObserve
  split
  · exact serving
  · next record found =>
    have updated : Serving env (state.update record.ref
        ({ · with mid := mid, observeSeq := observeUnregister })) :=
      serving.update fun _ => rfl
    dsimp only
    split_ifs
    · exact updated.ocClientCbFree
    · exact updated

theorem resume (stop : Bool) : Serving env (state.resume env stop) := by
  unfold ClientState.resume
  split
  · exact serving
  · next top => exact (serving.pop top).finishInvoke _ false
  · next cb delivery response left rest top =>
    have popped := serving.pop top
    split_ifs
    · exact popped.stopDiscovery
    · split
      · exact popped.finishInvoke _ false
      · refine popped.call (serving.rest_eq top nofun) ?_
        intro cb sent answer more same
        cases same
        exact serving.discovers cb delivery response _
          (by rw [top]; exact List.mem_cons_self)
  · next top =>
    have popped := serving.pop top
    exact popped.withCbs rfl popped.addresses
  · next top => exact (serving.pop top).ocClientCbFree
  · next top =>
    split
    · exact serving.pop top
    · exact serving.clientCbNotifyWithCode

theorem step (input : ClientInput) : Serving env (state.step env input) := by
  cases input with
  | request request address =>
      simp only [ClientState.step]
      split_ifs
      · exact serving.ocRiAllocClientCb request address
      · exact serving
  | response delivery response =>
      simp only [ClientState.step]
      split_ifs with empty
      · split
        · exact serving
        · exact serving.ocClientCbInvoke (List.isEmpty_iff.mp empty) _ _
      · exact serving
  | nextBlock delivery mid =>
      simp only [ClientState.step]
      split_ifs
      · split
        · exact serving
        · exact serving.update fun _ => rfl
      · exact serving
  | free filter =>
      simp only [ClientState.step]
      split_ifs
      · exact serving.push rfl
      · exact serving
  | stopObserve uri endpoint mid result =>
      simp only [ClientState.step]
      split_ifs
      · exact serving.ocStopObserve
      · exact serving
  | stopMulticast =>
      simp only [ClientState.step, ocStopMulticast]
      split
      · exact serving.update fun _ => rfl
      · exact serving
  | timer timer cb =>
      simp only [ClientState.step]
      split_ifs with empty
      · exact serving.runTimer (List.isEmpty_iff.mp empty) timer
      · exact serving
  | resume stop => exact serving.resume stop
  | shutdown =>
      simp only [ClientState.step]
      split_ifs
      · exact serving.withCbs rfl List.nodup_nil
      · exact serving

end

end Serving

theorem run_serving (env : ClientEnv) (inputs : List ClientInput) :
    Serving env (run env inputs) :=
  invariant_runFrom inputs Serving.initial
    fun _ input serving => serving.step input

/-- At most the loop over the records of the message is to run, and the record
that was stopped is in the list. -/
structure StopPending (env : ClientEnv) (state : ClientState) (id : Nat) :
    Prop where
  loop : state.stack = [] ∨ ∃ filter, state.stack = [.freeing filter]
  record : ∃ cb ∈ state.cbs, cb.ref.id = id ∧
    (cb.multicast = true ∨ cb.discovery = true ∧
      ∃ payload, payload ≠ [] ∧ 0 < env.links payload)

variable {id : Nat}

theorem not_stopped {other : ClientState} (same : other.stopped = state.stopped)
    (stops : other.stopped = id :: state.stopped) : False := by
  rw [same] at stops
  exact List.cons_ne_self _ _ stops.symm

theorem mem_of_at? (found : state.at? cb = some record)
    (change : ClientCb → ClientCb) :
    change record ∈ (state.update cb change).cbs := by
  refine List.mem_map.mpr ⟨record, List.mem_of_find?_eq_some found, ?_⟩
  have here := List.find?_some found
  rw [if_pos here]

theorem riClientCbSetObserveSeq_keeps {now : ClientCb}
    (distinct : (state.cbs.map (·.ref.address)).Nodup)
    (there : now ∈ state.cbs) (same : now.ref = record.ref)
    (observeSeq : Int) (endpoint : OcEndpoint) :
    (state.riClientCbSetObserveSeq record observeSeq endpoint).stopped =
        state.stopped ∧
      (state.riClientCbSetObserveSeq record observeSeq endpoint).stack =
        state.stack ∧
      { now with observeSeq := observeSeq } ∈
        (state.riClientCbSetObserveSeq record observeSeq endpoint).cbs := by
  have updated : ({ now with observeSeq := observeSeq } : ClientCb) ∈
      (state.update record.ref ({ · with observeSeq := observeSeq })).cbs := by
    refine List.mem_map.mpr ⟨now, there, if_pos ?_⟩
    rw [same]
    exact beq_self_eq_true _
  unfold riClientCbSetObserveSeq
  dsimp only
  split_ifs
  · split
    · exact ⟨rfl, rfl, updated⟩
    · next other found =>
      refine ⟨rfl, rfl, ?_⟩
      have matching := List.find?_some found
      simp only [Bool.and_eq_true, bne_iff_ne] at matching
      refine (mem_eraseP_key_iff ?_).mpr ⟨updated, ?_⟩
      · exact nodup_update (fun _ => rfl) distinct
      · change now.ref.address ≠ other.ref.address
        rw [same]
        exact matching.1.1.1.1.symm
  · exact ⟨rfl, rfl, updated⟩

variable {response : ClientResponse}

theorem finishRecord_stops {separate : Bool} (serving : Serving env state)
    (empty : state.stack = [])
    (stops : (state.finishRecord cb response separate).stopped =
      id :: state.stopped) :
    StopPending env (state.finishRecord cb response separate) id := by
  unfold finishRecord at stops ⊢
  split at stops
  · exact (List.cons_ne_self _ _ stops.symm).elim
  · next record found =>
    have there := mem_of_at? found ({ · with refCount := 0 })
    -- The stop was noted, so this is a multicast request.
    have noted (same : ((state.update cb
          ({ · with refCount := 0 })).noteStop record
            (record.multicast && record.stopMulticastReceive &&
              !separate)).stopped = id :: state.stopped) :
        record.multicast = true ∧ record.ref.id = id := by
      unfold noteStop at same
      dsimp only at same
      split_ifs at same with asked
      · rw [Bool.and_eq_true, Bool.and_eq_true] at asked
        exact ⟨asked.1.1, (List.cons.inj same).1⟩
      · exact (List.cons_ne_self _ _ same.symm).elim
    dsimp only at stops ⊢
    split_ifs at stops ⊢ with ends casts asked
    · obtain ⟨casts, idEq⟩ := noted stops
      exact ⟨Or.inr ⟨_, congrArg (_ :: ·) empty⟩, _, there, idEq,
        Or.inl casts⟩
    · obtain ⟨casts, idEq⟩ := noted stops
      exact ⟨Or.inl empty, _, there, idEq, Or.inl casts⟩
    · obtain ⟨multicast, -⟩ := noted stops
      exact absurd multicast casts
    · have distinct : ((state.update cb
          ({ · with refCount := 0 })).cbs.map (·.ref.address)).Nodup :=
        nodup_update (fun _ => rfl) serving.addresses
      obtain ⟨sameStops, sameStack, kept⟩ :=
        @riClientCbSetObserveSeq_keeps ((state.update cb
          ({ · with refCount := 0 })).noteStop record
            (record.multicast && record.stopMulticastReceive && !separate))
          record _ distinct there rfl response.observe response.endpoint
      rw [sameStops] at stops
      obtain ⟨casts, idEq⟩ := noted stops
      exact ⟨Or.inl (sameStack.trans empty), _, kept, idEq, Or.inl casts⟩

theorem finishInvoke_stops {separate : Bool} (serving : Serving env state)
    (empty : state.stack = [])
    (stops : (state.finishInvoke env cb response separate).stopped =
      id :: state.stopped) :
    StopPending env (state.finishInvoke env cb response separate) id := by
  unfold finishInvoke at stops ⊢
  split_ifs at stops ⊢
  · have fewer : Serving env (state.removePingTimer cb) :=
      serving.withCbs rfl serving.addresses
    exact finishRecord_stops fewer empty stops
  · exact finishRecord_stops serving empty stops

theorem stopDiscovery_stops (empty : state.stack = [])
    (payload : response.payload ≠ []) (links : 0 < env.links response.payload)
    (stops : (state.stopDiscovery cb).stopped = id :: state.stopped) :
    StopPending env (state.stopDiscovery cb) id := by
  unfold stopDiscovery at stops ⊢
  split at stops
  · exact (List.cons_ne_self _ _ stops.symm).elim
  · next record found =>
    unfold noteStop push at stops
    dsimp only at stops
    split_ifs at stops with discovers
    · exact ⟨Or.inr ⟨_, congrArg (_ :: ·) empty⟩,
        _, mem_of_at? found _, (List.cons.inj stops).1,
        Or.inr ⟨discovers, response.payload, payload, links⟩⟩
    · exact (List.cons_ne_self _ _ stops.symm).elim

theorem ocClientCbInvoke_stops {delivery : Delivery}
    (serving : Serving env state) (empty : state.stack = [])
    (stops : (state.ocClientCbInvoke env record delivery response).stopped =
      id :: state.stopped) :
    StopPending env
      (state.ocClientCbInvoke env record delivery response) id := by
  have read : ((state.update record.ref
      ({ · with refCount := 1 })).readNotificationNum env record.ref
        response).stack = [] ∧
      ((state.update record.ref
        ({ · with refCount := 1 })).readNotificationNum env record.ref
          response).stopped = state.stopped := by
    unfold readNotificationNum
    split_ifs <;> exact ⟨empty, rfl⟩
  have flagged : Serving env
      (state.update record.ref ({ · with refCount := 1 })) :=
    serving.update fun _ => rfl
  have finishes (separate : Bool)
      (stops : (((state.update record.ref
        ({ · with refCount := 1 })).readNotificationNum env record.ref
          response).finishInvoke env record.ref response separate).stopped =
        id :: state.stopped) :=
    finishInvoke_stops (flagged.readNotificationNum response) read.1
      (stops.trans (congrArg (id :: ·) read.2.symm))
  unfold ocClientCbInvoke at stops ⊢
  dsimp only at stops ⊢
  split_ifs at stops ⊢
  · exact (not_stopped rfl stops).elim
  · split at stops
    · exact finishes false stops
    · exact (not_stopped read.2 stops).elim
  · exact finishes false stops
  · exact (not_stopped read.2 stops).elim
  · exact finishes true stops
  · exact finishes false stops
  · exact (not_stopped read.2 stops).elim

theorem resume_stops (serving : Serving env state) {stop : Bool}
    (stops : (state.resume env stop).stopped = id :: state.stopped) :
    StopPending env (state.resume env stop) id := by
  unfold resume at stops ⊢
  split at stops
  · exact (List.cons_ne_self _ _ stops.symm).elim
  · next cb delivery response rest top =>
    exact finishInvoke_stops (serving.pop top) (serving.rest_eq top nofun)
      stops
  · next cb delivery response left rest top =>
    have empty := serving.rest_eq top nofun
    obtain ⟨payload, links⟩ := serving.discovers cb delivery response left
      (by rw [top]; exact List.mem_cons_self)
    split_ifs at stops ⊢
    · exact stopDiscovery_stops empty payload links stops
    · split at stops
      · exact finishInvoke_stops (serving.pop top) empty stops
      · exact (not_stopped rfl stops).elim
  · exact (List.cons_ne_self _ _ stops.symm).elim
  · exact (List.cons_ne_self _ _ stops.symm).elim
  · split at stops
    · exact (List.cons_ne_self _ _ stops.symm).elim
    · exact (List.cons_ne_self _ _ stops.symm).elim

theorem stopped_runTimer (timer : ClientTimer) :
    (state.runTimer timer cb).stopped = state.stopped := by
  unfold runTimer
  split_ifs
  · split
    · rfl
    · cases timer <;> rfl
  · rfl

theorem stopped_ocStopObserve (uri : Bytes) (endpoint : OcEndpoint)
    (mid : UInt16) (result : SendResult) :
    (state.ocStopObserve uri endpoint mid result).stopped =
      state.stopped := by
  unfold ocStopObserve
  split
  · rfl
  · dsimp only
    split_ifs <;> rfl

theorem step_stops (serving : Serving env state) (input : ClientInput)
    (stops : (state.step env input).stopped = id :: state.stopped) :
    StopPending env (state.step env input) id := by
  cases input with
  | request request address =>
      simp only [step, ocRiAllocClientCb] at stops
      split_ifs at stops <;> exact (not_stopped rfl stops).elim
  | response delivery response =>
      simp only [step] at stops ⊢
      split_ifs at stops ⊢ with empty
      · split at stops
        · exact (not_stopped rfl stops).elim
        · exact ocClientCbInvoke_stops serving (List.isEmpty_iff.mp empty)
            stops
      · exact (not_stopped rfl stops).elim
  | nextBlock delivery mid =>
      simp only [step] at stops
      split_ifs at stops
      · split at stops <;> exact (not_stopped rfl stops).elim
      · exact (not_stopped rfl stops).elim
  | free filter =>
      simp only [step] at stops
      split_ifs at stops <;> exact (not_stopped rfl stops).elim
  | stopObserve uri endpoint mid result =>
      simp only [step] at stops
      split_ifs at stops
      · exact (not_stopped (stopped_ocStopObserve _ _ _ _) stops).elim
      · exact (not_stopped rfl stops).elim
  | stopMulticast =>
      simp only [step, ocStopMulticast] at stops
      split at stops <;> exact (not_stopped rfl stops).elim
  | timer timer cb =>
      simp only [step] at stops
      split_ifs at stops
      · exact (not_stopped (stopped_runTimer timer) stops).elim
      · exact (not_stopped rfl stops).elim
  | resume stop => exact resume_stops serving stops
  | shutdown =>
      simp only [step] at stops
      split_ifs at stops <;> exact (not_stopped rfl stops).elim

variable {filter : CbFilter}

theorem resume_freeing_none (stack : state.stack = .freeing filter :: rest)
    (none : state.cbs.find? filter.selects = none) :
    state.step env (.resume false) = { state with stack := rest } := by
  simp only [step, resume]
  rw [stack]
  dsimp only
  rw [none]

theorem resume_freeing_some (stack : state.stack = .freeing filter :: rest)
    (found : state.cbs.find? filter.selects = some record) :
    (state.step env (.resume false)).step env (.resume false) =
      { state with
        cbs := state.cbs.eraseP (·.ref.address == record.ref.address)
        timers := state.timers.filter (·.2.address != record.ref.address)
        invoked := record.ref.id :: state.invoked
        freed := record.ref.id :: state.freed } := by
  have first : state.step env (.resume false) =
      state.clientCbNotifyWithCode record := by
    simp only [step, resume]
    rw [stack]
    dsimp only
    rw [found]
  rw [first]
  simp only [step, resume, clientCbNotifyWithCode, push, invoke,
    clientCbRemoveFromLists]

theorem drain (stack : state.stack = [.freeing filter])
    (distinct : (state.cbs.map (·.ref.address)).Nodup) :
    ∃ returns left, runFrom (step env) state
        (List.replicate returns (.resume false)) = left ∧
      left.stack = [] ∧ state.invoked <:+ left.invoked ∧
      ∀ cb ∈ state.cbs, filter.selects cb = false → cb ∈ left.cbs := by
  -- By induction on the number of records.
  generalize size : state.cbs.length = records
  induction records using Nat.strong_induction_on generalizing state with
  | h records ih =>
      cases found : state.cbs.find? filter.selects with
      | none =>
          refine ⟨1, _, rfl, ?_⟩
          rw [List.replicate_one, runFrom_cons, runFrom_nil,
            resume_freeing_none stack found]
          exact ⟨rfl, List.suffix_refl _, fun _ there _ => there⟩
      | some record =>
          have member := List.mem_of_find?_eq_some found
          have shorter : (state.cbs.eraseP
              (·.ref.address == record.ref.address)).length < records := by
            rw [List.length_eraseP_of_mem member (by simp), size]
            have := List.length_pos_of_mem member
            omega
          have stackNext : ((state.step env (.resume false)).step env
              (.resume false)).stack = [.freeing filter] := by
            rw [resume_freeing_some stack found]
            exact stack
          have distinctNext : (((state.step env (.resume false)).step env
              (.resume false)).cbs.map (·.ref.address)).Nodup := by
            rw [resume_freeing_some stack found]
            exact nodup_map_eraseP distinct
          obtain ⟨returns, left, reached, ended, kept, others⟩ :=
            ih _ shorter stackNext distinctNext
              (by rw [resume_freeing_some stack found])
          refine ⟨returns + 2, left, ?_, ended, ?_, ?_⟩
          · rw [List.replicate_succ, List.replicate_succ, runFrom_cons,
              runFrom_cons, reached]
          · rw [resume_freeing_some stack found] at kept
            exact (List.suffix_cons _ _).trans kept
          · intro cb there unselected
            refine others cb ?_ unselected
            rw [resume_freeing_some stack found]
            refine (mem_eraseP_key_iff distinct).mpr ⟨there, ?_⟩
            intro same
            have selected := List.find?_some found
            rw [← List.inj_on_of_nodup_map distinct there member same,
              unselected] at selected
            exact Bool.noConfusion selected

theorem response_calls {delivery : Delivery} (empty : state.stack = [])
    (found : state.cbs.find? delivery.finds = some record)
    (serves : record.multicast = true ∨ record.discovery = true ∧
      ∃ payload, payload ≠ [] ∧ 0 < env.links payload)
    (device : OcEndpoint) :
    ∃ response, response.endpoint = device ∧
      (state.step env (.response delivery response)).invoked =
        record.ref.id :: state.invoked := by
  rcases serves with casts | ⟨discovers, payload, nonempty, links⟩
  · refine ⟨⟨device, false, 69, 0, [], observeNotSet, 0⟩, rfl, ?_⟩
    have other : record.discovery = false := by
      rw [ClientCb.multicast, decide_eq_true_iff] at casts
      rw [ClientCb.discovery, casts]
      rfl
    simp [step, empty, found, ocClientCbInvoke, staleNotification,
      readNotificationNum, observeNotSet, observeSequenceStartValue, other,
      ClientResponse.emptyAck, invoke, push, update]
  · refine ⟨⟨device, false, 69, 0, payload, observeNotSet, 0⟩, rfl, ?_⟩
    obtain ⟨left, more⟩ := Nat.exists_eq_succ_of_ne_zero (by omega :
      env.links payload ≠ 0)
    simp [step, empty, found, ocClientCbInvoke, staleNotification,
      readNotificationNum, observeNotSet, observeSequenceStartValue,
      discovers, nonempty, more, invoke, push, update]

theorem StopPending.again (pending : StopPending env state id)
    (serving : Serving env state) :
    ∃ returns left, runFrom (step env) state
        (List.replicate returns (.resume false)) = left ∧
      left.stack = [] ∧ state.invoked <:+ left.invoked ∧
      ∃ cb ∈ left.cbs, cb.ref.id = id ∧
        ∀ delivery, left.cbs.find? delivery.finds = some cb →
          ∀ device, ∃ response, response.endpoint = device ∧
            (left.step env (.response delivery response)).invoked =
              id :: left.invoked := by
  obtain ⟨cb, there, rfl, serves⟩ := pending.record
  rcases pending.loop with empty | ⟨filter, stack⟩
  · refine ⟨0, state, rfl, empty, List.suffix_refl _, cb, there, rfl, ?_⟩
    intro delivery found device
    exact response_calls empty found serves device
  obtain ⟨returns, left, reached, ended, kept, others⟩ :=
    drain stack serving.addresses
  have unselected : filter.selects cb = false := by
    rcases serves with casts | ⟨discovers, -⟩
    · simp [CbFilter.selects, casts]
    · simp [CbFilter.selects, discovers]
  refine ⟨returns, left, reached, ended, kept, cb,
    others cb there unselected, rfl, ?_⟩
  intro delivery found device
  exact response_calls ended found serves device

end ClientState

/-- No stop is final: the record is not removed, and its handler is called
again. -/
theorem stop_not_final (env : ClientEnv) (inputs : List ClientInput)
    (input : ClientInput) (id : Nat)
    (stops : (ClientState.run env (inputs ++ [input])).stopped =
      id :: (ClientState.run env inputs).stopped) :
    ¬ RemovedByStop env (ClientState.run env (inputs ++ [input])) id ∧
      ¬ SilentAfterStop env (ClientState.run env (inputs ++ [input])) id := by
  have last : ClientState.run env (inputs ++ [input]) =
      (ClientState.run env inputs).step env input := by
    unfold ClientState.run
    rw [runFrom_append]
    rfl
  have pending : ClientState.StopPending env
      (ClientState.run env (inputs ++ [input])) id := by
    rw [last] at stops ⊢
    exact ClientState.step_stops (ClientState.run_serving env inputs) input
      stops
  have serving := ClientState.run_serving env (inputs ++ [input])
  obtain ⟨returns, left, reached, ended, kept, cb, there, same, again⟩ :=
    pending.again serving
  constructor
  · intro removed
    have gone := removed returns
    rw [reached] at gone
    exact gone ended cb there same
  · intro silent
    have distinct : (left.cbs.map (·.ref.address)).Nodup := by
      rw [← reached]
      exact (invariant_runFrom _ serving
        fun _ input before => before.step input).addresses
    obtain ⟨response, -, called⟩ := again (.buffer cb.ref.address)
      ((find?_key_some_iff distinct).mpr ⟨there, rfl⟩) cb.endpoint
    have later := silent (List.replicate returns (.resume false) ++
      [.response (.buffer cb.ref.address) response])
    rw [runFrom_append, reached, runFrom_cons, runFrom_nil, called,
      List.count_cons_self] at later
    have before := kept.sublist.count_le id
    omega

namespace StopDiscovery

def env : ClientEnv where
  oscore := false
  tcp := false
  decodes := fun _ => true
  links := fun _ => 1

def device (route : Nat) : OcEndpoint := ⟨0, false, route, 0, Uuid.nil⟩

def request (kind : RequestKind) : ClientRequest :=
  ⟨kind, ascii "/oic/res", device 0, 1, [1], 1⟩

def response (route : Nat) : ClientResponse :=
  ⟨device route, false, 69, 10000, [1], observeNotSet, 0⟩

/-- The handler of a discovery stops it at the first response. -/
def discovery : List ClientInput :=
  [.request (request .discovery) 1, .response (.token [1]) (response 1),
    .resume true]

/-- The handler of a multicast request stops it at the first response. -/
def multicast : List ClientInput :=
  [.request (request .multicast) 1, .response (.token [1]) (response 1),
    .stopMulticast, .resume false]

/-- The loop of the stop returns, and another device responds. -/
def later : List ClientInput :=
  [.resume false, .response (.token [1]) (response 2)]

end StopDiscovery

open StopDiscovery in
/-- The handlers are called again for the response of a second device. -/
theorem not_stoppedForGood :
    (ClientState.run env discovery).stopped = [0] ∧
      ¬ StoppedForGood env (ClientState.run env discovery) 0 ∧
      (ClientState.run env multicast).stopped = [0] ∧
      ¬ StoppedForGood env (ClientState.run env multicast) 0 := by
  refine ⟨by decide +kernel, ?_, by decide +kernel, ?_⟩
  · intro final
    exact absurd (final.silent later) (by decide +kernel)
  · intro final
    exact absurd (final.silent later) (by decide +kernel)

open StopDiscovery in
theorem stop_not_final_discovery :
    ¬ RemovedByStop env (ClientState.run env discovery) 0 ∧
      ¬ SilentAfterStop env (ClientState.run env discovery) 0 :=
  stop_not_final env
    [.request (request .discovery) 1, .response (.token [1]) (response 1)]
    (.resume true) 0 (by decide +kernel)

end IotivityLite
