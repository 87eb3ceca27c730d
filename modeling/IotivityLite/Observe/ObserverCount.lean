import IotivityLite.Foundation.Keyed
import IotivityLite.Observe.Observers

/-!
# The number of observers of a resource

The number that a resource keeps has eight bits.  Every operation changes it as
it changes the list, so that it is the number of observers modulo 256; it is
that number itself exactly as long as no resource gets a 256th observer.
-/

namespace IotivityLite

namespace ObserveState

/-- The observers in the list that have the resource. -/
def count (state : ObserveState) (ref : Nat) : Nat :=
  state.observers.countP fun obs => obs.resource == ref

/-- The resources that exist know their number of observers. -/
def CountsAgree (state : ObserveState) : Prop :=
  ∀ resource ∈ state.resources,
    (state.numObservers resource.ref).toNat = state.count resource.ref

/-- The resource gets at most its 255th observer. -/
def CountFits (state : ObserveState) : ObserveEvent → Prop
  | .add request memory =>
      state.serves request = true → memory = true →
        (state.observers.filter fun obs => !request.duplicates obs).countP
          (fun obs => obs.resource == request.resource) < 255
  | _ => True

/-- Records and resources have different numbers, and the counts are right
modulo 256. -/
structure Counted (state : ObserveState) : Prop where
  refs : (state.observers.map (·.ref)).Nodup
  fresh : ∀ obs ∈ state.observers, obs.ref < state.next
  distinct : (state.resources.map (·.ref)).Nodup
  modulo : ∀ resource ∈ state.resources,
    state.numObservers resource.ref =
      UInt8.ofNat (state.count resource.ref)

/-- Every observer has a resource that exists, with its path. -/
def Attached (state : ObserveState) : Prop :=
  ∀ obs ∈ state.observers, ∃ resource ∈ state.resources,
    resource.ref = obs.resource ∧
      withoutSlash resource.uri = withoutSlash obs.url

end ObserveState

open ObserveState

section Remove

variable {state : ObserveState} {obs : ObserverRecord}

/-- A removal takes observers out of the list and keeps counts that are right
modulo 256. -/
structure Removes (before after : ObserveState) : Prop where
  resources : after.resources = before.resources
  observeCounter : after.observeCounter = before.observeCounter
  notified : after.notified = before.notified
  next : after.next = before.next
  sublist : after.observers.Sublist before.observers
  modulo : ∀ ref, before.numObservers ref = UInt8.ofNat (before.count ref) →
    after.numObservers ref = UInt8.ofNat (after.count ref)

theorem Removes.refl (state : ObserveState) : Removes state state :=
  ⟨rfl, rfl, rfl, rfl, List.Sublist.refl _, fun _ same => same⟩

theorem Removes.trans {first second third : ObserveState}
    (one : Removes first second) (two : Removes second third) :
    Removes first third where
  resources := two.resources.trans one.resources
  observeCounter := two.observeCounter.trans one.observeCounter
  notified := two.notified.trans one.notified
  next := two.next.trans one.next
  sublist := two.sublist.trans one.sublist
  modulo := fun ref same => two.modulo ref (one.modulo ref same)

theorem Removes.counted {before after : ObserveState}
    (removes : Removes before after) (counted : before.Counted) :
    after.Counted where
  refs := counted.refs.sublist (removes.sublist.map _)
  fresh := by
    intro obs member
    rw [removes.next]
    exact counted.fresh obs (removes.sublist.subset member)
  distinct := by
    rw [removes.resources]
    exact counted.distinct
  modulo := by
    intro resource member
    rw [removes.resources] at member
    exact removes.modulo resource.ref (counted.modulo resource member)

theorem Removes.count_le {before after : ObserveState}
    (removes : Removes before after) (ref : Nat) :
    after.count ref ≤ before.count ref :=
  removes.sublist.countP_le

theorem coapRemoveObserver_removes
    (refs : (state.observers.map (·.ref)).Nodup)
    (member : obs ∈ state.observers) :
    Removes state (coapRemoveObserver state obs) := by
  refine ⟨rfl, rfl, rfl, rfl, List.eraseP_sublist, ?_⟩
  intro ref same
  have order := (perm_cons_eraseP_key refs member).countP_eq
    fun other => other.resource == ref
  rw [List.countP_cons] at order
  change state.count ref = (coapRemoveObserver state obs).count ref + _
    at order
  by_cases own : obs.resource = ref
  · subst own
    rw [if_pos (beq_self_eq_true _)] at order
    have before : state.numObservers obs.resource =
        UInt8.ofNat ((coapRemoveObserver state obs).count obs.resource) +
          1 := by
      rw [same, order, UInt8.ofNat_add]
      rfl
    simp only [coapRemoveObserver, Function.update_self]
    rw [before, UInt8.add_sub_cancel]
    rfl
  · rw [if_neg (by simpa using own)] at order
    simp only [coapRemoveObserver, Function.update_of_ne (Ne.symm own)]
    rw [same, order]
    rfl

theorem observers_coapRemoveObserver {kept rest : List ObserverRecord}
    (refs : (state.observers.map (·.ref)).Nodup)
    (split : state.observers = kept ++ obs :: rest) :
    (coapRemoveObserver state obs).observers = kept ++ rest := by
  rw [split, List.map_append, List.map_cons] at refs
  have absent : ∀ other ∈ kept, ¬ (other.ref == obs.ref) = true := by
    intro other member same
    have disjoint := (List.nodup_append.mp refs).2.2
    exact disjoint other.ref (List.mem_map_of_mem member) obs.ref
      List.mem_cons_self (by simpa using same)
  rw [coapRemoveObserver, split]
  dsimp only
  rw [List.eraseP_append_right _ absent, List.eraseP_cons, beq_self_eq_true,
    cond_true]

theorem removeMatching_all {filter : ObserverRecord → Bool}
    (kept rest : List ObserverRecord)
    (refs : (state.observers.map (·.ref)).Nodup)
    (split : state.observers = kept ++ rest) :
    Removes state (removeMatching filter true rest state) ∧
      (removeMatching filter true rest state).observers =
        kept ++ rest.filter fun other => !filter other := by
  induction rest generalizing kept state with
  | nil => exact ⟨Removes.refl state, split⟩
  | cons obs rest ih =>
      by_cases found : filter obs = true
      · have member : obs ∈ state.observers := by
          rw [split]
          exact List.mem_append_right _ List.mem_cons_self
        have removes := coapRemoveObserver_removes refs member
        have left := observers_coapRemoveObserver refs split
        obtain ⟨later, result⟩ := ih kept
          (refs.sublist (removes.sublist.map _)) left
        rw [removeMatching, if_pos found, if_pos rfl,
          List.filter_cons_of_neg (by simp [found])]
        exact ⟨removes.trans later, result⟩
      · have split' : state.observers = (kept ++ [obs]) ++ rest := by
          rw [split, List.append_assoc, List.singleton_append]
        obtain ⟨later, result⟩ := ih (kept ++ [obs]) refs split'
        rw [removeMatching, if_neg found,
          List.filter_cons_of_pos (by simpa using found)]
        refine ⟨later, ?_⟩
        rw [result, List.append_assoc, List.singleton_append]

theorem removeMatching_first {filter : ObserverRecord → Bool}
    (kept rest : List ObserverRecord)
    (refs : (state.observers.map (·.ref)).Nodup)
    (split : state.observers = kept ++ rest) :
    Removes state (removeMatching filter false rest state) ∧
      (removeMatching filter false rest state).observers =
        kept ++ rest.eraseP filter := by
  induction rest generalizing kept with
  | nil => exact ⟨Removes.refl state, split⟩
  | cons obs rest ih =>
      by_cases found : filter obs = true
      · have member : obs ∈ state.observers := by
          rw [split]
          exact List.mem_append_right _ List.mem_cons_self
        rw [removeMatching, if_pos found, if_neg (by decide),
          List.eraseP_cons_of_pos found]
        exact ⟨coapRemoveObserver_removes refs member,
          observers_coapRemoveObserver refs split⟩
      · have split' : state.observers = (kept ++ [obs]) ++ rest := by
          rw [split, List.append_assoc, List.singleton_append]
        obtain ⟨later, result⟩ := ih (kept ++ [obs]) split'
        rw [removeMatching, if_neg found, List.eraseP_cons_of_neg found]
        refine ⟨later, ?_⟩
        rw [result, List.append_assoc, List.singleton_append]

section

variable (refs : (state.observers.map (·.ref)).Nodup)

include refs

variable (filter : ObserverRecord → Bool)

theorem coapRemoveObserversByFilter_removes (matchAll : Bool) :
    Removes state (coapRemoveObserversByFilter filter matchAll state) := by
  cases matchAll with
  | true => exact (removeMatching_all [] _ refs rfl).1
  | false => exact (removeMatching_first [] _ refs rfl).1

theorem observers_removeAll :
    (coapRemoveObserversByFilter filter true state).observers =
      state.observers.filter fun other => !filter other :=
  (removeMatching_all [] _ refs rfl).2

theorem observers_removeFirst :
    (coapRemoveObserversByFilter filter false state).observers =
      state.observers.eraseP filter :=
  (removeMatching_first [] _ refs rfl).2

end

theorem coapAddObserver_distinct (request : ObserveRequest) (memory : Bool)
    (refs : (state.observers.map (·.ref)).Nodup)
    (fresh : ∀ obs ∈ state.observers, obs.ref < state.next) :
    ((coapAddObserver request memory state).1.observers.map (·.ref)).Nodup ∧
      ∀ obs ∈ (coapAddObserver request memory state).1.observers,
        obs.ref < (coapAddObserver request memory state).1.next := by
  have removes := coapRemoveObserversByFilter_removes refs request.duplicates
    true
  have keptRefs := refs.sublist (removes.sublist.map _)
  have keptFresh : ∀ obs ∈ (coapRemoveObserversByFilter request.duplicates
      true state).observers, obs.ref <
        (coapRemoveObserversByFilter request.duplicates true state).next := by
    intro obs member
    rw [removes.next]
    exact fresh obs (removes.sublist.subset member)
  rw [coapAddObserver]
  revert keptRefs keptFresh
  generalize coapRemoveObserversByFilter request.duplicates true state = middle
  intro keptRefs keptFresh
  cases memory with
  | false => exact ⟨keptRefs, keptFresh⟩
  | true =>
      constructor
      · change ((middle.observers ++ _).map _).Nodup
        rw [List.map_append, List.nodup_append]
        refine ⟨keptRefs, List.nodup_singleton _, ?_⟩
        intro ref member other last
        obtain ⟨obs, present, rfl⟩ := List.mem_map.mp member
        have own : other = middle.next := List.mem_singleton.mp last
        have older := keptFresh obs present
        omega
      · intro obs member
        rcases List.mem_append.mp member with old | new
        · exact Nat.lt_succ_of_lt (keptFresh obs old)
        · rw [List.mem_singleton.mp new]
          exact Nat.lt_succ_self _

end Remove

section Events

variable {state after : ObserveState}

/-- What holds in every state as long as no number wraps. -/
structure ObserveState.Settled (state : ObserveState) : Prop where
  counted : state.Counted
  attached : state.Attached
  small : ∀ resource ∈ state.resources, state.count resource.ref < 256

theorem ObserveState.Settled.initial : ObserveState.initial.Settled :=
  ⟨⟨List.nodup_nil, nofun, List.nodup_nil, nofun⟩, nofun, nofun⟩

variable {resource : ObservedResource}

theorem ObserveState.CountsAgree.small (agree : state.CountsAgree)
    (member : resource ∈ state.resources) : state.count resource.ref < 256 := by
  rw [← agree resource member]
  exact UInt8.toNat_lt _

theorem ObserveState.Settled.countsAgree (settled : state.Settled) :
    state.CountsAgree := by
  intro resource member
  rw [settled.counted.modulo resource member]
  exact UInt8.toNat_ofNat_of_lt' (settled.small resource member)

theorem ObserveState.Attached.count_eq_zero (attached : state.Attached)
    {ref : Nat} (absent : ref ∉ state.resources.map (·.ref)) :
    state.count ref = 0 := by
  rw [ObserveState.count, List.countP_eq_zero]
  intro obs member same
  obtain ⟨resource, present, own, -⟩ := attached obs member
  apply absent
  rw [← beq_iff_eq.mp same, ← own]
  exact List.mem_map_of_mem present

theorem Removes.settled (removes : Removes state after)
    (settled : state.Settled) : after.Settled where
  counted := removes.counted settled.counted
  attached := by
    intro obs member
    rw [removes.resources]
    exact settled.attached obs (removes.sublist.subset member)
  small := by
    intro resource member
    rw [removes.resources] at member
    exact lt_of_le_of_lt (removes.count_le resource.ref)
      (settled.small resource member)

theorem Removal.apply_removes (removal : Removal) (counted : state.Counted) :
    Removes state (removal.apply state) :=
  coapRemoveObserversByFilter_removes counted.refs _ _

theorem createResource_counted (counted : state.Counted)
    (attached : state.Attached)
    (absent : resource.ref ∉ state.resources.map (·.ref)) :
    ({ state with
      resources := resource :: state.resources
      numObservers := Function.update state.numObservers resource.ref 0 } :
        ObserveState).Counted := by
  refine ⟨counted.refs, counted.fresh,
    List.nodup_cons.mpr ⟨absent, counted.distinct⟩, ?_⟩
  rw [List.forall_mem_cons]
  constructor
  · change Function.update state.numObservers resource.ref 0 resource.ref =
      UInt8.ofNat (state.count resource.ref)
    rw [Function.update_self, attached.count_eq_zero absent]
    rfl
  · intro other member
    have different : other.ref ≠ resource.ref := fun same =>
      absent (same ▸ List.mem_map_of_mem member)
    dsimp only
    rw [Function.update_of_ne different]
    exact counted.modulo other member

theorem createResource_attached (attached : state.Attached)
    (resource : ObservedResource) (numObservers : Nat → UInt8) :
    ({ state with
      resources := resource :: state.resources
      numObservers := numObservers } : ObserveState).Attached := by
  intro obs member
  obtain ⟨other, present, own⟩ := attached obs member
  exact ⟨other, List.mem_cons_of_mem _ present, own⟩

theorem create_settled (settled : state.Settled) (resource : ObservedResource) :
    (observeStep state (.create resource)).Settled := by
  rw [observeStep]
  by_cases present : resource.ref ∈ state.resources.map (·.ref)
  · rw [if_pos present]
    exact settled
  · rw [if_neg present]
    have none := settled.attached.count_eq_zero present
    refine ⟨createResource_counted settled.counted settled.attached present,
      createResource_attached settled.attached resource _, ?_⟩
    rw [List.forall_mem_cons]
    refine ⟨?_, settled.small⟩
    change state.count resource.ref < 256
    omega

theorem observers_deleteResource (counted : state.Counted)
    (attached : state.Attached) (member : resource ∈ state.resources) :
    (deleteResource resource state).observers =
      if state.numObservers resource.ref ≠ 0 then
        state.observers.filter fun obs => obs.resource != resource.ref
      else state.observers := by
  rw [deleteResource]
  split
  · dsimp only
    rw [Removal.apply, Removal.matchAll, observers_removeAll counted.refs]
    · apply List.filter_congr
      intro obs present
      by_cases own : obs.resource = resource.ref
      · obtain ⟨other, otherMember, same, path⟩ := attached obs present
        have equal := List.inj_on_of_nodup_map counted.distinct otherMember
          member (same.trans own)
        simp [Removal.filter, own, ← equal, path]
      · have different : (obs.resource == resource.ref) = false :=
          beq_false_of_ne own
        simp only [Removal.filter, different, bne, Bool.false_and,
          Bool.not_false]
    all_goals nofun
  · rfl

theorem deleteResource_counted (counted : state.Counted)
    (resource : ObservedResource) :
    (deleteResource resource state).Counted := by
  have removes : Removes state (if state.numObservers resource.ref ≠ 0 then
      (Removal.resource resource).apply state else state) := by
    split
    · exact Removal.apply_removes _ counted
    · exact Removes.refl state
  have kept := removes.counted counted
  refine ⟨kept.refs, kept.fresh,
    kept.distinct.sublist (List.filter_sublist.map _), ?_⟩
  intro other present
  exact kept.modulo other (List.mem_of_mem_filter present)

theorem deleteResource_attached (counted : state.Counted)
    (attached : state.Attached) (resource : ObservedResource)
    (gone : ∀ obs ∈ (deleteResource resource state).observers,
      obs.resource ≠ resource.ref) :
    (deleteResource resource state).Attached := by
  have removes : Removes state (if state.numObservers resource.ref ≠ 0 then
      (Removal.resource resource).apply state else state) := by
    split
    · exact Removal.apply_removes _ counted
    · exact Removes.refl state
  intro obs present
  obtain ⟨other, otherMember, own, path⟩ :=
    attached obs (removes.sublist.subset present)
  refine ⟨other, ?_, own, path⟩
  apply List.mem_filter.mpr
  refine ⟨removes.resources ▸ otherMember, ?_⟩
  rw [bne_iff_ne, own]
  exact gone obs present

theorem count_deleteResource_le (counted : state.Counted)
    (resource : ObservedResource) (ref : Nat) :
    (deleteResource resource state).count ref ≤ state.count ref := by
  rw [deleteResource]
  split
  · exact ((Removal.resource resource).apply_removes counted).count_le ref
  · exact Nat.le_refl _

theorem deleteResource_settled (settled : state.Settled)
    (member : resource ∈ state.resources) :
    (deleteResource resource state).Settled := by
  have gone : ∀ obs ∈ (deleteResource resource state).observers,
      obs.resource ≠ resource.ref := by
    intro obs present own
    rw [observers_deleteResource settled.counted settled.attached member]
      at present
    split at present
    case isTrue => simp [own] at present
    case isFalse zero =>
      have agree := settled.countsAgree resource member
      rw [ne_eq, not_not] at zero
      rw [zero] at agree
      have none := List.countP_eq_zero.mp agree.symm obs present
      exact none (beq_iff_eq.mpr own)
  refine ⟨deleteResource_counted settled.counted resource,
    deleteResource_attached settled.counted settled.attached resource gone,
    ?_⟩
  intro other present
  have old : other ∈ state.resources := by
    have inside := List.mem_of_mem_filter present
    split at inside
    · rwa [((Removal.resource resource).apply_removes
        settled.counted).resources] at inside
    · exact inside
  exact lt_of_le_of_lt
    (count_deleteResource_le settled.counted resource other.ref)
    (settled.small other old)

theorem delete_settled (settled : state.Settled) (ref : Nat) :
    (observeStep state (.delete ref)).Settled := by
  rw [observeStep]
  cases found : state.resources.find? fun other => other.ref == ref with
  | none => exact settled
  | some resource =>
      exact deleteResource_settled settled (List.mem_of_find?_eq_some found)

theorem count_coapAddObserver (request : ObserveRequest)
    (counted : state.Counted) (ref : Nat) :
    (coapAddObserver request true state).1.count ref =
      (state.observers.filter fun obs => !request.duplicates obs).countP
        (fun obs => obs.resource == ref) +
          if request.resource = ref then 1 else 0 := by
  rw [coapAddObserver, if_pos rfl, ObserveState.count]
  dsimp only
  rw [observers_removeAll counted.refs, List.countP_append,
    List.countP_singleton]
  simp [ObserveRequest.observer]

variable {request : ObserveRequest}

theorem serves_iff :
    state.serves request = true ↔ ∃ resource ∈ state.resources,
      resource.ref = request.resource ∧
        withoutSlash resource.uri = withoutSlash request.uri := by
  simp [ObserveState.serves]

theorem resources_coapAddObserver (counted : state.Counted)
    (request : ObserveRequest) (memory : Bool) :
    (coapAddObserver request memory state).1.resources = state.resources := by
  have removes := coapRemoveObserversByFilter_removes counted.refs
    request.duplicates true
  rw [coapAddObserver]
  split
  · exact removes.resources
  · exact removes.resources

theorem coapAddObserver_counted (counted : state.Counted)
    (request : ObserveRequest) (memory : Bool) :
    (coapAddObserver request memory state).1.Counted := by
  have removes := coapRemoveObserversByFilter_removes counted.refs
    request.duplicates true
  cases memory with
  | false => exact removes.counted counted
  | true =>
      have counts := count_coapAddObserver request counted
      have distinct := coapAddObserver_distinct request true counted.refs
        counted.fresh
      have same := resources_coapAddObserver counted request true
      refine ⟨distinct.1, distinct.2, same ▸ counted.distinct, ?_⟩
      intro resource member
      have kept := (removes.counted counted).modulo resource
        (removes.resources ▸ same ▸ member)
      have before : (coapRemoveObserversByFilter request.duplicates true
          state).count resource.ref = (state.observers.filter fun obs =>
            !request.duplicates obs).countP
              fun obs => obs.resource == resource.ref := by
        rw [ObserveState.count,
          observers_removeAll counted.refs request.duplicates]
      rw [counts, ← before, UInt8.ofNat_add, ← kept, coapAddObserver,
        if_pos rfl]
      dsimp only
      by_cases own : request.resource = resource.ref
      · rw [own, Function.update_self, if_pos rfl]
        rfl
      · rw [Function.update_of_ne (Ne.symm own), if_neg own]
        exact (UInt8.add_zero _).symm

theorem coapAddObserver_attached (counted : state.Counted)
    (attached : state.Attached) (serves : state.serves request = true)
    (memory : Bool) : (coapAddObserver request memory state).1.Attached := by
  have removes := coapRemoveObserversByFilter_removes counted.refs
    request.duplicates true
  intro obs member
  rw [resources_coapAddObserver counted]
  cases memory with
  | false => exact attached obs (removes.sublist.subset member)
  | true =>
      rcases List.mem_append.mp member with old | new
      · exact attached obs (removes.sublist.subset old)
      · rw [List.mem_singleton.mp new]
        exact serves_iff.mp serves

theorem coapAddObserver_settled (settled : state.Settled)
    (serves : state.serves request = true)
    (fits : (state.observers.filter fun obs => !request.duplicates obs).countP
      (fun obs => obs.resource == request.resource) < 255) :
    (coapAddObserver request true state).1.Settled := by
  refine ⟨coapAddObserver_counted settled.counted request true,
    coapAddObserver_attached settled.counted settled.attached serves true, ?_⟩
  intro resource member
  rw [resources_coapAddObserver settled.counted] at member
  have small := settled.small resource member
  have fewer : (state.observers.filter fun obs =>
      !request.duplicates obs).countP (fun obs => obs.resource == resource.ref) ≤
        state.count resource.ref :=
    List.filter_sublist.countP_le
  rw [count_coapAddObserver request settled.counted]
  by_cases own : request.resource = resource.ref
  · rw [← own, if_pos rfl]
    omega
  · rw [if_neg own]
    omega

theorem add_settled (settled : state.Settled) {memory : Bool}
    (fits : state.CountFits (.add request memory)) :
    (observeStep state (.add request memory)).Settled := by
  rw [observeStep]
  by_cases serves : state.serves request = true
  · rw [if_pos serves]
    cases memory with
    | true => exact coapAddObserver_settled settled serves (fits serves rfl)
    | false =>
        rw [coapAddObserver, if_neg (by decide)]
        exact (coapRemoveObserversByFilter_removes settled.counted.refs _
          true).settled settled
  · rw [if_neg serves]
    exact settled

theorem mem_sendNotification {notification : Notification}
    {obs other : ObserverRecord}
    (member : other ∈ (sendNotification notification obs state).observers) :
    ∃ old ∈ state.observers, other.ref = old.ref ∧
      other.resource = old.resource ∧ other.url = old.url := by
  obtain ⟨old, present, rfl⟩ := List.mem_map.mp member
  refine ⟨old, present, ?_⟩
  split
  · exact ⟨rfl, rfl, rfl⟩
  · exact ⟨rfl, rfl, rfl⟩

theorem count_sendNotification (notification : Notification)
    (obs : ObserverRecord) (ref : Nat) :
    (sendNotification notification obs state).count ref = state.count ref := by
  simp only [ObserveState.count, sendNotification, List.countP_map]
  congr 1
  funext other
  dsimp only [Function.comp]
  split <;> rfl

theorem refs_sendNotification (notification : Notification)
    (obs : ObserverRecord) :
    (sendNotification notification obs state).observers.map (·.ref) =
      state.observers.map (·.ref) := by
  simp only [sendNotification, List.map_map]
  congr 1
  funext other
  dsimp only [Function.comp]
  split <;> rfl

theorem sendNotification_counted (counted : state.Counted)
    (notification : Notification) (obs : ObserverRecord) :
    (sendNotification notification obs state).Counted where
  refs := by
    rw [refs_sendNotification]
    exact counted.refs
  fresh := by
    intro other member
    obtain ⟨old, present, same, -, -⟩ := mem_sendNotification member
    rw [same]
    exact counted.fresh old present
  distinct := counted.distinct
  modulo := by
    intro resource member
    rw [count_sendNotification]
    exact counted.modulo resource member

theorem sendNotification_attached (attached : state.Attached)
    (notification : Notification) (obs : ObserverRecord) :
    (sendNotification notification obs state).Attached := by
  intro other member
  obtain ⟨old, present, -, own, path⟩ := mem_sendNotification member
  rw [own, path]
  exact attached old present

theorem sendNotification_settled (settled : state.Settled)
    (notification : Notification) (obs : ObserverRecord) :
    (sendNotification notification obs state).Settled where
  counted := sendNotification_counted settled.counted notification obs
  attached := sendNotification_attached settled.attached notification obs
  small := by
    intro resource member
    rw [count_sendNotification]
    exact settled.small resource member

theorem observeStep_settled (settled : state.Settled) {event : ObserveEvent}
    (fits : state.CountFits event) : (observeStep state event).Settled := by
  cases event with
  | create resource => exact create_settled settled resource
  | delete ref => exact delete_settled settled ref
  | add request memory => exact add_settled settled fits
  | remove removal =>
      exact (removal.apply_removes settled.counted).settled settled
  | notify ref notification =>
      rw [observeStep]
      cases state.observers.find? fun other => other.ref == ref with
      | none => exact settled
      | some obs => exact sendNotification_settled settled notification obs

theorem countFits_of_countsAgree (settled : state.Settled)
    {event : ObserveEvent} (agree : (observeStep state event).CountsAgree) :
    state.CountFits event := by
  cases event with
  | create resource => trivial
  | delete ref => trivial
  | remove removal => trivial
  | notify ref notification => trivial
  | add request memory =>
      intro serves enough
      subst enough
      rw [observeStep, if_pos serves] at agree
      obtain ⟨resource, present, own, -⟩ := serves_iff.mp serves
      have removes := coapRemoveObserversByFilter_removes
        settled.counted.refs request.duplicates true
      have member : resource ∈
          (coapAddObserver request true state).1.resources := by
        rw [coapAddObserver, if_pos rfl]
        exact removes.resources ▸ present
      have small := agree.small member
      rw [count_coapAddObserver request settled.counted, own,
        if_pos rfl] at small
      omega

/-- In the states of a run every resource knows its number of observers if and
only if no resource of the run gets a 256th observer. -/
theorem countsAgree_run_iff (events : List ObserveEvent) :
    Along observeStep (fun before event =>
        (observeStep before event).CountsAgree) .initial events ↔
      Along observeStep CountFits .initial events := by
  apply Along.congr_iff_of_invariant ObserveState.Settled.initial
  · intro before event settled
    constructor
    · exact countFits_of_countsAgree settled
    · intro fits
      exact (observeStep_settled settled fits).countsAgree
  · intro before event settled fits
    exact observeStep_settled settled fits

theorem removeMatching_none {filter : ObserverRecord → Bool} {matchAll : Bool}
    {rest : List ObserverRecord} (unmatched : ∀ obs ∈ rest, ¬ filter obs) :
    removeMatching filter matchAll rest state = state := by
  induction rest with
  | nil => rfl
  | cons obs rest ih =>
      rw [List.forall_mem_cons] at unmatched
      rw [removeMatching, if_neg unmatched.1]
      exact ih unmatched.2

end Events

namespace Crowd

def resource : ObservedResource := ⟨0, [47, 114]⟩

def request (client : Nat) : ObserveRequest where
  resource := 0
  block2Size := 0
  endpoint := ⟨0, true, client, 0, Uuid.nil⟩
  token := .ofByte 1
  uri := [114]
  ifaceMask := 2

/-- That many clients observe the resource. -/
def events (clients : Nat) : List ObserveEvent :=
  .create resource ::
    (List.range clients).map fun client => .add (request client) true

theorem observers_events (clients : Nat) :
    let state := runFrom observeStep .initial (events clients)
    state.resources = [resource] ∧ state.observeCounter = .start ∧
      state.next = clients ∧
      state.observers = (List.range clients).map fun client =>
        (request client).observer client .start := by
  induction clients with
  | zero => exact ⟨rfl, rfl, rfl, rfl⟩
  | succ clients ih =>
      rw [events, List.range_succ, List.map_append, ← List.cons_append,
        ← events, runFrom_append]
      revert ih
      generalize runFrom observeStep .initial (events clients) = state
      rintro ⟨resources, counter, next, observers⟩
      have serves : state.serves (request clients) = true := by
        rw [serves_iff, resources]
        exact ⟨resource, List.mem_singleton_self _, rfl, rfl⟩
      have kept : coapRemoveObserversByFilter (request clients).duplicates true
          state = state := by
        apply removeMatching_none
        rw [observers, List.forall_mem_map]
        intro client member
        have different := Nat.ne_of_lt (List.mem_range.mp member)
        simp [ObserveRequest.duplicates, ObserveRequest.observer, request,
          ocEndpointCompare, different]
      simp only [List.map_cons, List.map_nil, runFrom_cons, runFrom_nil,
        observeStep, if_pos serves, coapAddObserver, kept, if_pos]
      refine ⟨resources, counter, congrArg (· + 1) next, ?_⟩
      rw [observers, next, counter, List.map_append]
      rfl

end Crowd

open Crowd in
/-- With its 256th observer the resource seems to have none. -/
theorem not_countsAgree_crowd :
    ¬ Along observeStep (fun before event =>
        (observeStep before event).CountsAgree) .initial (events 256) := by
  intro along
  have agree : (runFrom observeStep .initial (events 256)).CountsAgree :=
    along.invariant nofun fun _ _ _ after => after
  obtain ⟨resources, -, -, observers⟩ := observers_events 256
  have small := agree.small (resources ▸ List.mem_singleton_self resource)
  have all : ∀ client ∈ List.range 256, ((fun obs : ObserverRecord =>
      obs.resource == resource.ref) ∘ fun client =>
        (request client).observer client .start) client = true :=
    fun _ _ => rfl
  rw [ObserveState.count, observers, List.countP_map,
    List.countP_eq_length.mpr all, List.length_range] at small
  exact absurd small (by decide)

end IotivityLite
