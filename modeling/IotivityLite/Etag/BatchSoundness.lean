import IotivityLite.Etag.BatchDiscovery
import IotivityLite.Etag.Restart
import Mathlib.Data.List.Nodup

/-!
# Answers to clients that hold a batch

A client that fetched the batch of `/oic/res` with its ETag asks again with
this ETag.  Links whose resource got an ETag since then are sent again.  What
this misses are links that have gone, and resources that were created before
the batch was fetched but added after it.
-/

namespace IotivityLite

/-- One slash and a name that fits into a href. -/
def WellFormedUri (uri : Bytes) : Prop :=
  uri.head? = some 47 ∧ uri[1]? ≠ some 47 ∧ uri.length ≤ 256

/-- The next ETag does not wrap around. -/
def EtagFits (world : EtagWorld) (state : DiscoveryState) : Prop :=
  laterEtag world state.source +
    (etagRandom world state.source.calls).toNat < 2 ^ 64

/-- Core resources have URIs of their own, and there is one `/oic/res`; the
URIs are well formed and ETags do not wrap around. -/
def DiscoveryEvent.Fits (world : EtagWorld) (state : DiscoveryState) :
    DiscoveryEvent → Prop
  | .populate info _ =>
      EtagFits world state ∧ WellFormedUri (ocStoreUri info.uri) ∧
        ∀ resource ∈ state.resources,
          (resource.place ≠ .created →
            resource.info.uri ≠ ocStoreUri info.uri) ∧
          (info.kind = .discovery → resource.info.kind ≠ .discovery)
  | .new info _ => EtagFits world state ∧ WellFormedUri (ocStoreUri info.uri)
  | .add _ => True
  | .change ref _ =>
      (∃ resource ∈ state.resources, resource.ref = ref) →
        EtagFits world state
  | .delayedDelete _ => True
  | .delete _ => True
  | .dispatch => state.dispatching = true → EtagFits world state
  | .elsewhere => EtagFits world state

instance (uri : Bytes) : Decidable (WellFormedUri uri) :=
  inferInstanceAs (Decidable (_ ∧ _ ∧ _))

instance (world : EtagWorld) (state : DiscoveryState) :
    Decidable (EtagFits world state) :=
  inferInstanceAs (Decidable (_ < _))

instance (world : EtagWorld) (state : DiscoveryState)
    (event : DiscoveryEvent) : Decidable (event.Fits world state) :=
  match event with
  | .populate _ _ => inferInstanceAs (Decidable (_ ∧ _ ∧ _))
  | .new _ _ => inferInstanceAs (Decidable (_ ∧ _))
  | .add _ => inferInstanceAs (Decidable True)
  | .change _ _ => inferInstanceAs (Decidable (_ → _))
  | .delayedDelete _ => inferInstanceAs (Decidable True)
  | .delete _ => inferInstanceAs (Decidable True)
  | .dispatch => inferInstanceAs (Decidable (_ → _))
  | .elsewhere => inferInstanceAs (Decidable (EtagFits world state))

def BatchedResource.Iterated (resource : BatchedResource) : Prop :=
  resource.place = .core ∨ resource.place = .listed

/-- What holds of the resources at any time. -/
structure DiscoveryState.Consistent (state : DiscoveryState) : Prop where
  refs : (state.resources.map (·.ref)).Nodup
  ref_lt : ∀ resource ∈ state.resources, resource.ref < state.nextRef
  etag_le : ∀ resource ∈ state.resources,
    resource.etag ≤ state.source.globalEtag
  etags : ∀ first ∈ state.resources, ∀ second ∈ state.resources,
    first.etag = second.etag → first.ref = second.ref
  uris : ∀ first ∈ state.resources, ∀ second ∈ state.resources,
    first.Iterated → second.Iterated →
      first.info.uri = second.info.uri → first.ref = second.ref
  wellFormed : ∀ resource ∈ state.resources, WellFormedUri resource.info.uri
  discovery : ∀ first ∈ state.resources, ∀ second ∈ state.resources,
    first.info.kind = .discovery → second.info.kind = .discovery →
      first.ref = second.ref

/-- The resource was there with the same ETag and representation. -/
def DiscoveryState.Kept (state : DiscoveryState) (after : BatchedResource) :
    Prop :=
  ∃ resource ∈ state.resources,
    resource.ref = after.ref ∧ resource.info = after.info ∧
      resource.etag = after.etag ∧ resource.rep = after.rep

/-- A resource is as it was, or has an ETag that was not given before. -/
structure DiscoveryState.Advances (before after : DiscoveryState) : Prop where
  etag : before.source.globalEtag ≤ after.source.globalEtag
  origin : ∀ resource ∈ after.resources, before.Kept resource ∨
    before.source.globalEtag < resource.etag

namespace DiscoveryState

theorem Advances.refl (state : DiscoveryState) : state.Advances state where
  etag := UInt64.le_refl _
  origin resource member := .inl ⟨resource, member, rfl, rfl, rfl, rfl⟩

theorem Advances.trans {first second third : DiscoveryState}
    (advances : first.Advances second) (further : second.Advances third) :
    first.Advances third where
  etag := UInt64.le_trans advances.etag further.etag
  origin := by
    intro resource member
    rcases further.origin resource member with
      ⟨middle, inSecond, ref, info, etag, rep⟩ | later
    · rcases advances.origin middle inSecond with
        ⟨old, inFirst, oldRef, oldInfo, oldEtag, oldRep⟩ | renewed
      · exact .inl ⟨old, inFirst, oldRef.trans ref, oldInfo.trans info,
          oldEtag.trans etag, oldRep.trans rep⟩
      · rw [etag] at renewed
        exact .inr renewed
    · exact .inr (UInt64.lt_of_le_of_lt advances.etag later)

end DiscoveryState

section Steps

variable {world : EtagWorld} {state : DiscoveryState}

theorem lt_ocEtagGet (fits : EtagFits world state) :
    state.source.globalEtag < (ocEtagGet world state.source).globalEtag := by
  have random := etagRandom_bounds world state.source.calls
  rw [UInt64.lt_iff_toNat_lt, toNat_ocEtagGet_of_lt fits]
  unfold laterEtag
  omega

theorem advances_grow (fits : EtagFits world state) (place : BatchedPlace)
    (info : BatchedInfo) (rep : Option Bytes) :
    state.Advances (state.grow world place info rep) where
  etag := UInt64.le_of_lt (lt_ocEtagGet fits)
  origin := by
    intro resource member
    rcases List.mem_append.mp member with old | new
    · exact .inl ⟨resource, old, rfl, rfl, rfl, rfl⟩
    · rw [List.mem_singleton.mp new]
      exact .inr (lt_ocEtagGet fits)

theorem mem_of_find {ref : Nat} {resource : BatchedResource}
    (found : state.resources.find? (·.ref == ref) = some resource) :
    resource ∈ state.resources ∧ resource.ref = ref :=
  ⟨List.mem_of_find?_eq_some found, by
    simpa using List.find?_some found⟩

theorem advances_step {event : DiscoveryEvent}
    (fits : event.Fits world state) :
    state.Advances (state.step world event) := by
  cases event with
  | populate info rep => exact advances_grow fits.1 _ _ rep
  | new info rep => exact advances_grow fits.1 _ _ rep
  | add ref =>
      simp only [DiscoveryState.step, ocRiAddResource]
      cases found : state.resources.find? (·.ref == ref) with
      | none => exact .refl state
      | some resource =>
          simp only
          split_ifs with refused
          · exact .refl state
          · refine ⟨UInt64.le_refl _, fun after member => .inl ?_⟩
            rcases List.mem_append.mp member with old | added
            · exact ⟨after, (List.mem_filter.mp old).1, rfl, rfl, rfl, rfl⟩
            · rw [List.mem_singleton.mp added]
              exact ⟨resource, (mem_of_find found).1, rfl, rfl, rfl, rfl⟩
  | change ref rep =>
      simp only [DiscoveryState.step, ocNotifyResourceChanged]
      split_ifs with known
      · have higher := lt_ocEtagGet (fits (by simpa using known))
        refine ⟨UInt64.le_of_lt higher, fun after member => ?_⟩
        obtain ⟨resource, old, rfl⟩ := List.mem_map.mp member
        split_ifs with changed
        · exact .inr higher
        · exact .inl ⟨resource, old, rfl, rfl, rfl, rfl⟩
      · exact .refl state
  | delayedDelete ref =>
      refine ⟨UInt64.le_refl _, fun after member => .inl ?_⟩
      obtain ⟨resource, old, rfl⟩ := List.mem_map.mp member
      split_ifs
      · exact ⟨resource, old, rfl, rfl, rfl, rfl⟩
      · exact ⟨resource, old, rfl, rfl, rfl, rfl⟩
  | delete ref =>
      simp only [DiscoveryState.step, ocRiDeleteResource]
      cases found : state.resources.find? (·.ref == ref) with
      | none => exact .refl state
      | some resource =>
          simp only
          split_ifs
          · exact .refl state
          · refine ⟨UInt64.le_refl _, fun after member => .inl ?_⟩
            exact ⟨after, (List.mem_filter.mp member).1, rfl, rfl, rfl, rfl⟩
  | dispatch =>
      simp only [DiscoveryState.step,
        notifyResourceAddedOrDeletedDispatchAsync]
      split_ifs with idle known
      · exact .refl state
      · have higher := lt_ocEtagGet (fits (by simpa using idle))
        refine ⟨UInt64.le_of_lt higher, fun after member => ?_⟩
        obtain ⟨resource, old, rfl⟩ := List.mem_map.mp member
        split_ifs with changed
        · exact .inr higher
        · exact .inl ⟨resource, old, rfl, rfl, rfl, rfl⟩
      · exact ⟨UInt64.le_refl _, (DiscoveryState.Advances.refl state).origin⟩
  | elsewhere =>
      exact ⟨UInt64.le_of_lt (lt_ocEtagGet fits),
        (DiscoveryState.Advances.refl state).origin⟩

theorem advances_run {events : List DiscoveryEvent}
    (fits : Along (DiscoveryState.step world)
      (DiscoveryEvent.Fits world) state events) :
    state.Advances (runFrom (DiscoveryState.step world) state events) := by
  refine @Along.invariant _ _ _ _ _ state.Advances _ fits (.refl state) ?_
  intro before event advances here
  exact advances.trans (advances_step here)

variable {uri : Bytes}

theorem ocResourceMatchUri_self (wellFormed : WellFormedUri uri) :
    ocResourceMatchUri uri uri = true := by
  unfold ocResourceMatchUri
  rw [wellFormed.1]
  simp

theorem riUriMatches_self (wellFormed : WellFormedUri uri) :
    riUriMatches uri uri = true := by
  obtain ⟨slash, single, -⟩ := wellFormed
  obtain ⟨name, rfl⟩ := List.head?_eq_some_iff.mp slash
  have stripped : (47 :: name).dropWhile (· == (47 : UInt8)) = name := by
    rw [List.dropWhile_cons_of_pos rfl]
    cases name with
    | nil => rfl
    | cons first rest =>
        apply List.dropWhile_cons_of_neg
        simpa using single
  simp [riUriMatches, stripped]

theorem uri_ne_of_not_in_use (consistent : state.Consistent)
    (free : ocRiURIIsInUse state uri = false) :
    ∀ resource ∈ state.resources, resource.Iterated →
      resource.info.uri ≠ uri := by
  rintro resource member iterated rfl
  have wellFormed := consistent.wellFormed resource member
  have unmatched := List.any_eq_false.mp free resource member
  rcases iterated with core | listed
  · simp [core, ocResourceMatchUri_self wellFormed] at unmatched
  · simp [listed, riUriMatches_self wellFormed] at unmatched

namespace DiscoveryState

theorem consistent_initial (source : EtagSource) :
    (initial source).Consistent where
  refs := List.nodup_nil
  ref_lt := List.forall_mem_nil _
  etag_le := List.forall_mem_nil _
  etags := List.forall_mem_nil _
  uris := List.forall_mem_nil _
  wellFormed := List.forall_mem_nil _
  discovery := List.forall_mem_nil _

/-- Where the resource of a later state comes from, if only the one at
`changed` got a new ETag. -/
def Revised (before after : DiscoveryState) (changed : Nat)
    (resource : BatchedResource) : Prop :=
  ∃ old ∈ before.resources, old.ref = resource.ref ∧
    old.info = resource.info ∧
    (old.etag = resource.etag ∨ resource.ref = changed ∧
      resource.etag = after.source.globalEtag ∧
      before.source.globalEtag < after.source.globalEtag)

theorem Consistent.revise {after : DiscoveryState} {changed : Nat}
    (consistent : state.Consistent)
    (etag : state.source.globalEtag ≤ after.source.globalEtag)
    (nextRef : state.nextRef = after.nextRef)
    (refs : (after.resources.map (·.ref)).Nodup)
    (revised : ∀ resource ∈ after.resources,
      state.Revised after changed resource)
    (uris : ∀ first ∈ after.resources, ∀ second ∈ after.resources,
      first.Iterated → second.Iterated →
        first.info.uri = second.info.uri → first.ref = second.ref) :
    after.Consistent where
  refs := refs
  ref_lt := by
    intro resource member
    obtain ⟨old, inOld, ref, -⟩ := revised resource member
    rw [← ref, ← nextRef]
    exact consistent.ref_lt old inOld
  etag_le := by
    intro resource member
    obtain ⟨old, inOld, -, -, same | ⟨-, new, -⟩⟩ := revised resource member
    · rw [← same]
      exact UInt64.le_trans (consistent.etag_le old inOld) etag
    · rw [new]
      exact UInt64.le_refl _
  etags := by
    intro first inFirst second inSecond same
    obtain ⟨old, inOld, ref, -, kept⟩ := revised first inFirst
    obtain ⟨other, inOther, otherRef, -, otherKept⟩ := revised second inSecond
    have bound := consistent.etag_le old inOld
    have otherBound := consistent.etag_le other inOther
    rcases kept with kept | ⟨isChanged, new, higher⟩
    · rcases otherKept with otherKept | ⟨-, new, higher⟩
      · rw [← ref, ← otherRef]
        exact consistent.etags old inOld other inOther
          (kept.trans (same.trans otherKept.symm))
      · rw [kept, same, new] at bound
        exact absurd higher (UInt64.not_lt.mpr bound)
    · rcases otherKept with otherKept | ⟨otherChanged, -⟩
      · rw [otherKept, ← same, new] at otherBound
        exact absurd higher (UInt64.not_lt.mpr otherBound)
      · exact isChanged.trans otherChanged.symm
  uris := uris
  wellFormed := by
    intro resource member
    obtain ⟨old, inOld, -, info, -⟩ := revised resource member
    rw [← info]
    exact consistent.wellFormed old inOld
  discovery := by
    intro first inFirst second inSecond isFirst isSecond
    obtain ⟨old, inOld, ref, info, -⟩ := revised first inFirst
    obtain ⟨other, inOther, otherRef, otherInfo, -⟩ := revised second inSecond
    rw [← info] at isFirst
    rw [← otherInfo] at isSecond
    rw [← ref, ← otherRef]
    exact consistent.discovery old inOld other inOther isFirst isSecond

theorem Consistent.mapped {after : DiscoveryState} {changed : Nat}
    (consistent : state.Consistent)
    (update : BatchedResource → BatchedResource)
    (etag : state.source.globalEtag ≤ after.source.globalEtag)
    (nextRef : state.nextRef = after.nextRef)
    (resources : after.resources = state.resources.map update)
    (ref : ∀ resource, (update resource).ref = resource.ref)
    (info : ∀ resource, (update resource).info = resource.info)
    (iterated : ∀ resource, (update resource).Iterated → resource.Iterated)
    (revised : ∀ resource ∈ state.resources,
      resource.etag = (update resource).etag ∨
        resource.ref = changed ∧
        (update resource).etag = after.source.globalEtag ∧
        state.source.globalEtag < after.source.globalEtag) :
    after.Consistent := by
  refine @Consistent.revise state after changed consistent etag nextRef ?_ ?_ ?_
  · rw [resources, List.map_map]
    have same : ((·.ref) ∘ update) = (·.ref) := funext ref
    rw [same]
    exact consistent.refs
  · rw [resources]
    intro resource member
    obtain ⟨old, inOld, rfl⟩ := List.mem_map.mp member
    refine ⟨old, inOld, (ref old).symm, (info old).symm, ?_⟩
    rw [ref]
    exact revised old inOld
  · rw [resources]
    intro first inFirst second inSecond isFirst isSecond same
    obtain ⟨old, inOld, rfl⟩ := List.mem_map.mp inFirst
    obtain ⟨other, inOther, rfl⟩ := List.mem_map.mp inSecond
    rw [info, info] at same
    rw [ref, ref]
    exact consistent.uris old inOld other inOther (iterated old isFirst)
      (iterated other isSecond) same

theorem Consistent.grow {place : BatchedPlace} {info : BatchedInfo}
    (consistent : state.Consistent) (fits : EtagFits world state)
    (wellFormed : WellFormedUri info.uri)
    (unused : place ≠ .created → ∀ resource ∈ state.resources,
      resource.Iterated → resource.info.uri ≠ info.uri)
    (single : info.kind = .discovery → ∀ resource ∈ state.resources,
      resource.info.kind ≠ .discovery) (rep : Option Bytes) :
    (state.grow world place info rep).Consistent := by
  have higher := lt_ocEtagGet fits
  have placed (resource : BatchedResource) (member : resource ∈
      state.resources) : resource.etag ≠
        (ocEtagGet world state.source).globalEtag := by
    intro same
    have bound := consistent.etag_le resource member
    rw [same] at bound
    exact absurd higher (UInt64.not_lt.mpr bound)
  have listed (iterated : BatchedResource.Iterated ⟨state.nextRef, info, place,
      (ocEtagGet world state.source).globalEtag, rep⟩) : place ≠ .created := by
    rcases iterated with isCore | isListed
    · rw [show place = .core from isCore]
      exact BatchedPlace.noConfusion
    · rw [show place = .listed from isListed]
      exact BatchedPlace.noConfusion
  constructor
  · rw [DiscoveryState.grow, List.map_append, List.map_singleton]
    refine List.nodup_append.mpr
      ⟨consistent.refs, List.pairwise_singleton _ _, ?_⟩
    intro ref old other new same
    obtain ⟨resource, member, rfl⟩ := List.mem_map.mp old
    have below := consistent.ref_lt resource member
    rw [same, List.mem_singleton.mp new] at below
    exact Nat.lt_irrefl _ below
  · intro resource member
    rcases List.mem_append.mp member with old | new
    · exact Nat.lt_succ_of_lt (consistent.ref_lt resource old)
    · rw [List.mem_singleton.mp new]
      exact Nat.lt_succ_self _
  · intro resource member
    rcases List.mem_append.mp member with old | new
    · exact UInt64.le_trans (consistent.etag_le resource old)
        (UInt64.le_of_lt higher)
    · rw [List.mem_singleton.mp new]
      exact UInt64.le_refl _
  · intro first inFirst second inSecond same
    rcases List.mem_append.mp inFirst with old | new
    · rcases List.mem_append.mp inSecond with other | new
      · exact consistent.etags first old second other same
      · rw [List.mem_singleton.mp new] at same
        exact absurd same (placed first old)
    · rcases List.mem_append.mp inSecond with other | other
      · rw [List.mem_singleton.mp new] at same
        exact absurd same.symm (placed second other)
      · rw [List.mem_singleton.mp new, List.mem_singleton.mp other]
  · intro first inFirst second inSecond isFirst isSecond same
    rcases List.mem_append.mp inFirst with old | new
    · rcases List.mem_append.mp inSecond with other | new
      · exact consistent.uris first old second other isFirst isSecond same
      · rw [List.mem_singleton.mp new] at isSecond same
        exact absurd same (unused (listed isSecond) first old isFirst)
    · rcases List.mem_append.mp inSecond with other | other
      · rw [List.mem_singleton.mp new] at isFirst same
        exact absurd same.symm (unused (listed isFirst) second other isSecond)
      · rw [List.mem_singleton.mp new, List.mem_singleton.mp other]
  · intro resource member
    rcases List.mem_append.mp member with old | new
    · exact consistent.wellFormed resource old
    · rw [List.mem_singleton.mp new]
      exact wellFormed
  · intro first inFirst second inSecond isFirst isSecond
    rcases List.mem_append.mp inFirst with old | new
    · rcases List.mem_append.mp inSecond with other | new
      · exact consistent.discovery first old second other isFirst isSecond
      · rw [List.mem_singleton.mp new] at isSecond
        exact absurd isFirst (single isSecond first old)
    · rcases List.mem_append.mp inSecond with other | other
      · rw [List.mem_singleton.mp new] at isFirst
        exact absurd isSecond (single isFirst second other)
      · rw [List.mem_singleton.mp new, List.mem_singleton.mp other]

theorem Consistent.filtered {after : DiscoveryState}
    {keep : BatchedResource → Bool} (consistent : state.Consistent)
    (source : after.source = state.source)
    (nextRef : state.nextRef = after.nextRef)
    (resources : after.resources = state.resources.filter keep) :
    after.Consistent := by
  have inside : ∀ resource ∈ after.resources, resource ∈ state.resources := by
    rw [resources]
    intro resource member
    exact (List.mem_filter.mp member).1
  refine @Consistent.revise state after 0 consistent ?_ nextRef ?_ ?_ ?_
  · rw [source]
    exact UInt64.le_refl _
  · rw [resources]
    exact consistent.refs.sublist (List.filter_sublist.map _)
  · intro resource member
    exact ⟨resource, inside resource member, rfl, rfl, .inl rfl⟩
  · intro first inFirst second inSecond
    exact consistent.uris first (inside first inFirst) second
      (inside second inSecond)

theorem Consistent.add (consistent : state.Consistent) (ref : Nat) :
    (ocRiAddResource state ref).Consistent := by
  unfold ocRiAddResource
  cases found : state.resources.find? (·.ref == ref) with
  | none => exact consistent
  | some added =>
      simp only
      split_ifs with refused
      · exact consistent
      · obtain ⟨isCreated, free⟩ := not_or.mp refused
        obtain ⟨inState, rfl⟩ := mem_of_find found
        have free := uri_ne_of_not_in_use consistent (eq_false_of_ne_true free)
        have origin : ∀ resource ∈
            state.resources.filter (·.ref != added.ref) ++
              [{ added with place := .listed }],
            resource ∈ state.resources ∧ resource.ref ≠ added.ref ∨
              resource = { added with place := .listed } := by
          intro resource member
          rcases List.mem_append.mp member with old | new
          · obtain ⟨member, other⟩ := List.mem_filter.mp old
            exact .inl ⟨member, by simpa using other⟩
          · exact .inr (List.mem_singleton.mp new)
        refine @Consistent.revise state _ 0 consistent (UInt64.le_refl _) rfl
          ?_ ?_ ?_
        · rw [List.map_append, List.map_singleton]
          refine List.nodup_append.mpr ⟨consistent.refs.sublist
            (List.filter_sublist.map _), List.pairwise_singleton _ _, ?_⟩
          intro old inOld new isNew same
          obtain ⟨resource, member, rfl⟩ := List.mem_map.mp inOld
          rw [List.mem_singleton.mp isNew] at same
          simp [same] at member
        · intro resource member
          rcases origin resource member with ⟨old, -⟩ | rfl
          · exact ⟨resource, old, rfl, rfl, .inl rfl⟩
          · exact ⟨added, inState, rfl, rfl, .inl rfl⟩
        · intro first inFirst second inSecond isFirst isSecond same
          rcases origin first inFirst with ⟨old, -⟩ | rfl
          · rcases origin second inSecond with ⟨other, -⟩ | rfl
            · exact consistent.uris first old second other isFirst isSecond
                same
            · exact absurd same (free first old isFirst)
          · rcases origin second inSecond with ⟨other, -⟩ | rfl
            · exact absurd same.symm (free second other isSecond)
            · rfl

/-- A fitting event keeps the entity tags consistent. -/
theorem Consistent.step {event : DiscoveryEvent} (consistent : state.Consistent)
    (fits : event.Fits world state) : (state.step world event).Consistent := by
  cases event with
  | populate info rep =>
      obtain ⟨fits, wellFormed, others⟩ := fits
      refine consistent.grow fits wellFormed ?_ ?_ rep
      · intro _ resource member iterated
        refine (others resource member).1 ?_
        rintro created
        rcases iterated with core | listed
        · exact BatchedPlace.noConfusion (core.symm.trans created)
        · exact BatchedPlace.noConfusion (listed.symm.trans created)
      · intro isDiscovery resource member
        exact (others resource member).2 isDiscovery
  | new info rep =>
      obtain ⟨fits, wellFormed⟩ := fits
      refine consistent.grow fits wellFormed ?_ ?_ rep
      · intro created
        exact absurd rfl created
      · intro isDiscovery
        exact BatchedKind.noConfusion isDiscovery
  | add ref => exact consistent.add ref
  | change ref rep =>
      simp only [DiscoveryState.step, ocNotifyResourceChanged]
      split_ifs with known
      · have higher := lt_ocEtagGet (fits (by simpa using known))
        refine @Consistent.mapped state _ ref consistent _
          (UInt64.le_of_lt higher) rfl rfl ?_ ?_ ?_ ?_
        · intro resource
          split_ifs
          · rfl
          · rfl
        · intro resource
          split_ifs
          · rfl
          · rfl
        · intro resource
          split_ifs
          · exact id
          · exact id
        · intro resource _
          split_ifs with changed
          · exact .inr ⟨changed, rfl, higher⟩
          · exact .inl rfl
      · exact consistent
  | delayedDelete ref =>
      refine @Consistent.mapped state _ ref consistent _ (UInt64.le_refl _) rfl
        rfl ?_ ?_ ?_ ?_
      · intro resource
        split_ifs
        · rfl
        · rfl
      · intro resource
        split_ifs
        · rfl
        · rfl
      · intro resource
        split_ifs
        · rintro (core | listed)
          · exact BatchedPlace.noConfusion core
          · exact BatchedPlace.noConfusion listed
        · exact id
      · intro resource _
        split_ifs
        · exact .inl rfl
        · exact .inl rfl
  | delete ref =>
      simp only [DiscoveryState.step, ocRiDeleteResource]
      cases found : state.resources.find? (·.ref == ref) with
      | none => exact consistent
      | some resource =>
          simp only
          split_ifs
          · exact consistent
          · exact consistent.filtered rfl rfl rfl
  | dispatch =>
      simp only [DiscoveryState.step,
        notifyResourceAddedOrDeletedDispatchAsync]
      split_ifs with idle known
      · exact consistent
      · have higher := lt_ocEtagGet (fits (by simpa using idle))
        obtain ⟨discovery, member, isDiscovery⟩ := List.any_eq_true.mp known
        have isDiscovery : discovery.info.kind = .discovery := by
          simpa using isDiscovery
        refine @Consistent.mapped state _ discovery.ref consistent _
          (UInt64.le_of_lt higher) rfl rfl ?_ ?_ ?_ ?_
        · intro resource
          split_ifs
          · rfl
          · rfl
        · intro resource
          split_ifs
          · rfl
          · rfl
        · intro resource
          split_ifs
          · exact id
          · exact id
        · intro resource inState
          split_ifs with changed
          · exact .inr ⟨consistent.discovery resource inState discovery member
              changed isDiscovery, rfl, higher⟩
          · exact .inl rfl
      · exact ⟨consistent.refs, consistent.ref_lt, consistent.etag_le,
          consistent.etags, consistent.uris, consistent.wellFormed,
          consistent.discovery⟩
  | elsewhere =>
      have higher := lt_ocEtagGet fits
      exact ⟨consistent.refs, consistent.ref_lt,
        fun resource member => UInt64.le_trans
          (consistent.etag_le resource member) (UInt64.le_of_lt higher),
        consistent.etags, consistent.uris, consistent.wellFormed,
        consistent.discovery⟩

end DiscoveryState

theorem consistent_run {events : List DiscoveryEvent}
    (consistent : state.Consistent)
    (fits : Along (DiscoveryState.step world)
      (DiscoveryEvent.Fits world) state events) :
    (runFrom (DiscoveryState.step world) state events).Consistent := by
  refine fits.invariant consistent ?_
  intro before event consistent here
  exact consistent.step here

end Steps

section Links

variable {setup : BatchSetup} {state : DiscoveryState}
  {resource : BatchedResource}

theorem mem_iterated_iff :
    resource ∈ state.iterated ↔
      resource ∈ state.resources ∧ resource.Iterated := by
  unfold DiscoveryState.iterated BatchedResource.Iterated
  rw [List.mem_filter, Bool.or_eq_true, beq_iff_eq, beq_iff_eq]

/-- The link of a resource, if it has one. -/
def BatchedResource.link (setup : BatchSetup) (resource : BatchedResource) :
    Option BatchLink :=
  discoveryProcessBatchResponse setup (fun _ => true) resource

theorem link_congr {first second : BatchedResource}
    (info : first.info = second.info) (etag : first.etag = second.etag)
    (rep : first.rep = second.rep) : first.link setup = second.link setup := by
  unfold BatchedResource.link discoveryProcessBatchResponse
    ocDiscoveryResourceIsInBatchResponse
  rw [info, etag, rep]

variable {link : BatchLink}

theorem link_fields (isLink : resource.link setup = some link) :
    link.href = resource.info.href ∧ link.etag = resource.etag := by
  unfold BatchedResource.link discoveryProcessBatchResponse at isLink
  split_ifs at isLink
  obtain ⟨payload, -, rfl⟩ := Option.map_eq_some_iff.mp isLink
  exact ⟨rfl, rfl⟩

theorem isInBatchResponse_of_skip {resource : BatchedResource}
    (inBatch : ocDiscoveryResourceIsInBatchResponse setup resource true =
      true) :
    ocDiscoveryResourceIsInBatchResponse setup resource false = true := by
  unfold ocDiscoveryResourceIsInBatchResponse at inBatch ⊢
  rw [Bool.and_eq_true, Bool.and_eq_true, Bool.and_eq_true] at inBatch ⊢
  obtain ⟨⟨⟨discoverable, -⟩, wkcore⟩, security⟩ := inBatch
  exact ⟨⟨⟨discoverable, rfl⟩, wkcore⟩, security⟩

theorem mem_batched_of_link (iterated : resource ∈ state.iterated)
    (isLink : resource.link setup = some link) :
    resource ∈ state.batched setup := by
  refine List.mem_filter.mpr ⟨iterated, isInBatchResponse_of_skip ?_⟩
  unfold BatchedResource.link discoveryProcessBatchResponse at isLink
  split_ifs at isLink with outside
  rw [Bool.not_true, Bool.or_false, Bool.not_eq_true', Bool.not_eq_false]
    at outside
  exact outside

theorem mem_links_iff :
    link ∈ state.links setup ↔
      ∃ resource ∈ state.iterated, resource.link setup = some link :=
  List.mem_filterMap

/-- The links of the resources with a higher ETag. -/
def DiscoveryState.newerLinks (setup : BatchSetup) (state : DiscoveryState)
    (etag : UInt64) : List BatchLink :=
  state.iterated.filterMap
    (discoveryProcessBatchResponse setup fun resource => resource.etag > etag)

theorem mem_newerLinks_iff {etag : UInt64} :
    link ∈ state.newerLinks setup etag ↔
      link ∈ state.links setup ∧ etag < link.etag := by
  have filtered (resource : BatchedResource) :
      discoveryProcessBatchResponse setup
          (fun resource => decide (resource.etag > etag)) resource =
        if etag < resource.etag then resource.link setup else none := by
    unfold BatchedResource.link discoveryProcessBatchResponse
    by_cases newer : etag < resource.etag
    · simp [newer]
    · simp [newer]
  rw [mem_links_iff]
  unfold DiscoveryState.newerLinks
  rw [List.mem_filterMap]
  constructor
  · rintro ⟨resource, iterated, isLink⟩
    rw [filtered] at isLink
    split_ifs at isLink with newer
    rw [(link_fields isLink).2]
    exact ⟨⟨resource, iterated, isLink⟩, newer⟩
  · rintro ⟨⟨resource, iterated, isLink⟩, newer⟩
    rw [(link_fields isLink).2] at newer
    exact ⟨resource, iterated, by rw [filtered, if_pos newer, isLink]⟩

end Links

section Batches

variable {setup : BatchSetup} {state : DiscoveryState}

namespace DiscoveryState

theorem Consistent.eq_of_ref (consistent : state.Consistent)
    {first second : BatchedResource} (inFirst : first ∈ state.resources)
    (inSecond : second ∈ state.resources) (same : first.ref = second.ref) :
    first = second :=
  List.inj_on_of_nodup_map consistent.refs inFirst inSecond same

theorem Consistent.link_eq (consistent : state.Consistent)
    {first second : BatchLink} (inFirst : first ∈ state.links setup)
    (inSecond : second ∈ state.links setup)
    (same : first.href = second.href) : first = second := by
  obtain ⟨one, iterated, isFirst⟩ := mem_links_iff.mp inFirst
  obtain ⟨other, otherIterated, isSecond⟩ := mem_links_iff.mp inSecond
  obtain ⟨member, place⟩ := mem_iterated_iff.mp iterated
  obtain ⟨otherMember, otherPlace⟩ := mem_iterated_iff.mp otherIterated
  rw [(link_fields isFirst).1, (link_fields isSecond).1] at same
  unfold BatchedInfo.href at same
  have ids : (ocfScheme ++ one.info.deviceId.text).length =
      (ocfScheme ++ other.info.deviceId.text).length := by
    rw [List.length_append, List.length_append, one.info.deviceId.length_eq,
      other.info.deviceId.length_eq]
  have uris := (List.append_inj same ids).2
  rw [List.take_of_length_le (consistent.wellFormed one member).2.2,
    List.take_of_length_le (consistent.wellFormed other otherMember).2.2]
    at uris
  have ref := consistent.uris one member other otherMember place otherPlace
    uris
  rw [consistent.eq_of_ref member otherMember ref] at isFirst
  exact Option.some.inj (isFirst.symm.trans isSecond)

end DiscoveryState

theorem foldl_raise_spec (resources : List BatchedResource) (start : UInt64) :
    let highest := resources.foldl (fun etag resource =>
      if resource.etag > etag then resource.etag else etag) start
    start ≤ highest ∧ (∀ resource ∈ resources, resource.etag ≤ highest) ∧
      (highest = start ∨ ∃ resource ∈ resources, resource.etag = highest) := by
  induction resources generalizing start with
  | nil => exact ⟨UInt64.le_refl _, List.forall_mem_nil _, .inl rfl⟩
  | cons first rest ih =>
      obtain ⟨above, bounds, reached⟩ :=
        ih (if first.etag > start then first.etag else start)
      have raised : start ≤ (if first.etag > start then first.etag else start) ∧
          first.etag ≤ (if first.etag > start then first.etag else start) := by
        split_ifs with higher
        · exact ⟨UInt64.le_of_lt higher, UInt64.le_refl _⟩
        · exact ⟨UInt64.le_refl _, UInt64.not_lt.mp higher⟩
      refine ⟨UInt64.le_trans raised.1 above, ?_, ?_⟩
      · rw [List.forall_mem_cons]
        exact ⟨UInt64.le_trans raised.2 above, bounds⟩
      · rw [List.foldl_cons]
        rcases reached with same | ⟨resource, member, same⟩
        · rw [same]
          split_ifs
          · exact .inr ⟨first, List.mem_cons_self, rfl⟩
          · exact .inl rfl
        · exact .inr ⟨resource, List.mem_cons_of_mem _ member, same⟩

theorem etag_le_batchEtag {resource : BatchedResource}
    (member : resource ∈ state.batched setup) :
    resource.etag ≤ ocDiscoveryGetBatchEtag setup state :=
  (foldl_raise_spec (state.batched setup) 0).2.1 resource member

theorem exists_of_batchEtag (issued : ocDiscoveryGetBatchEtag setup state ≠ 0) :
    ∃ resource ∈ state.batched setup,
      resource.etag = ocDiscoveryGetBatchEtag setup state :=
  (foldl_raise_spec (state.batched setup) 0).2.2.resolve_left issued

theorem batchEtag_le_globalEtag (consistent : state.Consistent)
    (issued : ocDiscoveryGetBatchEtag setup state ≠ 0) :
    ocDiscoveryGetBatchEtag setup state ≤ state.source.globalEtag := by
  obtain ⟨resource, member, same⟩ := exists_of_batchEtag issued
  rw [← same]
  have iterated := (List.mem_filter.mp member).1
  exact consistent.etag_le resource (mem_iterated_iff.mp iterated).1

end Batches

/-- The request carries this ETag, in the ETag option or in the query, and no
other. -/
structure BatchGet.Carries (request : BatchGet) (etag : UInt64) : Prop where
  option : ∀ other, etagOfBytes request.etag = some other → other = etag
  query : ∀ other ∈ ocEtagIterateIncrementalUpdatesQuery request.query,
    other = etag
  carried : etagOfBytes request.etag = some etag ∨
    etag ∈ ocEtagIterateIncrementalUpdatesQuery request.query

/-- The server goes by the ETag of the request: it is that of the batch, or the
query asks for incremental changes and a resource has it. -/
def ReliesOn (setup : BatchSetup) (state : DiscoveryState)
    (request : BatchGet) (etag : UInt64) : Prop :=
  (etagOfBytes request.etag = some etag ∧
      ocDiscoveryGetBatchEtag setup state = etag) ∨
    (ocEtagHasIncrementalUpdatesQuery request.query = true ∧
      discoveryBatchHasResourceWithEtag setup state etag = true)

section Answers

variable {setup : BatchSetup} {state : DiscoveryState} {request : BatchGet}
  {etag : UInt64}

theorem foldl_raiseCandidate (etags : List UInt64)
    (same : ∀ other ∈ etags, other = etag) (candidate : UInt64)
    (start : candidate = 0 ∨ candidate = etag) :
    etags.foldl (raiseCandidate setup state) candidate =
      if discoveryBatchHasResourceWithEtag setup state etag = true ∧
        etags ≠ [] then etag else candidate := by
  induction etags generalizing candidate with
  | nil => simp
  | cons first rest ih =>
      obtain ⟨rfl, others⟩ := List.forall_mem_cons.mp same
      have notLess : ¬ first < candidate := by
        rcases start with rfl | rfl
        · exact UInt64.not_lt_zero
        · exact UInt64.lt_irrefl _
      rw [List.foldl_cons, raiseCandidate, if_neg notLess]
      by_cases known :
          discoveryBatchHasResourceWithEtag setup state first = true
      · rw [known, Bool.not_true, if_neg Bool.false_ne_true,
          ih others first (.inr rfl)]
        simp
      · rw [Bool.not_eq_true] at known
        rw [known, Bool.not_false, if_pos rfl, ih others candidate start]
        simp [known]

theorem discoveryFindIncrementalUpdatesEtag_eq
    (carries : request.Carries etag) :
    discoveryFindIncrementalUpdatesEtag setup state request =
      if ocEtagHasIncrementalUpdatesQuery request.query = true ∧
        discoveryBatchHasResourceWithEtag setup state etag = true then etag
      else 0 := by
  unfold discoveryFindIncrementalUpdatesEtag
  cases asked : ocEtagHasIncrementalUpdatesQuery request.query with
  | false => simp
  | true =>
      simp only [Bool.not_true, Bool.false_eq_true, if_false, true_and]
      cases option : etagOfBytes request.etag with
      | none =>
          have given := carries.carried.resolve_left
            (by rw [option]; exact (Option.some_ne_none etag).symm)
          simp only
          rw [foldl_raiseCandidate _ carries.query 0 (.inl rfl)]
          simp [List.ne_nil_of_mem given]
      | some other =>
          obtain rfl := carries.option other option
          simp only
          rw [foldl_raiseCandidate _ carries.query _ (by
            split_ifs
            · exact .inr rfl
            · exact .inl rfl)]
          by_cases known :
              discoveryBatchHasResourceWithEtag setup state other = true
          · simp [known]
          · simp [known]

theorem newerLinks_of_batchEtag
    (highest : ocDiscoveryGetBatchEtag setup state = etag) :
    state.newerLinks setup etag = [] := by
  rw [List.eq_nil_iff_forall_not_mem]
  intro link member
  obtain ⟨inLinks, newer⟩ := mem_newerLinks_iff.mp member
  obtain ⟨resource, iterated, isLink⟩ := mem_links_iff.mp inLinks
  have bound := etag_le_batchEtag (mem_batched_of_link iterated isLink)
  rw [highest, ← (link_fields isLink).2] at bound
  exact absurd newer (UInt64.not_lt.mpr bound)

theorem applyTo_of_not_reliesOn {copy : List BatchLink}
    (carries : request.Carries etag)
    (fresh : ¬ ReliesOn setup state request etag) :
    (riInvokeBatchGet setup state request).applyTo copy =
      state.links setup := by
  obtain ⟨different, unknown⟩ := not_or.mp fresh
  have changed : ¬ (ocDiscoveryGetBatchEtag setup state ≠ 0 ∧
      etagOfBytes request.etag =
        some (ocDiscoveryGetBatchEtag setup state)) := by
    rintro ⟨-, option⟩
    have same := carries.option _ option
    exact different ⟨by rw [option, same], same⟩
  unfold riInvokeBatchGet discoveryProcessBatchRequest
  simp only
  rw [if_neg changed, discoveryFindIncrementalUpdatesEtag_eq carries,
    if_neg unknown, if_pos rfl]
  rfl

theorem applyTo_of_reliesOn {copy : List BatchLink} (issued : etag ≠ 0)
    (carries : request.Carries etag)
    (relies : ReliesOn setup state request etag) :
    (riInvokeBatchGet setup state request).applyTo copy =
      copy.filter (fun link => (state.newerLinks setup etag).all
        (·.href != link.href)) ++ state.newerLinks setup etag := by
  have unchanged (nothing : state.newerLinks setup etag = []) :
      copy = copy.filter (fun link => (state.newerLinks setup etag).all
        (·.href != link.href)) ++ state.newerLinks setup etag := by
    simp [nothing]
  unfold riInvokeBatchGet
  simp only
  by_cases option : ocDiscoveryGetBatchEtag setup state ≠ 0 ∧
      etagOfBytes request.etag = some (ocDiscoveryGetBatchEtag setup state)
  · rw [if_pos option]
    exact unchanged (newerLinks_of_batchEtag (carries.option _ option.2))
  · have asked := relies.resolve_left fun ⟨given, highest⟩ =>
      option ⟨by rw [highest]; exact issued, by rw [given, highest]⟩
    rw [if_neg option]
    unfold discoveryProcessBatchRequest
    simp only
    rw [discoveryFindIncrementalUpdatesEtag_eq carries, if_pos asked,
      if_neg issued]
    change BatchAnswer.applyTo copy
      (if state.newerLinks setup etag = [] then .valid
      else .incremental (state.newerLinks setup etag)) = _
    by_cases nothing : state.newerLinks setup etag = []
    · rw [if_pos nothing]
      exact unchanged nothing
    · rw [if_neg nothing]
      rfl

end Answers

section Soundness

variable (setup : BatchSetup) (fetched current : DiscoveryState)

/-- Every link of the fetched batch is still there, if with other contents. -/
def NothingGone : Prop :=
  ∀ link ∈ fetched.links setup, ∃ other ∈ current.links setup,
    other.href = link.href

/-- A resource that had no link when the batch was fetched and has one now got
its ETag after the one of the batch. -/
def NothingLate (etag : UInt64) : Prop :=
  ∀ resource ∈ current.iterated, (resource.link setup).isSome = true →
    etag < resource.etag ∨ ∃ old ∈ fetched.iterated,
      old.ref = resource.ref ∧ (old.link setup).isSome = true

variable {setup fetched current} {etag : UInt64}

theorem mem_fetched_of_not_newer (consistent : fetched.Consistent)
    (advances : fetched.Advances current)
    (bound : etag ≤ fetched.source.globalEtag)
    (late : NothingLate setup fetched current etag) {link : BatchLink}
    (member : link ∈ current.links setup) (old : ¬ etag < link.etag) :
    link ∈ fetched.links setup := by
  obtain ⟨resource, iterated, isLink⟩ := mem_links_iff.mp member
  rw [(link_fields isLink).2] at old
  obtain ⟨inCurrent, -⟩ := mem_iterated_iff.mp iterated
  obtain ⟨before, inFetched, ref, info, sameEtag, rep⟩ :=
    (advances.origin resource inCurrent).resolve_right fun higher =>
      old (UInt64.lt_of_le_of_lt bound higher)
  obtain ⟨listed, wasIterated, sameRef, -⟩ :=
    (late resource iterated (by rw [isLink]; rfl)).resolve_left old
  have same := consistent.eq_of_ref (mem_iterated_iff.mp wasIterated).1
    inFetched (sameRef.trans ref.symm)
  rw [same] at wasIterated
  refine mem_links_iff.mpr ⟨before, wasIterated, ?_⟩
  rw [link_congr info sameEtag rep, isLink]

theorem sound_of_nothing_missed (before : fetched.Consistent)
    (advances : fetched.Advances current) (after : current.Consistent)
    (bound : etag ≤ fetched.source.globalEtag)
    (gone : NothingGone setup fetched current)
    (late : NothingLate setup fetched current etag) (link : BatchLink) :
    link ∈ (fetched.links setup).filter (fun link =>
        (current.newerLinks setup etag).all (·.href != link.href)) ++
        current.newerLinks setup etag ↔
      link ∈ current.links setup := by
  rw [List.mem_append, List.mem_filter, mem_newerLinks_iff]
  constructor
  · rintro (⟨inFetched, kept⟩ | ⟨inCurrent, -⟩)
    · obtain ⟨other, inCurrent, same⟩ := gone link inFetched
      -- the link with this href is not newer, so it is the one fetched
      have old : ¬ etag < other.etag := by
        intro newer
        have differs := List.all_eq_true.mp kept other
          (mem_newerLinks_iff.mpr ⟨inCurrent, newer⟩)
        exact absurd same (by simpa using differs)
      have inFetched' := mem_fetched_of_not_newer before advances bound late
        inCurrent old
      rw [← before.link_eq inFetched' inFetched same]
      exact inCurrent
    · exact inCurrent
  · intro inCurrent
    by_cases newer : etag < link.etag
    · exact .inr ⟨inCurrent, newer⟩
    · refine .inl ⟨mem_fetched_of_not_newer before advances bound late
        inCurrent newer, ?_⟩
      refine List.all_eq_true.mpr fun other member => ?_
      obtain ⟨inOther, otherNewer⟩ := mem_newerLinks_iff.mp member
      rw [bne_iff_ne]
      intro same
      rw [after.link_eq inOther inCurrent same] at otherNewer
      exact newer otherNewer

theorem nothing_missed_of_sound (consistent : fetched.Consistent)
    (advances : fetched.Advances current)
    (bound : etag ≤ fetched.source.globalEtag)
    (sound : ∀ link, link ∈ (fetched.links setup).filter (fun link =>
        (current.newerLinks setup etag).all (·.href != link.href)) ++
        current.newerLinks setup etag ↔
      link ∈ current.links setup) :
    NothingGone setup fetched current ∧
      NothingLate setup fetched current etag := by
  constructor
  · intro link inFetched
    by_cases kept : (current.newerLinks setup etag).all
        (·.href != link.href) = true
    · exact ⟨link, (sound link).mp (List.mem_append_left _
        (List.mem_filter.mpr ⟨inFetched, kept⟩)), rfl⟩
    · rw [List.all_eq_true] at kept
      obtain ⟨other, replaced⟩ := not_forall.mp kept
      obtain ⟨member, same⟩ := Classical.not_imp.mp replaced
      exact ⟨other, (mem_newerLinks_iff.mp member).1, by simpa using same⟩
  · intro resource iterated hasLink
    by_cases newer : etag < resource.etag
    · exact .inl newer
    · obtain ⟨link, isLink⟩ := Option.isSome_iff_exists.mp hasLink
      have inApplied := (sound link).mpr
        (mem_links_iff.mpr ⟨resource, iterated, isLink⟩)
      have inFetched : link ∈ fetched.links setup := by
        rcases List.mem_append.mp inApplied with copied | sent
        · exact (List.mem_filter.mp copied).1
        · rw [mem_newerLinks_iff, (link_fields isLink).2] at sent
          exact absurd sent.2 newer
      obtain ⟨old, wasIterated, wasLink⟩ := mem_links_iff.mp inFetched
      -- the ETag tells that it is the same resource
      obtain ⟨kept, inKept, ref, -, sameEtag, -⟩ :=
        (advances.origin resource (mem_iterated_iff.mp
          iterated).1).resolve_right fun higher =>
            newer (UInt64.lt_of_le_of_lt bound higher)
      have same : old.etag = kept.etag := by
        rw [sameEtag, ← (link_fields isLink).2, ← (link_fields wasLink).2]
      refine .inr ⟨old, wasIterated, ?_, by rw [wasLink]; rfl⟩
      rw [← ref]
      exact consistent.etags old (mem_iterated_iff.mp wasIterated).1 kept
        inKept same

end Soundness

/-- A client that fetched the batch and its ETag comes to the current batch with
the answer to a request with this ETag exactly if the server does not go by the
ETag, or no link has gone since and no resource was added late. -/
theorem incremental_batch_sound_iff (setup : BatchSetup) (world : EtagWorld)
    (source : EtagSource) (before after : List DiscoveryEvent)
    (request : BatchGet)
    (fits : Along (DiscoveryState.step world) (DiscoveryEvent.Fits world)
      (.initial source) (before ++ after))
    (issued : ocDiscoveryGetBatchEtag setup
      (runFrom (DiscoveryState.step world) (.initial source) before) ≠ 0)
    (carries : request.Carries (ocDiscoveryGetBatchEtag setup
      (runFrom (DiscoveryState.step world) (.initial source) before))) :
    let fetched := runFrom (DiscoveryState.step world) (.initial source) before
    let current := runFrom (DiscoveryState.step world) fetched after
    let etag := ocDiscoveryGetBatchEtag setup fetched
    (∀ link, link ∈ (riInvokeBatchGet setup current request).applyTo
          (fetched.links setup) ↔ link ∈ current.links setup) ↔
      (ReliesOn setup current request etag →
        NothingGone setup fetched current ∧
          NothingLate setup fetched current etag) := by
  intro fetched current etag
  obtain ⟨fitsBefore, fitsAfter⟩ := along_append.mp fits
  have consistent : fetched.Consistent :=
    consistent_run (DiscoveryState.consistent_initial source) fitsBefore
  have later : current.Consistent := consistent_run consistent fitsAfter
  have advances : fetched.Advances current := advances_run fitsAfter
  have bound := batchEtag_le_globalEtag consistent issued
  by_cases relies : ReliesOn setup current request etag
  · rw [applyTo_of_reliesOn issued carries relies]
    constructor
    · intro sound _
      exact nothing_missed_of_sound consistent advances bound sound
    · intro missed
      obtain ⟨gone, late⟩ := missed relies
      exact sound_of_nothing_missed consistent advances later bound gone late
  · rw [applyTo_of_not_reliesOn carries relies]
    exact iff_of_true (fun _ => Iff.rfl) fun goes => absurd goes relies

namespace BatchHistory

theorem length_deviceId : (List.replicate 36 (97 : UInt8)).length = 36 :=
  List.length_replicate

def info (uri : Bytes) (kind : BatchedKind) : BatchedInfo :=
  ⟨uri, [[114]], ⟨List.replicate 36 97, length_deviceId⟩, kind, true⟩

def setup : BatchSetup := ⟨true, true, fun _ => true⟩

/-- ETags are given out one by one from 1001 on. -/
def world : EtagWorld := .steady 1000 0

/-- The resources `/r`, `/a` and `/b`, of which `/b` changed last. -/
def before : List DiscoveryEvent :=
  [.populate (info [47, 114] .discovery) none,
    .new (info [47, 97] .other) (some [1]), .add 1,
    .new (info [47, 98] .other) (some [2]), .add 2, .dispatch,
    .change 2 (some [3])]

def fetched : DiscoveryState :=
  runFrom (DiscoveryState.step world) (.initial ⟨0, 0⟩) before

/-- The state after more events. -/
def later (after : List DiscoveryEvent) : DiscoveryState :=
  runFrom (DiscoveryState.step world) fetched after

/-- `incChanges=7QMAAAAAAAA`, the ETag 1005 -/
def request : BatchGet :=
  ⟨[], incChangesKey ++ [61, 55, 81, 77, 65, 65, 65, 65, 65, 65, 65, 65]⟩

theorem carries : request.Carries 1005 where
  option := by
    intro other option
    cases option
  query := by
    have query : ocEtagIterateIncrementalUpdatesQuery request.query =
        [1005] := by decide
    rw [query]
    exact fun other member => List.mem_singleton.mp member
  carried := .inr (by decide)

/-- The link of `/a` with its new representation. -/
def changed : BatchLink :=
  ⟨ocfScheme ++ List.replicate 36 97 ++ [47, 97], [[114]], 1006, [4]⟩

end BatchHistory

/-- `/a` changed after the batch was fetched; its link is sent again. -/
theorem incremental_batch_sound_of_change :
    BatchHistory.changed ∈ (riInvokeBatchGet BatchHistory.setup
        (BatchHistory.later [.change 1 (some [4])])
        BatchHistory.request).applyTo
          (BatchHistory.fetched.links BatchHistory.setup) ↔
      BatchHistory.changed ∈
        (BatchHistory.later [.change 1 (some [4])]).links
          BatchHistory.setup := by
  refine (incremental_batch_sound_iff BatchHistory.setup BatchHistory.world
    ⟨0, 0⟩ BatchHistory.before [.change 1 (some [4])] BatchHistory.request
    (by decide) (by decide) BatchHistory.carries).mpr ?_ BatchHistory.changed
  intro _
  constructor
  · unfold NothingGone
    decide
  · unfold NothingLate
    decide

/-- `/a` is deleted after the batch was fetched, and the new ETag of the
discovery resource was given.  The answer is that nothing has changed. -/
theorem deletion_answered_as_valid :
    Along (DiscoveryState.step BatchHistory.world)
        (DiscoveryEvent.Fits BatchHistory.world) (.initial ⟨0, 0⟩)
        (BatchHistory.before ++ [.delete 1, .dispatch]) ∧
      ocDiscoveryGetBatchEtag BatchHistory.setup BatchHistory.fetched = 1005 ∧
      riInvokeBatchGet BatchHistory.setup
        (BatchHistory.later [.delete 1, .dispatch])
        BatchHistory.request = .valid ∧
      BatchHistory.request.Carries 1005 ∧
      ¬ ∀ link, link ∈ (riInvokeBatchGet BatchHistory.setup
          (BatchHistory.later [.delete 1, .dispatch])
          BatchHistory.request).applyTo
            (BatchHistory.fetched.links BatchHistory.setup) ↔
        link ∈ (BatchHistory.later [.delete 1, .dispatch]).links
          BatchHistory.setup := by
  refine ⟨by decide, by decide, by decide, BatchHistory.carries, ?_⟩
  intro sound
  have stays := (sound ⟨ocfScheme ++ List.replicate 36 97 ++ [47, 97],
    [[114]], 1002, [1]⟩).mp (by decide)
  revert stays
  decide

end IotivityLite
