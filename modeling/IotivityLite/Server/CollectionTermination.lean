import IotivityLite.Foundation.Cycles
import IotivityLite.Server.CollectionRequest

/-!
# When collection requests end

A batch request goes on into the linked collections whose default interface is
the batch interface; of all the ways back only the link of a collection to
itself is left out.  It ends for every request exactly when these links lead
to no cycle.
-/

namespace IotivityLite

variable {Ref : Type} [DecidableEq Ref]

/-- The links that a batch request goes on into. -/
structure FollowsBatch (graph : CollectionGraph Ref) (collection link : Ref) :
    Prop where
  other : link ≠ collection
  linked : link ∈ (graph.links collection).getD []
  collection : ocCheckIfCollection graph link = true
  batch : graph.defaultInterface link = .b

/-- The request ends if some fuel is enough. -/
def BatchRequestEnds (graph : CollectionGraph Ref)
    (request : CollectionRequest Ref) (notify : Option Ref)
    (collection : Ref) : Prop :=
  ∃ fuel, (ocHandleCollectionRequest graph request fuel .b notify
    { resource := collection }).isSome = true

section Resource

variable {graph : CollectionGraph Ref} {request : CollectionRequest Ref}
  {nested : NestedRequest Ref} {collection : Ref} {href : Bytes}
  {notify : Option Ref}

theorem resource_of_processLinks {payload : Rep} {links : List Ref}
    {result last : CollectionResult} {state final : CollectionState Ref}
    (run : collectionBatchRequestProcessLinks graph request nested collection
      href payload notify links result state = some (last, final))
    (start : state.resource = collection) (ok : last.ok = true) :
    final.resource = collection := by
  induction links generalizing result state with
  | nil =>
      obtain ⟨-, rfl⟩ := Prod.mk.inj (Option.some.inj run)
      exact start
  | cons link links ih =>
      unfold collectionBatchRequestProcessLinks at run
      dsimp only at run
      split_ifs at run
      · exact ih run start
      · exact ih run start
      · split at run
        · cases run
        · obtain ⟨rfl, -⟩ := Prod.mk.inj (Option.some.inj run)
          cases ok
        · exact ih run rfl
      · exact ih run start
      · exact ih run start

end Resource

section Ending

variable {graph : CollectionGraph Ref} {request : CollectionRequest Ref}
  {nested : NestedRequest Ref} {collection : Ref} {notify : Option Ref}

/-- Requests on the collections among the links end. -/
def EndsOn (nested : NestedRequest Ref) (graph : CollectionGraph Ref)
    (collection : Ref) (links : List Ref) : Prop :=
  ∀ link ∈ links, link ≠ collection → ocCheckIfCollection graph link = true →
    ∀ state : CollectionState Ref, state.resource = link →
      (nested link state).isSome = true

theorem isSome_processLinks {links : List Ref}
    (ends : EndsOn nested graph collection links) (href : Bytes)
    (payload : Rep) (result : CollectionResult)
    (state : CollectionState Ref) :
    (collectionBatchRequestProcessLinks graph request nested collection href
      payload notify links result state).isSome = true := by
  induction links generalizing result state with
  | nil => rfl
  | cons link links ih =>
      have later := ih fun other member =>
        ends other (List.mem_cons_of_mem link member)
      unfold collectionBatchRequestProcessLinks
      dsimp only
      split_ifs with _ _ linked
      · exact later _ _
      · exact later _ _
      · have here := ends link List.mem_cons_self linked.1 linked.2
        split <;> rename_i answer
        · have none := congrArg Option.isSome answer
          rw [here] at none
          · cases none
          · rfl
        · rfl
        · exact later _ _
      · exact later _ _
      · exact later _ _

theorem isSome_processItems (items : Rep) {state : CollectionState Ref}
    (ends : EndsOn nested graph state.resource
      ((graph.links state.resource).getD [])) (payload : Rep)
    (result : CollectionResult) :
    (collectionBatchRequestProcessItems graph request nested notify items
      payload result state).isSome = true := by
  induction items generalizing payload result state with
  | nil => rfl
  | cons item items ih =>
      obtain ⟨name, value⟩ := item
      cases value with
      | object item =>
          unfold collectionBatchRequestProcessItems
          dsimp only
          split_ifs
          · rfl
          · have links := @isSome_processLinks Ref _ graph request nested _
              notify _ ends ((batchItem payload item).1.getD [])
              (batchItem payload item).2 {} state
            split <;> rename_i run
            · rw [run] at links
              cases links
            · split_ifs with ok
              · have same := resource_of_processLinks run rfl ok
                exact ih (same ▸ ends) _ _
              · rfl
      | _ => rfl

theorem isSome_of_ne_b {iface : CollectionInterface} (other : iface ≠ .b)
    (fuel : Nat) (state : CollectionState Ref) :
    (ocHandleCollectionRequest graph request (fuel + 1) iface notify
      state).isSome = true := by
  cases iface with
  | b => exact absurd rfl other
  | _ => simp [ocHandleCollectionRequest]

theorem isSome_batchRequest {fuel : Nat} {state : CollectionState Ref}
    (ends : EndsOn (fun link => ocHandleCollectionRequest graph request fuel
        (graph.defaultInterface link) none) graph state.resource
      ((graph.links state.resource).getD [])) :
    (ocHandleCollectionRequest graph request (fuel + 1) .b notify
      state).isSome = true := by
  rw [ocHandleCollectionRequest, Option.isSome_map,
    ocHandleCollectionBatchRequest]
  split
  · exact isSome_processLinks ends [] [] {} state
  · exact isSome_processItems request.payload ends [] {}

theorem exists_fuel_of_acc
    (ends : Acc (Function.swap (FollowsBatch graph)) collection) :
    ∃ least, ∀ fuel ≥ least, ∀ (notify : Option Ref)
      (state : CollectionState Ref), state.resource = collection →
      (ocHandleCollectionRequest graph request fuel .b notify
        state).isSome = true := by
  induction ends with
  | intro collection _ ih =>
      have each : ∀ link ∈ (graph.links collection).getD [],
          ∃ least, ∀ fuel ≥ least, link ≠ collection →
            ocCheckIfCollection graph link = true →
            ∀ state : CollectionState Ref, state.resource = link →
              (ocHandleCollectionRequest graph request fuel
                (graph.defaultInterface link) none state).isSome = true := by
        intro link linked
        by_cases follows : FollowsBatch graph collection link
        · obtain ⟨least, enough⟩ := ih link follows
          refine ⟨least, fun fuel bound _ _ state own => ?_⟩
          rw [follows.batch]
          exact enough fuel bound none state own
        · refine ⟨1, fun fuel bound other isCollection state own => ?_⟩
          have notBatch : graph.defaultInterface link ≠ .b :=
            fun batch => follows ⟨other, linked, isCollection, batch⟩
          obtain ⟨fuel, rfl⟩ := Nat.exists_eq_add_of_le' bound
          exact isSome_of_ne_b notBatch fuel state
      obtain ⟨least, enough⟩ := exists_bound_forall_mem each
      refine ⟨least + 1, fun fuel bound notify state own => ?_⟩
      obtain ⟨fuel, rfl⟩ := Nat.exists_eq_add_of_le' bound
      subst own
      rw [show fuel + (least + 1) = fuel + least + 1 from rfl]
      exact isSome_batchRequest fun link member other isCollection =>
        enough (fuel + least) (Nat.le_add_left _ _) link member other
          isCollection

end Ending

section Endless

variable {graph : CollectionGraph Ref}

/-- A GET that nothing stops. -/
def openRequest (Ref : Type) : CollectionRequest Ref where
  method := .get
  payload := []
  selects _ := true
  allowed _ := true
  hasHandler _ := false
  respond _ _ _ := CoapCode.content
  hasSetProps _ := false
  setProps _ _ := false
  creates _ _ := false
  fits _ _ := true

/-- Nested requests do not fail. -/
def NeverFails (nested : NestedRequest Ref) : Prop :=
  ∀ link state success final, nested link state = some (success, final) →
    success = true

theorem ok_processLinks {nested : NestedRequest Ref}
    (neverFails : NeverFails nested) {collection : Ref} {links : List Ref}
    {result last : CollectionResult} {state final : CollectionState Ref}
    (ok : result.ok = true)
    (run : collectionBatchRequestProcessLinks graph (openRequest Ref) nested
      collection [] [] none links result state = some (last, final)) :
    last.ok = true := by
  induction links generalizing result state with
  | nil =>
      obtain ⟨rfl, -⟩ := Prod.mk.inj (Option.some.inj run)
      exact ok
  | cons link links ih =>
      unfold collectionBatchRequestProcessLinks at run
      dsimp only at run
      have added (code : Nat) : (result.add code).ok = true := by
        unfold CollectionResult.add
        split <;> exact ok
      split_ifs at run
      · exact ih ok run
      · exact ih (added _) run
      · split at run <;> rename_i answer
        · cases run
        · cases neverFails _ _ _ _ answer
        · exact ih (added _) run
      · exact ih (added _) run
      · refine ih ?_ run
        exact ok

theorem neverFails_openRequest (fuel : Nat) :
    NeverFails fun link => ocHandleCollectionRequest graph (openRequest Ref)
      fuel (graph.defaultInterface link) none := by
  have each : ∀ (iface : CollectionInterface) (state : CollectionState Ref)
      (success : Bool) (final : CollectionState Ref),
      ocHandleCollectionRequest graph (openRequest Ref) fuel iface none state =
        some (success, final) → success = true := by
    induction fuel with
    | zero =>
        intro iface state success final run
        cases run
    | succ fuel ih =>
        intro iface state success final run
        unfold ocHandleCollectionRequest at run
        obtain ⟨⟨result, after⟩, here, sent⟩ := Option.map_eq_some_iff.mp run
        have ok : result.ok = true := by
          cases iface with
          | b => exact ok_processLinks (fun link => ih _) rfl here
          | _ =>
              obtain ⟨rfl, -⟩ := Prod.mk.inj (Option.some.inj here)
              rfl
        dsimp only at sent
        rw [if_pos ok] at sent
        exact (Prod.mk.inj sent).1.symm
  exact fun link => each _

theorem processLinks_eq_none {nested : NestedRequest Ref}
    {collection link : Ref} {links : List Ref} (linked : link ∈ links)
    (other : link ≠ collection)
    (isCollection : ocCheckIfCollection graph link = true)
    (neverFails : NeverFails nested)
    (endless : ∀ state : CollectionState Ref, state.resource = link →
      nested link state = none)
    (result : CollectionResult) (state : CollectionState Ref) :
    collectionBatchRequestProcessLinks graph (openRequest Ref) nested
      collection [] [] none links result state = none := by
  induction links generalizing result state with
  | nil => cases linked
  | cons first links ih =>
      have addressed : addressesLink graph (openRequest Ref) [] none first =
          true := rfl
      have allowed : (openRequest Ref).allowed first = true := rfl
      unfold collectionBatchRequestProcessLinks
      dsimp only
      rw [addressed, allowed]
      by_cases here : first = link
      · subst here
        simp only [Bool.not_true, Bool.false_eq_true, if_false]
        rw [if_pos ⟨other, isCollection⟩, endless _ rfl]
      · have later := ih ((List.mem_cons.mp linked).resolve_left
          fun same => here same.symm)
        simp only [Bool.not_true, Bool.false_eq_true, if_false]
        split_ifs
        · split <;> rename_i answer
          · rfl
          · cases neverFails _ _ _ _ answer
          · exact later _ _
        · exact later _ _
        · exact later _ _

theorem openRequest_eq_none (fuel : Nat) {collection : Ref}
    (cycle : ReachesCycle (FollowsBatch graph) collection)
    {state : CollectionState Ref} (own : state.resource = collection) :
    ocHandleCollectionRequest graph (openRequest Ref) fuel .b none state =
      none := by
  induction fuel generalizing collection state with
  | zero => rfl
  | succ fuel ih =>
      obtain ⟨link, follows, later⟩ := cycle.next
      subst own
      have links := processLinks_eq_none follows.linked follows.other
        follows.collection (neverFails_openRequest fuel) (fun state own => by
          rw [follows.batch]
          exact ih later own) {} state
      rw [ocHandleCollectionRequest]
      exact congrArg (Option.map _) links

end Endless

/-- For every finite graph and every collection: batch requests end, whatever
they ask for and however they are answered, exactly when the links that are
followed lead to no cycle. -/
def CollectionTerminationContract (Ref : Type) [DecidableEq Ref] : Prop :=
  ∀ [Finite Ref] (graph : CollectionGraph Ref) (collection : Ref),
    (∀ request notify, BatchRequestEnds graph request notify collection) ↔
      ¬ ReachesCycle (FollowsBatch graph) collection

theorem collection_requests_end (Ref : Type) [DecidableEq Ref] :
    CollectionTerminationContract Ref := by
  intro _ graph collection
  constructor
  · intro ends cycle
    obtain ⟨fuel, some⟩ := ends (openRequest Ref) none
    rw [openRequest_eq_none fuel cycle rfl] at some
    cases some
  · intro acyclic request notify
    obtain ⟨least, enough⟩ := @exists_fuel_of_acc Ref _ graph request
      collection (acc_of_not_reachesCycle acyclic)
    exact ⟨least, enough least le_rfl notify _ rfl⟩

theorem collection_requests_end_unlinked :
    ∀ request notify, BatchRequestEnds
      ⟨fun _ : Bool => ascii "/a", fun _ => .b, fun _ => none⟩
      request notify true := by
  refine (collection_requests_end Bool _ true).mpr ?_
  rintro ⟨collection, -, cycle⟩
  obtain ⟨next, ⟨-, member, -⟩, -⟩ := Relation.TransGen.head'_iff.mp cycle
  cases member

/-- Two collections that link each other, with the batch interface as their
default. -/
def mutualCollections : CollectionGraph Bool where
  uri collection := if collection then ascii "/a" else ascii "/b"
  defaultInterface _ := .b
  links collection := some [!collection]

theorem not_batchRequestEnds_mutualCollections :
    ¬ ∀ (Ref : Type) [DecidableEq Ref] [Finite Ref]
      (graph : CollectionGraph Ref) (request : CollectionRequest Ref)
      (notify : Option Ref) (collection : Ref),
      BatchRequestEnds graph request notify collection := by
  intro ends
  have follows (collection : Bool) :
      FollowsBatch mutualCollections collection (!collection) :=
    ⟨by cases collection <;> decide, List.mem_singleton_self _, rfl, rfl⟩
  have cycle : ReachesCycle (FollowsBatch mutualCollections) true :=
    ⟨true, .refl, (Relation.TransGen.single (follows true)).tail
      (follows false)⟩
  obtain ⟨fuel, some⟩ := ends Bool mutualCollections (openRequest Bool) none
    true
  rw [openRequest_eq_none fuel cycle rfl] at some
  cases some

end IotivityLite
