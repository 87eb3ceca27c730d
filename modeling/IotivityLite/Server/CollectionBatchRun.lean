import IotivityLite.Server.CollectionTermination

/-!
# Runs of batch updates

What the loops over the items and the links do.  Links to resources with
handlers lead to one call each; a link to another collection leaves a trace
among the calls, which are never taken back.
-/

namespace IotivityLite

/-- The href of an item. -/
def itemHref (item : Rep) : Bytes := (batchItem [] item).1.getD []

/-- The item's own payload. -/
def itemRep (item : Rep) : Rep := (batchItem [] item).2

/-- An entry of the payload is an item if it has an href. -/
def itemOf : Bytes × RepValue → Option Rep
  | (_, .object item) => if itemHref item = [] then none else some item
  | _ => none

theorem batchItem_fst (payload item : Rep) :
    (batchItem payload item).1 = (batchItem [] item).1 := by
  induction item generalizing payload with
  | nil => rfl
  | cons entry item ih =>
      obtain ⟨name, value⟩ := entry
      cases value with
      | string text => simp only [batchItem, ih payload]
      | object rep => rfl
      | _ => exact ih payload

theorem itemHref_ne_nil {entry : Bytes × RepValue} {item : Rep}
    (found : itemOf entry = some item) : itemHref item ≠ [] := by
  obtain ⟨name, value⟩ := entry
  cases value with
  | object own =>
      rw [itemOf] at found
      split_ifs at found with empty
      cases found
      exact empty
  | _ => cases found

section Links

variable {Ref : Type} [DecidableEq Ref] (graph : CollectionGraph Ref)
  (request : CollectionRequest Ref) (collection : Ref)

/-- The link is to another collection. -/
def linksCollection (link : Ref) : Bool :=
  link ≠ collection && ocCheckIfCollection graph link

/-- The links may be accessed, and their handlers succeed. -/
def handlersSucceed (payload : Rep) :
    List (CollectionCall Ref) → List Ref → Bool
  | _, [] => true
  | calls, link :: links =>
      request.allowed link && request.hasHandler link &&
        request.respond calls link payload < CoapCode.badRequest &&
        handlersSucceed payload (calls ++ [.handler link payload]) links

/-- The items that are reached address no other collection. -/
def ReachesNoCollection : Rep → Prop
  | [] => True
  | entry :: payload =>
      match itemOf entry with
      | none => True
      | some item =>
          (∀ link ∈ (graph.links collection).getD [],
            addressesLink graph request (itemHref item) none link = true →
            request.allowed link = true →
            linksCollection graph collection link = false) ∧
          ReachesNoCollection payload

end Links

section Handlers

variable {Ref : Type} [DecidableEq Ref] {graph : CollectionGraph Ref}
  {request : CollectionRequest Ref} {nested : NestedRequest Ref}
  {collection : Ref} {href : Bytes} {payload : Rep}

theorem processLinks_handlers {links : List Ref}
    (handlers : ∀ link ∈ links,
      addressesLink graph request href none link = true →
      request.allowed link = true →
      linksCollection graph collection link = false)
    (result : CollectionResult) (state : CollectionState Ref) :
    let addressed := links.filter (addressesLink graph request href none)
    ∃ last, collectionBatchRequestProcessLinks graph request nested collection
        href payload none links result state = some (last, { state with
          calls := state.calls ++ (addressed.filter fun link =>
            request.allowed link && request.hasHandler link).map
              (.handler · payload)
          entries := state.entries ++ addressed.filter fun link =>
            !request.allowed link || request.hasHandler link }) ∧
      last.ok = result.ok ∧
      last.succeeds = (decide (result.ecode < CoapCode.badRequest) &&
        handlersSucceed request payload state.calls addressed &&
        (decide (result.pcode < CoapCode.badRequest) ||
          decide (addressed ≠ []))) := by
  induction links generalizing result state with
  | nil =>
      refine ⟨result, ?_, rfl, ?_⟩
      · simp [collectionBatchRequestProcessLinks]
      · simp [CollectionResult.succeeds, handlersSucceed]
  | cons link links ih =>
      rw [List.forall_mem_cons] at handlers
      have later := ih handlers.2
      dsimp only at later ⊢
      unfold collectionBatchRequestProcessLinks
      dsimp only
      cases addressed : addressesLink graph request href none link with
      | false =>
          rw [List.filter_cons_of_neg (by simp [addressed])]
          exact later result state
      | true =>
          rw [List.filter_cons_of_pos addressed]
          simp only [Bool.not_true, Bool.false_eq_true, if_false]
          cases allowed : request.allowed link with
          | false =>
              obtain ⟨last, run, ok, succeeds⟩ := later
                (result.add CoapCode.forbidden)
                { state with entries := state.entries ++ [link] }
              refine ⟨last, ?_, ok, ?_⟩
              · simp [allowed, run]
              · have error : ¬ CoapCode.forbidden < CoapCode.badRequest := by
                  decide
                simp [succeeds, handlersSucceed, allowed,
                  CollectionResult.add, error]
          | true =>
              have handler := handlers.1 addressed allowed
              have alone : ¬ (link ≠ collection ∧
                  ocCheckIfCollection graph link = true) := by
                simpa [linksCollection] using handler
              simp only [Bool.not_true, Bool.false_eq_true, if_false]
              rw [if_neg alone]
              cases present : request.hasHandler link with
              | false =>
                  obtain ⟨last, run, ok, succeeds⟩ := later
                    { result with ecode := CoapCode.methodNotAllowed } state
                  refine ⟨last, ?_, ok, ?_⟩
                  · simp [allowed, present, run]
                  · have error : ¬ CoapCode.methodNotAllowed <
                        CoapCode.badRequest := by decide
                    simp [succeeds, handlersSucceed, allowed, present, error]
              | true =>
                  obtain ⟨last, run, ok, succeeds⟩ := later
                    (result.add (request.respond state.calls link payload))
                    { state with
                      calls := state.calls ++ [.handler link payload]
                      entries := state.entries ++ [link] }
                  refine ⟨last, ?_, ?_, ?_⟩
                  · simp [allowed, present, run]
                  · rw [ok, CollectionResult.add]
                    split <;> rfl
                  · rw [succeeds, handlersSucceed, allowed, present,
                      CollectionResult.add]
                    split <;> rename_i code <;> simp [code]

theorem processItems_cons {notify : Option Ref} (entry : Bytes × RepValue)
    (items carried : Rep) (result : CollectionResult)
    (state : CollectionState Ref) :
    collectionBatchRequestProcessItems graph request nested notify
        (entry :: items) carried result state =
      match itemOf entry with
      | none => some ({ result with ecode := CoapCode.badRequest }, state)
      | some item =>
          match collectionBatchRequestProcessLinks graph request nested
            state.resource (itemHref item) (batchItem carried item).2 notify
            ((graph.links state.resource).getD []) {} state with
          | none => none
          | some (result, state) =>
              if result.ok then
                collectionBatchRequestProcessItems graph request nested
                  notify items (batchItem carried item).2 result state
              else some (result, state) := by
  obtain ⟨name, value⟩ := entry
  cases value with
  | object item =>
      rw [collectionBatchRequestProcessItems, itemOf]
      dsimp only
      rw [batchItem_fst]
      unfold itemHref
      by_cases empty : (batchItem [] item).1.getD [] = []
      · rw [if_pos empty, if_pos empty]
      · rewrite [if_neg empty, if_neg empty]
        rfl
  | _ => rfl

end Handlers

section Growing

variable {Ref : Type} [DecidableEq Ref] {graph : CollectionGraph Ref}
  {request : CollectionRequest Ref} {nested : NestedRequest Ref}
  {collection : Ref} {href : Bytes} {notify : Option Ref}

/-- Nested requests add calls to those that were made. -/
def GrowsCalls (nested : NestedRequest Ref) : Prop :=
  ∀ link state success final, nested link state = some (success, final) →
    state.calls <+: final.calls

theorem calls_processLinks (grows : GrowsCalls nested) {payload : Rep}
    {links : List Ref} {result last : CollectionResult}
    {state final : CollectionState Ref}
    (run : collectionBatchRequestProcessLinks graph request nested collection
      href payload notify links result state = some (last, final)) :
    state.calls <+: final.calls := by
  induction links generalizing result state with
  | nil =>
      obtain ⟨-, rfl⟩ := Prod.mk.inj (Option.some.inj run)
      exact List.prefix_refl _
  | cons link links ih =>
      unfold collectionBatchRequestProcessLinks at run
      dsimp only at run
      split_ifs at run
      · exact ih run
      · have later := ih run
        exact later
      · have asked : state.calls <+: state.calls ++ [.request link] :=
          List.prefix_append _ _
        split at run <;> rename_i answer
        · cases run
        · obtain ⟨-, rfl⟩ := Prod.mk.inj (Option.some.inj run)
          exact asked.trans (grows _ _ _ _ answer)
        · have later := ih run
          exact asked.trans ((grows _ _ _ _ answer).trans later)
      · exact (List.prefix_append _ _).trans (ih run)
      · exact ih run

theorem calls_processItems (grows : GrowsCalls nested) {items carried : Rep}
    {result last : CollectionResult} {state final : CollectionState Ref}
    (run : collectionBatchRequestProcessItems graph request nested notify
      items carried result state = some (last, final)) :
    state.calls <+: final.calls := by
  induction items generalizing carried result state with
  | nil =>
      obtain ⟨-, rfl⟩ := Prod.mk.inj (Option.some.inj run)
      exact List.prefix_refl _
  | cons entry items ih =>
      rw [processItems_cons] at run
      split at run
      · obtain ⟨-, rfl⟩ := Prod.mk.inj (Option.some.inj run)
        exact List.prefix_refl _
      · split at run <;> rename_i links
        · cases run
        · split_ifs at run
          · exact (calls_processLinks grows links).trans (ih run)
          · obtain ⟨-, rfl⟩ := Prod.mk.inj (Option.some.inj run)
            exact calls_processLinks grows links

theorem growsCalls_request (fuel : Nat) :
    GrowsCalls fun link => ocHandleCollectionRequest graph request fuel
      (graph.defaultInterface link) none := by
  have each : ∀ (iface : CollectionInterface) (state : CollectionState Ref)
      (success : Bool) (final : CollectionState Ref),
      ocHandleCollectionRequest graph request fuel iface none state =
        some (success, final) → state.calls <+: final.calls := by
    induction fuel with
    | zero =>
        intro iface state success final run
        cases run
    | succ fuel ih =>
        intro iface state success final run
        unfold ocHandleCollectionRequest at run
        obtain ⟨⟨result, after⟩, here, sent⟩ := Option.map_eq_some_iff.mp run
        have grown : state.calls <+: after.calls := by
          cases iface with
          | b =>
              unfold ocHandleCollectionBatchRequest at here
              dsimp only at here
              split_ifs at here
              · exact calls_processLinks (fun link => ih _) here
              · exact calls_processItems (fun link => ih _) here
          | baseline =>
              have same := Option.some.inj here
              unfold ocHandleCollectionBaselineRequest at same
              split at same
              · split_ifs at same <;> obtain ⟨-, rfl⟩ := Prod.mk.inj same
                · exact List.prefix_append _ _
                · exact List.prefix_refl _
              · split_ifs at same <;> obtain ⟨-, rfl⟩ := Prod.mk.inj same
                · exact List.prefix_append _ _
                · exact List.prefix_refl _
              · obtain ⟨-, rfl⟩ := Prod.mk.inj same
                exact List.prefix_refl _
              · obtain ⟨-, rfl⟩ := Prod.mk.inj same
                exact List.prefix_refl _
          | create =>
              obtain ⟨-, rfl⟩ := Prod.mk.inj (Option.some.inj here)
              exact List.prefix_append _ _
          | ll | other =>
              obtain ⟨-, rfl⟩ := Prod.mk.inj (Option.some.inj here)
              exact List.prefix_refl _
        have same : final.calls = after.calls := by
          dsimp only [sendCollectionResponse] at sent
          split_ifs at sent <;> cases sent <;> rfl
        rw [same]
        exact grown
  exact fun link => each _

end Growing

section Reaching

variable {Ref : Type} [DecidableEq Ref] {graph : CollectionGraph Ref}
  {request : CollectionRequest Ref} {nested : NestedRequest Ref}
  {collection : Ref}

/-- Some collection was asked. -/
def AsksCollection (calls : List (CollectionCall Ref)) : Prop :=
  ∃ link, .request link ∈ calls

theorem asks_processLinks (grows : GrowsCalls nested) {href : Bytes}
    {payload : Rep} {links : List Ref} {result last : CollectionResult}
    {state final : CollectionState Ref}
    (run : collectionBatchRequestProcessLinks graph request nested collection
      href payload none links result state = some (last, final))
    (asksNone : ¬ AsksCollection final.calls) :
    ∀ link ∈ links, addressesLink graph request href none link = true →
      request.allowed link = true →
      linksCollection graph collection link = false := by
  induction links generalizing result state with
  | nil => simp
  | cons link links ih =>
      unfold collectionBatchRequestProcessLinks at run
      dsimp only at run
      rw [List.forall_mem_cons]
      split_ifs at run with skipped refused linked handler
      · exact ⟨fun addressed => by simp [addressed] at skipped, ih run⟩
      · exact ⟨fun _ allowed => by simp [allowed] at refused, ih run⟩
      · exfalso
        have asked (after : CollectionState Ref)
            (later : state.calls ++ [.request link] <+: after.calls)
            (rest : after.calls <+: final.calls) : False :=
          asksNone ⟨link, (later.trans rest).subset (by simp)⟩
        split at run <;> rename_i answer
        · cases run
        · obtain ⟨-, rfl⟩ := Prod.mk.inj (Option.some.inj run)
          exact asked _ (grows _ _ _ _ answer) (List.prefix_refl _)
        · have rest := calls_processLinks grows run
          exact asked _ (grows _ _ _ _ answer) rest
      · exact ⟨fun _ _ => by simpa [linksCollection] using linked, ih run⟩
      · exact ⟨fun _ _ => by simpa [linksCollection] using linked, ih run⟩

theorem asks_processItems (grows : GrowsCalls nested) {items carried : Rep}
    {result last : CollectionResult} {state final : CollectionState Ref}
    (own : state.resource = collection)
    (run : collectionBatchRequestProcessItems graph request nested none items
      carried result state = some (last, final))
    (asksNone : ¬ AsksCollection final.calls) :
    ReachesNoCollection graph request collection items := by
  induction items generalizing carried result state with
  | nil => trivial
  | cons entry items ih =>
      rw [processItems_cons] at run
      rw [ReachesNoCollection]
      cases found : itemOf entry with
      | none => trivial
      | some item =>
          rw [found] at run
          dsimp only at run
          subst own
          split at run <;> rename_i links
          · cases run
          · split_ifs at run with ok
            · have rest := calls_processItems grows run
              refine ⟨asks_processLinks grows links fun asked => ?_,
                ih (resource_of_processLinks links rfl ok) run⟩
              obtain ⟨link, inside⟩ := asked
              exact asksNone ⟨link, rest.subset inside⟩
            · -- only a linked collection that was asked can fail
              exfalso
              obtain ⟨rfl, rfl⟩ := Prod.mk.inj (Option.some.inj run)
              have handlers := asks_processLinks grows links asksNone
              obtain ⟨other, same, fine, -⟩ :=
                @processLinks_handlers Ref _ graph request nested
                  state.resource (itemHref item) (batchItem carried item).2 _
                  handlers {} state
              rw [links] at same
              obtain ⟨rfl, -⟩ := Prod.mk.inj (Option.some.inj same)
              exact ok fine

end Reaching

end IotivityLite
