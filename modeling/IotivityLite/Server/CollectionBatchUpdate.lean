import IotivityLite.Server.CollectionBatchRun

/-!
# Batch updates

What a POST or PUT with the batch interface does to the links of a collection.
Between the items the payload of the item before stays, and the result is that
of the last item; a linked collection is not updated with the item but handles
the request itself.
-/

namespace IotivityLite

section Specification

variable {Ref : Type} [DecidableEq Ref] (graph : CollectionGraph Ref)
  (request : CollectionRequest Ref) (collection : Ref)

/-- The link has the href, may be accessed, and there is something to call. -/
def appliesTo (href : Bytes) (link : Ref) : Bool :=
  href == graph.uri link && request.allowed link &&
    (request.hasHandler link || linksCollection graph collection link)

/-- The calls for one item, with its own payload. -/
def batchItemCalls (item : Rep) : List (CollectionCall Ref) :=
  (((graph.links collection).getD []).filter
    (appliesTo graph request collection (itemHref item))).map
    (.handler · (itemRep item))

/-- The calls for all items. -/
def expectedCalls (payload : Rep) : List (CollectionCall Ref) :=
  (payload.filterMap itemOf).flatMap (batchItemCalls graph request collection)

/-- Some of the links are addressed, and all those succeed. -/
def addressedSucceed (calls : List (CollectionCall Ref)) (payload : Rep)
    (addressed : List Ref) : Bool :=
  addressed ≠ [] && handlersSucceed request payload calls addressed

/-- The links with an href. -/
def linksWithHref (href : Bytes) : List Ref :=
  ((graph.links collection).getD []).filter (href == graph.uri ·)

/-- Every item addresses some link, and all handlers succeed. -/
def everyItemSucceeds : List (CollectionCall Ref) → Rep → Bool
  | _, [] => true
  | calls, entry :: payload =>
      match itemOf entry with
      | none => false
      | some item =>
          addressedSucceed request calls (itemRep item)
            (linksWithHref graph collection (itemHref item)) &&
          everyItemSucceeds
            (calls ++ batchItemCalls graph request collection item) payload

/-- What the property says of one request: the calls are those of the items,
the code of the response tells if all items succeed, and the request has its
resource back. -/
def UpdatesItems : Prop :=
  ∃ fuel success final,
    ocHandleCollectionRequest graph request fuel .b none
      { resource := collection } = some (success, final) ∧
    final.calls = expectedCalls graph request collection request.payload ∧
    ((success = true ∧ ∃ code, final.code = some code ∧
        code < CoapCode.badRequest) ↔
      everyItemSucceeds graph request collection [] request.payload =
        true) ∧
    final.resource = collection

end Specification

section Condition

variable {Ref : Type} [DecidableEq Ref] (graph : CollectionGraph Ref)
  (request : CollectionRequest Ref) (collection : Ref)

/-- Nothing is to be done for the item. -/
def NothingApplies (item : Rep) : Prop :=
  ∀ link ∈ (graph.links collection).getD [],
    appliesTo graph request collection (itemHref item) link = false

/-- The links that an item applies to are selected by the query and are not
other collections. -/
def OnlyHandlers (item : Rep) : Prop :=
  ∀ link ∈ (graph.links collection).getD [],
    appliesTo graph request collection (itemHref item) link = true →
      request.selects link = true ∧
        linksCollection graph collection link = false

/-- Items come with a payload of their own when the one before them had one,
and nothing is left to be done behind an entry that is not an item. -/
def ItemsStandAlone : (carried payload : Rep) → Prop
  | _, [] => True
  | carried, entry :: payload =>
      match itemOf entry with
      | none => ∀ item ∈ payload.filterMap itemOf,
          NothingApplies graph request collection item
      | some item =>
          OnlyHandlers graph request collection item ∧
          (NothingApplies graph request collection item ∨
            (batchItem carried item).2 = itemRep item) ∧
          ItemsStandAlone (batchItem carried item).2 payload

/-- The links that the query selects, with an href. -/
def selectedWithHref (href : Bytes) : List Ref :=
  ((graph.links collection).getD []).filter
    (addressesLink graph request href none)

/-- The last item succeeds on the links that the query selects. -/
def lastItemSucceeds (before : Bool) :
    List (CollectionCall Ref) → Rep → Bool
  | _, [] => before
  | calls, entry :: payload =>
      match itemOf entry with
      | none => false
      | some item =>
          lastItemSucceeds
            (addressedSucceed request calls (itemRep item)
              (selectedWithHref graph request collection (itemHref item)))
            (calls ++ batchItemCalls graph request collection item) payload

/-- The links with an entry in the response. -/
def responseEntries : Rep → List Ref
  | [] => []
  | entry :: payload =>
      match itemOf entry with
      | none => []
      | some item =>
          (selectedWithHref graph request collection (itemHref item)).filter
            (fun link => !request.allowed link || request.hasHandler link) ++
          responseEntries payload

/-- The response to the update fits into the buffer. -/
def updateFits : Bool :=
  request.fits (expectedCalls graph request collection request.payload)
    (responseEntries graph request collection request.payload)

structure UpdateCondition : Prop where
  standAlone : ItemsStandAlone graph request collection [] request.payload
  nonempty : request.payload ≠ []
  last : lastItemSucceeds graph request collection false [] request.payload =
      true →
    updateFits graph request collection = true →
    everyItemSucceeds graph request collection [] request.payload = true
  fits : everyItemSucceeds graph request collection [] request.payload =
      true → updateFits graph request collection = true

end Condition

section Items

variable {Ref : Type} [DecidableEq Ref] {graph : CollectionGraph Ref}
  {request : CollectionRequest Ref} {nested : NestedRequest Ref}
  {collection : Ref}

/-- The calls that are made for one item with some payload. -/
def madeCalls (graph : CollectionGraph Ref) (request : CollectionRequest Ref)
    (collection : Ref) (item payload : Rep) : List (CollectionCall Ref) :=
  ((selectedWithHref graph request collection (itemHref item)).filter
    fun link => request.allowed link && request.hasHandler link).map
      (.handler · payload)

def allMadeCalls (graph : CollectionGraph Ref)
    (request : CollectionRequest Ref) (collection : Ref) :
    (carried payload : Rep) → List (CollectionCall Ref)
  | _, [] => []
  | carried, entry :: payload =>
      match itemOf entry with
      | none => []
      | some item =>
          madeCalls graph request collection item
            (batchItem carried item).2 ++
          allMadeCalls graph request collection (batchItem carried item).2
            payload

theorem addressed_handler_iff (update : request.method.isGetOrDelete = false)
    {href : Bytes} (given : href ≠ []) (link : Ref) :
    (addressesLink graph request href none link && (request.allowed link &&
      request.hasHandler link)) =
    (request.selects link && (href == graph.uri link &&
      request.allowed link && request.hasHandler link)) := by
  have full : (href == []) = false := by simpa using given
  unfold addressesLink
  rw [update, full]
  cases request.selects link <;> cases href == graph.uri link <;> rfl

theorem madeCalls_eq_batchItemCalls
    (update : request.method.isGetOrDelete = false) {item : Rep}
    (given : itemHref item ≠ [])
    (only : OnlyHandlers graph request collection item) {payload : Rep}
    (own : NothingApplies graph request collection item ∨
      payload = itemRep item) :
    madeCalls graph request collection item payload =
      batchItemCalls graph request collection item := by
  have same : ∀ link ∈ (graph.links collection).getD [],
      (addressesLink graph request (itemHref item) none link &&
        (request.allowed link && request.hasHandler link)) =
      appliesTo graph request collection (itemHref item) link := by
    intro link member
    rw [addressed_handler_iff update given]
    have linked := only link member
    unfold appliesTo at linked ⊢
    revert linked
    cases request.selects link <;> cases itemHref item == graph.uri link <;>
      cases request.allowed link <;> cases request.hasHandler link <;>
      cases linksCollection graph collection link <;> decide
  unfold madeCalls batchItemCalls selectedWithHref
  rw [List.filter_filter]
  have filtered := List.filter_congr same
  rcases own with nothing | rfl
  · have none := List.filter_eq_nil_iff.mpr fun link member =>
      Bool.eq_false_iff.mp (nothing link member)
    simp only [Bool.and_comm] at filtered ⊢
    rw [filtered, none]
    rfl
  · simp only [Bool.and_comm] at filtered ⊢
    rw [filtered]

theorem madeCalls_sublist (update : request.method.isGetOrDelete = false)
    {item : Rep} (given : itemHref item ≠ []) :
    ((selectedWithHref graph request collection (itemHref item)).filter
      fun link => request.allowed link && request.hasHandler link).Sublist
    (((graph.links collection).getD []).filter
      (appliesTo graph request collection (itemHref item))) := by
  unfold selectedWithHref
  rw [List.filter_filter]
  refine List.monotone_filter_right _ fun link called => ?_
  rw [Bool.and_comm, addressed_handler_iff update given] at called
  simp only [Bool.and_eq_true] at called
  simp [appliesTo, called.2.1.1, called.2.1.2, called.2.2]

theorem standsAlone_of_madeCalls
    (update : request.method.isGetOrDelete = false) {item payload : Rep}
    (given : itemHref item ≠ [])
    (reaches : ∀ link ∈ (graph.links collection).getD [],
      addressesLink graph request (itemHref item) none link = true →
      request.allowed link = true →
      linksCollection graph collection link = false)
    (same : madeCalls graph request collection item payload =
      batchItemCalls graph request collection item) :
    OnlyHandlers graph request collection item ∧
      (NothingApplies graph request collection item ∨
        payload = itemRep item) := by
  unfold madeCalls batchItemCalls at same
  have lengths := congrArg List.length same
  rw [List.length_map, List.length_map] at lengths
  have links := (@madeCalls_sublist Ref _ graph request collection update
    item given).eq_of_length lengths
  constructor
  · intro link member applies
    have inside := List.mem_filter.mpr ⟨member, applies⟩
    rw [← links] at inside
    obtain ⟨selected, called⟩ := List.mem_filter.mp inside
    have addressed := (List.mem_filter.mp selected).2
    rw [Bool.and_eq_true] at called
    have selects : request.selects link = true := by
      simp only [addressesLink, Bool.and_eq_true] at addressed
      exact addressed.1.2
    exact ⟨selects, reaches link member addressed called.1⟩
  · rw [links] at same
    cases found : ((graph.links collection).getD []).filter
        (appliesTo graph request collection (itemHref item)) with
    | nil =>
        left
        intro link member
        exact Bool.eq_false_iff.mpr
          (List.filter_eq_nil_iff.mp found link member)
    | cons link later =>
        right
        rw [found, List.map_cons, List.map_cons] at same
        exact (CollectionCall.handler.inj (List.cons.inj same).1).2

theorem expectedCalls_cons (entry : Bytes × RepValue) (items : Rep) :
    expectedCalls graph request collection (entry :: items) =
      match itemOf entry with
      | none => expectedCalls graph request collection items
      | some item => batchItemCalls graph request collection item ++
          expectedCalls graph request collection items := by
  unfold expectedCalls
  cases found : itemOf entry with
  | none => rw [List.filterMap_cons_none found]
  | some item => rw [List.filterMap_cons_some found, List.flatMap_cons]

theorem length_allMadeCalls_le
    (update : request.method.isGetOrDelete = false) (carried items : Rep) :
    (allMadeCalls graph request collection carried items).length ≤
      (expectedCalls graph request collection items).length := by
  induction items generalizing carried with
  | nil => exact Nat.zero_le _
  | cons entry items ih =>
      rw [expectedCalls_cons, allMadeCalls]
      cases found : itemOf entry with
      | none => exact Nat.zero_le _
      | some item =>
          have here := (@madeCalls_sublist Ref _ graph request collection
            update item (itemHref_ne_nil found)).length_le
          simp only [List.length_append, madeCalls, batchItemCalls,
            List.length_map]
          exact Nat.add_le_add here (ih _)

theorem expectedCalls_eq_nil {items : Rep} :
    expectedCalls graph request collection items = [] ↔
      ∀ item ∈ items.filterMap itemOf,
        NothingApplies graph request collection item := by
  unfold expectedCalls
  rw [List.flatMap_eq_nil_iff]
  refine forall_congr' fun item => imp_congr_right fun _ => ?_
  unfold batchItemCalls NothingApplies
  rw [List.map_eq_nil_iff, List.filter_eq_nil_iff]
  simp only [Bool.not_eq_true]

section

variable (update : request.method.isGetOrDelete = false)

include update

theorem allMadeCalls_eq_iff {items : Rep}
    (reaches : ReachesNoCollection graph request collection items)
    (carried : Rep) :
    allMadeCalls graph request collection carried items =
        expectedCalls graph request collection items ↔
      ItemsStandAlone graph request collection carried items := by
  induction items generalizing carried with
  | nil => exact ⟨fun _ => trivial, fun _ => rfl⟩
  | cons entry items ih =>
      rw [expectedCalls_cons, allMadeCalls, ItemsStandAlone]
      rw [ReachesNoCollection] at reaches
      cases found : itemOf entry with
      | none => exact eq_comm.trans expectedCalls_eq_nil
      | some item =>
          rw [found] at reaches
          have given := itemHref_ne_nil found
          dsimp only
          constructor
          · intro same
            have lengths := congrArg List.length same
            rw [List.length_append, List.length_append] at lengths
            have here : (madeCalls graph request collection item
                (batchItem carried item).2).length ≤
                (batchItemCalls graph request collection item).length := by
              have links := (@madeCalls_sublist Ref _ graph request
                collection update item given).length_le
              simpa [madeCalls, batchItemCalls] using links
            have later := @length_allMadeCalls_le Ref _ graph request
              collection update (batchItem carried item).2 items
            obtain ⟨first, second⟩ := List.append_inj same (by omega)
            obtain ⟨only, own⟩ := standsAlone_of_madeCalls update given
              reaches.1 first
            exact ⟨only, own, (ih reaches.2 _).mp second⟩
          · rintro ⟨only, own, later⟩
            rw [madeCalls_eq_batchItemCalls update given only own,
              (ih reaches.2 _).mpr later]

theorem reachesNoCollection_of_standAlone {carried items : Rep}
    (alone : ItemsStandAlone graph request collection carried items) :
    ReachesNoCollection graph request collection items := by
  induction items generalizing carried with
  | nil => trivial
  | cons entry items ih =>
      rw [ItemsStandAlone] at alone
      rw [ReachesNoCollection]
      cases found : itemOf entry with
      | none => trivial
      | some item =>
          rw [found] at alone
          obtain ⟨only, -, later⟩ := alone
          refine ⟨fun link member addressed allowed => ?_, ih later⟩
          by_contra linked
          rw [Bool.not_eq_false] at linked
          have given : (itemHref item == []) = false := by
            simpa using itemHref_ne_nil found
          have applies : appliesTo graph request collection (itemHref item)
              link = true := by
            simp only [addressesLink, update, given, Bool.false_or,
              Bool.and_eq_true] at addressed
            simp [appliesTo, addressed.2, allowed, linked]
          rw [(only link member applies).2] at linked
          cases linked

theorem addressedSucceed_own {item payload : Rep} (given : itemHref item ≠ [])
    (own : NothingApplies graph request collection item ∨
      payload = itemRep item) (calls : List (CollectionCall Ref)) :
    addressedSucceed request calls payload
        (selectedWithHref graph request collection (itemHref item)) =
      addressedSucceed request calls (itemRep item)
        (selectedWithHref graph request collection (itemHref item)) := by
  rcases own with nothing | rfl
  · cases found : selectedWithHref graph request collection
        (itemHref item) with
    | nil => rfl
    | cons link later =>
        have inside : link ∈ selectedWithHref graph request collection
            (itemHref item) := by
          rw [found]
          exact List.mem_cons_self
        obtain ⟨member, addressed⟩ := List.mem_filter.mp inside
        have refused : (request.allowed link && request.hasHandler link) =
            false := by
          have called := @addressed_handler_iff Ref _ graph request update _
            given link
          have none := nothing link member
          unfold appliesTo at none
          rw [addressed, Bool.true_and] at called
          rw [called]
          revert none
          cases request.selects link <;>
            cases itemHref item == graph.uri link <;>
            cases request.allowed link <;> cases request.hasHandler link <;>
            cases linksCollection graph collection link <;> decide
        simp [addressedSucceed, handlersSucceed, refused]
  · rfl

end

theorem processItems_handlers
    (update : request.method.isGetOrDelete = false) {items : Rep}
    (reaches : ReachesNoCollection graph request collection items)
    (carried : Rep) {result : CollectionResult} (ok : result.ok = true)
    {state : CollectionState Ref} (own : state.resource = collection) :
    ∃ last, collectionBatchRequestProcessItems graph request nested none items
        carried result state = some (last, { state with
          calls := state.calls ++
            allMadeCalls graph request collection carried items
          entries := state.entries ++
            responseEntries graph request collection items }) ∧
      last.ok = true ∧
      (ItemsStandAlone graph request collection carried items →
        last.succeeds = lastItemSucceeds graph request collection
          result.succeeds state.calls items) := by
  induction items generalizing carried result state with
  | nil =>
      refine ⟨result, ?_, ok, fun _ => rfl⟩
      simp [collectionBatchRequestProcessItems, allMadeCalls,
        responseEntries]
  | cons entry items ih =>
      rw [processItems_cons, allMadeCalls, responseEntries, lastItemSucceeds,
        ItemsStandAlone]
      rw [ReachesNoCollection] at reaches
      cases found : itemOf entry with
      | none =>
          refine ⟨{ result with ecode := CoapCode.badRequest }, ?_, ok, ?_⟩
          · simp
          · intro _
            simp [CollectionResult.succeeds]
      | some item =>
          rw [found] at reaches
          have given := itemHref_ne_nil found
          subst own
          obtain ⟨first, run, firstOk, firstSucceeds⟩ :=
            @processLinks_handlers Ref _ graph request nested state.resource
              (itemHref item) (batchItem carried item).2 _ reaches.1 {} state
          dsimp only
          rw [run]
          dsimp only
          rw [if_pos firstOk]
          obtain ⟨last, rest, lastOk, succeeds⟩ := @ih reaches.2
            (batchItem carried item).2 first firstOk
            { state with
              calls := state.calls ++ madeCalls graph request state.resource
                item (batchItem carried item).2
              entries := state.entries ++ (selectedWithHref graph request
                state.resource (itemHref item)).filter fun link =>
                  !request.allowed link || request.hasHandler link } rfl
          refine ⟨last, ?_, lastOk, ?_⟩
          · rw [← List.append_assoc, ← List.append_assoc]
            exact rest
          · rintro ⟨only, alone, later⟩
            have answer : first.succeeds = addressedSucceed request
                state.calls (itemRep item) (selectedWithHref graph request
                  state.resource (itemHref item)) := by
              have ecode : decide (({} : CollectionResult).ecode <
                  CoapCode.badRequest) = true := by decide
              have pcode : decide (({} : CollectionResult).pcode <
                  CoapCode.badRequest) = false := by decide
              rw [← addressedSucceed_own update given alone, firstSucceeds,
                ecode, pcode, Bool.true_and, Bool.false_or]
              exact Bool.and_comm _ _
            rw [succeeds later, answer,
              madeCalls_eq_batchItemCalls update given only alone]

end Items

section Codes

variable {Ref : Type} [DecidableEq Ref] {graph : CollectionGraph Ref}
  {request : CollectionRequest Ref} {collection : Ref}

omit [DecidableEq Ref] in
theorem forall_of_handlersSucceed {payload : Rep} {links : List Ref}
    {calls : List (CollectionCall Ref)}
    (succeed : handlersSucceed request payload calls links = true) :
    ∀ link ∈ links, request.allowed link = true ∧
      request.hasHandler link = true := by
  induction links generalizing calls with
  | nil => simp
  | cons link links ih =>
      simp only [handlersSucceed, Bool.and_eq_true] at succeed
      exact List.forall_mem_cons.mpr ⟨succeed.1.1, ih succeed.2⟩

theorem lastItemSucceeds_of_every
    (update : request.method.isGetOrDelete = false) {carried items : Rep}
    (alone : ItemsStandAlone graph request collection carried items)
    {before : Bool} (start : items = [] → before = true)
    {calls : List (CollectionCall Ref)}
    (every : everyItemSucceeds graph request collection calls items =
      true) :
    lastItemSucceeds graph request collection before calls items = true := by
  induction items generalizing carried before calls with
  | nil => exact start rfl
  | cons entry items ih =>
      rw [ItemsStandAlone] at alone
      rw [everyItemSucceeds] at every
      rw [lastItemSucceeds]
      cases found : itemOf entry with
      | none =>
          rw [found] at every
          cases every
      | some item =>
          rw [found] at alone every
          rw [Bool.and_eq_true] at every
          refine ih alone.2.2 (fun _ => ?_) every.2
          -- the query selects the links that succeed
          have succeed := every.1
          rw [addressedSucceed, Bool.and_eq_true] at succeed
          have each := forall_of_handlersSucceed succeed.2
          have same : selectedWithHref graph request collection
              (itemHref item) = linksWithHref graph collection
                (itemHref item) := by
            refine List.filter_congr fun link member => ?_
            have given : (itemHref item == []) = false := by
              simpa using itemHref_ne_nil found
            cases fits : itemHref item == graph.uri link with
            | false => simp [addressesLink, update, given, fits]
            | true =>
                obtain ⟨allowed, handler⟩ := each link
                  (List.mem_filter.mpr ⟨member, fits⟩)
                have selects := (alone.1 link member (by
                  simp [appliesTo, fits, allowed, handler])).1
                simp [addressesLink, fits, selects]
          rw [same]
          exact every.1

omit [DecidableEq Ref] in
theorem sendCollectionResponse_update
    (update : request.method = .post ∨ request.method = .put)
    (result : CollectionResult) (state : CollectionState Ref) :
    ((sendCollectionResponse request .b result state).1 = true ∧
      ∃ code, (sendCollectionResponse request .b result state).2.code =
        some code ∧ code < CoapCode.badRequest) ↔
      result.succeeds = true ∧
        request.fits state.calls state.entries = true := by
  have changed : collectionMethodSuccessCode request.method .b =
      CoapCode.changed := by
    rcases update with post | put
    · rw [post]
      rfl
    · rw [put]
      rfl
  have success : CoapCode.changed < CoapCode.badRequest := by decide
  unfold sendCollectionResponse
  rw [changed]
  cases request.fits state.calls state.entries with
  | false => simp
  | true => cases result.succeeds <;> simp [success]

end Codes

/-- For every collection and every update with the batch interface: the
property holds exactly under the condition. -/
def BatchUpdateContract (Ref : Type) [DecidableEq Ref] : Prop :=
  ∀ (graph : CollectionGraph Ref) (request : CollectionRequest Ref)
    (collection : Ref),
    (request.method = .post ∨ request.method = .put) →
    (UpdatesItems graph request collection ↔
      UpdateCondition graph request collection)

theorem isGetOrDelete_of_update {method : OcMethod}
    (update : method = .post ∨ method = .put) :
    method.isGetOrDelete = false := by
  rcases update with rfl | rfl <;> rfl

section Update

variable {Ref : Type} [DecidableEq Ref] {graph : CollectionGraph Ref}
  {request : CollectionRequest Ref} {collection : Ref}

/-- The state after an update that reaches no other collection. -/
def updatedState (graph : CollectionGraph Ref)
    (request : CollectionRequest Ref) (collection : Ref) :
    CollectionState Ref where
  resource := collection
  calls := allMadeCalls graph request collection [] request.payload
  entries := responseEntries graph request collection request.payload

theorem update_run (update : request.method.isGetOrDelete = false)
    (reaches : ReachesNoCollection graph request collection request.payload)
    (fuel : Nat) :
    ∃ last, ocHandleCollectionRequest graph request (fuel + 1) .b none
        { resource := collection } = some (sendCollectionResponse request .b
          last (updatedState graph request collection)) ∧
      (ItemsStandAlone graph request collection [] request.payload →
        last.succeeds = lastItemSucceeds graph request collection false []
          request.payload) := by
  obtain ⟨last, run, ok, succeeds⟩ := @processItems_handlers Ref _ graph
    request (fun link => ocHandleCollectionRequest graph request fuel
      (graph.defaultInterface link) none) collection update _ reaches [] {}
    rfl { resource := collection } rfl
  refine ⟨last, ?_, succeeds⟩
  rw [ocHandleCollectionRequest, ocHandleCollectionBatchRequest, update,
    if_neg Bool.false_ne_true, run, Option.map_some]
  dsimp only
  rw [if_pos ok]
  rfl

theorem reachesNoCollection_of_run
    (update : request.method.isGetOrDelete = false) {fuel : Nat}
    {success : Bool} {final : CollectionState Ref}
    (run : ocHandleCollectionRequest graph request fuel .b none
      { resource := collection } = some (success, final))
    (asksNone : ¬ AsksCollection final.calls) :
    ReachesNoCollection graph request collection request.payload := by
  cases fuel with
  | zero => cases run
  | succ fuel =>
      rw [ocHandleCollectionRequest, ocHandleCollectionBatchRequest, update,
        if_neg Bool.false_ne_true] at run
      obtain ⟨⟨last, after⟩, here, sent⟩ := Option.map_eq_some_iff.mp run
      refine asks_processItems (growsCalls_request fuel) rfl here ?_
      have same : final.calls = after.calls := by
        dsimp only [sendCollectionResponse] at sent
        split_ifs at sent <;> cases sent <;> rfl
      rwa [← same]

theorem not_asksCollection_expectedCalls (payload : Rep) :
    ¬ AsksCollection (expectedCalls graph request collection payload) := by
  rintro ⟨link, asked⟩
  obtain ⟨item, -, inside⟩ := List.mem_flatMap.mp asked
  obtain ⟨other, -, same⟩ := List.mem_map.mp inside
  cases same

theorem update_code (method : request.method = .post ∨ request.method = .put)
    (alone : ItemsStandAlone graph request collection [] request.payload)
    {last : CollectionResult}
    (succeeds : last.succeeds = lastItemSucceeds graph request collection
      false [] request.payload) :
    let response := sendCollectionResponse request .b last
      (updatedState graph request collection)
    (response.1 = true ∧ ∃ code, response.2.code = some code ∧
        code < CoapCode.badRequest) ↔
      lastItemSucceeds graph request collection false [] request.payload =
          true ∧
        updateFits graph request collection = true := by
  have update := isGetOrDelete_of_update method
  have calls := (allMadeCalls_eq_iff update
    (reachesNoCollection_of_standAlone update alone) []).mpr alone
  dsimp only
  rw [sendCollectionResponse_update method, succeeds, updatedState,
    updateFits, calls]

end Update

theorem batch_update (Ref : Type) [DecidableEq Ref] :
    BatchUpdateContract Ref := by
  intro graph request collection method
  have update := isGetOrDelete_of_update method
  constructor
  · rintro ⟨fuel, success, final, run, calls, codes, -⟩
    have reaches := reachesNoCollection_of_run update run (by
      rw [calls]
      exact not_asksCollection_expectedCalls _)
    cases fuel with
    | zero => cases run
    | succ fuel =>
        obtain ⟨last, same, succeeds⟩ := update_run update reaches fuel
        rw [run, Option.some.injEq] at same
        have sent : final.calls =
            allMadeCalls graph request collection [] request.payload := by
          have second := congrArg (fun pair => pair.2.calls) same
          dsimp only [sendCollectionResponse] at second
          split_ifs at second <;> exact second
        have alone := (allMadeCalls_eq_iff update reaches []).mp
          (sent.symm.trans calls)
        have told := update_code method alone (succeeds alone)
        dsimp only at told
        rw [← same, codes] at told
        refine ⟨alone, ?_, fun last fits => told.mpr ⟨last, fits⟩,
          fun every => (told.mp every).2⟩
        intro empty
        have every := told.mp (by rw [empty]; rfl)
        rw [empty] at every
        cases every.1
  · intro condition
    have reaches := reachesNoCollection_of_standAlone update
      condition.standAlone
    obtain ⟨last, run, succeeds⟩ := update_run update reaches 0
    have told := update_code method condition.standAlone
      (succeeds condition.standAlone)
    have state : (sendCollectionResponse request .b last
          (updatedState graph request collection)).2.calls =
          expectedCalls graph request collection request.payload ∧
        (sendCollectionResponse request .b last
          (updatedState graph request collection)).2.resource =
          collection := by
      have calls := (allMadeCalls_eq_iff update reaches []).mpr
        condition.standAlone
      unfold sendCollectionResponse
      split_ifs <;> exact ⟨calls, rfl⟩
    refine ⟨1, _, _, run, state.1, told.trans ?_, state.2⟩
    constructor
    · rintro ⟨last, fits⟩
      exact condition.last last fits
    · intro every
      exact ⟨lastItemSucceeds_of_every update condition.standAlone
        (fun empty => absurd empty condition.nonempty) every,
        condition.fits every⟩

/-- A collection with two links. -/
def twoLinks : CollectionGraph Nat where
  uri resource := if resource = 1 then ascii "/1" else ascii "/2"
  defaultInterface _ := .baseline
  links resource := if resource = 0 then some [1, 2] else none

/-- The second item has no payload. -/
def secondWithoutRep : CollectionRequest Nat :=
  { openRequest Nat with
    method := .post
    payload := [
      ([], .object [(ascii "href", .string (ascii "/1")),
        (ascii "rep", .object [(ascii "on", .bool true)])]),
      ([], .object [(ascii "href", .string (ascii "/2"))])]
    hasHandler := fun _ => true
    respond := fun _ _ _ => CoapCode.changed }

/-- Without the second item the update is right. -/
theorem batch_update_firstItem :
    UpdatesItems twoLinks { secondWithoutRep with
      payload := secondWithoutRep.payload.take 1 } 0 := by
  refine (batch_update Nat _ _ 0 (.inl rfl)).mpr
    ⟨⟨?_, .inr rfl, trivial⟩, by decide, by decide, by decide⟩
  unfold OnlyHandlers
  decide

/-- The second resource is updated with the payload of the first. -/
theorem not_updatesItems_secondWithoutRep :
    ¬ ∀ (Ref : Type) [DecidableEq Ref] (graph : CollectionGraph Ref)
      (request : CollectionRequest Ref) (collection : Ref),
      (request.method = .post ∨ request.method = .put) →
      UpdatesItems graph request collection := by
  intro updates
  obtain ⟨fuel, success, final, run, calls, -⟩ :=
    updates Nat twoLinks secondWithoutRep 0 (.inl rfl)
  cases fuel with
  | zero => cases run
  | succ fuel =>
      obtain ⟨-, rfl⟩ := Prod.mk.inj (Option.some.inj run)
      obtain ⟨-, later⟩ := List.cons.inj calls
      obtain ⟨second, -⟩ := List.cons.inj later
      cases (CollectionCall.handler.inj second).2

end IotivityLite
