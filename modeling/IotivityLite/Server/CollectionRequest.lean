import IotivityLite.Security.AccessCheck

/-!
# Requests on collections

`oc_handle_collection_request` of `oc_collection.c`.  A batch request visits
the links of the collection; a link to another collection is handled by the
same function, with the default interface of that collection and with the
request itself, whose resource it replaces in the meantime.  Recursion is
bounded by fuel, and `none` says that it was not enough.
-/

namespace IotivityLite

/-- The interfaces that are told apart. -/
inductive CollectionInterface where
  | create
  | baseline
  | ll
  | b
  | other
  deriving DecidableEq, Repr

/-- The collections of a device with their links. -/
structure CollectionGraph (Ref : Type) where
  uri : Ref → Bytes
  defaultInterface : Ref → CollectionInterface
  /-- `none` for a resource that is not a collection -/
  links : Ref → Option (List Ref)

/-- What is done to resources. -/
inductive CollectionCall (Ref : Type) where
  /-- the handler of a resource, with the payload of its request -/
  | handler (resource : Ref) (payload : Rep)
  /-- a linked collection is asked with the request itself -/
  | request (collection : Ref)
  | setProperties (collection : Ref) (payload : Rep)
  | create (collection : Ref) (payload : Rep)

/-- A request with the answers that it gets.  What a callback answers may
depend on all the calls before; the length of the response depends on them and
on the links that have an entry in it. -/
structure CollectionRequest (Ref : Type) where
  method : OcMethod
  /-- the list `request_payload`, which is empty for `NULL` -/
  payload : Rep
  /-- `oc_filter_resource_by_rt` -/
  selects : Ref → Bool
  /-- there is no origin, or `oc_sec_check_acl` lets it pass -/
  allowed : Ref → Bool
  /-- `oc_resource_get_method_handler` -/
  hasHandler : Ref → Bool
  respond : List (CollectionCall Ref) → Ref → Rep → Nat
  hasSetProps : Ref → Bool
  setProps : List (CollectionCall Ref) → Ref → Bool
  creates : List (CollectionCall Ref) → Ref → Bool
  fits : List (CollectionCall Ref) → List Ref → Bool

/-- What changes while a request is handled: `request->resource`, the calls,
the links with an entry in the response, and the code of the response. -/
structure CollectionState (Ref : Type) where
  resource : Ref
  calls : List (CollectionCall Ref) := []
  entries : List Ref := []
  code : Option Nat := none

namespace CoapCode

abbrev created : Nat := 65
abbrev deleted : Nat := 66
abbrev changed : Nat := 68
abbrev content : Nat := 69
abbrev badRequest : Nat := 128
abbrev forbidden : Nat := 131
abbrev methodNotAllowed : Nat := 133

end CoapCode

/-- `oc_handle_collection_request_result_t` -/
structure CollectionResult where
  ok : Bool := true
  ecode : Nat := CoapCode.content
  pcode : Nat := CoapCode.badRequest
  deriving DecidableEq

/-- The code of one link. -/
def CollectionResult.add (result : CollectionResult) (code : Nat) :
    CollectionResult :=
  if code < CoapCode.badRequest then { result with pcode := code }
  else { result with ecode := code }

def CollectionResult.succeeds (result : CollectionResult) : Bool :=
  result.ecode < CoapCode.badRequest && result.pcode < CoapCode.badRequest

def collectionMethodSuccessCode (method : OcMethod)
    (iface : CollectionInterface) : Nat :=
  match method with
  | .get => CoapCode.content
  | .post | .put =>
      if iface = .create then CoapCode.created else CoapCode.changed
  | .delete => CoapCode.deleted
  | .fetch => CoapCode.badRequest

def OcMethod.isGetOrDelete : OcMethod → Bool
  | .get | .delete => true
  | _ => false

section Handling

variable {Ref : Type} [DecidableEq Ref] (graph : CollectionGraph Ref)
  (request : CollectionRequest Ref)

def ocCheckIfCollection (resource : Ref) : Bool :=
  (graph.links resource).isSome

def ocHandleCollectionBaselineRequest (state : CollectionState Ref) :
    CollectionResult × CollectionState Ref :=
  match request.method with
  | .put | .post =>
      if request.hasSetProps state.resource then
        ({ ok := request.setProps state.calls state.resource },
          { state with calls := state.calls ++
            [.setProperties state.resource request.payload] })
      else ({ ok := false }, state)
  | .get => ({ pcode := CoapCode.content }, state)
  | _ => ({}, state)

/-- The link is one that the request is about. -/
def addressesLink (href : Bytes) (notify : Option Ref) (link : Ref) : Bool :=
  notify.all (· == link) && request.selects link &&
    (request.method.isGetOrDelete || href == [] || href == graph.uri link)

/-- A nested request, or `none` if it takes too long: whether it succeeded,
and the state after it. -/
abbrev NestedRequest (Ref : Type) :=
  Ref → CollectionState Ref → Option (Bool × CollectionState Ref)

/-- The loop over the links of `collection`. -/
def collectionBatchRequestProcessLinks (nested : NestedRequest Ref)
    (collection : Ref) (href : Bytes) (payload : Rep) (notify : Option Ref) :
    List Ref → CollectionResult → CollectionState Ref →
      Option (CollectionResult × CollectionState Ref)
  | [], result, state => some (result, state)
  | link :: links, result, state =>
      let process := collectionBatchRequestProcessLinks nested collection href
        payload notify links
      if !addressesLink graph request href notify link then
        process result state
      else if !request.allowed link then
        process (result.add CoapCode.forbidden)
          { state with entries := state.entries ++ [link] }
      else if link ≠ collection ∧ ocCheckIfCollection graph link then
        match nested link { state with
            resource := link, calls := state.calls ++ [.request link] } with
        | none => none
        | some (false, state) => some ({ ok := false }, state)
        | some (true, state) =>
            -- `response_buffer` has no code then
            process (result.add 0) { state with
              resource := collection, entries := state.entries ++ [link] }
      else if request.hasHandler link then
        process (result.add (request.respond state.calls link payload))
          { state with
            calls := state.calls ++ [.handler link payload]
            entries := state.entries ++ [link] }
      else process { result with ecode := CoapCode.methodNotAllowed } state

/-- What is found in an item: the last text is the href, the last object the
payload, which is that of the item before when there is none. -/
def batchItem (payload : Rep) : Rep → Option Bytes × Rep
  | [] => (none, payload)
  | (_, .object rep) :: item => batchItem rep item
  | (_, .string text) :: item =>
      let (href, payload) := batchItem payload item
      (some (href.getD text), payload)
  | _ :: item => batchItem payload item

/-- The loop over the items. -/
def collectionBatchRequestProcessItems (nested : NestedRequest Ref)
    (notify : Option Ref) :
    Rep → (payload : Rep) → CollectionResult → CollectionState Ref →
      Option (CollectionResult × CollectionState Ref)
  | [], _, result, state => some (result, state)
  | (_, .object item) :: items, payload, result, state =>
      match batchItem payload item with
      | (href, payload) =>
          if href.getD [] = [] then
            some ({ result with ecode := CoapCode.badRequest }, state)
          else
            match collectionBatchRequestProcessLinks graph request nested
              state.resource (href.getD []) payload notify
              ((graph.links state.resource).getD []) {} state with
            | none => none
            | some (result, state) =>
                if result.ok then
                  collectionBatchRequestProcessItems nested notify items
                    payload result state
                else some (result, state)
  | _ :: _, _, result, state =>
      some ({ result with ecode := CoapCode.badRequest }, state)

def ocHandleCollectionBatchRequest (nested : NestedRequest Ref)
    (notify : Option Ref) (state : CollectionState Ref) :
    Option (CollectionResult × CollectionState Ref) :=
  if request.method.isGetOrDelete then
    collectionBatchRequestProcessLinks graph request nested state.resource []
      [] notify ((graph.links state.resource).getD []) {} state
  else
    collectionBatchRequestProcessItems graph request nested notify
      request.payload [] {} state

/-- The response, if it fits. -/
def sendCollectionResponse (iface : CollectionInterface)
    (result : CollectionResult) (state : CollectionState Ref) :
    Bool × CollectionState Ref :=
  if request.fits state.calls state.entries then
    let code :=
      if result.succeeds then
        collectionMethodSuccessCode request.method iface
      else CoapCode.badRequest
    (true, { state with code := some code })
  else (false, state)

def ocHandleCollectionRequest : (fuel : Nat) → CollectionInterface →
    (notify : Option Ref) → CollectionState Ref →
      Option (Bool × CollectionState Ref)
  | 0, _, _, _ => none
  | fuel + 1, iface, notify, state =>
      let result : Option (CollectionResult × CollectionState Ref) :=
        match iface with
        | .create =>
            let code :=
              if request.creates state.calls state.resource then
                CoapCode.content
              else CoapCode.badRequest
            some ({ ecode := code, pcode := code },
              { state with calls := state.calls ++
                [.create state.resource request.payload] })
        | .baseline =>
            some (ocHandleCollectionBaselineRequest request state)
        | .ll => some ({ pcode := CoapCode.content }, state)
        | .b =>
            ocHandleCollectionBatchRequest graph request
              (fun link => ocHandleCollectionRequest fuel
                (graph.defaultInterface link) none) notify state
        | .other => some ({}, state)
      result.map fun (result, state) =>
        if result.ok then sendCollectionResponse request iface result state
        else (false, state)

end Handling

end IotivityLite
