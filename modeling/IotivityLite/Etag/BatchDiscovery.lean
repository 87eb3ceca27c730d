import IotivityLite.Etag.Storage
import IotivityLite.Foundation.Run
import IotivityLite.Server.Query
import IotivityLite.Util.Base64

/-!
# Batch discovery

The batch representation of `/oic/res` of one device, its ETag and the answer
to a GET that carries an ETag.  Resources get their ETag when they are created
and a new one when their representation changes.  That a resource was added or
deleted is only noted in the ETag of `/oic/res` itself, by a delayed callback.
A collection is a resource like any other here.
-/

namespace IotivityLite

/-- The resources that discovery treats on their own. -/
inductive BatchedKind where
  /-- `/oic/res` -/
  | discovery
  /-- `/.well-known/core` -/
  | wellKnownCore
  | svr
  | other
  deriving DecidableEq, Repr

/-- Where a resource is kept. -/
inductive BatchedPlace where
  /-- among the core resources -/
  | core
  /-- created, but not added -/
  | created
  /-- in `g_app_resources` -/
  | listed
  /-- in `g_app_resources_to_be_deleted` -/
  | leaving
  deriving DecidableEq, Repr

/-- The text of a UUID. -/
structure DeviceIdText where
  text : Bytes
  length_eq : text.length = 36
  deriving DecidableEq

structure BatchedInfo where
  uri : Bytes
  types : List Bytes
  deviceId : DeviceIdText
  kind : BatchedKind
  discoverable : Bool
  deriving DecidableEq

structure BatchedResource where
  /-- the address -/
  ref : Nat
  info : BatchedInfo
  place : BatchedPlace
  etag : UInt64
  /-- what the GET handler answers; `none` stands for `CLEAR_TRANSACTION` -/
  rep : Option Bytes
  deriving DecidableEq

structure DiscoveryState where
  source : EtagSource
  nextRef : Nat
  resources : List BatchedResource
  /-- `notify_resource_added_or_deleted_dispatch_async` is scheduled -/
  dispatching : Bool
  deriving DecidableEq

def DiscoveryState.initial (source : EtagSource) : DiscoveryState :=
  ⟨source, 0, [], false⟩

section Operations

variable (world : EtagWorld) (state : DiscoveryState)

/-- A resource with an ETag of its own. -/
def DiscoveryState.grow (place : BatchedPlace) (info : BatchedInfo)
    (rep : Option Bytes) : DiscoveryState :=
  let source := ocEtagGet world state.source
  { state with
    source := source
    nextRef := state.nextRef + 1
    resources := state.resources ++
      [⟨state.nextRef, info, place, source.globalEtag, rep⟩] }

def ocStoreUri (uri : Bytes) : Bytes :=
  if uri.head? = some 47 then uri else 47 :: uri

/-- `oc_new_resource` and the setup of the resource before it is added. -/
def ocNewResource (info : BatchedInfo) (rep : Option Bytes) :
    DiscoveryState :=
  state.grow world .created
    { info with uri := ocStoreUri info.uri, kind := .other } rep

def ocCorePopulateResource (info : BatchedInfo) (rep : Option Bytes) :
    DiscoveryState :=
  state.grow world .core { info with uri := ocStoreUri info.uri } rep

/-- The comparison in `ri_uri_is_in_list`. -/
def riUriMatches (stored uri : Bytes) : Bool :=
  let uri := uri.dropWhile (· == 47)
  stored.length == uri.length + 1 && stored.drop 1 == uri

def ocRiURIIsInUse (uri : Bytes) : Bool :=
  state.resources.any fun resource =>
    match resource.place with
    | .core => ocResourceMatchUri resource.info.uri uri
    | .created => false
    | .listed => riUriMatches resource.info.uri uri
    | .leaving => riUriMatches resource.info.uri uri

/-- `oc_ri_add_resource` of a resource that has handlers. -/
def ocRiAddResource (ref : Nat) : DiscoveryState :=
  match state.resources.find? (·.ref == ref) with
  | none => state
  | some resource =>
      if resource.place ≠ .created ∨
          ocRiURIIsInUse state resource.info.uri then state
      else
        { state with
          resources := state.resources.filter (·.ref != ref) ++
            [{ resource with place := .listed }]
          dispatching := true }

/-- The representation changes, then `oc_notify_resource_changed` is called. -/
def ocNotifyResourceChanged (ref : Nat) (rep : Option Bytes) :
    DiscoveryState :=
  if state.resources.any (·.ref == ref) then
    let source := ocEtagGet world state.source
    { state with
      source := source
      resources := state.resources.map fun resource =>
        if resource.ref = ref then
          { resource with etag := source.globalEtag, rep := rep }
        else resource }
  else state

def ocDelayedDeleteResource (ref : Nat) : DiscoveryState :=
  { state with
    resources := state.resources.map fun resource =>
      if resource.ref = ref ∧ resource.place ≠ .core then
        { resource with place := .leaving }
      else resource }

/-- `oc_ri_delete_resource`, which the callback of a delayed deletion calls,
too. -/
def ocRiDeleteResource (ref : Nat) : DiscoveryState :=
  match state.resources.find? (·.ref == ref) with
  | none => state
  | some resource =>
      if resource.place = .core then state
      else
        { state with
          resources := state.resources.filter (·.ref != ref)
          dispatching := state.dispatching || resource.place != .created }

/-- The delayed callback, which gives `/oic/res` a new ETag. -/
def notifyResourceAddedOrDeletedDispatchAsync : DiscoveryState :=
  if !state.dispatching then state
  else if state.resources.any (·.info.kind == .discovery) then
    let source := ocEtagGet world state.source
    { state with
      source := source
      resources := state.resources.map fun resource =>
        if resource.info.kind = .discovery then
          { resource with etag := source.globalEtag }
        else resource
      dispatching := false }
  else { state with dispatching := false }

end Operations

/-- What happens to the resources of a device. -/
inductive DiscoveryEvent where
  | populate (info : BatchedInfo) (rep : Option Bytes)
  | new (info : BatchedInfo) (rep : Option Bytes)
  | add (ref : Nat)
  | change (ref : Nat) (rep : Option Bytes)
  | delayedDelete (ref : Nat)
  | delete (ref : Nat)
  | dispatch
  /-- a resource of another device gets an ETag -/
  | elsewhere
  deriving DecidableEq

def DiscoveryState.step (world : EtagWorld) (state : DiscoveryState) :
    DiscoveryEvent → DiscoveryState
  | .populate info rep => ocCorePopulateResource world state info rep
  | .new info rep => ocNewResource world state info rep
  | .add ref => ocRiAddResource state ref
  | .change ref rep => ocNotifyResourceChanged world state ref rep
  | .delayedDelete ref => ocDelayedDeleteResource state ref
  | .delete ref => ocRiDeleteResource state ref
  | .dispatch => notifyResourceAddedOrDeletedDispatchAsync world state
  | .elsewhere => { state with source := ocEtagGet world state.source }

/-- A GET of the batch interface: the ETag option, empty if there is none, and
the query. -/
structure BatchGet where
  etag : Bytes
  query : Bytes
  deriving DecidableEq

/-- Eight bytes that are copied into a `uint64_t`, the least significant one
first. -/
def etagOfBytes (bytes : Bytes) : Option UInt64 :=
  if bytes.length = 8 then
    some (UInt64.ofNat
      (bytes.foldr (fun byte total => total * 256 + byte.toNat) 0))
  else none

/-- `incChanges` -/
def incChangesKey : Bytes := [105, 110, 99, 67, 104, 97, 110, 103, 101, 115]

/-- The key of a pair of the query is compared without regard to case. -/
def isIncChangesPair (pair : Bytes) : Bool :=
  (pair.takeWhile (· != 61)).map toLower == incChangesKey.map toLower

def ocEtagHasIncrementalUpdatesQuery (query : Bytes) : Bool :=
  (queryPairs query).any isIncChangesPair

def etagProcessIncrementalUpdatesValue (value : Bytes) : Option UInt64 :=
  (ocBase64DecodeV1 .url false value 12).bind etagOfBytes

/-- The items between the commas; empty ones are passed over. -/
def etagProcessIncrementalUpdatesValues (value : Bytes) : List UInt64 :=
  ((value.splitOn 44).filter (· ≠ [])).filterMap
    etagProcessIncrementalUpdatesValue

/-- The ETags of the pairs.  The position after a pair without a value is
computed from a null pointer and is behind the end of the query. -/
def incrementalUpdatesOfPairs : List Bytes → List UInt64
  | [] => []
  | pair :: pairs =>
      if isIncChangesPair pair then
        match queryPairValue pair with
        | none => []
        | some value =>
            etagProcessIncrementalUpdatesValues value ++
              incrementalUpdatesOfPairs pairs
      else incrementalUpdatesOfPairs pairs

def ocEtagIterateIncrementalUpdatesQuery (query : Bytes) : List UInt64 :=
  incrementalUpdatesOfPairs (queryPairs query)

/-- An object of the links array. -/
structure BatchLink where
  href : Bytes
  types : List Bytes
  etag : UInt64
  rep : Bytes
  deriving DecidableEq

/-- `ocf://` -/
def ocfScheme : Bytes := [111, 99, 102, 58, 47, 47]

/-- The URI is cut off where the buffer ends. -/
def BatchedInfo.href (info : BatchedInfo) : Bytes :=
  ocfScheme ++ info.deviceId.text ++ info.uri.take 256

/-- The CBOR of an object without properties. -/
def emptyObject : Bytes := [0xBF, 0xFF]

/-- The device and the client: whether a resource may be read is decided by
the access control list. -/
structure BatchSetup where
  ocWkcore : Bool
  ocSecurity : Bool
  readable : Bytes → Bool

section Batch

variable (setup : BatchSetup)

def ocDiscoveryResourceIsInBatchResponse (resource : BatchedResource)
    (skipDiscoveryResource : Bool) : Bool :=
  resource.info.discoverable &&
    !(skipDiscoveryResource && resource.info.kind == .discovery) &&
    !(setup.ocWkcore && resource.info.kind == .wellKnownCore) &&
    !(setup.ocSecurity &&
      (resource.info.kind == .svr || !setup.readable resource.info.uri))

/-- What `oc_resources_iterate` visits. -/
def DiscoveryState.iterated (state : DiscoveryState) : List BatchedResource :=
  state.resources.filter fun resource =>
    resource.place == .core || resource.place == .listed

/-- The resources of the batch, with `/oic/res`. -/
def DiscoveryState.batched (state : DiscoveryState) : List BatchedResource :=
  state.iterated.filter (ocDiscoveryResourceIsInBatchResponse setup · false)

def discoveryProcessBatchResponse (filter : BatchedResource → Bool)
    (resource : BatchedResource) : Option BatchLink :=
  if !ocDiscoveryResourceIsInBatchResponse setup resource true ||
      !filter resource then none
  else
    resource.rep.map fun payload =>
      { href := resource.info.href
        types := resource.info.types
        etag := resource.etag
        rep := if payload = [] then emptyObject else payload }

def ocDiscoveryGetBatchEtag (state : DiscoveryState) : UInt64 :=
  (state.batched setup).foldl
    (fun etag resource =>
      if resource.etag > etag then resource.etag else etag) 0

def discoveryBatchHasResourceWithEtag (state : DiscoveryState)
    (etag : UInt64) : Bool :=
  (state.batched setup).any (·.etag == etag)

/-- `discovery_iterate_incremental_updates` -/
def raiseCandidate (state : DiscoveryState) (candidate etag : UInt64) :
    UInt64 :=
  if etag < candidate then candidate
  else if !discoveryBatchHasResourceWithEtag setup state etag then candidate
  else etag

def discoveryFindIncrementalUpdatesEtag (state : DiscoveryState)
    (request : BatchGet) : UInt64 :=
  if !ocEtagHasIncrementalUpdatesQuery request.query then 0
  else
    let etag0 :=
      match etagOfBytes request.etag with
      | none => 0
      | some etag0 =>
          if discoveryBatchHasResourceWithEtag setup state etag0 then etag0
          else 0
    (ocEtagIterateIncrementalUpdatesQuery request.query).foldl
      (raiseCandidate setup state) etag0

/-- The answer to a GET of the batch: nothing has changed, all links, or those
that changed. -/
inductive BatchAnswer where
  | valid
  | full (links : List BatchLink)
  | incremental (links : List BatchLink)
  deriving DecidableEq

def discoveryProcessBatchRequest (state : DiscoveryState)
    (request : BatchGet) : BatchAnswer :=
  let etag := discoveryFindIncrementalUpdatesEtag setup state request
  if etag = 0 then
    .full (state.iterated.filterMap
      (discoveryProcessBatchResponse setup fun _ => true))
  else
    let links := state.iterated.filterMap
      (discoveryProcessBatchResponse setup fun resource =>
        resource.etag > etag)
    if links = [] then .valid else .incremental links

/-- The ETag option is compared with the ETag of the batch before the handler
is called. -/
def riInvokeBatchGet (state : DiscoveryState) (request : BatchGet) :
    BatchAnswer :=
  let etag := ocDiscoveryGetBatchEtag setup state
  if etag ≠ 0 ∧ etagOfBytes request.etag = some etag then .valid
  else discoveryProcessBatchRequest setup state request

/-- The batch representation of `/oic/res`. -/
def DiscoveryState.links (state : DiscoveryState) : List BatchLink :=
  state.iterated.filterMap (discoveryProcessBatchResponse setup fun _ => true)

end Batch

/-- What a client makes of its copy: a valid answer leaves it as it is, an
incremental one replaces the links that it contains. -/
def BatchAnswer.applyTo (copy : List BatchLink) : BatchAnswer → List BatchLink
  | .valid => copy
  | .full links => links
  | .incremental links =>
      copy.filter (fun link => links.all (·.href != link.href)) ++ links

end IotivityLite
