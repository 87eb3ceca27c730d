import IotivityLite.Security.Ace

/-!
# ETags and their storage

The global ETag of `oc_etag.c`, the dump of the ETags of all resources and
the load after a restart.  The clock and the random numbers come from the
world and are counted by calls.  The checksum of a resource is that of its
representation at the time of the dump or of the load, if there is one.
-/

namespace IotivityLite

/-- A resource as far as its ETag is concerned. -/
structure EtagResource where
  uri : Bytes
  /-- zero is `OC_ETAG_UNINITIALIZED` -/
  etag : UInt64
  /-- the result of `oc_resource_get_crc64` -/
  crc64 : Option UInt64
  deriving DecidableEq

structure EtagDevice where
  /-- the device is in RFNOP -/
  canUpdate : Bool
  resources : List EtagResource
  deriving DecidableEq

/-- The global ETag and the number of calls for random numbers so far. -/
structure EtagSource where
  globalEtag : UInt64
  calls : Nat
  deriving DecidableEq

structure EtagState where
  source : EtagSource
  platform : List EtagResource
  devices : List EtagDevice
  deriving DecidableEq

/-- The clock and the random number at each call. -/
structure EtagWorld where
  clockTime : Nat → UInt64
  randomValue : Nat → UInt32

def etagRandom (world : EtagWorld) (call : Nat) : UInt64 :=
  (world.randomValue call % 1000).toUInt64 + 1

def ocEtagSetGlobal (etag : UInt64) : UInt64 :=
  if etag = 0 then 1 else etag

/-- `oc_etag_get`, whose result is the new global ETag. -/
def ocEtagGet (world : EtagWorld) (source : EtagSource) : EtagSource :=
  let now := world.clockTime source.calls
  let etag := if now > source.globalEtag then now else source.globalEtag
  ⟨ocEtagSetGlobal (etag + etagRandom world source.calls), source.calls + 1⟩

/-- The map that is stored under the URI of a resource. -/
structure EtagEntry where
  etag : Option UInt64
  crc : Option UInt64
  deriving DecidableEq

abbrev EtagRep := List (Bytes × EtagEntry)

/-- The store of the platform and one store for each device. -/
structure EtagStorage where
  platform : Option EtagRep
  device : Nat → Option EtagRep

structure EtagSetup where
  ocWkcore : Bool
  ocSecurity : Bool

/-- `/.well-known/core` -/
def wkcoreUri : Bytes :=
  [47, 46, 119, 101, 108, 108, 45, 107, 110, 111, 119, 110, 47, 99, 111, 114,
    101]

/-- `/oic/sec/csr` -/
def csrUri : Bytes := [47, 111, 105, 99, 47, 115, 101, 99, 47, 99, 115, 114]

def ocEtagDumpIgnoreResource (setup : EtagSetup) (uri : Bytes) : Bool :=
  (setup.ocWkcore && ocResourceMatchUri wkcoreUri uri) ||
    (setup.ocSecurity && uri == csrUri)

/-- `oc_etag_encode_resource_etag`: `none` when the resource is skipped. -/
def ocEtagEncodeResourceEtag (resource : EtagResource) :
    Option (Bytes × EtagEntry) :=
  if resource.etag = 0 then none
  else resource.crc64.map
    (fun crc64 => (resource.uri, ⟨some resource.etag, some crc64⟩))

def etagIterateEncodeResource (setup : EtagSetup) (resource : EtagResource) :
    Option (Bytes × EtagEntry) :=
  if ocEtagDumpIgnoreResource setup resource.uri then none
  else ocEtagEncodeResourceEtag resource

def etagStoreEncode (setup : EtagSetup) (resources : List EtagResource) :
    EtagRep :=
  resources.filterMap (etagIterateEncodeResource setup)

/-- Whether each store could be written.  One that could not keeps what was
in it. -/
structure EtagSaves where
  platform : Bool
  device : Nat → Bool

def ocEtagDump (setup : EtagSetup) (saves : EtagSaves) (state : EtagState)
    (storage : EtagStorage) : EtagStorage × Bool :=
  ({ platform :=
      if saves.platform then some (etagStoreEncode setup state.platform)
      else storage.platform
     device := fun index =>
      match state.devices[index]? with
      | none => storage.device index
      | some device =>
          if saves.device index then
            some (etagStoreEncode setup device.resources)
          else storage.device index },
    saves.platform && (List.range state.devices.length).all saves.device)

def ocEtagDecodeResourceEtag (resource : EtagResource) (entry : EtagEntry) :
    Option UInt64 :=
  match entry.etag, entry.crc, resource.crc64 with
  | some etag, some crc, some crc64 =>
      if etag = 0 then none
      else if crc ≠ crc64 then none
      else some etag
  | _, _, _ => none

/-- The ETag that a store holds for a resource. -/
def EtagResource.stored (rep : EtagRep) (resource : EtagResource) :
    Option UInt64 :=
  (rep.find? (fun entry => entry.1 == resource.uri)).bind
    (fun entry => ocEtagDecodeResourceEtag resource entry.2)

def etagIterateUpdateResourcesByRep (rep : EtagRep) (update : Bool)
    (etag : UInt64) (resource : EtagResource) : UInt64 × EtagResource :=
  match resource.stored rep with
  | none => (etag, resource)
  | some stored =>
      (if stored > etag then stored else etag,
        if update then { resource with etag := stored } else resource)

/-- `etag_store_decode_etags`: the largest ETag so far, and the resources. -/
def etagStoreDecodeEtags (rep : EtagRep) (update : Bool) (etag : UInt64) :
    List EtagResource → UInt64 × List EtagResource
  | [] => (etag, [])
  | resource :: resources =>
      let (etag, resource) :=
        etagIterateUpdateResourcesByRep rep update etag resource
      let (etag, resources) := etagStoreDecodeEtags rep update etag resources
      (etag, resource :: resources)

/-- `oc_storage_data_load` with `etag_store_decode_etags`. -/
def loadEtags (store : Option EtagRep) (update : Bool) (etag : UInt64)
    (resources : List EtagResource) : UInt64 × List EtagResource :=
  match store with
  | none => (etag, resources)
  | some rep => etagStoreDecodeEtags rep update etag resources

def etagIterateClearEtag (resource : EtagResource) : EtagResource :=
  { resource with etag := 0 }

/-- The first loop over the devices. -/
def loadDevices (fromStorageOnly : Bool) (storage : EtagStorage)
    (index : Nat) (etag : UInt64) : List EtagDevice →
    UInt64 × List EtagDevice
  | [] => (etag, [])
  | device :: devices =>
      let resources :=
        if !fromStorageOnly && device.canUpdate then
          device.resources.map etagIterateClearEtag
        else device.resources
      let (etag, resources) := loadEtags (storage.device index)
        device.canUpdate etag resources
      let (etag, devices) := loadDevices fromStorageOnly storage (index + 1)
        etag devices
      (etag, { device with resources := resources } :: devices)

/-- The loop with `etag_iterate_update_empty_etag`. -/
def updateEmptyEtags (world : EtagWorld) (source : EtagSource) :
    List EtagResource → EtagSource × List EtagResource
  | [] => (source, [])
  | resource :: resources =>
      if resource.etag = 0 then
        let source := ocEtagGet world source
        let (later, resources) := updateEmptyEtags world source resources
        (later, { resource with etag := source.globalEtag } :: resources)
      else
        let (later, resources) := updateEmptyEtags world source resources
        (later, resource :: resources)

/-- The second loop over the devices. -/
def updateEmptyDevices (world : EtagWorld) (source : EtagSource) :
    List EtagDevice → EtagSource × List EtagDevice
  | [] => (source, [])
  | device :: devices =>
      if device.canUpdate then
        let (source, resources) :=
          updateEmptyEtags world source device.resources
        let (source, devices) := updateEmptyDevices world source devices
        (source, { device with resources := resources } :: devices)
      else
        let (source, devices) := updateEmptyDevices world source devices
        (source, device :: devices)

def ocEtagLoadFromStorage (world : EtagWorld) (fromStorageOnly : Bool)
    (storage : EtagStorage) (state : EtagState) : EtagState × Bool :=
  let source := ocEtagGet world state.source
  let platform :=
    if fromStorageOnly then state.platform
    else state.platform.map etagIterateClearEtag
  let (etag, platform) := loadEtags storage.platform true source.globalEtag
    platform
  let (etag, devices) := loadDevices fromStorageOnly storage 0 etag
    state.devices
  let success := storage.platform.isSome &&
    (List.range state.devices.length).all (storage.device · |>.isSome)
  let source : EtagSource :=
    ⟨ocEtagSetGlobal (etag + etagRandom world source.calls),
      source.calls + 1⟩
  if fromStorageOnly then (⟨source, platform, devices⟩, success)
  else
    let (source, platform) := updateEmptyEtags world source platform
    let (source, devices) := updateEmptyDevices world source devices
    (⟨source, platform, devices⟩, success)

end IotivityLite
