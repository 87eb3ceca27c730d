import IotivityLite.Cloud.EndpointAddresses
import IotivityLite.Rep.Decode

/-!
# The storage of the cloud

`oc_cloud_store.c`: the store is encoded as one object, with the selected
server in properties of its own and the list of servers when there is more
than one, and decoded property by property.  Assertions are compiled out.
-/

namespace IotivityLite

/-- `oc_cloud_store_t`, with its flags as they are stored. -/
structure CloudRecord where
  ciServers : EndpointAddresses
  authProvider : Bytes
  uid : Bytes
  accessToken : Bytes
  refreshToken : Bytes
  status : UInt8
  cps : UInt8
  expiresIn : Int64
  deriving DecidableEq

def cloudCiServer : Bytes := ascii "ci_server"
def cloudServers : Bytes := ascii "x.org.iotivity.servers"
def cloudSid : Bytes := ascii "sid"
def cloudAuthProvider : Bytes := ascii "auth_provider"
def cloudUid : Bytes := ascii "uid"
def cloudAccessToken : Bytes := ascii "access_token"
def cloudRefreshToken : Bytes := ascii "refresh_token"
def cloudExpiresIn : Bytes := ascii "expires_in"
def cloudStatus : Bytes := ascii "status"
def cloudCps : Bytes := ascii "cps"
def cloudEndpointUri : Bytes := ascii "uri"
def cloudEndpointId : Bytes := ascii "id"

/-- `OCF_COAPCLOUDCONF_DEFAULT_CIS` -/
def defaultCis : Bytes := ascii "coaps+tcp://127.0.0.1"

/-- `oc_cloud_endpoint_addresses_init` on a list without addresses. -/
def initServers (limits : AddressLimits) (uri : Bytes) (uuid : Uuid) :
    EndpointAddresses × Bool :=
  if uri.length > 0 then
    match EndpointAddresses.empty.allocateAndAdd limits ⟨uri, uuid⟩ with
    | none => (.empty, false)
    | some (addresses, _) => (addresses, true)
  else (.empty, true)

/-- `oc_cloud_store_initialize` -/
def CloudRecord.initial (limits : AddressLimits) : CloudRecord where
  ciServers := (initServers limits defaultCis .nil).1
  authProvider := []
  uid := []
  accessToken := []
  refreshToken := []
  status := 0
  cps := 0
  expiresIn := 0

/-- `oc_endpoint_address_encode` for an address with a UUID. -/
def ocEndpointAddressEncode (uriKey uuidKey : Bytes)
    (address : EndpointAddress) : OcRep :=
  [(uriKey, .string address.uri),
    (uuidKey, .string (ocUuidToStr address.uuid))]

/-- `oc_endpoint_addresses_encode`: a single address is left out. -/
def ocEndpointAddressesEncode (addresses : EndpointAddresses) : OcRep :=
  if addresses.addresses.length ≤ 1 then []
  else [(cloudServers, .objectArray (addresses.addresses.map
    (ocEndpointAddressEncode cloudEndpointUri cloudEndpointId)))]

/-- The members that `oc_cloud_store_encode` writes. -/
def ocCloudStoreEncode (store : CloudRecord) : OcRep :=
  (match store.ciServers.selectedAddress with
    | none => []
    | some selected =>
        ocEndpointAddressEncode cloudCiServer cloudSid selected) ++
  ocEndpointAddressesEncode store.ciServers ++
  [(cloudAuthProvider, .string store.authProvider),
    (cloudUid, .string store.uid),
    (cloudAccessToken, .string store.accessToken),
    (cloudRefreshToken, .string store.refreshToken),
    (cloudStatus, .int (.ofNat store.status.toNat)),
    (cloudCps, .int (.ofNat store.cps.toNat)),
    (cloudExpiresIn, .int store.expiresIn)]

/-- `cloud_store_data_t` -/
structure CloudStoreData where
  ciServers : Option (List OcRep)
  ciServer : Option Bytes
  sid : Option Bytes
  authProvider : Option Bytes
  uid : Option Bytes
  accessToken : Option Bytes
  refreshToken : Option Bytes
  status : UInt8
  cps : UInt8
  expiresIn : Int64

def CloudStoreData.start (store : CloudRecord) : CloudStoreData :=
  ⟨none, none, none, none, none, none, none, store.status, store.cps,
    store.expiresIn⟩

def cloudStoreParseStringProperty (name value : Bytes)
    (csd : CloudStoreData) : Option CloudStoreData :=
  if name = cloudCiServer then some { csd with ciServer := some value }
  else if name = cloudSid then some { csd with sid := some value }
  else if name = cloudAuthProvider then
    some { csd with authProvider := some value }
  else if name = cloudUid then some { csd with uid := some value }
  else if name = cloudAccessToken then
    some { csd with accessToken := some value }
  else if name = cloudRefreshToken then
    some { csd with refreshToken := some value }
  else none

/-- A conversion to `uint8_t` keeps the lowest bits. -/
def cloudStoreParseIntProperty (name : Bytes) (value : Int64)
    (csd : CloudStoreData) : Option CloudStoreData :=
  if name = cloudStatus then
    some { csd with status := value.toUInt64.toUInt8 }
  else if name = cloudCps then
    some { csd with cps := value.toUInt64.toUInt8 }
  else if name = cloudExpiresIn then some { csd with expiresIn := value }
  else none

def cloudStoreParseObjectArrayProperty (name : Bytes) (items : List OcRep)
    (csd : CloudStoreData) : Option CloudStoreData :=
  if name = cloudServers then some { csd with ciServers := some items }
  else none

def cloudStoreParseProperty (csd : CloudStoreData) :
    Bytes × OcRepValue → Option CloudStoreData
  | (name, .objectArray items) =>
      cloudStoreParseObjectArrayProperty name items csd
  | (name, .string value) => cloudStoreParseStringProperty name value csd
  | (name, .int value) => cloudStoreParseIntProperty name value csd
  | _ => none

/-- `oc_rep_get_by_type_and_key` for strings. -/
def getString (object : OcRep) (key : Bytes) : Option Bytes :=
  object.findSome? fun
    | (name, .string value) => if name = key then some value else none
    | _ => none

/-- The loop of `oc_cloud_endpoint_addresses_set`: servers without a URI or an
id are skipped, as are those that the list has. -/
def addServers (limits : AddressLimits) (addresses : EndpointAddresses) :
    List OcRep → EndpointAddresses × Bool
  | [] => (addresses, true)
  | server :: servers =>
      match getString server cloudEndpointUri with
      | none => addServers limits addresses servers
      | some uri =>
          match (getString server cloudEndpointId).bind ocStrToUuidV1 with
          | none => addServers limits addresses servers
          | some uuid =>
              if addresses.contains uri then
                addServers limits addresses servers
              else
                match addresses.add limits ⟨uri, uuid⟩ with
                | none => (addresses, false)
                | some (addresses, _) => addServers limits addresses servers

def ocCloudEndpointAddressesSet (limits : AddressLimits)
    (selectedUri : Option Bytes) (selectedUuid : Uuid)
    (servers : Option (List OcRep)) : EndpointAddresses × Bool :=
  match initServers limits (selectedUri.getD []) selectedUuid with
  | (addresses, false) => (addresses, false)
  | (addresses, true) => addServers limits addresses (servers.getD [])

/-- The id of the selected server has to have the size of a UUID, which the
wildcard has not. -/
def selectedSid : Option Bytes → Option Uuid
  | none => some .nil
  | some text =>
      match strToUuid text with
      | some (count, uuid) => if count = 16 then some uuid else none
      | none => none

def cloudStoreSetServers (limits : AddressLimits)
    (addresses : EndpointAddresses) (selectedUri selectedId : Option Bytes)
    (servers : Option (List OcRep)) : EndpointAddresses × Bool :=
  match selectedSid selectedId with
  | none => (addresses, false)
  | some uuid => ocCloudEndpointAddressesSet limits selectedUri uuid servers

/-- `oc_cloud_store_decode`; a failure to set the servers is only logged. -/
def ocCloudStoreDecode (limits : AddressLimits) (rep : OcRep)
    (store : CloudRecord) : Option CloudRecord := do
  let csd ← rep.foldlM cloudStoreParseProperty (.start store)
  return {
    ciServers :=
      if csd.ciServer.isSome || csd.ciServers.isSome then
        (cloudStoreSetServers limits store.ciServers csd.ciServer csd.sid
          csd.ciServers).1
      else store.ciServers
    authProvider := csd.authProvider.getD store.authProvider
    uid := csd.uid.getD store.uid
    accessToken := csd.accessToken.getD store.accessToken
    refreshToken := csd.refreshToken.getD store.refreshToken
    status := csd.status
    cps := csd.cps
    expiresIn := csd.expiresIn }

/-- The store after a load, and whether it was reported as loaded. -/
structure StoreLoad where
  store : CloudRecord
  loaded : Bool
  deriving DecidableEq

/-- `oc_storage_data_load` with `store_decode_cloud`: `true` stands for a
result above zero.  Bytes that cannot be parsed are not decoded. -/
def ocStorageDataLoad (codec : CborCodec) (limits : AddressLimits)
    (stored : Bytes) (store : CloudRecord) : CloudRecord × Bool :=
  if stored = [] then (store, false)
  else if (ocParseRep codec stored).isEmpty then (store, true)
  else
    match ocCloudStoreDecode limits (ocParseRep codec stored) store with
    | some decoded => (decoded, true)
    | none => (store, false)

def ocCloudStoreLoad (codec : CborCodec) (limits : AddressLimits)
    (stored : Bytes) (store : CloudRecord) : StoreLoad :=
  let (store, read) := ocStorageDataLoad codec limits stored store
  if read then ⟨store, true⟩ else ⟨.initial limits, false⟩

end IotivityLite
