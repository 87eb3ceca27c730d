import IotivityLite.Security.Rep

/-!
# Lists of endpoint addresses

The list of cloud servers of `oc_endpoint_address.c` with its selected entry.
No two entries have the same URI, so the pointer to the selected entry is
given by its URI.  Every operation tells whether the selection changed, which
is when the source calls `on_selected_change`.
-/

namespace IotivityLite

/-- The cloud identifies its servers by UUIDs. -/
structure EndpointAddress where
  uri : Bytes
  uuid : Uuid
  deriving DecidableEq

structure EndpointAddresses where
  addresses : List EndpointAddress
  selected : Option Bytes
  deriving DecidableEq

/-- `OC_ENDPOINT_MAX_ENDPOINT_URI_LENGTH` and the size of the pool; without
static allocation the pool has no bound. -/
structure AddressLimits where
  maxUriLength : Nat
  pool : Option Nat

namespace EndpointAddresses

def empty : EndpointAddresses := ⟨[], none⟩

def isValid (limits : AddressLimits) (uri : Bytes) : Bool :=
  0 < uri.length && uri.length < limits.maxUriLength

def contains (eas : EndpointAddresses) (uri : Bytes) : Bool :=
  eas.addresses.any (·.uri == uri)

def find (eas : EndpointAddresses) (uri : Bytes) : Option EndpointAddress :=
  eas.addresses.find? (·.uri == uri)

def selectedAddress (eas : EndpointAddresses) : Option EndpointAddress :=
  eas.selected.bind eas.find

/-- `endpoint_address_select` -/
def select (eas : EndpointAddresses) (selected : Option Bytes) :
    EndpointAddresses × Bool :=
  if eas.selected = selected then (eas, false)
  else ({ eas with selected := selected }, true)

/-- The pool has an entry left. -/
def poolLeft (limits : AddressLimits) (eas : EndpointAddresses) : Bool :=
  match limits.pool with
  | none => true
  | some size => eas.addresses.length < size

/-- `endpoint_address_allocate_and_add`: the first address is selected. -/
def allocateAndAdd (limits : AddressLimits) (eas : EndpointAddresses)
    (address : EndpointAddress) : Option (EndpointAddresses × Bool) :=
  if !isValid limits address.uri || !eas.poolLeft limits then none
  else
    let (eas, changed) :=
      if eas.selected = none then eas.select (some address.uri)
      else (eas, false)
    some ({ eas with addresses := eas.addresses ++ [address] }, changed)

def add (limits : AddressLimits) (eas : EndpointAddresses)
    (address : EndpointAddress) : Option (EndpointAddresses × Bool) :=
  if !isValid limits address.uri then none
  else if eas.contains address.uri then none
  else eas.allocateAndAdd limits address

end EndpointAddresses

end IotivityLite
