import IotivityLite.Tls.PeerConfig

/-!
# Roles of sessions

The role credentials of `oc_roles.c`.  They are kept in a list of clients,
each known by the address of its peer, and the record of a peer is given out
again once the peer has been freed.  The machine below creates, replaces and
closes peers, finishes their handshakes and handles the requests to the roles
resource of their sessions.  Beside the code's own state it notes with each
session the roles that were asserted and not deleted in it.
-/

namespace IotivityLite

structure RoleCred where
  credid : Int
  role : Bytes
  authority : Bytes
  publicdata : EncodedData
  tag : Bytes
  deriving DecidableEq

/-- `oc_sec_roles_t`; `client` is the address of a peer. -/
structure RolesEntry where
  client : Nat
  device : Nat
  roles : List RoleCred
  deriving DecidableEq

def rolesGetForClient (clients : List RolesEntry) (client : Nat) :
    Option RolesEntry :=
  clients.find? (·.client == client)

def ocSecRolesGet (clients : List RolesEntry) (client : Nat) :
    List RoleCred :=
  match rolesGetForClient clients client with
  | none => []
  | some entry => entry.roles

/-- The entry for a client, which is appended if there is none. -/
def rolesWithClient (clients : List RolesEntry) (client device : Nat) :
    List RolesEntry :=
  match rolesGetForClient clients client with
  | none => clients ++ [⟨client, device, []⟩]
  | some _ => clients

/-- The roles of the client's entry are changed, of which there is one. -/
def updateRoles (client : Nat) (change : List RoleCred → List RoleCred)
    (clients : List RolesEntry) : List RolesEntry :=
  clients.map fun entry =>
    if entry.client = client then
      { entry with roles := change entry.roles }
    else entry

def ocSecFreeRoles (clients : List RolesEntry) (client : Nat) :
    List RolesEntry :=
  clients.eraseP (·.client == client)

/-- The loop frees the roles of each client of the device. -/
def RoleClients.ocSecFreeRolesForDevice (clients : List RolesEntry)
    (device : Nat) : List RolesEntry :=
  clients.foldl (fun left entry =>
    if entry.device = device then ocSecFreeRoles left entry.client else left)
    clients

def ocSecFreeRoleByCredid (clients : List RolesEntry) (credid : Int)
    (client : Nat) : List RolesEntry :=
  updateRoles client (fun roles => roles.eraseP (·.credid == credid)) clients

/-- A peer as the roles resource sees it, with the roles of its session;
`connected` if the state of its `ssl_ctx` is past the handshake, which it stays
until the peer is freed. -/
structure RolePeer where
  address : Nat
  endpoint : OcEndpoint
  role : TlsRole
  connected : Bool
  asserted : List RoleCred
  deriving DecidableEq

/-- The verification of a role certificate against the peer's public key and
UUID, its contents, the random id of a new credential, and whether there is
memory for a client and for a role. -/
structure RoleEnv where
  verifyRoleCred : RolePeer → CredDecode → Bool
  parseRoleCertificate : Bytes → Option (Bytes × Bytes)
  newCredid : List RoleCred → Int
  allocClient : List RolesEntry → Bool
  allocRole : List RolesEntry → Bool

/-- Of the reserved roles only the owner's may be asserted. -/
def checkRoleAssertion (role : Bytes) : Bool :=
  role.take 9 != ascii "oic.role." || role == ascii "oic.role.owner"

/-- An id that is missing or taken is replaced by a new one. -/
def roleCredid (env : RoleEnv) (roles : List RoleCred) (credid : Int) : Int :=
  if credid = -1 ∨ roles.any (·.credid == credid) then env.newCredid roles
  else credid

/-- `oc_sec_add_new_cred` for the roles resource: the clients, the credential
that was added, and whether there was no error. -/
def addRole (env : RoleEnv) (peer : RolePeer) (item : CredDecode)
    (clients : List RolesEntry) :
    List RolesEntry × Option RoleCred × Bool :=
  let roles := ocSecRolesGet clients peer.address
  let tag := item.tag.getD []
  if item.credtype ≠ CredType.cert ∨ item.credusage ≠ .roleCert ∨
      env.verifyRoleCred peer item = false then (clients, none, false)
  else if roles.any fun role =>
      ocCredDataIsEqualToEncodedData role.publicdata item.publicdata &&
        role.tag == tag then (clients, none, true)
  else if (rolesGetForClient clients peer.address).isNone ∧
      env.allocClient clients = false then (clients, none, false)
  else
    let withClient := rolesWithClient clients peer.address
      peer.endpoint.device
    if env.allocRole withClient = false then (withClient, none, false)
    else match env.parseRoleCertificate item.publicdata.data with
      | none => (withClient, none, false)
      | some (role, authority) =>
          if checkRoleAssertion role = false then (withClient, none, false)
          else
            let cred := ⟨roleCredid env roles item.credid, role, authority,
              item.publicdata, tag⟩
            (updateRoles peer.address (· ++ [cred]) withClient, some cred,
              true)

/-- The credentials of a request are added up to the first error. -/
def rolesResourcePost (env : RoleEnv) (peer : RolePeer) :
    List CredDecode → List RolesEntry → List RolesEntry × List RoleCred
  | [], clients => (clients, [])
  | item :: items, clients =>
      match addRole env peer item clients with
      | (clients, added, false) => (clients, added.toList)
      | (clients, added, true) =>
          match rolesResourcePost env peer items clients with
          | (clients, later) => (clients, added.toList ++ later)

/-- Access control drops the roles whose certificates have become invalid; it
does not look beyond a valid owner role. -/
def dropInvalidRoles (invalid : RoleCred → Bool) :
    List RoleCred → List RoleCred
  | [] => []
  | role :: roles =>
      if invalid role then dropInvalidRoles invalid roles
      else if role.role = ascii "oic.role.owner" then role :: roles
      else role :: dropInvalidRoles invalid roles

structure RoleState where
  peers : List RolePeer
  clients : List RolesEntry
  deriving DecidableEq

/-- What comes of a new peer: it is not admitted, its configuration fails, or
it is added, with a session id if it had none. -/
inductive CreateOutcome where
  | refused
  | initFailed
  | created (session : Nat)
  deriving DecidableEq

/-- Sessions are named by the address of their peer; `address` is the record
the allocator gives out.  A request is handled while its session is open.
Closing the connection of an unfinished ownership transfer schedules a reset,
which is an event of its own. -/
inductive RoleEvent where
  | accept (endpoint : OcEndpoint) (address : Nat) (outcome : CreateOutcome)
  | send (endpoint : OcEndpoint) (address : Nat) (outcome : CreateOutcome)
  | handshake (session : Nat)
  | post (session : Nat) (items : List CredDecode)
  | delete (session : Nat) (credid : Option Int)
  | access (session : Nat) (invalid : RoleCred → Bool)
  | resetDevice (device : Nat)
  | close (session : Nat)

namespace RoleState

def initial : RoleState := ⟨[], []⟩

def ocTlsGetPeer (state : RoleState) (endpoint : OcEndpoint) :
    Option RolePeer :=
  state.peers.find? fun peer => ocEndpointCompare peer.endpoint endpoint

/-- The open session at an address. -/
def session (state : RoleState) (address : Nat) : Option RolePeer :=
  state.peers.find? (·.address == address)

def note (state : RoleState) (address : Nat)
    (change : List RoleCred → List RoleCred) : List RolePeer :=
  state.peers.map fun peer =>
    if peer.address = address then
      { peer with asserted := change peer.asserted }
    else peer

/-- A device reset deletes the roles of all sessions of the device. -/
def reset (state : RoleState) (device : Nat) : RoleState where
  peers := state.peers.map fun peer =>
    if peer.endpoint.device = device then { peer with asserted := [] }
    else peer
  clients := RoleClients.ocSecFreeRolesForDevice state.clients device

def remove (state : RoleState) (address : Nat) : RoleState :=
  { state with peers := state.peers.eraseP (·.address == address) }

def ocTlsFreePeer (state : RoleState) (peer : RolePeer) : RoleState where
  peers := (state.remove peer.address).peers
  clients := ocSecFreeRoles state.clients peer.address

/-- Unlike `oc_tls_free_peer` it leaves the roles of the peer. -/
def ocTlsFreeInvalidPeer (state : RoleState) (peer : RolePeer) : RoleState :=
  state.remove peer.address

def ocTlsAddOrGetPeer (state : RoleState) (role : TlsRole)
    (endpoint : OcEndpoint) (address : Nat) (outcome : CreateOutcome) :
    RoleState :=
  if (state.ocTlsGetPeer endpoint).isSome ∨
      (state.session address).isSome then state
  else match outcome with
    | .refused => state
    | .initFailed =>
        state.ocTlsFreePeer ⟨address, endpoint, role, false, []⟩
    | .created session =>
        let named := { endpoint with
          session := if endpoint.session = 0 then session
            else endpoint.session }
        { state with
          peers := state.peers ++ [⟨address, named, role, false, []⟩] }

/-- `oc_tls_init_connection` replaces a peer that is not a client. -/
def ocTlsInitConnection (state : RoleState) (endpoint : OcEndpoint)
    (address : Nat) (outcome : CreateOutcome) : RoleState :=
  match state.ocTlsGetPeer endpoint with
  | some peer =>
      if peer.role = .client then state
      else (state.ocTlsFreeInvalidPeer peer).ocTlsAddOrGetPeer .client
        endpoint address outcome
  | none => state.ocTlsAddOrGetPeer .client endpoint address outcome

def ocTlsConnected (state : RoleState) (endpoint : OcEndpoint) : Bool :=
  match state.ocTlsGetPeer endpoint with
  | some peer => peer.connected
  | none => false

/-- `oc_tls_send_message`; on an established connection the message is just
written. -/
def ocTlsSendMessage (state : RoleState) (endpoint : OcEndpoint)
    (address : Nat) (outcome : CreateOutcome) : RoleState :=
  if state.ocTlsConnected endpoint = false then
    state.ocTlsInitConnection endpoint address outcome
  else state

/-- The handshake of the session is over. -/
def handshake (state : RoleState) (address : Nat) : RoleState where
  peers := state.peers.map fun peer =>
    if peer.address = address then { peer with connected := true } else peer
  clients := state.clients

/-- The session of a request, which comes in after the handshake, and the peer
that is found for its origin. -/
def origin (state : RoleState) (address : Nat) :
    Option (RolePeer × RolePeer) :=
  ((state.session address).filter (·.connected)).bind fun session =>
    (state.ocTlsGetPeer session.endpoint).map fun client => (session, client)

/-- The role credentials that access control looks at for an endpoint. -/
def accessRoles (state : RoleState) (endpoint : OcEndpoint) :
    List RoleCred :=
  match state.ocTlsGetPeer endpoint with
  | none => []
  | some peer => ocSecRolesGet state.clients peer.address

def post (env : RoleEnv) (state : RoleState) (address : Nat)
    (items : List CredDecode) : RoleState :=
  match state.origin address with
  | none => state
  | some (session, client) =>
      match rolesResourcePost env client items state.clients with
      | (clients, added) => ⟨state.note session.address (· ++ added), clients⟩

/-- Without a credid all roles are deleted. -/
def delete (state : RoleState) (address : Nat) (credid : Option Int) :
    RoleState :=
  match state.origin address with
  | none => state
  | some (session, client) =>
      match credid with
      | none => ⟨state.note session.address (fun _ => []),
          ocSecFreeRoles state.clients client.address⟩
      | some credid =>
          ⟨state.note session.address
              (fun roles => roles.eraseP (·.credid == credid)),
            ocSecFreeRoleByCredid state.clients credid client.address⟩

def access (state : RoleState) (address : Nat) (invalid : RoleCred → Bool) :
    RoleState :=
  match state.origin address with
  | none => state
  | some (session, client) =>
      ⟨state.note session.address (dropInvalidRoles invalid),
        updateRoles client.address (dropInvalidRoles invalid) state.clients⟩

def close (state : RoleState) (address : Nat) : RoleState :=
  match state.session address with
  | none => state
  | some peer => state.ocTlsFreePeer peer

def step (env : RoleEnv) (state : RoleState) : RoleEvent → RoleState
  | .accept endpoint address outcome =>
      state.ocTlsAddOrGetPeer .server endpoint address outcome
  | .send endpoint address outcome =>
      state.ocTlsSendMessage endpoint address outcome
  | .handshake session => state.handshake session
  | .post session items => state.post env session items
  | .delete session credid => state.delete session credid
  | .access session invalid => state.access session invalid
  | .resetDevice device => state.reset device
  | .close session => state.close session

end RoleState

end IotivityLite
