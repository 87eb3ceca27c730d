import IotivityLite.Security.AccessCheck
import IotivityLite.Tls.Verify

/-!
# Configuration of a new peer

`oc_tls_add_or_get_peer` of `oc_tls.c` and what it calls.  The ciphersuites,
the certificate chain and the pre-shared key identity of the next connection
are selected through global variables, which the next peer to be configured
reads and clears.
-/

namespace IotivityLite

inductive Ciphersuite where
  | ecdhePskWithAes128CbcSha256
  | ecdhAnonWithAes128CbcSha256
  | ecdheEcdsaWithAes128Ccm8
  | ecdheEcdsaWithAes128Ccm
  | ecdheEcdsaWithAes256Ccm8
  | ecdheEcdsaWithAes256Ccm
  | ecdheEcdsaWithAes128GcmSha256
  | ecdheEcdsaWithAes128CbcSha256
  | ecdheEcdsaWithAes256GcmSha384
  | ecdheEcdsaWithAes256CbcSha384
  | ecdheRsaWithAes128GcmSha256
  | ecdheRsaWithAes256GcmSha384
  deriving DecidableEq, Repr

/-- The arrays `g_ciphers` can point to. -/
inductive CipherPriority where
  | default
  | psk
  | anonEcdh
  | jwOtm
  | pinOtm
  | certOtm
  | cloud
  | cert
  deriving DecidableEq, Repr

namespace CipherPriority

def ccmSuites : List Ciphersuite :=
  [.ecdheEcdsaWithAes128Ccm8, .ecdheEcdsaWithAes128Ccm,
    .ecdheEcdsaWithAes256Ccm8, .ecdheEcdsaWithAes256Ccm]

def cloudSuites : List Ciphersuite :=
  [.ecdheEcdsaWithAes128GcmSha256, .ecdheEcdsaWithAes128CbcSha256,
    .ecdheEcdsaWithAes256GcmSha384, .ecdheEcdsaWithAes256CbcSha384,
    .ecdheRsaWithAes128GcmSha256, .ecdheRsaWithAes256GcmSha384]

def suites : CipherPriority → List Ciphersuite
  | default => .ecdhePskWithAes128CbcSha256 :: ccmSuites ++ cloudSuites
  | psk => [.ecdhePskWithAes128CbcSha256]
  | anonEcdh => [.ecdhAnonWithAes128CbcSha256]
  | jwOtm => [.ecdhAnonWithAes128CbcSha256]
  | pinOtm => [.ecdhePskWithAes128CbcSha256]
  | certOtm => ccmSuites
  | cloud => cloudSuites
  | cert => ccmSuites

end CipherPriority

/-- `g_ciphers`, `g_selected_mfg_cred`, `g_selected_id_cred` and
`use_pin_obt_psk_identity`; a credential of -1 is any. -/
structure Selections where
  ciphers : Option CipherPriority
  mfgCred : Int
  idCred : Int
  pinObtPskIdentity : Bool
  deriving DecidableEq

def Selections.cleared : Selections := ⟨none, -1, -1, false⟩

inductive SelectCall where
  | resetCiphersuite
  | certCiphersuite
  | cloudCiphersuite
  | pskCiphersuite
  | anonCiphersuite
  | mfgCertChain (credid : Int)
  | identityCertChain (credid : Int)
  | usePinObtPskIdentity
  deriving DecidableEq, Repr

def Selections.select (selections : Selections) : SelectCall → Selections
  | .resetCiphersuite => { selections with ciphers := none }
  | .certCiphersuite => { selections with ciphers := some .cert }
  | .cloudCiphersuite => { selections with ciphers := some .cloud }
  | .pskCiphersuite => { selections with ciphers := some .psk }
  | .anonCiphersuite => { selections with ciphers := some .anonEcdh }
  | .mfgCertChain credid => { selections with mfgCred := credid }
  | .identityCertChain credid => { selections with idCred := credid }
  | .usePinObtPskIdentity => { selections with pinObtPskIdentity := true }

inductive TlsRole where
  | client
  | server
  deriving DecidableEq, Repr

inductive VerifyCallback where
  | manufacturerOrIdentity
  | cloud
  | application
  deriving DecidableEq, Repr

/-- The identity hint: the text of the random PIN method, that text with the
device's UUID, or the UUID. -/
inductive PskIdentity where
  | oxmtypeRdp
  | rdpWithDevice
  | device
  deriving DecidableEq, Repr

/-- `ownCert` is the address of the certificate chain. -/
structure PeerConfig where
  psk : PskIdentity
  authRequired : Bool
  ciphers : CipherPriority
  ownCert : Option Nat
  verify : VerifyCallback
  deriving DecidableEq

/-- A peer with the state of its device when it was created. -/
structure ConfiguredPeer where
  endpoint : OcEndpoint
  role : TlsRole
  dos : DosType
  config : PeerConfig
  deriving DecidableEq

/-- What is read of the state of the peer's device. -/
structure DeviceTls where
  dos : DosType
  oxmsel : Int
  owned : Bool
  creds : List Cred
  identityCerts : List IdentityCert

/-- The outcomes of allocation and of the calls of the library. -/
structure LibraryResults where
  alloc : Bool
  configDefaults : Bool
  confPsk : Bool
  confOwnCert : IdentityCert → Bool
  sslSetup : Bool
  setTransportId : Bool

section Configure

variable (device : DeviceTls) (library : LibraryResults)

def ocTlsConfigureEndEntityCertChain (deviceIndex : Nat)
    (credusage : CredUsage) (credid : Int) : Option Nat :=
  match device.identityCerts.find? fun cert =>
      cert.device == deviceIndex && cert.cred.credusage == credusage &&
        (credid == -1 || cert.cred.credid == credid) with
  | none => none
  | some cert => if library.confOwnCert cert then some cert.address else none

def ocTlsLoadMfgCertChain (deviceIndex : Nat) (credid : Int) : Option Nat :=
  ocTlsConfigureEndEntityCertChain device library deviceIndex .mfgCert credid

def ocTlsLoadIdentityCertChain (deviceIndex : Nat) (credid : Int) :
    Option Nat :=
  if credid < -1 then none
  else ocTlsConfigureEndEntityCertChain device library deviceIndex
    .identityCert credid

def ocTlsLoadCertChain (deviceIndex : Nat) (selections : Selections) :
    Option Nat :=
  (if device.owned then
    ocTlsLoadIdentityCertChain device library deviceIndex selections.idCred
  else none).or
    (ocTlsLoadMfgCertChain device library deviceIndex selections.mfgCred)

/-- The list for the selected method of ownership transfer. -/
def otmPriority (oxmsel : Int) : CipherPriority :=
  if oxmsel = 0 then .jwOtm
  else if oxmsel = 1 then .pinOtm
  else if oxmsel = 2 then .certOtm
  else .default

def clientPriority (endpoint : OcEndpoint) (loadedChain : Bool) :
    CipherPriority :=
  match device.creds.find? (·.subjectuuid == endpoint.di) with
  | some cred =>
      if cred.credtype = CredType.psk then .psk
      else if loadedChain then .cert else .default
  | none => if loadedChain then .cert else .default

def selectPriority (role : TlsRole) (endpoint : OcEndpoint)
    (loadedChain : Bool) (ciphers : Option CipherPriority) : CipherPriority :=
  if role = .server ∧ device.dos = .rfotm then otmPriority device.oxmsel
  else match ciphers with
    | some selected => selected
    | none =>
        match role with
        | .server => .default
        | .client => clientPriority device endpoint loadedChain

/-- The ciphersuites and the certificate chain; what was selected is
cleared. -/
def ocTlsSetCiphersuites (role : TlsRole) (endpoint : OcEndpoint)
    (selections : Selections) :
    Selections × CipherPriority × Option Nat :=
  let chain := ocTlsLoadCertChain device library endpoint.device selections
  ({ selections with ciphers := none, mfgCred := -1, idCred := -1 },
    selectPriority device role endpoint chain.isSome selections.ciphers,
    chain)

/-- Only a client uses the identity of the random PIN method, and clears the
wish for it. -/
def ocTlsPopulateSslConfig (role : TlsRole) (selections : Selections) :
    Selections × Option PskIdentity :=
  if !library.configDefaults then (selections, none)
  else
    let hint := if device.dos = .rfotm ∧ device.oxmsel = 1 then .rdpWithDevice
      else PskIdentity.device
    let (selections, psk) :=
      if role = .client ∧ selections.pinObtPskIdentity then
        ({ selections with pinObtPskIdentity := false },
          PskIdentity.oxmtypeRdp)
      else (selections, hint)
    (selections, if library.confPsk then some psk else none)

def authRequired (role : TlsRole) : Bool :=
  !(device.dos == .reset || device.dos == .rfotm) || role != .server

/-- `oc_tls_peer_ssl_init` and `oc_tls_peer_pki_init` -/
def ocTlsPeerSslInit (role : TlsRole) (endpoint : OcEndpoint)
    (verify : VerifyCallback) (selections : Selections) :
    Selections × Option PeerConfig :=
  match ocTlsPopulateSslConfig device library role selections with
  | (selections, none) => (selections, none)
  | (selections, some psk) =>
      match ocTlsSetCiphersuites device library role endpoint selections with
      | (selections, ciphers, chain) =>
          if library.sslSetup ∧ (role = .server → library.setTransportId) then
            (selections, some ⟨psk, authRequired device role, ciphers, chain,
              verify⟩)
          else (selections, none)

def tlsIsValidDoc (peers : List ConfiguredPeer) (deviceIndex : Nat) : Bool :=
  device.oxmsel != 4 && !peers.any (·.endpoint.device == deviceIndex)

/-- A peer can be allocated for the endpoint. -/
def peerAdmitted (peers : List ConfiguredPeer) (endpoint : OcEndpoint) :
    Bool :=
  (device.dos != .rfotm || tlsIsValidDoc device peers endpoint.device) &&
    library.alloc

def ocTlsAddNewPeer (peers : List ConfiguredPeer) (role : TlsRole)
    (endpoint : OcEndpoint) (verify : VerifyCallback)
    (selections : Selections) : Selections × Option ConfiguredPeer :=
  if peerAdmitted device library peers endpoint then
    match ocTlsPeerSslInit device library role endpoint verify selections with
    | (selections, config) =>
        (selections, config.map fun config =>
          ⟨endpoint, role, device.dos, config⟩)
  else (selections, none)

def ocTlsPeerPkiDefaultVerificationParams (selections : Selections) :
    VerifyCallback :=
  if selections.ciphers = some .cloud then .cloud
  else .manufacturerOrIdentity

def ocTlsFindPeer (peers : List ConfiguredPeer) (endpoint : OcEndpoint) :
    Option ConfiguredPeer :=
  peers.find? fun peer => ocEndpointCompare peer.endpoint endpoint

/-- A peer is created only when there is none for the endpoint. -/
def ocTlsAddOrGetPeer (peers : List ConfiguredPeer) (role : TlsRole)
    (endpoint : OcEndpoint) (selections : Selections) :
    Selections × Option ConfiguredPeer :=
  match ocTlsFindPeer peers endpoint with
  | some _ => (selections, none)
  | none =>
      ocTlsAddNewPeer device library peers role endpoint
        (ocTlsPeerPkiDefaultVerificationParams selections) selections

end Configure

/-- How an outgoing connection is made: for a message that is to be sent, by
the cloud client, or by code that brings its own verification. -/
inductive ConnectVia where
  | message
  | cloud
  | application
  deriving DecidableEq, Repr

inductive TlsConfigEvent where
  | select (call : SelectCall)
  | accept (endpoint : OcEndpoint) (device : DeviceTls)
      (library : LibraryResults)
  | connect (via : ConnectVia) (endpoint : OcEndpoint) (device : DeviceTls)
      (library : LibraryResults)
  | close (endpoint : OcEndpoint)

/-- The peer found first is taken out of the list. -/
def removePeer (peers : List ConfiguredPeer) (endpoint : OcEndpoint) :
    List ConfiguredPeer :=
  peers.eraseP fun peer => ocEndpointCompare peer.endpoint endpoint

/-- `oc_tls_init_connection` gives up a peer that is not a client. -/
def withoutInvalidPeer (peers : List ConfiguredPeer) (endpoint : OcEndpoint) :
    List ConfiguredPeer :=
  match ocTlsFindPeer peers endpoint with
  | some peer =>
      if peer.role = .client then peers else removePeer peers endpoint
  | none => peers

/-- The peers an outgoing connection looks at, or none when the device is not
ready for connections. -/
def connectPeers (via : ConnectVia) (device : DeviceTls)
    (peers : List ConfiguredPeer) (endpoint : OcEndpoint) :
    Option (List ConfiguredPeer) :=
  match via with
  | .message =>
      if device.dos = .rfnop then some (withoutInvalidPeer peers endpoint)
      else none
  | .cloud | .application => some peers

/-- What an event does to the peers with the given selections: the
selections left, the peers left and the new peer. -/
def handleConnection (peers : List ConfiguredPeer) (selections : Selections) :
    TlsConfigEvent → Selections × List ConfiguredPeer × Option ConfiguredPeer
  | .select call => (selections.select call, peers, none)
  | .accept endpoint device library =>
      let (selections, new) := ocTlsAddOrGetPeer device library peers .server
        endpoint selections
      (selections, peers, new)
  | .connect via endpoint device library =>
      match connectPeers via device peers endpoint with
      | none => (selections, peers, none)
      | some peers =>
          let (selections, new) :=
            if via = .application then
              ocTlsAddNewPeer device library peers .client endpoint
                .application selections
            else ocTlsAddOrGetPeer device library peers .client endpoint
              selections
          (selections, peers, new)
  | .close endpoint => (selections, removePeer peers endpoint, none)

/-- `created` are all peers there have been, the latest last. -/
structure TlsConfigState where
  selections : Selections
  peers : List ConfiguredPeer
  created : List ConfiguredPeer
  deriving DecidableEq

namespace TlsConfigState

def initial : TlsConfigState := ⟨Selections.cleared, [], []⟩

def add (state : TlsConfigState) (selections : Selections)
    (peers : List ConfiguredPeer) (new : Option ConfiguredPeer) :
    TlsConfigState :=
  ⟨selections, peers ++ new.toList, state.created ++ new.toList⟩

def step (state : TlsConfigState) (event : TlsConfigEvent) : TlsConfigState :=
  match handleConnection state.peers state.selections event with
  | (selections, peers, new) => state.add selections peers new

end TlsConfigState

end IotivityLite
