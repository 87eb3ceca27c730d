import IotivityLite.Security.Cred

/-!
# Trust anchors

Three containers have to agree: the credentials of the devices, the list
`g_ca_certs` of tracked trust anchors, and the chain `g_trust_anchors` that
the TLS library checks peers against.  An entry of the list points to a
credential and into the chain.  The nodes of the chain have names, so that a
pointer to a node that was freed can be told from one into the chain; the
first node is a variable, and always the same.
-/

namespace IotivityLite

structure TrustNode where
  name : Nat
  cert : Bytes
  deriving DecidableEq

/-- `next` names the next node that is allocated. -/
structure TrustChain where
  nodes : List TrustNode
  next : Nat
  deriving DecidableEq

namespace TrustChain

def initial : TrustChain := ⟨[], 1⟩

def append (chain : TrustChain) (cert : Bytes) : TrustChain where
  nodes := chain.nodes ++
    [⟨if chain.nodes.isEmpty then 0 else chain.next, cert⟩]
  next := chain.next + 1

def appendAll (chain : TrustChain) (certs : List Bytes) : TrustChain :=
  certs.foldl append chain

/-- The walk to the end of the chain. -/
def last (chain : TrustChain) : Nat :=
  match chain.nodes.getLast? with
  | none => 0
  | some node => node.name

/-- `mbedtls_x509_crt_free` and `mbedtls_x509_crt_init` -/
def cleared (chain : TrustChain) : TrustChain := { chain with nodes := [] }

end TrustChain

/-- `oc_x509_cacrt_t`: the credential, and the name of the last node of its
certificates. -/
structure CaEntry where
  device : Nat
  cred : Cred
  node : Nat
  deriving DecidableEq

/-- `mbedtls_x509_crt_parse` gives the certificates it can parse and the
number of those it cannot; without a failure there is one at least.
`allocCaCert` tells if there is memory for another entry. -/
structure TrustEnv where
  devices : Nat
  parse : Bytes → List Bytes × Nat
  allocCaCert : List CaEntry → Bool
  parse_ne_nil : ∀ data, (parse data).2 = 0 → (parse data).1 ≠ []

structure TrustState where
  creds : Nat → List Cred
  caCerts : List CaEntry
  trustAnchors : TrustChain

def CredUsage.isTrustAnchor : CredUsage → Bool
  | .trustca | .mfgTrustca => true
  | _ => false

section TrustAnchors

variable (env : TrustEnv)

/-- The certificates in the data of a credential. -/
def TrustEnv.certsOf (cred : Cred) : List Bytes :=
  (env.parse cred.publicdata.data).1

def TrustEnv.parses (cred : Cred) : Bool :=
  (env.parse cred.publicdata.data).2 == 0

namespace TrustState

def isKnownTrustAnchor (state : TrustState) (cred : Cred) : Bool :=
  state.caCerts.any (·.cred.address == cred.address)

/-- What could be parsed is in the chain even if the credential is not
tracked. -/
def addNewTrustAnchor (state : TrustState) (cred : Cred) (device : Nat) :
    TrustState :=
  let chain := state.trustAnchors.appendAll (env.certsOf cred)
  let state := { state with trustAnchors := chain }
  if !env.parses cred then state
  else if !env.allocCaCert state.caCerts then state
  else { state with
    caCerts := state.caCerts ++ [⟨device, cred, chain.last⟩] }

/-- The credentials of a device one after another; the usage decides, not the
type. -/
def addNewCerts (device : Nat) : List Cred → TrustState → TrustState
  | [], state => state
  | cred :: creds, state =>
      if !cred.credusage.isTrustAnchor || state.isKnownTrustAnchor cred then
        addNewCerts device creds state
      else addNewCerts device creds (state.addNewTrustAnchor env cred device)

def ocTlsResolveNewTrustAnchors (state : TrustState) : TrustState :=
  (List.range env.devices).foldl (fun left device =>
    left.addNewCerts env device (state.creds device)) state

/-- The loop ends at the first entry that cannot be parsed; that one and the
later ones keep their old nodes. -/
def reloadTrustAnchors :
    List CaEntry → TrustChain → List CaEntry × TrustChain
  | [], chain => ([], chain)
  | entry :: entries, chain =>
      let chain := chain.appendAll (env.certsOf entry.cred)
      if !env.parses entry.cred then (entry :: entries, chain)
      else
        let (reloaded, final) := reloadTrustAnchors entries chain
        ({ entry with node := chain.last } :: reloaded, final)

def ocTlsRemoveTrustAnchor (state : TrustState) (cred : Cred) : TrustState :=
  if state.isKnownTrustAnchor cred then
    let left := state.caCerts.eraseP (·.cred.address == cred.address)
    let (caCerts, chain) := reloadTrustAnchors env left
      state.trustAnchors.cleared
    { state with caCerts := caCerts, trustAnchors := chain }
  else state

/-- `oc_sec_cred_free`, as far as trust anchors go. -/
def ocSecCredFree (state : TrustState) (cred : Cred) : TrustState :=
  if cred.credtype = CredType.cert ∧ cred.credusage.isTrustAnchor then
    state.ocTlsRemoveTrustAnchor env cred
  else state

def credRemoveFromDevice (state : TrustState) (device : Nat) (cred : Cred) :
    TrustState :=
  { state with
    creds := Function.update state.creds device
      ((state.creds device).eraseP (·.address == cred.address)) }

def ocSecRemoveCred (state : TrustState) (device : Nat) (cred : Cred) :
    TrustState :=
  (state.credRemoveFromDevice device cred).ocSecCredFree env cred

/-- `oc_sec_cred_clear`; a missing filter lets everything pass. -/
def ocSecCredClear (device : Nat) (filter : Cred → Bool) :
    List Cred → TrustState → TrustState
  | [], state => state
  | cred :: creds, state =>
      if filter cred then
        ocSecCredClear device filter creds
          (state.ocSecRemoveCred env device cred)
      else ocSecCredClear device filter creds state

/-- The end of `oc_sec_add_new_cred` for a credential that could be
created. -/
def credCreated (state : TrustState) (device : Nat) (cred : Cred) :
    TrustState :=
  let state := { state with
    creds := Function.update state.creds device
      (state.creds device ++ [cred]) }
  if cred.credtype = CredType.cert ∧ cred.credusage.isTrustAnchor then
    state.ocTlsResolveNewTrustAnchors env
  else state

/-- The record of a new credential is not in use. -/
def unused (state : TrustState) (address : Nat) : Bool :=
  (List.range env.devices).all fun device =>
    (state.creds device).all (·.address != address)

end TrustState

/-- An addition may replace a credential of the device, which is freed before
the new one is created or, with `deferred`, after it, and it may fail once
the old one is out of the list. -/
inductive TrustEvent where
  | add (device : Nat) (cred : Cred) (replaced : Option Nat)
      (deferred fails : Bool)
  | remove (device : Nat) (address : Nat)
  | clear (device : Nat) (filter : Cred → Bool)

namespace TrustState

def find (state : TrustState) (device address : Nat) : Option Cred :=
  (state.creds device).find? (·.address == address)

/-- The new credential, or nothing where it could not be created.  Its record
is none that is in use. -/
def addOrFail (state : TrustState) (device : Nat) (cred : Cred)
    (fails : Bool) : TrustState :=
  if fails ∨ state.unused env cred.address = false then state
  else state.credCreated env device cred

/-- `oc_sec_add_new_cred`: the data of a certificate has to be parsed without
failure. -/
def ocSecAddNewCred (state : TrustState) (device : Nat) (cred : Cred)
    (replaced : Option Nat) (deferred fails : Bool) : TrustState :=
  if cred.credtype = CredType.cert ∧ env.parses cred = false then state
  else match replaced.bind (state.find device) with
    | none => state.addOrFail env device cred fails
    | some old =>
        if deferred then
          ((state.credRemoveFromDevice device old).addOrFail env device cred
            (fails || cred.address == old.address)).ocSecCredFree env old
        else
          (state.ocSecRemoveCred env device old).addOrFail env device cred
            fails

def step (state : TrustState) : TrustEvent → TrustState
  | .add device cred replaced deferred fails =>
      if device < env.devices then
        state.ocSecAddNewCred env device cred replaced deferred fails
      else state
  | .remove device address =>
      match state.find device address with
      | none => state
      | some cred => state.ocSecRemoveCred env device cred
  | .clear device filter =>
      ocSecCredClear env device filter (state.creds device) state

def initial : TrustState := ⟨fun _ => [], [], TrustChain.initial⟩

end TrustState

end TrustAnchors

end IotivityLite
