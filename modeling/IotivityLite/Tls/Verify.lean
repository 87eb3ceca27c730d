import IotivityLite.Tls.Certificate

/-!
# Verification of a peer's certificate chain

`verify_manufacturer_or_identity_certificate` of `oc_tls.c`.  The library
calls it for the certificates of a chain from the root down to the peer's own
one, and stops at the first failure.  The root that is found on the way is
remembered in the identity certificate, which all sessions of a device share.
-/

namespace IotivityLite

/-- `oc_x509_cacrt_t`; every entry has a certificate. -/
structure CaCert where
  device : Nat
  cred : Cred
  cert : X509Crt
  deriving DecidableEq

/-- `oc_x509_crt_t`, found by its address; `ctx` is the entry that the last
handshake to find one has recorded. -/
structure IdentityCert where
  address : Nat
  device : Nat
  cred : Cred
  ctx : Option CaCert
  deriving DecidableEq

/-- `g_ca_certs` and `g_identity_certs` -/
structure PkiStore where
  caCerts : List CaCert
  identityCerts : List IdentityCert
  deriving DecidableEq

/-- What verification reads of a peer and leaves in it; `ownCert` is the
address of the certificate in its configuration. -/
structure TlsSession where
  ownCert : Option Nat
  isOtm : Bool
  uuid : Uuid
  publicKey : Bytes
  deriving DecidableEq

/-- The configuration of certificates, the library's test of extended key
usages, and the callback that an application can set, which may change the
flags. -/
structure VerifyEnv where
  config : CertsConfig
  checkExtendedKeyUsage : X509Crt → Bytes → Bool
  verifyCertificateCb :
    TlsSession → X509Crt → (depth : Nat) → UInt32 → Bool × UInt32

namespace PkiStore

def getIdentityCertForSession (store : PkiStore) (session : TlsSession) :
    Option IdentityCert :=
  session.ownCert.bind fun address =>
    store.identityCerts.find? (·.address == address)

/-- `id_cert->ctx = ca_cert` -/
def record (store : PkiStore) (idCert : IdentityCert) (root : CaCert) :
    PkiStore :=
  { store with
    identityCerts := store.identityCerts.map fun cert =>
      if cert.address = idCert.address then { cert with ctx := some root }
      else cert }

end PkiStore

/-- A trust anchor that the device of the identity certificate uses for its
peers. -/
def CaCert.isTrustcaOf (idCert : IdentityCert) (entry : CaCert) : Bool :=
  entry.device == idCert.device && entry.cred.credusage == .trustca

/-- The credential of the trust anchor is for the peer or for everyone. -/
def CaCert.admits (uuid : Uuid) (entry : CaCert) : Bool :=
  entry.cred.subjectuuid == uuid ||
    entry.cred.subjectuuid == Uuid.ofBytes [42]

/-- The calls above depth zero. -/
def verifyNonEndEntity (env : VerifyEnv) (store : PkiStore)
    (session : TlsSession) (crt : X509Crt) (depth : Nat) (flags : UInt32) :
    Bool × UInt32 × PkiStore :=
  match ocCertsValidateNonEndEntityCert env.config crt true session.isOtm
      depth flags with
  | (false, flags) =>
      match ocCertsValidateNonEndEntityCert env.config crt false
          session.isOtm depth flags with
      | (ok, flags) => (ok, flags, store)
  | (true, flags) =>
      match store.getIdentityCertForSession session with
      | none => (true, flags, store)
      | some idCert =>
          if idCert.cred.credusage ≠ .identityCert then (true, flags, store)
          else match store.caCerts.find? fun entry =>
              entry.isTrustcaOf idCert && crt.raw == entry.cert.raw with
            | none => (true, flags, store)
            | some root => (true, flags, store.record idCert root)

/-- The search for a trust anchor that authorizes the peer: it ends at the
first entry of another device or usage.  The result is where the cursor
stops. -/
def findAuthorizing (idCert : IdentityCert) (root : X509Crt) (uuid : Uuid) :
    List CaCert → Option CaCert
  | [] => none
  | entry :: entries =>
      if !entry.isTrustcaOf idCert then some entry
      else if root.raw == entry.cert.raw && entry.admits uuid then some entry
      else findAuthorizing idCert root uuid entries

/-- The peer's UUID is taken from its certificate; without one only a session
that does not use an identity certificate goes on. -/
def peerUuid (idCert : Option IdentityCert) (session : TlsSession)
    (crt : X509Crt) : Option Uuid :=
  match ocCertsExtractCnForUuid crt with
  | some text => some (ocStrToUuid text session.uuid)
  | none =>
      if idCert.any (·.cred.credusage = .identityCert) then none
      else some (Uuid.ofBytes (42 :: session.uuid.id.drop 1))

/-- The check that comes last at depth zero: any entry at the cursor will
do. -/
def authorized (store : PkiStore) (idCert : Option IdentityCert)
    (uuid : Uuid) : Bool :=
  match idCert with
  | none => true
  | some idCert =>
      if idCert.cred.credusage = .mfgCert then true
      else match idCert.ctx with
        | none => false
        | some root =>
            (findAuthorizing idCert root.cert uuid store.caCerts).isSome

/-- The call at depth zero. -/
def verifyEndEntity (env : VerifyEnv) (store : PkiStore)
    (session : TlsSession) (crt : X509Crt) (flags : UInt32) :
    Bool × UInt32 × TlsSession :=
  match ocCertsValidateEndEntityCert env.config env.checkExtendedKeyUsage crt
      flags with
  | (false, flags) => (false, flags, session)
  | (true, flags) =>
      let idCert := store.getIdentityCertForSession session
      match peerUuid idCert session crt with
      | none => (false, flags, session)
      | some uuid =>
          match crt.publicKey with
          | none => (false, flags, { session with uuid := uuid })
          | some key =>
              (authorized store idCert uuid, flags,
                { session with uuid := uuid, publicKey := key })

structure VerifyResult where
  ok : Bool
  flags : UInt32
  store : PkiStore
  session : TlsSession
  deriving DecidableEq

def verifyManufacturerOrIdentityCertificate (env : VerifyEnv)
    (store : PkiStore) (session : TlsSession) (crt : X509Crt) (depth : Nat)
    (flags : UInt32) : VerifyResult :=
  if depth > 0 then
    match verifyNonEndEntity env store session crt depth flags with
    | (ok, flags, store) => ⟨ok, flags, store, session⟩
  else
    match verifyEndEntity env store session crt flags with
    | (ok, flags, session) => ⟨ok, flags, store, session⟩

/-- The callback of the library. -/
def tlsVerifyCertificate (env : VerifyEnv) (store : PkiStore)
    (session : TlsSession) (crt : X509Crt) (depth : Nat) (flags : UInt32) :
    VerifyResult :=
  let result := verifyManufacturerOrIdentityCertificate env store session crt
    depth flags
  if result.ok then
    match env.verifyCertificateCb result.session crt depth result.flags with
    | (ok, flags) => { result with ok := ok && flags == 0, flags := flags }
  else result

/-- The certificates of a chain with the flags the library has for them, from
the root down to the one that the peer's own is issued by. -/
structure CertChain where
  issuers : List (X509Crt × UInt32)
  leaf : X509Crt × UInt32
  deriving DecidableEq

/-- A chain of one certificate is its own root. -/
def CertChain.root (chain : CertChain) : X509Crt :=
  (chain.issuers.head?.getD chain.leaf).1

/-- The calls for the issuers, and whether the library goes on to depth
zero. -/
def verifyIssuers (env : VerifyEnv) (session : TlsSession) :
    PkiStore → List (X509Crt × UInt32) → Bool × PkiStore
  | store, [] => (true, store)
  | store, (crt, flags) :: rest =>
      let result := tlsVerifyCertificate env store session crt
        (rest.length + 1) flags
      if result.ok then verifyIssuers env session result.store rest
      else (false, result.store)

structure Handshake where
  session : TlsSession
  chain : CertChain
  deriving DecidableEq

/-- The call at depth zero is made and returns success. -/
def endEntityVerified (env : VerifyEnv) (store : PkiStore)
    (handshake : Handshake) : Bool :=
  let above := verifyIssuers env handshake.session store
    handshake.chain.issuers
  above.1 &&
    (verifyManufacturerOrIdentityCertificate env above.2 handshake.session
      handshake.chain.leaf.1 0 handshake.chain.leaf.2).ok

/-- What a handshake leaves behind for later ones. -/
def PkiStore.afterHandshake (env : VerifyEnv) (store : PkiStore)
    (handshake : Handshake) : PkiStore :=
  (verifyIssuers env handshake.session store handshake.chain.issuers).2

end IotivityLite
