import IotivityLite.Tls.Verify

/-!
# Authorization of a peer by its root

A session that uses an identity certificate should accept a peer only for a
trust anchor of its own device that is the root of the peer's chain and whose
credential names the peer, and no earlier handshake should matter.  The search
for that trust anchor stops at entries of other devices and usages, and takes
the stop for a success; the root it compares with may be left over.
-/

namespace IotivityLite

/-- The store as if no handshake had recorded a root. -/
def PkiStore.forget (store : PkiStore) : PkiStore :=
  { store with
    identityCerts := store.identityCerts.map fun cert =>
      { cert with ctx := none } }

/-- A trust anchor of the device is the given certificate and its credential
admits the peer. -/
def PkiStore.Authorizes (store : PkiStore) (idCert : IdentityCert)
    (root : X509Crt) (uuid : Uuid) : Prop :=
  ∃ entry ∈ store.caCerts, entry.isTrustcaOf idCert ∧
    entry.cert.raw = root.raw ∧ entry.admits uuid

instance (store : PkiStore) (idCert : IdentityCert) (root : X509Crt)
    (uuid : Uuid) : Decidable (store.Authorizes idCert root uuid) :=
  inferInstanceAs (Decidable (∃ entry ∈ store.caCerts, _ ∧ _ ∧ _))

/-- The depth-zero call succeeds only for a trust anchor that is the root of
this chain, and with or without earlier handshakes alike. -/
structure AuthorizedByChain (env : VerifyEnv) (store : PkiStore)
    (idCert : IdentityCert) (handshake : Handshake) : Prop where
  authorized : endEntityVerified env store handshake = true →
    ∃ uuid,
      peerUuid (some idCert) handshake.session handshake.chain.leaf.1 =
        some uuid ∧
      store.Authorizes idCert handshake.chain.root uuid
  historyFree : endEntityVerified env store.forget handshake =
    endEntityVerified env store handshake

/-- Every call for an issuer succeeds; the trust anchors play no part. -/
def issuersAccepted (env : VerifyEnv) (handshake : Handshake) : Bool :=
  (verifyIssuers env handshake.session ⟨[], []⟩ handshake.chain.issuers).1

/-- The peer's UUID, if its certificate passes the checks that do not look at
trust anchors. -/
def presentedUuid (env : VerifyEnv) (idCert : IdentityCert)
    (handshake : Handshake) : Option Uuid :=
  if (ocCertsValidateEndEntityCert env.config env.checkExtendedKeyUsage
      handshake.chain.leaf.1 handshake.chain.leaf.2).1 ∧
      handshake.chain.leaf.1.publicKey.isSome then
    peerUuid (some idCert) handshake.session handshake.chain.leaf.1
  else none

/-- The trust anchor that the call for an issuer records. -/
def rootEntry (env : VerifyEnv) (session : TlsSession) (store : PkiStore)
    (idCert : IdentityCert) (crt : X509Crt) (depth : Nat) (flags : UInt32) :
    Option CaCert :=
  if (ocCertsValidateNonEndEntityCert env.config crt true session.isOtm depth
      flags).1 then
    store.caCerts.find? fun entry =>
      entry.isTrustcaOf idCert && crt.raw == entry.cert.raw
  else none

/-- The trust anchor that is recorded last on the way down the chain. -/
def recordedRoot (env : VerifyEnv) (session : TlsSession) (store : PkiStore)
    (idCert : IdentityCert) : List (X509Crt × UInt32) → Option CaCert
  | [] => none
  | (crt, flags) :: rest =>
      (recordedRoot env session store idCert rest).or
        (rootEntry env session store idCert crt (rest.length + 1) flags)

/-- Only trust anchors that the device uses for its peers are tracked. -/
def PkiStore.OwnTrustcaOnly (store : PkiStore) (idCert : IdentityCert) :
    Prop :=
  ∀ entry ∈ store.caCerts, entry.isTrustcaOf idCert

/-- No entry stops the search, and none is the given root and admits the
peer. -/
def PkiStore.Refuses (store : PkiStore) (idCert : IdentityCert)
    (root : X509Crt) (uuid : Uuid) : Prop :=
  store.OwnTrustcaOnly idCert ∧ ¬ store.Authorizes idCert root uuid

/-- Where the earlier checks let the peer through: with a root recorded from
this chain, its real root authorizes the peer or the recorded one is refused;
with none, there is no root left over or that one is refused. -/
def RootDecides (env : VerifyEnv) (store : PkiStore) (idCert : IdentityCert)
    (handshake : Handshake) : Prop :=
  issuersAccepted env handshake = true →
    ∀ uuid, presentedUuid env idCert handshake = some uuid →
      match recordedRoot env handshake.session store idCert
          handshake.chain.issuers with
      | some root =>
          store.Authorizes idCert handshake.chain.root uuid ∨
            store.Refuses idCert root.cert uuid
      | none =>
          ∀ root, idCert.ctx = some root →
            store.Refuses idCert root.cert uuid

theorem findAuthorizing_isSome_iff (idCert : IdentityCert) (root : X509Crt)
    (uuid : Uuid) (entries : List CaCert) :
    (findAuthorizing idCert root uuid entries).isSome = true ↔
      ∃ entry ∈ entries, entry.isTrustcaOf idCert = false ∨
        (entry.cert.raw = root.raw ∧ entry.admits uuid = true) := by
  induction entries with
  | nil => simp [findAuthorizing]
  | cons entry entries ih =>
      rw [List.exists_mem_cons_iff, ← ih, findAuthorizing]
      cases entry.isTrustcaOf idCert with
      | false => simp
      | true =>
          simp only [Bool.and_eq_true, beq_iff_eq]
          by_cases found : root.raw = entry.cert.raw ∧
            entry.admits uuid = true
          · simp [found]
          · have notFound : ¬ (entry.cert.raw = root.raw ∧
                entry.admits uuid = true) :=
              fun both => found ⟨both.1.symm, both.2⟩
            simp [found, notFound]

theorem PkiStore.refuses_iff (store : PkiStore) (idCert : IdentityCert)
    (root : X509Crt) (uuid : Uuid) :
    store.Refuses idCert root uuid ↔
      (findAuthorizing idCert root uuid store.caCerts).isSome = false := by
  rw [← Bool.not_eq_true, findAuthorizing_isSome_iff]
  constructor
  · rintro ⟨own, notAuthorized⟩ ⟨entry, member, foreign | found⟩
    · simp [own entry member] at foreign
    · exact notAuthorized ⟨entry, member, own entry member, found⟩
  · intro none
    refine ⟨?_, ?_⟩
    · intro entry member
      by_contra foreign
      exact none ⟨entry, member, .inl (by simpa using foreign)⟩
    · rintro ⟨entry, member, _, found⟩
      exact none ⟨entry, member, .inr found⟩

section Issuers

variable {env : VerifyEnv} {session : TlsSession} {store : PkiStore}
  {idCert : IdentityCert}

theorem verifyNonEndEntity_verdict (store other : PkiStore) (crt : X509Crt)
    (depth : Nat) (flags : UInt32) :
    (verifyNonEndEntity env store session crt depth flags).1 =
        (verifyNonEndEntity env other session crt depth flags).1 ∧
      (verifyNonEndEntity env store session crt depth flags).2.1 =
        (verifyNonEndEntity env other session crt depth flags).2.1 := by
  unfold verifyNonEndEntity
  split
  · exact ⟨rfl, rfl⟩
  · refine ⟨?_, ?_⟩ <;> (repeat' split) <;> rfl

theorem verifyNonEndEntity_store
    (found : store.getIdentityCertForSession session = some idCert)
    (identity : idCert.cred.credusage = .identityCert) (crt : X509Crt)
    (depth : Nat) (flags : UInt32) :
    (verifyNonEndEntity env store session crt depth flags).2.2 =
      match rootEntry env session store idCert crt depth flags with
      | none => store
      | some root => store.record idCert root := by
  unfold verifyNonEndEntity rootEntry
  rw [found]
  rcases ocCertsValidateNonEndEntityCert env.config crt true session.isOtm
    depth flags with ⟨valid, rest⟩
  cases valid with
  | false => rfl
  | true =>
      simp only [identity, ne_eq, not_true_eq_false, if_false, if_true]
      cases store.caCerts.find? fun entry =>
        entry.isTrustcaOf idCert && crt.raw == entry.cert.raw with
      | none => rfl
      | some root => rfl

theorem getIdentityCertForSession_record (root : CaCert)
    (found : store.getIdentityCertForSession session = some idCert) :
    (store.record idCert root).getIdentityCertForSession session =
      some { idCert with ctx := some root } := by
  obtain ⟨address, own, search⟩ := Option.bind_eq_some_iff.mp found
  have sameAddress : idCert.address = address := by
    simpa using List.find?_some search
  have kept : ((fun cert : IdentityCert => cert.address == address) ∘
      fun cert => if cert.address = idCert.address then
        { cert with ctx := some root } else cert) =
      fun cert => cert.address == address := by
    funext cert
    rw [Function.comp_apply]
    split_ifs <;> rfl
  unfold PkiStore.getIdentityCertForSession PkiStore.record
  rw [own, Option.bind_some, List.find?_map, kept, search]
  simp

theorem getIdentityCertForSession_forget (store : PkiStore)
    (session : TlsSession) :
    store.forget.getIdentityCertForSession session =
      (store.getIdentityCertForSession session).map fun cert =>
        { cert with ctx := none } := by
  unfold PkiStore.getIdentityCertForSession PkiStore.forget
  cases session.ownCert with
  | none => rfl
  | some address => exact List.find?_map

theorem tlsVerifyCertificate_ok (store other : PkiStore) (crt : X509Crt)
    (depth : Nat) (flags : UInt32) :
    (tlsVerifyCertificate env store session crt (depth + 1) flags).ok =
      (tlsVerifyCertificate env other session crt (depth + 1) flags).ok := by
  obtain ⟨sameOk, sameFlags⟩ := @verifyNonEndEntity_verdict env session store
    other crt (depth + 1) flags
  unfold tlsVerifyCertificate verifyManufacturerOrIdentityCertificate
  simp only [gt_iff_lt, Nat.zero_lt_succ, if_true, sameOk, sameFlags]
  split <;> rfl

theorem tlsVerifyCertificate_store (store : PkiStore) (crt : X509Crt)
    (depth : Nat) (flags : UInt32) :
    (tlsVerifyCertificate env store session crt (depth + 1) flags).store =
      (verifyNonEndEntity env store session crt (depth + 1) flags).2.2 := by
  unfold tlsVerifyCertificate verifyManufacturerOrIdentityCertificate
  simp only [gt_iff_lt, Nat.zero_lt_succ, if_true]
  split <;> rfl

theorem verifyIssuers_fst (store other : PkiStore)
    (issuers : List (X509Crt × UInt32)) :
    (verifyIssuers env session store issuers).1 =
      (verifyIssuers env session other issuers).1 := by
  induction issuers generalizing store other with
  | nil => rfl
  | cons issuer rest ih =>
      obtain ⟨crt, flags⟩ := issuer
      have same := @tlsVerifyCertificate_ok env session store other crt
        rest.length flags
      simp only [verifyIssuers, same]
      split
      · exact ih _ _
      · rfl

theorem rootEntry_congr {other : PkiStore} (ctx : Option CaCert)
    (same : other.caCerts = store.caCerts) (crt : X509Crt) (depth : Nat)
    (flags : UInt32) :
    rootEntry env session other { idCert with ctx := ctx } crt depth flags =
      rootEntry env session store idCert crt depth flags := by
  unfold rootEntry
  rw [same]
  rfl

theorem recordedRoot_congr {other : PkiStore} (ctx : Option CaCert)
    (same : other.caCerts = store.caCerts)
    (issuers : List (X509Crt × UInt32)) :
    recordedRoot env session other { idCert with ctx := ctx } issuers =
      recordedRoot env session store idCert issuers := by
  induction issuers with
  | nil => rfl
  | cons issuer rest ih =>
      simp only [recordedRoot]
      rw [ih, rootEntry_congr ctx same]

theorem verifyNonEndEntity_found
    (found : store.getIdentityCertForSession session = some idCert)
    (identity : idCert.cred.credusage = .identityCert) (crt : X509Crt)
    (depth : Nat) (flags : UInt32) :
    (verifyNonEndEntity env store session crt depth flags).2.2.caCerts =
        store.caCerts ∧
      (verifyNonEndEntity env store session crt depth
          flags).2.2.getIdentityCertForSession session =
        some { idCert with
          ctx := (rootEntry env session store idCert crt depth flags).or
            idCert.ctx } := by
  rw [verifyNonEndEntity_store found identity]
  cases rootEntry env session store idCert crt depth flags with
  | none => exact ⟨rfl, found⟩
  | some root =>
      exact ⟨rfl, getIdentityCertForSession_record root found⟩

theorem verifyIssuers_found
    (found : store.getIdentityCertForSession session = some idCert)
    (identity : idCert.cred.credusage = .identityCert)
    (issuers : List (X509Crt × UInt32))
    (accepted : (verifyIssuers env session store issuers).1 = true) :
    (verifyIssuers env session store issuers).2.caCerts = store.caCerts ∧
      (verifyIssuers env session store
          issuers).2.getIdentityCertForSession session =
        some { idCert with
          ctx := (recordedRoot env session store idCert issuers).or
            idCert.ctx } := by
  induction issuers generalizing store idCert with
  | nil => exact ⟨rfl, found⟩
  | cons issuer rest ih =>
      obtain ⟨crt, flags⟩ := issuer
      obtain ⟨sameCerts, nowFound⟩ := @verifyNonEndEntity_found env session
        store idCert found identity crt (rest.length + 1) flags
      simp only [verifyIssuers, tlsVerifyCertificate_store] at accepted ⊢
      split_ifs at accepted ⊢ with ok
      obtain ⟨restCerts, restFound⟩ := ih nowFound identity accepted
      rw [recordedRoot_congr _ sameCerts] at restFound
      refine ⟨restCerts.trans sameCerts, ?_⟩
      rw [restFound, recordedRoot, Option.or_assoc]

end Issuers

section EndEntity

variable {env : VerifyEnv} {store : PkiStore} {idCert : IdentityCert}
  {handshake : Handshake}

theorem authorized_iff (identity : idCert.cred.credusage = .identityCert)
    (uuid : Uuid) :
    authorized store (some idCert) uuid = true ↔
      ∃ root, idCert.ctx = some root ∧
        ¬ store.Refuses idCert root.cert uuid := by
  unfold authorized
  simp only [identity, reduceCtorEq, if_false, PkiStore.refuses_iff]
  cases idCert.ctx with
  | none => simp
  | some root => simp [Option.isSome_iff_ne_none]

theorem verifyEndEntity_iff
    (found : store.getIdentityCertForSession handshake.session = some idCert)
    (identity : idCert.cred.credusage = .identityCert) :
    (verifyEndEntity env store handshake.session handshake.chain.leaf.1
        handshake.chain.leaf.2).1 = true ↔
      ∃ uuid, presentedUuid env idCert handshake = some uuid ∧
        ∃ root, idCert.ctx = some root ∧
          ¬ store.Refuses idCert root.cert uuid := by
  unfold verifyEndEntity presentedUuid
  rw [found]
  rcases ocCertsValidateEndEntityCert env.config env.checkExtendedKeyUsage
    handshake.chain.leaf.1 handshake.chain.leaf.2 with ⟨valid, flags⟩
  cases valid with
  | false => simp
  | true =>
      simp only [true_and]
      cases peerUuid (some idCert) handshake.session
          handshake.chain.leaf.1 with
      | none => simp
      | some uuid =>
          cases handshake.chain.leaf.1.publicKey with
          | none => simp
          | some key => simp [authorized_iff identity]

theorem endEntityVerified_iff
    (found : store.getIdentityCertForSession handshake.session = some idCert)
    (identity : idCert.cred.credusage = .identityCert) :
    endEntityVerified env store handshake = true ↔
      issuersAccepted env handshake = true ∧
        ∃ uuid, presentedUuid env idCert handshake = some uuid ∧
          ∃ root, (recordedRoot env handshake.session store idCert
              handshake.chain.issuers).or idCert.ctx = some root ∧
            ¬ store.Refuses idCert root.cert uuid := by
  have sameVerdict : (verifyIssuers env handshake.session store
      handshake.chain.issuers).1 = issuersAccepted env handshake :=
    verifyIssuers_fst _ _ _
  unfold endEntityVerified
  rw [Bool.and_eq_true, sameVerdict]
  refine and_congr_right fun accepted => ?_
  obtain ⟨sameCerts, nowFound⟩ := verifyIssuers_found found identity
    handshake.chain.issuers (sameVerdict.trans accepted)
  have leaf := @verifyEndEntity_iff env _ _ handshake nowFound identity
  have sameRefusal : ∀ root uuid,
      (verifyIssuers env handshake.session store
          handshake.chain.issuers).2.Refuses { idCert with
            ctx := (recordedRoot env handshake.session store idCert
              handshake.chain.issuers).or idCert.ctx } root uuid ↔
        store.Refuses idCert root uuid := by
    intro root uuid
    unfold PkiStore.Refuses PkiStore.OwnTrustcaOnly PkiStore.Authorizes
    rw [sameCerts]
    rfl
  simp only [sameRefusal] at leaf
  exact leaf

theorem peerUuid_of_presentedUuid {uuid : Uuid}
    (presented : presentedUuid env idCert handshake = some uuid) :
    peerUuid (some idCert) handshake.session handshake.chain.leaf.1 =
      some uuid := by
  unfold presentedUuid at presented
  split_ifs at presented with passed
  exact presented

theorem endEntityVerified_forget_iff
    (found : store.getIdentityCertForSession handshake.session = some idCert)
    (identity : idCert.cred.credusage = .identityCert) :
    endEntityVerified env store.forget handshake = true ↔
      issuersAccepted env handshake = true ∧
        ∃ uuid, presentedUuid env idCert handshake = some uuid ∧
          ∃ root, recordedRoot env handshake.session store idCert
              handshake.chain.issuers = some root ∧
            ¬ store.Refuses idCert root.cert uuid := by
  have forgotten : store.forget.getIdentityCertForSession handshake.session =
      some { idCert with ctx := none } := by
    rw [getIdentityCertForSession_forget, found, Option.map_some]
  have sameRoot : recordedRoot env handshake.session store.forget
      { idCert with ctx := none } handshake.chain.issuers =
      recordedRoot env handshake.session store idCert
        handshake.chain.issuers := by
    apply recordedRoot_congr
    rfl
  have verified := @endEntityVerified_iff env _ _ handshake forgotten identity
  rw [sameRoot, Option.or_none] at verified
  exact verified

theorem rootDecides_iff
    (found : store.getIdentityCertForSession handshake.session = some idCert)
    (identity : idCert.cred.credusage = .identityCert) :
    AuthorizedByChain env store idCert handshake ↔
      RootDecides env store idCert handshake := by
  have verified := @endEntityVerified_iff env _ _ handshake found identity
  have fresh := @endEntityVerified_forget_iff env _ _ handshake found identity
  constructor
  · rintro ⟨authorized, historyFree⟩ accepted uuid presented
    rw [Bool.eq_iff_iff, verified, fresh] at historyFree
    rw [verified] at authorized
    cases recorded : recordedRoot env handshake.session store idCert
        handshake.chain.issuers with
    | some root =>
        rw [recorded, Option.some_or] at authorized
        by_cases refused : store.Refuses idCert root.cert uuid
        · exact .inr refused
        · obtain ⟨named, sameUuid, byRoot⟩ :=
            authorized ⟨accepted, uuid, presented, root, rfl, refused⟩
          rw [peerUuid_of_presentedUuid presented] at sameUuid
          cases sameUuid
          exact .inl byRoot
    | none =>
        intro root leftOver
        by_contra notRefused
        rw [recorded, Option.none_or] at historyFree
        obtain ⟨_, _, _, _, impossible, _⟩ := historyFree.mpr
          ⟨accepted, uuid, presented, root, leftOver, notRefused⟩
        cases impossible
  · intro decides
    cases recorded : recordedRoot env handshake.session store idCert
        handshake.chain.issuers with
    | some root =>
        unfold RootDecides at decides
        rw [recorded] at decides verified fresh
        refine ⟨?_, ?_⟩
        · rw [verified]
          rintro ⟨accepted, uuid, presented, other, same, notRefused⟩
          cases same
          refine ⟨uuid, peerUuid_of_presentedUuid presented, ?_⟩
          exact (decides accepted uuid presented).resolve_right notRefused
        · rw [Bool.eq_iff_iff, verified, fresh]
          rfl
    | none =>
        unfold RootDecides at decides
        rw [recorded] at decides verified fresh
        have neverVerified :
            ¬ endEntityVerified env store handshake = true := by
          rw [verified]
          rintro ⟨accepted, uuid, presented, root, leftOver, notRefused⟩
          exact notRefused (decides accepted uuid presented root leftOver)
        refine ⟨fun verifiedNow => absurd verifiedNow neverVerified, ?_⟩
        rw [Bool.eq_iff_iff, fresh]
        simp [neverVerified]

end EndEntity

/-- For every store, every history of handshakes and every chain: a session
with an identity certificate is authorized by this chain alone exactly when
its root decides. -/
theorem authorizedByChain_iff (env : VerifyEnv) (start : PkiStore)
    (history : List Handshake) (handshake : Handshake)
    (idCert : IdentityCert)
    (found : (runFrom (PkiStore.afterHandshake env) start
      history).getIdentityCertForSession handshake.session = some idCert)
    (identity : idCert.cred.credusage = .identityCert) :
    AuthorizedByChain env
        (runFrom (PkiStore.afterHandshake env) start history) idCert
        handshake ↔
      RootDecides env (runFrom (PkiStore.afterHandshake env) start history)
        idCert handshake :=
  rootDecides_iff found identity

namespace PeerAuthorization

/-- A self-issued certificate of an authority. -/
def authorityCert (raw : Bytes) : X509Crt where
  raw := raw
  version := 3
  sigMd := 4
  isEcdsa := true
  groupId := 3
  isFuture := false
  isPast := false
  issuerRaw := raw
  subjectRaw := raw
  afterSubject := []
  keyUsage := 0x06
  caIstrue := true
  maxPathlen := 0
  extKeyUsage := none
  commonName := none
  publicKey := none

/-- An identity certificate for the UUID with the given last digit. -/
def deviceCert (issuer : Bytes) (digit : String) : X509Crt where
  raw := 0 :: issuer
  version := 3
  sigMd := 4
  isEcdsa := true
  groupId := 3
  isFuture := false
  isPast := false
  issuerRaw := issuer
  subjectRaw := 0 :: issuer
  afterSubject := []
  keyUsage := 0x88
  caIstrue := false
  maxPathlen := 0
  extKeyUsage := some
    [X509.oidServerAuth, X509.oidClientAuth, X509.identityCertOid]
  commonName := some
    (ascii ("uuid:00000000-0000-0000-0000-00000000000" ++ digit))
  publicKey := some [4]

def certCred (credid : Int) (credusage : CredUsage) (subject : Uuid) : Cred where
  address := credid.toNat
  credid := credid
  credtype := CredType.cert
  credusage := credusage
  subjectuuid := subject
  role := []
  authority := []
  privatedata := EncodedData.empty
  publicdata := EncodedData.empty
  oscore := none
  tag := []
  ownerCred := false

/-- The device's authority, trusted for one peer. -/
def ownRoot : CaCert :=
  ⟨0, certCred 1 .trustca (Uuid.ofBytes (List.replicate 15 0 ++ [10])),
    authorityCert [1]⟩

/-- The device's authority, trusted for every peer. -/
def ownWildcardRoot : CaCert :=
  ⟨0, certCred 1 .trustca (Uuid.ofBytes [42]), authorityCert [1]⟩

def mfgRoot : CaCert :=
  ⟨0, certCred 2 .mfgTrustca (Uuid.ofBytes [42]), authorityCert [2]⟩

def identityCert : IdentityCert :=
  ⟨7, 0, certCred 3 .identityCert Uuid.nil, none⟩

/-- The usage is listed, anything goes, or the extension is missing. -/
def checkExtendedKeyUsage (cert : X509Crt) (oid : Bytes) : Bool :=
  match cert.extKeyUsage with
  | none => true
  | some usages => usages.any fun usage =>
      usage == oid || usage == X509.oidAnyExtendedKeyUsage

def env : VerifyEnv where
  config := ⟨0x08, 0x04⟩
  checkExtendedKeyUsage := checkExtendedKeyUsage
  verifyCertificateCb := fun _ _ _ flags => (true, flags)

/-- A peer whose certificate is issued by the authority. -/
def peerOf (authority : Bytes) (digit : String) : Handshake where
  session := ⟨some 7, false, Uuid.nil, []⟩
  chain := ⟨[(authorityCert authority, 0)], (deviceCert authority digit, 0)⟩

end PeerAuthorization

open PeerAuthorization in
/-- The manufacturer's trust anchor in front lets in a peer that no credential
admits; behind, it lets in a peer of the manufacturer once another peer has
connected. -/
theorem not_authorizedByChain :
    ¬ AuthorizedByChain env ⟨[mfgRoot, ownRoot], [identityCert]⟩ identityCert
        (peerOf [1] "f") ∧
      ¬ AuthorizedByChain env
          (runFrom (PkiStore.afterHandshake env)
            ⟨[ownWildcardRoot, mfgRoot], [identityCert]⟩ [peerOf [1] "f"])
          { identityCert with ctx := some ownWildcardRoot }
          (peerOf [2] "e") := by
  constructor
  · rintro ⟨authorized, _⟩
    obtain ⟨uuid, named, byRoot⟩ := authorized (by decide +kernel)
    have peer : peerUuid (some identityCert) (peerOf [1] "f").session
        (peerOf [1] "f").chain.leaf.1 =
          some (Uuid.ofBytes (List.replicate 15 0 ++ [15])) := by
      decide +kernel
    rw [peer] at named
    cases named
    revert byRoot
    decide +kernel
  · rintro ⟨_, historyFree⟩
    revert historyFree
    decide +kernel

open PeerAuthorization in
theorem authorizedByChain_ownRoot :
    AuthorizedByChain env ⟨[ownRoot, mfgRoot], [identityCert]⟩ identityCert
      (peerOf [1] "a") := by
  refine (authorizedByChain_iff env ⟨[ownRoot, mfgRoot], [identityCert]⟩ [] _
    _ (by decide +kernel) (by decide +kernel)).mpr ?_
  intro _ uuid presented
  have recorded : recordedRoot env (peerOf [1] "a").session
      ⟨[ownRoot, mfgRoot], [identityCert]⟩ identityCert
      (peerOf [1] "a").chain.issuers = some ownRoot := by
    decide +kernel
  have named : presentedUuid env identityCert (peerOf [1] "a") =
      some (Uuid.ofBytes (List.replicate 15 0 ++ [10])) := by
    decide +kernel
  rw [named] at presented
  cases presented
  simp only [runFrom_nil, recorded]
  left
  decide +kernel

end IotivityLite
