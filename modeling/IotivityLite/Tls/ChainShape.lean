import IotivityLite.Tls.PeerAuthorization

/-!
# The shape of an accepted certificate chain

Which chains pass `verify_manufacturer_or_identity_certificate` at every
depth.  A certificate above depth zero is tried as a root and then as an
intermediate, and what tells the two apart is whether it names itself as its
issuer.  The test for that looks at the lengths of the names before it looks
at their bytes.
-/

namespace IotivityLite

/-- The calls above depth zero, and what they leave. -/
def authoritiesAccepted (env : VerifyEnv) (session : TlsSession) :
    PkiStore → List (X509Crt × UInt32) → Bool × PkiStore
  | store, [] => (true, store)
  | store, (crt, flags) :: rest =>
      let result := verifyManufacturerOrIdentityCertificate env store session
        crt (rest.length + 1) flags
      if result.ok then authoritiesAccepted env session result.store rest
      else (false, result.store)

/-- The certificates at all depths are accepted. -/
def CertChain.Accepted (env : VerifyEnv) (store : PkiStore)
    (session : TlsSession) (chain : CertChain) : Prop :=
  let above := authoritiesAccepted env session store chain.issuers
  above.1 = true ∧
    (verifyManufacturerOrIdentityCertificate env above.2 session
      chain.leaf.1 0 chain.leaf.2).ok = true

instance (env : VerifyEnv) (store : PkiStore) (session : TlsSession)
    (chain : CertChain) : Decidable (chain.Accepted env store session) :=
  inferInstanceAs (Decidable (_ ∧ _))

/-- The certificates by their depth, with the flags the library has for
them. -/
def CertChain.byDepth (chain : CertChain) : List (X509Crt × UInt32) :=
  chain.leaf :: chain.issuers.reverse

/-- The certificate names itself as its issuer. -/
def X509Crt.NamesItself (crt : X509Crt) : Prop :=
  crt.issuerRaw = crt.subjectRaw

instance (crt : X509Crt) : Decidable crt.NamesItself :=
  inferInstanceAs (Decidable (crt.issuerRaw = crt.subjectRaw))

/-- Two different names that have the same length, or the first of which is
found where the second begins. -/
def X509Crt.Mistaken (crt : X509Crt) : Prop :=
  ¬ crt.NamesItself ∧
    (crt.issuerRaw.length = crt.subjectRaw.length ∨
      (crt.subjectRaw ++ crt.afterSubject).take crt.issuerRaw.length =
        crt.issuerRaw)

theorem X509Crt.isSelfIssued_iff (crt : X509Crt) :
    crt.isSelfIssued = true ↔ crt.NamesItself ∨ crt.Mistaken := by
  unfold X509Crt.isSelfIssued X509Crt.Mistaken X509Crt.NamesItself
  rw [Bool.or_eq_true, beq_iff_eq, beq_iff_eq]
  by_cases same : crt.issuerRaw = crt.subjectRaw
  · simp [same]
  · simp [same]

variable {crt : X509Crt}

theorem X509Crt.Mistaken.not_namesItself (mistaken : crt.Mistaken) :
    ¬ crt.NamesItself :=
  mistaken.1

/-- `pathLenConstraint`, which the library stores with one added. -/
def X509Crt.pathLenConstraint (crt : X509Crt) : Option Nat :=
  if crt.maxPathlen = 0 then none else some (crt.maxPathlen - 1)

/-- The constraint allows the certificates of authorities between the
certificate and the peer's own. -/
def X509Crt.AdmitsDepth (crt : X509Crt) (depth : Nat) : Prop :=
  ∀ pathLen, crt.pathLenConstraint = some pathLen → depth - 1 ≤ pathLen

/-- A certificate authority that may sign certificates at its depth. -/
structure X509Crt.IsAuthority (crt : X509Crt) (depth : Nat) : Prop where
  isCa : crt.caIstrue = true
  signs : crt.keyUsage &&& X509.kuKeyCertSign = X509.kuKeyCertSign
  admits : crt.AdmitsDepth depth

theorem validateX509v1Fields_verdict (config : CertsConfig) (crt : X509Crt)
    (flags other : UInt32) :
    (validateX509v1Fields config crt flags).1 =
      (validateX509v1Fields config crt other).1 := by
  unfold validateX509v1Fields
  split_ifs <;> rfl

theorem ocCertsValidateNonEndEntityCert_verdict (config : CertsConfig)
    (crt : X509Crt) (isRoot isOtm : Bool) (depth : Nat) (flags : UInt32) :
    (ocCertsValidateNonEndEntityCert config crt isRoot isOtm depth flags).1 =
      ((validateX509v1Fields config crt 0).1 &&
        nonEndEntityFieldsOk crt isRoot isOtm depth) := by
  rw [← validateX509v1Fields_verdict config crt flags 0]
  unfold ocCertsValidateNonEndEntityCert
  rcases validateX509v1Fields config crt flags with ⟨ok, after⟩
  cases ok with
  | false => rfl
  | true => rfl

theorem verifyNonEndEntity_fst (env : VerifyEnv) (store : PkiStore)
    (session : TlsSession) (crt : X509Crt) (depth : Nat) (flags : UInt32) :
    (verifyNonEndEntity env store session crt depth flags).1 =
      ((validateX509v1Fields env.config crt 0).1 &&
        (nonEndEntityFieldsOk crt true session.isOtm depth ||
          nonEndEntityFieldsOk crt false session.isOtm depth)) := by
  have asRoot := ocCertsValidateNonEndEntityCert_verdict env.config crt true
    session.isOtm depth flags
  rw [Bool.and_or_distrib_left, ← asRoot]
  unfold verifyNonEndEntity
  rcases ocCertsValidateNonEndEntityCert env.config crt true session.isOtm
    depth flags with ⟨ok, after⟩
  cases ok with
  | false =>
      exact ocCertsValidateNonEndEntityCert_verdict env.config crt false
        session.isOtm depth after
  | true =>
      simp only [Bool.true_or]
      cases store.getIdentityCertForSession session with
      | none => rfl
      | some idCert =>
          by_cases other : idCert.cred.credusage ≠ .identityCert
          · simp only [if_pos other]
          · simp only [if_neg other]
            split <;> rfl

variable {depth : Nat}

theorem of_nonEndEntityFieldsOk {isRoot isOtm : Bool}
    (ok : nonEndEntityFieldsOk crt isRoot isOtm depth = true) :
    crt.isSelfIssued = isRoot ∧ crt.IsAuthority depth ∧
      (isOtm = true → isRoot = false → depth ≤ 1) := by
  unfold nonEndEntityFieldsOk at ok
  simp only [Bool.and_eq_true, beq_iff_eq, Bool.or_eq_true,
    decide_eq_true_eq, Bool.not_eq_true'] at ok
  obtain ⟨⟨⟨⟨⟨role, signs⟩, -⟩, isCa⟩, admits⟩, tiers⟩ := ok
  refine ⟨role.symm, ⟨isCa, ?_, ?_⟩, ?_⟩
  · cases isOtm with
    | false => exact signs
    | true =>
        have inner : (X509.kuKeyCertSign ||| X509.kuCrlSign) &&&
            X509.kuKeyCertSign = X509.kuKeyCertSign := by decide
        calc crt.keyUsage &&& X509.kuKeyCertSign
            = crt.keyUsage &&& ((X509.kuKeyCertSign ||| X509.kuCrlSign) &&&
                X509.kuKeyCertSign) := by rw [inner]
          _ = crt.keyUsage &&& (X509.kuKeyCertSign ||| X509.kuCrlSign) &&&
                X509.kuKeyCertSign := (UInt32.and_assoc _ _ _).symm
          _ = X509.kuKeyCertSign := by
                rw [show crt.keyUsage &&& (X509.kuKeyCertSign |||
                  X509.kuCrlSign) = X509.kuKeyCertSign ||| X509.kuCrlSign
                  from signs, inner]
  · intro pathLen constraint
    unfold X509Crt.pathLenConstraint at constraint
    split_ifs at constraint with unlimited
    rw [Option.some.injEq] at constraint
    omega
  · intro otm intermediate
    simp [otm, intermediate] at tiers
    omega

theorem nonEndEntityFieldsOk_true_iff {isOtm : Bool}
    (ok : (nonEndEntityFieldsOk crt true isOtm depth ||
      nonEndEntityFieldsOk crt false isOtm depth) = true) :
    nonEndEntityFieldsOk crt true isOtm depth = true ↔
      crt.isSelfIssued = true := by
  constructor
  · exact fun asRoot => (of_nonEndEntityFieldsOk asRoot).1
  · intro self
    rcases Bool.or_eq_true_iff.mp ok with asRoot | asIntermediate
    · exact asRoot
    · have other := (of_nonEndEntityFieldsOk asIntermediate).1
      rw [self] at other
      cases other

section Chain

variable {env : VerifyEnv} {session : TlsSession}

theorem authoritiesAccepted_cons {store : PkiStore}
    {issuer : X509Crt × UInt32} {rest : List (X509Crt × UInt32)}
    (accepted : (authoritiesAccepted env session store
      (issuer :: rest)).1 = true) :
    ((validateX509v1Fields env.config issuer.1 0).1 &&
        (nonEndEntityFieldsOk issuer.1 true session.isOtm
            (rest.length + 1) ||
          nonEndEntityFieldsOk issuer.1 false session.isOtm
            (rest.length + 1))) = true ∧
      ∃ after, (authoritiesAccepted env session after rest).1 = true := by
  obtain ⟨crt, flags⟩ := issuer
  have verdict := verifyNonEndEntity_fst env store session crt
    (rest.length + 1) flags
  have call : (verifyManufacturerOrIdentityCertificate env store session crt
      (rest.length + 1) flags).ok =
      (verifyNonEndEntity env store session crt (rest.length + 1)
        flags).1 := rfl
  unfold authoritiesAccepted at accepted
  simp only at accepted
  split_ifs at accepted with ok
  rw [call, verdict] at ok
  exact ⟨ok, _, accepted⟩

theorem authoritiesAccepted_at {issuers : List (X509Crt × UInt32)} :
    ∀ {store : PkiStore},
      (authoritiesAccepted env session store issuers).1 = true →
      ∀ {depth : Nat} {issuer : X509Crt × UInt32},
        issuers.reverse[depth]? = some issuer →
        ((validateX509v1Fields env.config issuer.1 0).1 &&
          (nonEndEntityFieldsOk issuer.1 true session.isOtm (depth + 1) ||
            nonEndEntityFieldsOk issuer.1 false session.isOtm
              (depth + 1))) = true := by
  induction issuers with
  | nil =>
      intro store accepted depth issuer here
      simp at here
  | cons first rest ih =>
      intro store accepted depth issuer here
      obtain ⟨ok, after, further⟩ := authoritiesAccepted_cons accepted
      rw [List.reverse_cons] at here
      by_cases below : depth < rest.length
      · rw [List.getElem?_append_left (by simpa using below)] at here
        exact ih further here
      · rw [List.getElem?_append_right (by simpa using below),
          List.length_reverse] at here
        obtain ⟨last, same⟩ := List.getElem?_eq_some_iff.mp here
        have top : depth = rest.length := by
          simp only [List.length_singleton] at last
          omega
        subst top
        simp only [Nat.sub_self, List.getElem_cons_zero] at same
        exact same ▸ ok

end Chain

/-- What is expected of an accepted chain. -/
structure CertChain.WellShaped (config : CertsConfig) (isOtm : Bool)
    (chain : CertChain) : Prop where
  /-- Above depth zero stand authorities that may sign there. -/
  authorities : ∀ (depth : Nat) (issuer : X509Crt × UInt32),
    chain.byDepth[depth + 1]? = some issuer →
      issuer.1.IsAuthority (depth + 1)
  /-- The rules for roots are for the certificates that name themselves. -/
  rootRules : ∀ (depth : Nat) (issuer : X509Crt × UInt32),
    chain.byDepth[depth + 1]? = some issuer →
      ((ocCertsValidateNonEndEntityCert config issuer.1 true isOtm
          (depth + 1) issuer.2).1 = true ↔ issuer.1.NamesItself)
  /-- Before the device has an owner there are no more than three, and the
  last is the one that names itself. -/
  tiers : isOtm = true → chain.byDepth.length ≤ 3 ∧
    ∀ (depth : Nat) (cert : X509Crt × UInt32),
      chain.byDepth[depth]? = some cert →
        (cert.1.NamesItself ↔ depth + 1 = chain.byDepth.length)

/-- What the calls do not see.  No authority's name is mistaken for that of
its issuer.  Before the device has an owner, a call tells by its depth that an
intermediate comes directly above the leaf, and no more: not whether a root
comes there too, not what is above a root, and not the names of the leaf. -/
structure CertChain.TellsNames (isOtm : Bool) (chain : CertChain) : Prop where
  distinct : ∀ issuer ∈ chain.issuers, ¬ issuer.1.Mistaken
  apart : isOtm = true → ∀ (depth : Nat) (cert issuer : X509Crt × UInt32),
    chain.byDepth[depth]? = some cert →
      chain.byDepth[depth + 1]? = some issuer →
        cert.1.NamesItself → ¬ issuer.1.NamesItself
  top : isOtm = true → chain.issuers.length < 2 → chain.root.NamesItself
  leaf : isOtm = true → chain.issuers.length = 2 →
    ¬ chain.leaf.1.NamesItself

section Shape

variable {env : VerifyEnv} {session : TlsSession} {store : PkiStore}
  {chain : CertChain} {issuer : X509Crt × UInt32}

section

variable (accepted : chain.Accepted env store session)
  (here : chain.byDepth[depth + 1]? = some issuer)

include accepted here

theorem CertChain.Accepted.at :
    (validateX509v1Fields env.config issuer.1 0).1 = true ∧
      (nonEndEntityFieldsOk issuer.1 true session.isOtm (depth + 1) ||
        nonEndEntityFieldsOk issuer.1 false session.isOtm
          (depth + 1)) = true :=
  (Bool.and_eq_true_iff).mp (authoritiesAccepted_at accepted.1 here)

theorem CertChain.Accepted.authority : issuer.1.IsAuthority (depth + 1) := by
  rcases Bool.or_eq_true_iff.mp (accepted.at here).2 with asRoot | between
  · exact (of_nonEndEntityFieldsOk asRoot).2.1
  · exact (of_nonEndEntityFieldsOk between).2.1

theorem CertChain.Accepted.root_iff :
    (ocCertsValidateNonEndEntityCert env.config issuer.1 true session.isOtm
        (depth + 1) issuer.2).1 = true ↔
      issuer.1.NamesItself ∨ issuer.1.Mistaken := by
  obtain ⟨common, either⟩ := accepted.at here
  rw [ocCertsValidateNonEndEntityCert_verdict, common, Bool.true_and,
    nonEndEntityFieldsOk_true_iff either, X509Crt.isSelfIssued_iff]

end

/-- An intermediate comes only directly above the leaf. -/
theorem CertChain.Accepted.namesItself_of_otm
    (accepted : chain.Accepted env store session)
    (otm : session.isOtm = true)
    (distinct : ∀ issuer ∈ chain.issuers, ¬ issuer.1.Mistaken) {depth : Nat}
    {issuer : X509Crt × UInt32}
    (here : chain.byDepth[depth + 2]? = some issuer) :
    issuer.1.NamesItself := by
  rcases Bool.or_eq_true_iff.mp (accepted.at here).2 with asRoot | between
  · have self :=
      issuer.1.isSelfIssued_iff.mp (of_nonEndEntityFieldsOk asRoot).1
    refine self.resolve_right (distinct issuer ?_)
    exact List.mem_reverse.mp (List.mem_of_getElem? here)
  · have shallow := (of_nonEndEntityFieldsOk between).2.2 otm rfl
    omega

/-- The roots that a fourth certificate brings would be neighbours. -/
theorem CertChain.Accepted.length_le_three
    (accepted : chain.Accepted env store session) (otm : session.isOtm = true)
    (tells : chain.TellsNames session.isOtm) : chain.byDepth.length ≤ 3 := by
  by_contra long
  have third := List.getElem?_eq_getElem
    (show 2 < chain.byDepth.length by omega)
  have fourth := List.getElem?_eq_getElem
    (show 3 < chain.byDepth.length by omega)
  exact tells.apart otm 2 _ _ third fourth
    (accepted.namesItself_of_otm otm tells.distinct third)
    (accepted.namesItself_of_otm otm tells.distinct fourth)

/-- In a chain of three the last certificate has passed as a root. -/
theorem CertChain.Accepted.namesItself_iff_last
    (accepted : chain.Accepted env store session)
    (otm : session.isOtm = true)
    (tells : chain.TellsNames session.isOtm) (depth : Nat)
    (cert : X509Crt × UInt32) (here : chain.byDepth[depth]? = some cert) :
    cert.1.NamesItself ↔ depth + 1 = chain.byDepth.length := by
  have few := accepted.length_le_three otm tells
  have root := fun above : X509Crt × UInt32 =>
    @CertChain.Accepted.namesItself_of_otm _ _ _ _ accepted otm tells.distinct
      0 above
  have apart := tells.apart otm
  have top := tells.top otm
  have leaf := tells.leaf otm
  obtain ⟨issuers, own⟩ := chain
  match issuers with
  | [] =>
      match depth with
      | 0 =>
          obtain rfl := Option.some.inj here
          simpa [CertChain.byDepth] using (show own.1.NamesItself from
            top Nat.zero_lt_two)
      | depth + 1 => cases here
  | [above] =>
      have self : above.1.NamesItself := top Nat.one_lt_two
      match depth with
      | 0 =>
          obtain rfl := Option.some.inj here
          have other := fun named => apart 0 own above rfl rfl named self
          simpa [CertChain.byDepth] using other
      | 1 =>
          obtain rfl := Option.some.inj here
          simpa [CertChain.byDepth] using self
      | depth + 2 => cases here
  | [highest, above] =>
      have self : highest.1.NamesItself := root highest rfl
      match depth with
      | 0 =>
          obtain rfl := Option.some.inj here
          simpa [CertChain.byDepth] using leaf rfl
      | 1 =>
          obtain rfl := Option.some.inj here
          have other := fun named => apart 1 above highest rfl rfl named self
          simpa [CertChain.byDepth] using other
      | 2 =>
          obtain rfl := Option.some.inj here
          simpa [CertChain.byDepth] using self
      | depth + 3 => cases here
  | _ :: _ :: _ :: _ =>
      simp only [CertChain.byDepth, List.length_cons, List.length_reverse]
        at few
      omega

theorem CertChain.WellShaped.tellsNames {config : CertsConfig} {isOtm : Bool}
    (shaped : chain.WellShaped config isOtm)
    (distinct : ∀ issuer ∈ chain.issuers, ¬ issuer.1.Mistaken) :
    chain.TellsNames isOtm where
  distinct := distinct
  apart := by
    intro otm depth cert issuer below above named self
    have last := ((shaped.tiers otm).2 depth cert below).mp named
    have further := (List.getElem?_eq_some_iff.mp above).1
    omega
  top := by
    intro otm few
    obtain ⟨issuers, own⟩ := chain
    match issuers with
    | [] => exact ((shaped.tiers otm).2 0 own rfl).mpr rfl
    | [above] => exact ((shaped.tiers otm).2 1 above rfl).mpr rfl
    | _ :: _ :: _ =>
        simp only [List.length_cons] at few
        omega
  leaf := by
    intro otm two named
    have last := ((shaped.tiers otm).2 0 chain.leaf rfl).mp named
    simp only [CertChain.byDepth, List.length_cons, List.length_reverse]
      at last
    omega

end Shape

namespace ChainShape

open PeerAuthorization

def otmSession : TlsSession := ⟨none, true, Uuid.nil, []⟩

def noStore : PkiStore := ⟨[], []⟩

/-- The encoded name whose common name is the letter. -/
def nameOf (letter : UInt8) : Bytes :=
  [0x30, 0x0c, 0x31, 0x0a, 0x30, 0x08, 0x06, 0x03, 0x55, 0x04, 0x03, 0x0c,
    0x01, letter]

def namedAuthority (subject issuer : UInt8) : X509Crt :=
  { authorityCert (nameOf subject) with issuerRaw := nameOf issuer }

/-- The authorities A, B, C and D, each issued by the next one. -/
def longChain : CertChain where
  issuers := [(namedAuthority 68 69, 0), (namedAuthority 67 68, 0),
    (namedAuthority 66 67, 0), (namedAuthority 65 66, 0)]
  leaf := (deviceCert (nameOf 65) "f", 0)

end ChainShape

end IotivityLite
