import IotivityLite.Security.AccessCheck

/-!
# Access without a secured connection

An endpoint without the `SECURED` flag carries the nil UUID.  The development
says exactly when such an endpoint is granted a security resource that is not
meant to be open to it: the owner of a resource that nobody owns is the nil
UUID as well, and so is the subject of some entries.
-/

namespace IotivityLite

section Anonymous

variable (state : AccessState) (method : OcMethod) (resource : OcResource)
  (endpoint : OcEndpoint)

/-- The resource's own permission for anonymous access in RFOTM. -/
def ExplicitlyGranted : Prop :=
  state.dos = .rfotm ∧ grantedInRfotm state method resource = true

/-- The security resources that are meant to be open to everybody: `pstat`
for GET, and `doxm` in RFOTM before the onboarding connection. -/
def MeantToBeOpen : Prop :=
  resource.kind = .svr .pstat ∧ method = .get ∨
  resource.kind = .svr .doxm ∧ state.dos = .rfotm ∧
    ocTlsNumPeers state endpoint.device = 0 ∨
  ExplicitlyGranted state method resource

/-- What anonymous access is confined to. -/
def Confined : Prop :=
  ocSecCheckAcl state method resource endpoint = true →
    (∀ svr, resource.kind = .svr svr →
      MeantToBeOpen state method resource endpoint) ∧
    (resource.kind = .application → ExplicitlyGranted state method resource)

/-- The resource has an owner UUID of its own, and it is nil. -/
def NilOwner : Svr → Prop
  | .acl => state.acl.rowneruuid = Uuid.nil
  | .doxm => state.doxmRowneruuid = Uuid.nil
  | .pstat => state.pstatRowneruuid = Uuid.nil
  | .cred => state.creds.rowneruuid = Uuid.nil
  | _ => False

/-- An entry for the nil UUID allows the method on the resource. -/
def NilEntry : Prop :=
  ∃ ace ∈ state.acl.aces,
    ace.grants method resource true (.uuid Uuid.nil) = true

/-- The states in which the rules for anonymous endpoints have no say: RESET,
and RFOTM while more than one connection is open. -/
def Unguarded : Prop :=
  state.dos = .reset ∨
    state.dos = .rfotm ∧ 2 ≤ ocTlsNumPeers state endpoint.device

/-- The resource is open to anonymous endpoints without being meant to. -/
def Leaks : Prop :=
  ∃ svr, resource.kind = .svr svr ∧
    Unguarded state endpoint ∧
    (NilOwner state svr ∨ NilEntry state method resource) ∧
    ¬ MeantToBeOpen state method resource endpoint

variable {state method resource endpoint}

theorem ocTlsGetPeer_of_unsecured (unsecured : endpoint.secured = false) :
    ocTlsGetPeer state endpoint = none := by
  refine List.find?_eq_none.mpr ?_
  intro peer _
  simp [ocEndpointCompare, peer.endpoint_secured, unsecured]

theorem ocResourceMatchUri_svr (first second : Svr) :
    ocResourceMatchUri first.uri second.uri = decide (second = first) := by
  cases first <;> cases second <;> decide

theorem ocSecCheckAclOnGet_svr (svr : Svr) (isOtm : Bool) :
    ocSecCheckAclOnGet state svr.uri isOtm = false := by
  have none : ∀ uri ∈ [ascii "/oic/res", ascii "/oic/d", ascii "/oic/p",
      ascii "/x.plgd.dev/time", ascii "/.well-known/core"],
      ocResourceMatchUri uri svr.uri = false := by
    cases svr <;> decide
  simp only [List.forall_mem_cons] at none
  obtain ⟨res, device, platform, time, wkcore, -⟩ := none
  simp [ocSecCheckAclOnGet, res, device, platform, time, wkcore]

theorem ocSecCheckAclByUuid_svr_iff (svr : Svr) :
    ocSecCheckAclByUuid state Uuid.nil svr.uri = true ↔
      NilOwner state svr := by
  unfold ocSecCheckAclByUuid
  cases svr <;> simp [ocResourceMatchUri_svr, NilOwner]

theorem priorToDoc_svr_iff (svr : Svr) :
    ocSecCheckAclInRfotmPriorToDoc method svr.uri = true ↔
      svr = .doxm ∨ method = .get ∧ svr = .pstat := by
  unfold ocSecCheckAclInRfotmPriorToDoc
  rw [ocResourceMatchUri_svr, ocResourceMatchUri_svr]
  simp

theorem checkByPermissions_svr_iff (anonymous : endpoint.di = Uuid.nil) :
    ocSecCheckAclByPermissions state.ocPki state.creds.creds state.acl.aces
        ⟨method, resource, true, true, endpoint, none⟩ = true ↔
      NilEntry state method resource := by
  rw [ocSecCheckAclByPermissions_eq]
  simp [AccessQuery.privileged, AccessQuery.grantedBy, AccessQuery.subjects,
    anonymous, NilEntry]

theorem ocSecCheckAcl_svr_iff {svr : Svr}
    (unsecured : endpoint.secured = false)
    (anonymous : endpoint.di = Uuid.nil) (isSvr : resource.kind = .svr svr) :
    ocSecCheckAcl state method resource endpoint = true ↔
      ExplicitlyGranted state method resource ∧
        ocTlsNumPeers state endpoint.device ≠ 1 ∨
      (state.dos = .rfotm ∧ ocTlsNumPeers state endpoint.device = 0 ∧
        (svr = .doxm ∨ method = .get ∧ svr = .pstat)) ∨
      (Unguarded state endpoint ∧
        (NilOwner state svr ∨ NilEntry state method resource)) := by
  have uri := resource.svr_uri svr isSvr
  have isDCR : ocCoreIsDCR resource = true := by simp [ocCoreIsDCR, isSvr]
  have isSVR : ocCoreIsSVR resource = true := by simp [ocCoreIsSVR, isSvr]
  have permitted : (if ocSecCheckAclByUuid state Uuid.nil svr.uri = true then
        true
      else ocSecCheckAclByPermissions state.ocPki state.creds.creds
        state.acl.aces ⟨method, resource, true, true, endpoint, none⟩) = true ↔
      NilOwner state svr ∨ NilEntry state method resource := by
    rw [← ocSecCheckAclByUuid_svr_iff, ← checkByPermissions_svr_iff anonymous]
    split_ifs with owner <;> simp [owner]
  unfold ocSecCheckAcl Unguarded ExplicitlyGranted
  simp only [ocTlsGetPeer_of_unsecured unsecured, isDCR, isSVR, unsecured,
    uri, ocSecCheckAclOnGet_svr, anonymous]
  cases dos : state.dos with
  | reset => simpa [DosType.afterOtm] using permitted
  | rfotm =>
      have prior := @priorToDoc_svr_iff method svr
      generalize ocTlsNumPeers state endpoint.device = numPeers
      rcases numPeers with _ | _ | more
      · cases granted : grantedInRfotm state method resource <;>
          simp [prior]
      · simp
      · cases granted : grantedInRfotm state method resource with
        | true => simp
        | false => simpa [DosType.afterOtm] using permitted
  | rfpro => simp [DosType.afterOtm]
  | rfnop => simp [DosType.afterOtm]
  | sreset => simp [DosType.afterOtm]

theorem ocSecCheckAcl_application
    (unsecured : endpoint.secured = false)
    (application : resource.kind = .application)
    (granted : ocSecCheckAcl state method resource endpoint = true) :
    ExplicitlyGranted state method resource := by
  unfold ocSecCheckAcl at granted
  simp only [ocCoreIsDCR, ocCoreIsVerticalResource, application, unsecured]
    at granted
  unfold ExplicitlyGranted
  cases dos : state.dos <;> simp_all

/-- For every device state, resource and method, anonymous access is confined
if and only if the resource does not leak. -/
theorem confined_iff_not_leaks (unsecured : endpoint.secured = false)
    (anonymous : endpoint.di = Uuid.nil) :
    Confined state method resource endpoint ↔
      ¬ Leaks state method resource endpoint := by
  constructor
  · rintro confined ⟨svr, isSvr, unguarded, opened, unmeant⟩
    refine unmeant ((confined ?_).1 svr isSvr)
    exact (ocSecCheckAcl_svr_iff unsecured anonymous isSvr).mpr
      (.inr (.inr ⟨unguarded, opened⟩))
  · intro sealed granted
    refine ⟨?_, ?_⟩
    · intro svr isSvr
      by_contra unmeant
      rcases (ocSecCheckAcl_svr_iff unsecured anonymous isSvr).mp granted with
        explicit | ⟨rfotm, noPeers, which⟩ | ⟨unguarded, opened⟩
      · exact unmeant (.inr (.inr explicit.1))
      · rcases which with rfl | ⟨get, rfl⟩
        · exact unmeant (.inr (.inl ⟨isSvr, rfotm, noPeers⟩))
        · exact unmeant (.inl ⟨isSvr, get⟩)
      · exact sealed ⟨svr, isSvr, unguarded, opened, unmeant⟩
    · intro application
      exact ocSecCheckAcl_application unsecured application granted

end Anonymous

section Unowned

private def anonymousEndpoint : OcEndpoint := ⟨0, false, 0, 0, Uuid.nil⟩

private def securedPeer (route : Nat) : TlsPeer where
  endpoint := ⟨0, true, route, 0, Uuid.nil⟩
  doc := true
  usesPskCred := true
  roles := []
  endpoint_secured := rfl

private def unownedDevice (dos : DosType) (peers : List TlsPeer) :
    AccessState where
  ocPki := true
  ocWkcore := false
  plgdTime := false
  resourceAccessInRfotm := true
  dos := dos
  acl := ⟨[], Uuid.nil, 0⟩
  creds := ⟨[], Uuid.nil, 0⟩
  doxmRowneruuid := Uuid.nil
  pstatRowneruuid := Uuid.nil
  peers := peers

private def svrResource (svr : Svr) : OcResource where
  uri := svr.uri
  kind := .svr svr
  discoverable := true
  secure := true
  accessInRfotm := false
  anonPermissionInRfotm := 0
  svr_uri := by
    intro other same
    cases same
    rfl

/-- The credentials of a device in normal operation are out of reach. -/
theorem confined_cred_in_rfnop :
    (unownedDevice .rfnop []).dos = .rfnop ∧
    Confined (unownedDevice .rfnop []) .post (svrResource .cred)
      anonymousEndpoint := by
  refine ⟨rfl, (confined_iff_not_leaks rfl rfl).mpr ?_⟩
  rintro ⟨svr, -, unguarded, -⟩
  rcases unguarded with reset | ⟨rfotm, -⟩
  · cases reset
  · cases rfotm

/-- In RESET, and in RFOTM with two open connections, anybody may write the
access control list and delete the credentials of an unowned device. -/
theorem not_confined_unowned :
    ¬ Confined (unownedDevice .reset []) .post (svrResource .acl)
      anonymousEndpoint ∧
    ¬ Confined (unownedDevice .rfotm [securedPeer 1, securedPeer 2]) .delete
      (svrResource .cred) anonymousEndpoint := by
  constructor
  · intro confined
    rcases (confined (by decide)).1 .acl rfl with ⟨pstat, -⟩ | ⟨doxm, -⟩ |
      ⟨rfotm, -⟩
    · cases pstat
    · cases doxm
    · cases rfotm
  · intro confined
    rcases (confined (by decide)).1 .cred rfl with ⟨pstat, -⟩ | ⟨doxm, -⟩ |
      ⟨-, granted⟩
    · cases pstat
    · cases doxm
    · cases granted

end Unowned

end IotivityLite
