import IotivityLite.Foundation.BitUnion
import IotivityLite.Security.Cred
import Mathlib.Tactic

/-!
# Access decisions

`oc_sec_check_acl` of `oc_acl_util.c`.  Permissions are collected from the
entries of the list for the peer's UUID, its roles and its kind of connection;
before that come the rules for the onboarding state and for the owners of the
security resources.
-/

namespace IotivityLite

inductive OcMethod where
  | get
  | post
  | put
  | delete
  | fetch
  deriving DecidableEq, Repr

/-- The security virtual resources. -/
inductive Svr where
  | doxm
  | pstat
  | acl
  | ael
  | cred
  | sdi
  | sp
  | csr
  | roles
  deriving DecidableEq, Repr

def Svr.uri : Svr → Bytes
  | doxm => ascii "/oic/sec/doxm"
  | pstat => ascii "/oic/sec/pstat"
  | acl => ascii "/oic/sec/acl2"
  | ael => ascii "/oic/sec/ael"
  | cred => ascii "/oic/sec/cred"
  | sdi => ascii "/oic/sec/sdi"
  | sp => ascii "/oic/sec/sp"
  | csr => ascii "/oic/sec/csr"
  | roles => ascii "/oic/sec/roles"

/-- Where a resource stands in the table of core resources. -/
inductive ResourceKind where
  /-- the platform and the time resource, before `OCF_CON` -/
  | platform
  /-- `OCF_CON` and the introspection resources -/
  | configuration
  /-- from `/oic/res` on, the security resources and `/oic/d` apart -/
  | core
  | svr (svr : Svr)
  | device
  /-- not in the table -/
  | application
  deriving DecidableEq, Repr

/-- The security resources have their fixed URIs. -/
structure OcResource where
  uri : Bytes
  kind : ResourceKind
  discoverable : Bool
  secure : Bool
  accessInRfotm : Bool
  anonPermissionInRfotm : UInt16
  svr_uri : ∀ svr, kind = .svr svr → uri = svr.uri

def ocCoreIsDCR (resource : OcResource) : Bool :=
  match resource.kind with
  | .platform | .core | .svr _ | .device => true
  | .configuration | .application => false

def ocCoreIsSVR (resource : OcResource) : Bool :=
  match resource.kind with
  | .svr _ => true
  | _ => false

def ocCoreIsVerticalResource (resource : OcResource) : Bool :=
  match resource.kind with
  | .platform | .application => true
  | _ => false

/-- `route` stands for the addresses and the flags other than `SECURED` that
endpoints are compared by; a session of 0 fits every session. -/
structure OcEndpoint where
  device : Nat
  secured : Bool
  route : Nat
  session : Nat
  di : Uuid
  deriving DecidableEq

def ocEndpointCompare (first second : OcEndpoint) : Bool :=
  first.secured == second.secured && first.device == second.device &&
    first.route == second.route &&
    (first.session == 0 || second.session == 0 ||
      first.session == second.session)

/-- A role certificate of a peer, and whether it validates now. -/
structure RoleCert where
  role : Bytes
  authority : Bytes
  valid : Bool
  deriving DecidableEq

/-- A TLS peer; its endpoint is a secured one. -/
structure TlsPeer where
  endpoint : OcEndpoint
  doc : Bool
  usesPskCred : Bool
  roles : List RoleCert
  endpoint_secured : endpoint.secured = true

/-- The part of a device's state the decision depends on, with the build
switches. -/
structure AccessState where
  ocPki : Bool
  ocWkcore : Bool
  plgdTime : Bool
  resourceAccessInRfotm : Bool
  dos : DosType
  acl : Acl
  creds : Creds
  doxmRowneruuid : Uuid
  pstatRowneruuid : Uuid
  peers : List TlsPeer

def ocTlsNumPeers (state : AccessState) (device : Nat) : Nat :=
  (state.peers.filter (·.endpoint.device == device)).length

def ocTlsGetPeer (state : AccessState) (endpoint : OcEndpoint) :
    Option TlsPeer :=
  state.peers.find? fun peer => ocEndpointCompare peer.endpoint endpoint

namespace OcPerm

abbrev create : UInt16 := 1
abbrev retrieve : UInt16 := 2
abbrev update : UInt16 := 4
abbrev delete : UInt16 := 8
abbrev notify : UInt16 := 16
abbrev all : UInt16 := 31

end OcPerm

def evalAccess (method : OcMethod) (permission : UInt16) : Bool :=
  if permission = 0 then false
  else match method with
    | .get => permission &&& OcPerm.retrieve ≠ 0 ||
        permission &&& OcPerm.notify ≠ 0
    | .post | .put => permission &&& OcPerm.create ≠ 0 ||
        permission &&& OcPerm.update ≠ 0
    | .delete => permission &&& OcPerm.delete ≠ 0
    | .fetch => false

/-- The wildcards a resource answers to. -/
def wildcardsOf (resource : OcResource) (isDCR isPublic : Bool) : UInt16 :=
  if isDCR then 0
  else if resource.discoverable then
    if isPublic then
      AceWildcard.allSecured.bits ||| AceWildcard.allPublic.bits
    else AceWildcard.allSecured.bits
  else AceWildcard.all.bits

def ocAceGetPermission (resource : OcResource) (isDCR isPublic : Bool)
    (ace : Ace) : UInt16 :=
  (ace.resources.filter (aceResMatches (some resource.uri)
    (wildcardsOf resource isDCR isPublic))).foldl
    (fun permission _ => permission ||| ace.permission) 0

/-- The loops over all entries with a matching subject. -/
def subjectPermissions (aces : List Ace) (resource : OcResource)
    (isDCR isPublic : Bool) (subject : AceSubject) : UInt16 :=
  (aces.filter (AceQuery.accepts ⟨subject, -1, 0, none⟩)).foldl
    (fun permission ace =>
      permission ||| ocAceGetPermission resource isDCR isPublic ace) 0

/-- The loop over the role certificates: the owner role grants everything. -/
def roleCertPermissions (permissionsOf : AceSubject → UInt16) :
    List RoleCert → UInt16 → UInt16
  | [], permission => permission
  | role :: roles, permission =>
      if !role.valid then roleCertPermissions permissionsOf roles permission
      else if role.role = ascii "oic.role.owner" then OcPerm.all
      else roleCertPermissions permissionsOf roles
        (permission ||| permissionsOf (.role role.role role.authority))

def getPeerPermissions (ocPki : Bool) (permissionsOf : AceSubject → UInt16)
    (creds : List Cred) (di : Uuid) (peer : TlsPeer) : UInt16 :=
  if peer.usesPskCred then
    (creds.filter fun cred =>
      cred.credtype == CredType.psk && cred.credusage == .null &&
        cred.subjectuuid == di && cred.role != []).foldl
      (fun permission cred =>
        permission ||| permissionsOf (.role cred.role cred.authority)) 0
  else if ocPki then roleCertPermissions permissionsOf peer.roles 0
  else 0

def getConnPermissions (permissionsOf : AceSubject → UInt16)
    (secured : Bool) : UInt16 :=
  (if secured then permissionsOf (.conn .authCrypt) else 0) |||
    permissionsOf (.conn .anonClear)

/-- What the decision by permissions is asked for. -/
structure AccessQuery where
  method : OcMethod
  resource : OcResource
  isDCR : Bool
  isSVR : Bool
  endpoint : OcEndpoint
  peer : Option TlsPeer

def AccessQuery.permission (query : AccessQuery) (ocPki : Bool)
    (creds : List Cred) (aces : List Ace) : UInt16 :=
  let permissionsOf := subjectPermissions aces query.resource query.isDCR
    (!query.resource.secure)
  permissionsOf (.uuid query.endpoint.di) |||
    (match query.peer with
      | none => 0
      | some peer =>
          getPeerPermissions ocPki permissionsOf creds query.endpoint.di
            peer) |||
    (if query.isSVR then 0
      else getConnPermissions permissionsOf query.endpoint.secured)

def ocSecCheckAclByPermissions (ocPki : Bool) (creds : List Cred)
    (aces : List Ace) (query : AccessQuery) : Bool :=
  evalAccess query.method (query.permission ocPki creds aces)

def ocSecCheckAclOnGet (state : AccessState) (uri : Bytes) (isOtm : Bool) :
    Bool :=
  (isOtm && (ocResourceMatchUri (ascii "/oic/res") uri ||
    ocResourceMatchUri (ascii "/oic/d") uri ||
    ocResourceMatchUri (ascii "/oic/p") uri)) ||
  (state.plgdTime && ocResourceMatchUri (ascii "/x.plgd.dev/time") uri) ||
  (state.ocWkcore && ocResourceMatchUri (ascii "/.well-known/core") uri)

def ocSecCheckAclByUuid (state : AccessState) (uuid : Uuid) (uri : Bytes) :
    Bool :=
  (ocResourceMatchUri Svr.acl.uri uri && state.acl.rowneruuid == uuid) ||
  (ocResourceMatchUri Svr.doxm.uri uri && state.doxmRowneruuid == uuid) ||
  (ocResourceMatchUri Svr.pstat.uri uri && state.pstatRowneruuid == uuid) ||
  (ocResourceMatchUri Svr.cred.uri uri && state.creds.rowneruuid == uuid)

def ocSecCheckAclInRfotmPriorToDoc (method : OcMethod) (uri : Bytes) : Bool :=
  ocResourceMatchUri Svr.doxm.uri uri ||
    (method == .get && ocResourceMatchUri Svr.pstat.uri uri)

/-- The explicit permission for anonymous access in RFOTM. -/
def grantedInRfotm (state : AccessState) (method : OcMethod)
    (resource : OcResource) : Bool :=
  state.resourceAccessInRfotm && resource.accessInRfotm &&
    evalAccess method resource.anonPermissionInRfotm

def DosType.afterOtm : DosType → Bool
  | .rfpro | .rfnop | .sreset => true
  | .reset | .rfotm => false

def ocSecCheckAcl (state : AccessState) (method : OcMethod)
    (resource : OcResource) (endpoint : OcEndpoint) : Bool :=
  let numPeers := ocTlsNumPeers state endpoint.device
  let inRfotm := state.dos == .rfotm
  let isDCR := ocCoreIsDCR resource
  let isSVR := ocCoreIsSVR resource
  let isVertical := !isDCR && ocCoreIsVerticalResource resource
  let peer := ocTlsGetPeer state endpoint
  if inRfotm && !endpoint.secured && numPeers == 1 then false
  else if inRfotm && !endpoint.secured &&
      grantedInRfotm state method resource then
    true
  -- NCRs are accessible only in RFNOP
  else if !isDCR && state.dos != .rfnop then false
  else if isVertical && !endpoint.secured then false
  -- requests over the DOC to DCRs
  else if isDCR && peer.any (·.doc) then true
  else if method == .get &&
      ocSecCheckAclOnGet state resource.uri inRfotm then
    true
  else if inRfotm && numPeers == 0 then
    ocSecCheckAclInRfotmPriorToDoc method resource.uri
  else if isSVR && !endpoint.secured && state.dos.afterOtm then false
  else if ocSecCheckAclByUuid state endpoint.di resource.uri then true
  else if state.ocPki && ocResourceMatchUri Svr.roles.uri resource.uri &&
      state.dos.afterOtm then
    true
  else ocSecCheckAclByPermissions state.ocPki state.creds.creds
    state.acl.aces ⟨method, resource, isDCR, isSVR, endpoint, peer⟩

open BitUnion

theorem distributes_evalAccess (method : OcMethod) :
    Distributes (evalAccess method) where
  zero := rfl
  or first second := by
    have masked (mask : UInt16) := (distributes_mask mask).or first second
    cases method <;> simp only [evalAccess] <;>
      grind [UInt16.or_eq_zero_iff]

/-- The entry allows the method on the resource to peers with the subject. -/
def Ace.grants (ace : Ace) (method : OcMethod) (resource : OcResource)
    (isDCR : Bool) (subject : AceSubject) : Bool :=
  ocAceHasMatchingSubject ace subject &&
    ace.resources.any (aceResMatches (some resource.uri)
      (wildcardsOf resource isDCR (!resource.secure))) &&
    evalAccess method ace.permission

section Collected

variable {test : UInt16 → Bool} (distributes : Distributes test)
include distributes

theorem test_ocAceGetPermission (resource : OcResource)
    (isDCR isPublic : Bool) (ace : Ace) :
    test (ocAceGetPermission resource isDCR isPublic ace) =
      (ace.resources.any (aceResMatches (some resource.uri)
        (wildcardsOf resource isDCR isPublic)) && test ace.permission) := by
  unfold ocAceGetPermission
  rw [distributes.foldl (fun _ => ace.permission), distributes.zero,
    Bool.false_or, List.any_filter]
  induction ace.resources with
  | nil => rfl
  | cons res resources ih =>
      rw [List.any_cons, List.any_cons, ih, ← Bool.and_or_distrib_right]

theorem test_subjectPermissions (aces : List Ace) (resource : OcResource)
    (isDCR isPublic : Bool) (subject : AceSubject) :
    test (subjectPermissions aces resource isDCR isPublic subject) =
      aces.any fun ace => ocAceHasMatchingSubject ace subject &&
        ace.resources.any (aceResMatches (some resource.uri)
          (wildcardsOf resource isDCR isPublic)) && test ace.permission := by
  unfold subjectPermissions
  rw [distributes.foldl, distributes.zero, Bool.false_or, List.any_filter]
  congr 1
  funext ace
  rw [test_ocAceGetPermission distributes, Bool.and_assoc]
  simp [AceQuery.accepts]

end Collected

/-- A valid certificate for the owner role is among the peer's. -/
def ownerAsserted (roles : List RoleCert) : Bool :=
  roles.any fun role => role.valid && role.role == ascii "oic.role.owner"

/-- The role subjects a peer stands for; the owner role needs no entry. -/
def peerSubjects (ocPki : Bool) (creds : List Cred) (di : Uuid)
    (peer : TlsPeer) : List AceSubject :=
  if peer.usesPskCred then
    (creds.filter fun cred =>
      cred.credtype == CredType.psk && cred.credusage == .null &&
        cred.subjectuuid == di && cred.role != []).map
      fun cred => .role cred.role cred.authority
  else if ocPki && !ownerAsserted peer.roles then
    (peer.roles.filter (·.valid)).map fun role =>
      .role role.role role.authority
  else []

namespace AccessQuery

def subjects (query : AccessQuery) (ocPki : Bool) (creds : List Cred) :
    List AceSubject :=
  .uuid query.endpoint.di ::
    (query.peer.toList.flatMap
      (peerSubjects ocPki creds query.endpoint.di) ++
      if query.isSVR then []
      else if query.endpoint.secured then
        [.conn .authCrypt, .conn .anonClear]
      else [.conn .anonClear])

/-- Access that no entry is needed for. -/
def privileged (query : AccessQuery) (ocPki : Bool) : Bool :=
  query.peer.any (fun peer =>
    !peer.usesPskCred && ocPki && ownerAsserted peer.roles) &&
    evalAccess query.method OcPerm.all

def grantedBy (query : AccessQuery) (ocPki : Bool) (creds : List Cred)
    (ace : Ace) : Bool :=
  (query.subjects ocPki creds).any
    (ace.grants query.method query.resource query.isDCR)

end AccessQuery

section Grants

variable {test : UInt16 → Bool} (distributes : Distributes test)
  (permissionsOf : AceSubject → UInt16)
include distributes

private theorem test_roleCertPermissions (roles : List RoleCert)
    (start : UInt16) :
    test (roleCertPermissions permissionsOf roles start) =
      if ownerAsserted roles then test OcPerm.all
      else test start ||
        (roles.filter (·.valid)).any fun role =>
          test (permissionsOf (.role role.role role.authority)) := by
  induction roles generalizing start with
  | nil => simp [roleCertPermissions, ownerAsserted]
  | cons role roles ih =>
      unfold roleCertPermissions
      cases valid : role.valid with
      | false =>
          have same : ownerAsserted (role :: roles) = ownerAsserted roles := by
            simp [ownerAsserted, valid]
          rw [same, List.filter_cons_of_neg (by simp [valid])]
          simpa [valid] using ih start
      | true =>
          by_cases owner : role.role = ascii "oic.role.owner"
          · simp [owner, ownerAsserted, valid]
          · have same : ownerAsserted (role :: roles) =
                ownerAsserted roles := by
              simp [ownerAsserted, owner]
            rw [same, List.filter_cons_of_pos valid, List.any_cons,
              ← Bool.or_assoc, ← distributes.or]
            simpa [valid, owner] using ih _

theorem test_getPeerPermissions (ocPki : Bool) (creds : List Cred) (di : Uuid)
    (peer : TlsPeer) :
    test (getPeerPermissions ocPki permissionsOf creds di peer) =
      ((!peer.usesPskCred && ocPki && ownerAsserted peer.roles &&
          test OcPerm.all) ||
        (peerSubjects ocPki creds di peer).any fun subject =>
          test (permissionsOf subject)) := by
  unfold getPeerPermissions peerSubjects
  cases peer.usesPskCred with
  | true =>
      simp only [if_true, Bool.not_true, Bool.false_and, Bool.false_or]
      rw [distributes.foldl
        (fun cred : Cred => permissionsOf (.role cred.role cred.authority)),
        distributes.zero, Bool.false_or, List.any_map]
      rfl
  | false =>
      cases ocPki with
      | false => simp [distributes.zero]
      | true =>
          simp only [Bool.false_eq_true, if_false, if_true, Bool.not_false,
            Bool.true_and, test_roleCertPermissions distributes]
          cases ownerAsserted peer.roles with
          | true => simp
          | false =>
              simp only [Bool.false_eq_true, if_false, distributes.zero,
                Bool.false_or, Bool.not_false, if_true, Bool.false_and,
                List.any_map]
              rfl

theorem test_getConnPermissions (secured : Bool) :
    test (getConnPermissions permissionsOf secured) =
      (if secured then [AceSubject.conn .authCrypt, .conn .anonClear]
        else [.conn .anonClear]).any fun subject =>
          test (permissionsOf subject) := by
  unfold getConnPermissions
  cases secured <;> simp [distributes.or]

theorem test_permission (ocPki : Bool) (creds : List Cred) (aces : List Ace)
    (query : AccessQuery) :
    test (query.permission ocPki creds aces) =
      ((query.peer.any (fun peer => !peer.usesPskCred && ocPki &&
          ownerAsserted peer.roles) && test OcPerm.all) ||
        (query.subjects ocPki creds).any fun subject =>
          test (subjectPermissions aces query.resource query.isDCR
            (!query.resource.secure) subject)) := by
  unfold AccessQuery.permission AccessQuery.subjects
  simp only [distributes.or, List.any_cons, List.any_append]
  cases query.peer with
  | none =>
      cases query.isSVR <;>
        simp [test_getConnPermissions distributes, distributes.zero]
  | some peer =>
      rw [test_getPeerPermissions distributes]
      cases query.isSVR <;>
        simp [test_getConnPermissions distributes, distributes.zero,
          Bool.or_assoc, Bool.or_left_comm]

end Grants

theorem any_any_comm {α β : Type} (first : List α) (second : List β)
    (test : α → β → Bool) :
    (first.any fun left => second.any fun right => test left right) =
      second.any fun right => first.any fun left => test left right := by
  rw [Bool.eq_iff_iff]
  simp only [List.any_eq_true]
  constructor
  · rintro ⟨left, leftMember, right, rightMember, holds⟩
    exact ⟨right, rightMember, left, leftMember, holds⟩
  · rintro ⟨right, rightMember, left, leftMember, holds⟩
    exact ⟨left, leftMember, right, rightMember, holds⟩

theorem ocSecCheckAclByPermissions_eq (ocPki : Bool) (creds : List Cred)
    (aces : List Ace) (query : AccessQuery) :
    ocSecCheckAclByPermissions ocPki creds aces query =
      (query.privileged ocPki ||
        aces.any (query.grantedBy ocPki creds)) := by
  have distributes := distributes_evalAccess query.method
  unfold ocSecCheckAclByPermissions AccessQuery.grantedBy Ace.grants
  rw [test_permission distributes, any_any_comm]
  simp only [test_subjectPermissions distributes]
  rfl

end IotivityLite
