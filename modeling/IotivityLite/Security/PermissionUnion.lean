import IotivityLite.Foundation.Cursors
import IotivityLite.Security.AccessCheck

/-!
# Permissions as a union

The loops of `oc_sec_check_acl_by_permissions`, which start their searches
again from the last match, collect the permissions that `AccessQuery`
describes.  These are the union of the permissions of the entries that
contribute, and of all permissions for the owner role.  So the order of the
entries, of their resources and of the credentials of the peer does not
matter, and more entries give more permissions.
-/

namespace IotivityLite

open BitUnion Cursors

namespace PermissionLoops

/-- `oc_ace_get_permission`: the resources are searched behind the last
match. -/
def ocAceGetPermission (resource : OcResource) (isDCR isPublic : Bool)
    (ace : Ace) : UInt16 :=
  collectBehind (aceResMatches (some resource.uri)
      (wildcardsOf resource isDCR isPublic)) ace.resources
    (fun permission _ => permission ||| ace.permission) [] 0

/-- The loop over the entries for a subject, which adds to a permission; the
entries are searched behind the last match. -/
def addSubjectPermissions (aces : List Ace) (resource : OcResource)
    (isDCR isPublic : Bool) (subject : AceSubject) (permission : UInt16) :
    UInt16 :=
  collectBehind (AceQuery.accepts ⟨subject, -1, 0, none⟩) aces
    (fun permission ace =>
      permission ||| ocAceGetPermission resource isDCR isPublic ace)
    [] permission

section Peer

variable (aces : List Ace) (resource : OcResource) (isDCR isPublic : Bool)

def getRolePermissions (role authority : Bytes) : UInt16 :=
  addSubjectPermissions aces resource isDCR isPublic (.role role authority) 0

/-- The credentials are searched from the one behind the last match on. -/
def getPeerPermissions (ocPki : Bool) (creds : List Cred) (di : Uuid)
    (peer : TlsPeer) : UInt16 :=
  if peer.usesPskCred then
    collectFrom (fun cred : Cred => cred.credtype == CredType.psk &&
        cred.credusage == .null && cred.subjectuuid == di) creds
      (fun permission cred =>
        if cred.role != [] then
          permission |||
            getRolePermissions aces resource isDCR isPublic cred.role
              cred.authority
        else permission) [] 0
  else if ocPki then
    roleCertPermissions (fun subject =>
      addSubjectPermissions aces resource isDCR isPublic subject 0)
      peer.roles 0
  else 0

/-- The first loop leaves NULL, from where the second one starts. -/
def getConnPermissions (secured : Bool) : UInt16 :=
  let permission :=
    if secured then
      addSubjectPermissions aces resource isDCR isPublic (.conn .authCrypt) 0
    else 0
  addSubjectPermissions aces resource isDCR isPublic (.conn .anonClear)
    permission

end Peer

/-- The permission that `oc_sec_check_acl_by_permissions` evaluates. -/
def permission (ocPki : Bool) (creds : List Cred) (aces : List Ace)
    (query : AccessQuery) : UInt16 :=
  let isPublic := !query.resource.secure
  let permission := addSubjectPermissions aces query.resource query.isDCR
    isPublic (.uuid query.endpoint.di) 0
  let permission := match query.peer with
    | none => permission
    | some peer =>
        permission ||| getPeerPermissions aces query.resource query.isDCR
          isPublic ocPki creds query.endpoint.di peer
  if query.isSVR then permission
  else permission ||| getConnPermissions aces query.resource query.isDCR
    isPublic query.endpoint.secured

def ocSecCheckAclByPermissions (ocPki : Bool) (creds : List Cred)
    (aces : List Ace) (query : AccessQuery) : Bool :=
  evalAccess query.method (permission ocPki creds aces query)

section Collected

variable (aces : List Ace) (resource : OcResource) (isDCR isPublic : Bool)

theorem ocAceGetPermission_eq (ace : Ace) :
    ocAceGetPermission resource isDCR isPublic ace =
      IotivityLite.ocAceGetPermission resource isDCR isPublic ace :=
  collectBehind_eq 0

theorem addSubjectPermissions_eq (subject : AceSubject)
    (permission : UInt16) :
    addSubjectPermissions aces resource isDCR isPublic subject permission =
      permission ||| subjectPermissions aces resource isDCR isPublic subject := by
  rw [addSubjectPermissions, collectBehind_eq, subjectPermissions]
  simp only [ocAceGetPermission_eq]
  apply eq_of_bits
  intro index
  have distributes := distributes_bit index
  rw [distributes.or, distributes.foldl, distributes.foldl, distributes.zero,
    Bool.false_or]

theorem addSubjectPermissions_zero (subject : AceSubject) :
    addSubjectPermissions aces resource isDCR isPublic subject 0 =
      subjectPermissions aces resource isDCR isPublic subject := by
  rw [addSubjectPermissions_eq, UInt16.zero_or]

theorem getPeerPermissions_eq (ocPki : Bool) (creds : List Cred) (di : Uuid)
    (peer : TlsPeer) :
    getPeerPermissions aces resource isDCR isPublic ocPki creds di peer =
      IotivityLite.getPeerPermissions ocPki
        (subjectPermissions aces resource isDCR isPublic) creds di peer := by
  unfold getPeerPermissions IotivityLite.getPeerPermissions
  simp only [addSubjectPermissions_zero, getRolePermissions, collectFrom_eq]
  split
  · -- credentials without a role are passed over one way or the other
    rw [List.foldl_filter, List.foldl_filter]
    congr 1
    funext permission cred
    cases cred.role != [] <;> simp
  · rfl

theorem getConnPermissions_eq (secured : Bool) :
    getConnPermissions aces resource isDCR isPublic secured =
      IotivityLite.getConnPermissions
        (subjectPermissions aces resource isDCR isPublic) secured := by
  unfold getConnPermissions IotivityLite.getConnPermissions
  simp only [addSubjectPermissions_eq]
  cases secured <;> simp

theorem permission_eq (ocPki : Bool) (creds : List Cred)
    (query : AccessQuery) :
    permission ocPki creds aces query =
      query.permission ocPki creds aces := by
  unfold permission AccessQuery.permission
  simp only [addSubjectPermissions_zero, getPeerPermissions_eq,
    getConnPermissions_eq]
  cases query.peer <;> cases query.isSVR <;> simp

end Collected

end PermissionLoops

namespace AccessQuery

variable (query : AccessQuery) (ocPki : Bool) (creds : List Cred)

/-- The peer has presented a valid certificate for the owner role. -/
def byOwner : Bool :=
  query.peer.any fun peer =>
    !peer.usesPskCred && ocPki && ownerAsserted peer.roles

/-- A resource of the entry stands for the resource: of its href and its
wildcard each one that is asked for fits, and one is asked for. -/
def covers (ace : Ace) : Bool :=
  ace.resources.any (aceResMatches (some query.resource.uri)
    (wildcardsOf query.resource query.isDCR (!query.resource.secure)))

/-- The subject of the entry is one the peer stands for. -/
def addresses (ace : Ace) : Bool :=
  (query.subjects ocPki creds).any (ocAceHasMatchingSubject ace)

def contributes (ace : Ace) : Bool :=
  query.addresses ocPki creds ace && query.covers ace

/-- What the entries and the owner role give. -/
def unionOf (aces : List Ace) : UInt16 :=
  (if query.byOwner ocPki then OcPerm.all else 0) |||
    union ((aces.filter (query.contributes ocPki creds)).map (·.permission))

end AccessQuery

theorem test_unionOf {test : UInt16 → Bool} (distributes : Distributes test)
    (ocPki : Bool) (creds : List Cred) (query : AccessQuery)
    (aces : List Ace) :
    test (query.unionOf ocPki creds aces) =
      ((query.byOwner ocPki && test OcPerm.all) ||
        aces.any fun ace =>
          query.contributes ocPki creds ace && test ace.permission) := by
  rw [AccessQuery.unionOf, distributes.or, distributes.union, List.any_map,
    List.any_filter]
  cases query.byOwner ocPki <;> simp [distributes.zero]

theorem permission_eq_unionOf (ocPki : Bool) (creds : List Cred)
    (aces : List Ace) (query : AccessQuery) :
    query.permission ocPki creds aces = query.unionOf ocPki creds aces := by
  apply eq_of_bits
  intro index
  have distributes := distributes_bit index
  rw [test_unionOf distributes, test_permission distributes]
  simp only [test_subjectPermissions distributes]
  rw [any_any_comm]
  congr 2
  funext ace
  simp only [AccessQuery.contributes, AccessQuery.addresses,
    AccessQuery.covers, Bool.and_assoc]
  induction query.subjects ocPki creds with
  | nil => rfl
  | cons subject subjects ih =>
      rw [List.any_cons, List.any_cons, ih, ← Bool.and_or_distrib_right]

/-- The entries in another order, each with its resources in some order. -/
def SameEntries (first second : List Ace) : Prop :=
  ∃ middle, first.Perm middle ∧
    List.Forall₂ (fun left right => left.resources.Perm right.resources ∧
      right = { left with resources := right.resources }) middle second

/-- The query with the role certificates of the peer in another order. -/
def SamePeer (first second : AccessQuery) : Prop :=
  first = second ∨ ∃ peer roles, peer.roles.Perm roles ∧
    first.peer = some peer ∧
    second = { first with peer := some { peer with roles := roles } }

theorem any_perm {α : Type} {first second : List α}
    (permutation : first.Perm second) (test : α → Bool) :
    first.any test = second.any test := by
  rw [Bool.eq_iff_iff, List.any_eq_true, List.any_eq_true]
  simp only [permutation.mem_iff]

variable {first second : AccessQuery}

theorem SamePeer.byOwner (same : SamePeer first second) (ocPki : Bool) :
    first.byOwner ocPki = second.byOwner ocPki := by
  obtain rfl | ⟨peer, roles, permutation, here, rfl⟩ := same
  · rfl
  · simp only [AccessQuery.byOwner, here, Option.any_some, ownerAsserted]
    rw [any_perm permutation]

theorem SamePeer.covers (same : SamePeer first second) :
    first.covers = second.covers := by
  obtain rfl | ⟨peer, roles, -, -, rfl⟩ := same
  · rfl
  · rfl

variable {creds creds' : List Cred}

theorem peerSubjects_perm {peer : TlsPeer} {roles : List RoleCert}
    (sameCreds : creds.Perm creds') (sameRoles : peer.roles.Perm roles)
    (ocPki : Bool) (di : Uuid) :
    (peerSubjects ocPki creds di peer).Perm
      (peerSubjects ocPki creds' di { peer with roles := roles }) := by
  unfold peerSubjects ownerAsserted
  rw [any_perm sameRoles]
  dsimp only
  split
  · exact (sameCreds.filter _).map _
  · split
    · exact (sameRoles.filter _).map _
    · exact .refl _

theorem subjects_perm (same : SamePeer first second)
    (sameCreds : creds.Perm creds') (ocPki : Bool) :
    (first.subjects ocPki creds).Perm (second.subjects ocPki creds') := by
  obtain rfl | ⟨peer, roles, permutation, here, rfl⟩ := same
  · unfold AccessQuery.subjects
    refine .cons _ (.append_right _ ?_)
    cases first.peer with
    | none => exact .refl _
    | some peer =>
        simpa using peerSubjects_perm sameCreds (.refl peer.roles) ocPki _
  · unfold AccessQuery.subjects
    refine .cons _ (.append_right _ ?_)
    simpa [here] using peerSubjects_perm sameCreds permutation ocPki _

theorem matchingSubject_resources (ace : Ace) (resources : List AceRes) :
    ocAceHasMatchingSubject { ace with resources := resources } =
      ocAceHasMatchingSubject ace := by
  funext subject
  cases subject <;> rfl

theorem contributes_same (same : SamePeer first second)
    (sameCreds : creds.Perm creds') (ocPki : Bool) {ace : Ace}
    {resources : List AceRes} (permutation : ace.resources.Perm resources) :
    first.contributes ocPki creds ace =
      second.contributes ocPki creds' { ace with resources := resources } := by
  unfold AccessQuery.contributes AccessQuery.addresses
  rw [any_perm (subjects_perm same sameCreds ocPki), same.covers]
  simp only [matchingSubject_resources, AccessQuery.covers]
  rw [any_perm permutation]

theorem unionOf_same (same : SamePeer first second)
    (sameCreds : creds.Perm creds') {aces aces' : List Ace}
    (entries : SameEntries aces aces') (ocPki : Bool) :
    first.unionOf ocPki creds aces = second.unionOf ocPki creds' aces' := by
  apply eq_of_bits
  intro index
  have distributes := distributes_bit index
  obtain ⟨middle, permutation, pairwise⟩ := entries
  rw [test_unionOf distributes, test_unionOf distributes, same.byOwner,
    any_perm permutation]
  congr 1
  induction pairwise generalizing aces with
  | nil => rfl
  | cons here _ ih =>
      obtain ⟨resources, whole⟩ := here
      rw [List.any_cons, List.any_cons, ih (.refl _), whole,
        contributes_same same sameCreds ocPki resources]

/-- What holds of the permission that the loops collect, for every list of
entries, every list of credentials and every query. -/
structure PermissionUnion : Prop where
  union : ∀ ocPki creds aces (query : AccessQuery),
    PermissionLoops.permission ocPki creds aces query =
      query.unionOf ocPki creds aces
  order : ∀ ocPki creds creds' aces aces' query query',
    creds.Perm creds' → SameEntries aces aces' → SamePeer query query' →
    PermissionLoops.permission ocPki creds aces query =
      PermissionLoops.permission ocPki creds' aces' query'
  monotone : ∀ ocPki creds aces aces' query, aces ⊆ aces' →
    Within (PermissionLoops.permission ocPki creds aces query)
      (PermissionLoops.permission ocPki creds aces' query)
  granted : ∀ ocPki creds aces aces' query, aces ⊆ aces' →
    PermissionLoops.ocSecCheckAclByPermissions ocPki creds aces query = true →
    PermissionLoops.ocSecCheckAclByPermissions ocPki creds aces' query = true

theorem unionOf_mono {aces aces' : List Ace} (more : aces ⊆ aces')
    (ocPki : Bool) (creds : List Cred) (query : AccessQuery) :
    Within (query.unionOf ocPki creds aces)
      (query.unionOf ocPki creds aces') := by
  apply within_of_bits
  intro index
  have distributes := distributes_bit index
  rw [test_unionOf distributes, test_unionOf distributes]
  simp only [Bool.or_eq_true, List.any_eq_true]
  refine Or.imp_right ?_
  rintro ⟨ace, member, given⟩
  exact ⟨ace, more member, given⟩

theorem permission_union : PermissionUnion where
  union ocPki creds aces query :=
    (PermissionLoops.permission_eq aces ocPki creds query).trans
      (permission_eq_unionOf ocPki creds aces query)
  order ocPki creds creds' aces aces' query query' sameCreds entries same := by
    rw [PermissionLoops.permission_eq, PermissionLoops.permission_eq,
      permission_eq_unionOf, permission_eq_unionOf]
    exact unionOf_same same sameCreds entries ocPki
  monotone ocPki creds aces aces' query more := by
    rw [PermissionLoops.permission_eq, PermissionLoops.permission_eq,
      permission_eq_unionOf, permission_eq_unionOf]
    exact unionOf_mono more ocPki creds query
  granted ocPki creds aces aces' query more := by
    unfold PermissionLoops.ocSecCheckAclByPermissions
    rw [PermissionLoops.permission_eq, PermissionLoops.permission_eq,
      permission_eq_unionOf, permission_eq_unionOf]
    exact (distributes_evalAccess query.method).mono
      (unionOf_mono more ocPki creds query)

/-- The resource has the href of the query, or a wildcard it answers to. -/
def AccessQuery.hasHrefOrWildcard (query : AccessQuery) (res : AceRes) :
    Bool :=
  let wildcards := wildcardsOf query.resource query.isDCR
    (!query.resource.secure)
  (res.href != [] && ocResourceMatchUri res.href query.resource.uri) ||
    (wildcards != 0 && res.wildcard != .noWc &&
      aceResMatchWildCard wildcards res.wildcard.bits)

/-- The permission would be the union over all entries for the peer that have
a matching href or an applicable wildcard. -/
def UnionOfHrefsAndWildcards : Prop :=
  ∀ ocPki creds aces (query : AccessQuery),
    PermissionLoops.permission ocPki creds aces query =
      union ((aces.filter fun ace => query.addresses ocPki creds ace &&
        ace.resources.any query.hasHrefOrWildcard).map (·.permission))

/-- An entry for the href of a resource that is not discoverable does not
count when the same resource of the entry has the wildcard for discoverable
ones. -/
theorem not_unionOfHrefsAndWildcards : ¬ UnionOfHrefsAndWildcards := by
  intro claimed
  have union := claimed false []
    [⟨0, 1, 2, .conn .anonClear, none, [⟨ascii "/a", .allSecured⟩]⟩]
    ⟨.get, ⟨ascii "/a", .application, false, false, false, 0,
      fun _ other => by cases other⟩, false, false,
      ⟨0, false, 0, 0, Uuid.nil⟩, none⟩
  rw [PermissionLoops.permission_eq] at union
  exact absurd union (by decide)

end IotivityLite
