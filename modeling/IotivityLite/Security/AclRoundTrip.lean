import IotivityLite.Security.AccessCheck
import IotivityLite.Security.AclReachable

/-!
# Decisions after a restart

What a stored list allows when it is read back.  Of a resource with an href
and a wildcard only the href comes back, so the list allows what it allowed
before and what such entries would allow without their wildcard.
-/

namespace IotivityLite

/-- What `oc_sec_check_acl` decides without the entries of the list. -/
def AccessState.rules (state : AccessState) (method : OcMethod)
    (resource : OcResource) (endpoint : OcEndpoint) : Option Bool :=
  let numPeers := ocTlsNumPeers state endpoint.device
  let inRfotm := state.dos == .rfotm
  let isDCR := ocCoreIsDCR resource
  let isSVR := ocCoreIsSVR resource
  let isVertical := !isDCR && ocCoreIsVerticalResource resource
  let peer := ocTlsGetPeer state endpoint
  if inRfotm && !endpoint.secured && numPeers == 1 then some false
  else if inRfotm && !endpoint.secured &&
      grantedInRfotm state method resource then
    some true
  else if !isDCR && state.dos != .rfnop then some false
  else if isVertical && !endpoint.secured then some false
  else if isDCR && peer.any (·.doc) then some true
  else if method == .get &&
      ocSecCheckAclOnGet state resource.uri inRfotm then
    some true
  else if inRfotm && numPeers == 0 then
    some (ocSecCheckAclInRfotmPriorToDoc method resource.uri)
  else if isSVR && !endpoint.secured && state.dos.afterOtm then some false
  else if ocSecCheckAclByUuid state endpoint.di resource.uri then some true
  else if state.ocPki && ocResourceMatchUri Svr.roles.uri resource.uri &&
      state.dos.afterOtm then
    some true
  else none

/-- What the entries are asked for. -/
def AccessState.query (state : AccessState) (method : OcMethod)
    (resource : OcResource) (endpoint : OcEndpoint) : AccessQuery where
  method := method
  resource := resource
  isDCR := ocCoreIsDCR resource
  isSVR := ocCoreIsSVR resource
  endpoint := endpoint
  peer := ocTlsGetPeer state endpoint

private theorem getD_ite {condition : Prop} [Decidable condition]
    (decision : Bool) (later : Option Bool) (otherwise : Bool) :
    (if condition then some decision else later).getD otherwise =
      if condition then decision else later.getD otherwise := by
  split <;> rfl

theorem ocSecCheckAcl_eq (state : AccessState) (method : OcMethod)
    (resource : OcResource) (endpoint : OcEndpoint) :
    ocSecCheckAcl state method resource endpoint =
      (state.rules method resource endpoint).getD
        (ocSecCheckAclByPermissions state.ocPki state.creds.creds
          state.acl.aces (state.query method resource endpoint)) := by
  unfold ocSecCheckAcl AccessState.rules AccessState.query
  simp only [getD_ite, Option.getD_none]

/-- The href of the resource fits, its wildcard does not. -/
def AceRes.hrefOnly (res : AceRes) (resource : OcResource)
    (isDCR isPublic : Bool) : Bool :=
  let wildcards := wildcardsOf resource isDCR isPublic
  res.href != [] && ocResourceMatchUri res.href resource.uri &&
    wildcards != 0 && res.wildcard != .noWc &&
    !aceResMatchWildCard wildcards res.wildcard.bits

/-- The entry would allow the method without the wildcards beside hrefs. -/
def Ace.widens (ace : Ace) (method : OcMethod) (resource : OcResource)
    (isDCR : Bool) (subject : AceSubject) : Bool :=
  ocAceHasMatchingSubject ace subject &&
    ace.resources.any (·.hrefOnly resource isDCR (!resource.secure)) &&
    evalAccess method ace.permission

def AccessQuery.widenedBy (query : AccessQuery) (ocPki : Bool)
    (creds : List Cred) (ace : Ace) : Bool :=
  (query.subjects ocPki creds).any
    (ace.widens query.method query.resource query.isDCR)

/-- Nothing is lost or gained: there are no empty tags, and what an entry
would allow without the wildcards beside hrefs the list allows anyway. -/
structure Acl.Kept (acl : Acl) : Prop where
  tags : ∀ ace ∈ acl.aces, ace.tag ≠ some []
  decisions : ∀ (state : AccessState) (method : OcMethod)
    (resource : OcResource) (endpoint : OcEndpoint), state.acl = acl →
    state.rules method resource endpoint = none →
    acl.aces.any ((state.query method resource endpoint).widenedBy
      state.ocPki state.creds.creds) = true →
    ocSecCheckAclByPermissions state.ocPki state.creds.creds acl.aces
      (state.query method resource endpoint) = true

/-- What is read from the storage into an empty list has the aceids, the tags
and the access decisions of the stored list. -/
def Acl.RoundTrips (acl : Acl) : Prop :=
  ∀ (newAceid : NewAceid) (dos : DosType) (rowneruuid : Uuid)
    (allocated : Nat),
    ∃ restored applied,
      ocSecDecodeAcl newAceid dos true (ocSecEncodeAcl acl)
        ⟨[], rowneruuid, allocated⟩ = (true, ⟨restored, applied⟩) ∧
      restored.aces.map (·.aceid) = acl.aces.map (·.aceid) ∧
      restored.aces.map (·.tag) = acl.aces.map (·.tag) ∧
      ∀ (state : AccessState) (method : OcMethod) (resource : OcResource)
        (endpoint : OcEndpoint), state.acl = acl →
        ocSecCheckAcl { state with acl := restored } method resource
            endpoint =
          ocSecCheckAcl state method resource endpoint

section Resources

variable {resource : OcResource} {isDCR isPublic : Bool}

theorem aceResMatches_kept (res : AceRes) :
    aceResMatches (some resource.uri) (wildcardsOf resource isDCR isPublic)
        res.kept =
      (aceResMatches (some resource.uri)
        (wildcardsOf resource isDCR isPublic) res ||
          res.hrefOnly resource isDCR isPublic) := by
  obtain ⟨href, wildcard⟩ := res
  unfold AceRes.kept AceRes.hrefOnly aceResMatches
  by_cases given : href = []
  · simp [given]
  · simp only [ne_eq, given, not_false_eq_true, if_true]
    generalize wildcardsOf resource isDCR isPublic = wildcards
    cases uri : ocResourceMatchUri href resource.uri <;>
      cases asked : wildcards != 0 <;> cases present : wildcard != .noWc <;>
      cases fits : aceResMatchWildCard wildcards wildcard.bits <;>
      simp [given, uri]

theorem aceResMatchWildCard_of_found {old new : AceWildcard}
    (found : aceResMatchWildCard new.bits old.bits = true)
    (fits : aceResMatchWildCard (wildcardsOf resource isDCR isPublic)
      new.bits = true) :
    aceResMatchWildCard (wildcardsOf resource isDCR isPublic) old.bits =
      true := by
  unfold wildcardsOf at fits ⊢
  split_ifs at fits ⊢ <;> cases old <;> cases new <;>
    revert found fits <;> decide

/-- A resource that came back has an href or a wildcard, not both. -/
def AceRes.Simple (res : AceRes) : Prop :=
  res.href = [] ∨ res.wildcard = .noWc

theorem kept_simple (res : AceRes) : res.kept.Simple := by
  unfold AceRes.kept
  split
  · exact .inr rfl
  · exact .inl rfl

theorem decoded_kept (res : AceRes) :
    (⟨res.decoded.href.getD [], res.decoded.wildcard⟩ : AceRes) =
      res.kept := by
  unfold AceRes.decoded AceRes.kept
  split <;> rfl

theorem aceResMatches_of_found {old res : AceRes} (simple : old.Simple)
    (rooted : res.Rooted)
    (found : aceResMatches res.decoded.href res.decoded.wildcard.bits old =
      true)
    (fits : aceResMatches (some resource.uri)
      (wildcardsOf resource isDCR isPublic) res.kept = true) :
    aceResMatches (some resource.uri) (wildcardsOf resource isDCR isPublic)
      old = true := by
  obtain ⟨href, wildcard⟩ := res
  obtain ⟨oldHref, oldWildcard⟩ := old
  by_cases given : href = []
  · -- a wildcard is covered by a wildcard
    subst given
    simp [AceRes.decoded, aceResMatches] at found
    simp [AceRes.kept, aceResMatches] at fits
    have none : oldHref = [] := simple.resolve_right found.2.2
    have covered := aceResMatchWildCard_of_found
      (found.1.resolve_left (by tauto)) (fits.1.resolve_left (by tauto))
    simp [aceResMatches, none, covered]
    exact ⟨fits.2.1, found.2.2⟩
  · -- an href is covered by the same href
    have slash : href.head? = some 47 := rooted given
    simp [AceRes.decoded, aceResMatches, given, AceWildcard.bits] at found
    simp [AceRes.kept, aceResMatches, given] at fits
    obtain ⟨same, present⟩ := found
    have none : oldWildcard = .noWc := simple.resolve_left present
    have same : href = oldHref := by
      simpa [ocResourceMatchUri, slash, present] using same
    subst same
    simp [aceResMatches, none, given, fits]

theorem any_addDecoded {resources : List AceRes} {res : AceRes}
    (simple : ∀ old ∈ resources, old.Simple) (rooted : res.Rooted) :
    (addDecoded resources res.decoded).any (aceResMatches (some resource.uri)
        (wildcardsOf resource isDCR isPublic)) =
      (resources.any (aceResMatches (some resource.uri)
        (wildcardsOf resource isDCR isPublic)) ||
        aceResMatches (some resource.uri)
          (wildcardsOf resource isDCR isPublic) res.kept) := by
  unfold addDecoded
  split <;> rename_i present
  · obtain ⟨old, member, found⟩ := List.any_eq_true.mp present
    cases fits : aceResMatches (some resource.uri)
        (wildcardsOf resource isDCR isPublic) res.kept with
    | false => rw [Bool.or_false]
    | true =>
        rw [Bool.or_true, List.any_eq_true]
        exact ⟨old, member,
          aceResMatches_of_found (simple old member) rooted found fits⟩
  · rw [decoded_kept, List.any_append, List.any_cons, List.any_nil,
      Bool.or_false]

theorem addDecoded_simple {resources : List AceRes} (res : AceRes)
    (simple : ∀ old ∈ resources, old.Simple) :
    ∀ old ∈ addDecoded resources res.decoded, old.Simple := by
  unfold addDecoded
  split
  · exact simple
  · rw [decoded_kept]
    exact List.forall_mem_append.mpr
      ⟨simple, List.forall_mem_singleton.mpr (kept_simple res)⟩

theorem any_foldl_addDecoded {later resources : List AceRes}
    (simple : ∀ old ∈ resources, old.Simple)
    (rooted : ∀ res ∈ later, res.Rooted) :
    ((later.map AceRes.decoded).foldl addDecoded resources).any
        (aceResMatches (some resource.uri)
          (wildcardsOf resource isDCR isPublic)) =
      (resources.any (aceResMatches (some resource.uri)
        (wildcardsOf resource isDCR isPublic)) ||
        later.any fun res => aceResMatches (some resource.uri)
          (wildcardsOf resource isDCR isPublic) res.kept) := by
  induction later generalizing resources with
  | nil => simp
  | cons res later ih =>
      rw [List.forall_mem_cons] at rooted
      rw [List.map_cons, List.foldl_cons,
        ih (addDecoded_simple res simple) rooted.2,
        any_addDecoded simple rooted.1, List.any_cons, Bool.or_assoc]

end Resources

private theorem any_or {Item : Type} (items : List Item)
    (first second : Item → Bool) :
    items.any (fun item => first item || second item) =
      (items.any first || items.any second) := by
  induction items with
  | nil => rfl
  | cons item items ih =>
      simp only [List.any_cons, ih]
      ac_rfl

theorem grants_restored {ace : Ace} (valid : ace.Valid) (address : Nat)
    (method : OcMethod) (resource : OcResource) (isDCR : Bool)
    (subject : AceSubject) :
    (ace.restored address).grants method resource isDCR subject =
      (ace.grants method resource isDCR subject ||
        ace.widens method resource isDCR subject) := by
  have same : ocAceHasMatchingSubject (ace.restored address) subject =
      ocAceHasMatchingSubject ace subject := by
    cases subject <;> rfl
  have resources : (ace.restored address).resources.any
        (aceResMatches (some resource.uri)
          (wildcardsOf resource isDCR (!resource.secure))) =
      (ace.resources.any (aceResMatches (some resource.uri)
        (wildcardsOf resource isDCR (!resource.secure))) ||
        ace.resources.any
          (·.hrefOnly resource isDCR (!resource.secure))) := by
    have stored := @any_foldl_addDecoded resource isDCR (!resource.secure)
      ace.resources [] (by simp) valid.rooted
    simp only [aceResMatches_kept, any_or, List.any_nil, Bool.false_or]
      at stored
    exact stored
  unfold Ace.grants Ace.widens
  rw [same, resources]
  have permission : (ace.restored address).permission = ace.permission := rfl
  rw [permission, ← Bool.and_or_distrib_right, ← Bool.and_or_distrib_left]

theorem grantedBy_restored {ace : Ace} (valid : ace.Valid) (address : Nat)
    (query : AccessQuery) (ocPki : Bool) (creds : List Cred) :
    query.grantedBy ocPki creds (ace.restored address) =
      (query.grantedBy ocPki creds ace ||
        query.widenedBy ocPki creds ace) := by
  unfold AccessQuery.grantedBy AccessQuery.widenedBy
  rw [← any_or]
  congr 1
  funext subject
  exact grants_restored valid address _ _ _ subject

theorem any_restoredAces {test result : Ace → Bool} {aces : List Ace}
    (same : ∀ ace ∈ aces, ∀ address,
      test (ace.restored address) = result ace) (address : Nat) :
    (restoredAces address aces).any test = aces.any result := by
  induction aces generalizing address with
  | nil => rfl
  | cons ace aces ih =>
      rw [List.forall_mem_cons] at same
      rw [restoredAces, List.any_cons, List.any_cons, same.1,
        ih same.2]

theorem ocSecCheckAclByPermissions_restored {aces : List Ace}
    (valid : ∀ ace ∈ aces, ace.Valid) (address : Nat) (ocPki : Bool)
    (creds : List Cred) (query : AccessQuery) :
    ocSecCheckAclByPermissions ocPki creds (restoredAces address aces)
        query =
      (ocSecCheckAclByPermissions ocPki creds aces query ||
        aces.any (query.widenedBy ocPki creds)) := by
  rw [ocSecCheckAclByPermissions_eq, ocSecCheckAclByPermissions_eq,
    any_restoredAces (fun ace member address =>
      grantedBy_restored (valid ace member) address query ocPki creds),
    any_or, Bool.or_assoc]

theorem map_restoredAces {Value : Type} {get kept : Ace → Value}
    (same : ∀ ace address, get (Ace.restored address ace) = kept ace)
    (aces : List Ace) (address : Nat) :
    (restoredAces address aces).map get = aces.map kept := by
  induction aces generalizing address with
  | nil => rfl
  | cons ace aces ih => simp only [restoredAces, List.map_cons, same, ih]

theorem restored_tags (aces : List Ace) (address : Nat) :
    (restoredAces address aces).map (·.tag) =
      aces.map fun ace => keptTag ace.tag :=
  map_restoredAces (fun _ _ => rfl) aces address

theorem keptTag_eq_self {tag : Option Bytes} :
    keptTag tag = tag ↔ tag ≠ some [] := by
  cases tag with
  | none => simp [keptTag]
  | some text => by_cases empty : text = [] <;> simp [keptTag, empty]

theorem ocSecCheckAcl_restored {acl : Acl} (valid : acl.Valid)
    (address allocated : Nat) {state : AccessState} (own : state.acl = acl)
    (method : OcMethod) (resource : OcResource) (endpoint : OcEndpoint) :
    ocSecCheckAcl { state with acl :=
        ⟨restoredAces address acl.aces, acl.rowneruuid, allocated⟩ } method
        resource endpoint =
      (state.rules method resource endpoint).getD
        (ocSecCheckAclByPermissions state.ocPki state.creds.creds acl.aces
            (state.query method resource endpoint) ||
          acl.aces.any ((state.query method resource endpoint).widenedBy
            state.ocPki state.creds.creds)) := by
  subst own
  rw [ocSecCheckAcl_eq]
  exact congrArg _ (ocSecCheckAclByPermissions_restored valid.each address
    state.ocPki state.creds.creds (state.query method resource endpoint))

theorem Acl.roundTrips_iff {acl : Acl} (valid : acl.Valid) :
    acl.RoundTrips ↔
      (∀ ace ∈ acl.aces, keptTag ace.tag = ace.tag) ∧
      ∀ (state : AccessState) (method : OcMethod) (resource : OcResource)
        (endpoint : OcEndpoint), state.acl = acl →
        (state.rules method resource endpoint).getD
          (ocSecCheckAclByPermissions state.ocPki state.creds.creds acl.aces
              (state.query method resource endpoint) ||
            acl.aces.any ((state.query method resource endpoint).widenedBy
              state.ocPki state.creds.creds)) =
        (state.rules method resource endpoint).getD
          (ocSecCheckAclByPermissions state.ocPki state.creds.creds acl.aces
            (state.query method resource endpoint)) := by
  have storable : ∀ ace ∈ acl.aces, ace.Storable :=
    fun ace member => (valid.each ace member).toStorable
  constructor
  · intro trip
    obtain ⟨restored, applied, decoded, -, tags, decisions⟩ :=
      trip (fun _ _ => 0) .rfnop Uuid.nil 0
    obtain ⟨applied', encoded⟩ := @ocSecDecodeAcl_encoded (fun _ _ => 0) acl
      .rfnop storable valid.distinct Uuid.nil 0
    rw [encoded] at decoded
    obtain ⟨rfl, -⟩ := AclDecode.mk.inj (Prod.mk.inj decoded).2
    constructor
    · rw [restored_tags, List.map_inj_left] at tags
      exact tags
    · intro state method resource endpoint own
      rw [← ocSecCheckAcl_restored valid 0 (0 + acl.aces.length) own,
        decisions state method resource endpoint own, ocSecCheckAcl_eq, own]
  · rintro ⟨tags, decisions⟩ newAceid dos rowneruuid allocated
    obtain ⟨applied, encoded⟩ := @ocSecDecodeAcl_encoded newAceid acl dos
      storable valid.distinct rowneruuid allocated
    refine ⟨_, applied, encoded, ?_, ?_, ?_⟩
    · exact map_restoredAces (fun _ _ => rfl) _ _
    · rw [restored_tags, List.map_inj_left]
      exact tags
    · intro state method resource endpoint own
      rw [ocSecCheckAcl_restored valid allocated _ own,
        decisions state method resource endpoint own, ocSecCheckAcl_eq, own]

/-- A list comes back with its aceids, tags and decisions when it is kept,
and only then. -/
theorem acl_round_trip {newAceid : NewAceid} {acl : Acl}
    (reachable : Acl.Reachable newAceid acl) : acl.RoundTrips ↔ acl.Kept := by
  rw [Acl.roundTrips_iff reachable.valid]
  simp only [keptTag_eq_self]
  constructor
  · rintro ⟨tags, decisions⟩
    refine ⟨tags, ?_⟩
    intro state method resource endpoint own undecided widened
    have same := decisions state method resource endpoint own
    rw [undecided, Option.getD_none, Option.getD_none, widened, Bool.or_true]
      at same
    exact same.symm
  · rintro ⟨tags, decisions⟩
    refine ⟨tags, fun state method resource endpoint own => ?_⟩
    cases decided : state.rules method resource endpoint with
    | some decision => rfl
    | none =>
        cases widened : acl.aces.any ((state.query method resource
            endpoint).widenedBy state.ocPki state.creds.creds) with
        | false => rw [Bool.or_false]
        | true =>
            rw [decisions state method resource endpoint own decided widened]
            rfl

/-- Anonymous reading of `/a` as long as it is a discoverable resource. -/
def discoverableOnlyPayload : Rep :=
  [(ascii "aclist2", .objectArray [
    [(ascii "aceid", .int 1),
      (ascii "subject", .object [
        (ascii "conntype", .string (ascii "anon-clear"))]),
      (ascii "permission", .int 2),
      (ascii "resources", .objectArray [
        [(ascii "href", .string (ascii "/a")),
          (ascii "wc", .string (ascii "+"))]])]])]

def discoverableOnly : Acl where
  aces := [⟨0, 1, 2, .conn .anonClear, none, [⟨ascii "/a", .allSecured⟩]⟩]
  rowneruuid := Uuid.nil
  allocated := 1

theorem reachable_discoverableOnly :
    Acl.Reachable (fun _ _ => 0) discoverableOnly := by
  refine Acl.Reachable.decode .rfpro false discoverableOnlyPayload
    Acl.Reachable.empty ?_
  refine ⟨trivial, ⟨?_, ?_⟩, trivial, trivial⟩
  · rintro - href given
    cases given
    rfl
  · intro drawn
    cases drawn

/-- A resource `/a` that is not discoverable. -/
def hiddenResource : OcResource where
  uri := ascii "/a"
  kind := .application
  discoverable := false
  secure := true
  accessInRfotm := false
  anonPermissionInRfotm := 0
  svr_uri _ same := by cases same

def securedEndpoint : OcEndpoint := ⟨0, true, 0, 0, Uuid.nil⟩

def normalOperation (acl : Acl) : AccessState where
  ocPki := true
  ocWkcore := false
  plgdTime := false
  resourceAccessInRfotm := false
  dos := .rfnop
  acl := acl
  creds := ⟨[], Uuid.nil, 0⟩
  doxmRowneruuid := Uuid.nil
  pstatRowneruuid := Uuid.nil
  peers := []

theorem acl_round_trip_discoverableOnly :
    discoverableOnly.RoundTrips ↔ discoverableOnly.Kept :=
  acl_round_trip reachable_discoverableOnly

/-- After a restart the hidden resource can be read by anyone. -/
theorem not_roundTrips_discoverableOnly :
    ∃ (newAceid : NewAceid) (acl : Acl),
      Acl.Reachable newAceid acl ∧ ¬ acl.RoundTrips := by
  refine ⟨fun _ _ => 0, discoverableOnly, reachable_discoverableOnly, ?_⟩
  intro trip
  obtain ⟨restored, applied, decoded, -, -, decisions⟩ :=
    trip (fun _ _ => 0) .rfnop Uuid.nil 0
  have allowed : ocSecCheckAcl (normalOperation (ocSecDecodeAcl
      (fun _ _ => 0) .rfnop true (ocSecEncodeAcl discoverableOnly)
        ⟨[], Uuid.nil, 0⟩).2.acl) .get hiddenResource securedEndpoint =
      true := by
    decide
  have refused : ocSecCheckAcl (normalOperation discoverableOnly) .get
      hiddenResource securedEndpoint = false := by
    decide
  have same := decisions (normalOperation discoverableOnly) .get
    hiddenResource securedEndpoint rfl
  rw [decoded] at allowed
  have restarted : ({ normalOperation discoverableOnly with
      acl := restored } : AccessState) = normalOperation restored := rfl
  rw [restarted, allowed, refused] at same
  cases same

end IotivityLite
