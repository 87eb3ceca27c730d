import IotivityLite.Security.AccessCheck
import IotivityLite.Security.AclRun

/-!
# What an update of the access control list grants

An update is merged into the first entry that a lookup written for access
checks finds.  Where that entry has the subject and the permission of the
update, or has its resource already, the list grants nothing beyond what it
granted before and what the updated entries grant when they are read on their
own.
-/

namespace IotivityLite

/-- The entry an update asks for. -/
def AceUpdate.ownAce (update : AceUpdate) : Ace where
  address := 0
  aceid := update.aceid
  permission := update.permission
  subject := update.subject
  tag := update.tag
  resources := (ocSecAddNewAceRes update.href update.wildcard).toList

/-- The last permission among the entries of a payload's ACE. -/
def requestedPermission (item : Rep) : Int :=
  item.foldl (fun value entry =>
    match entry with
    | (name, .int new) => if name = ascii "permission" then new else value
    | _ => value) 0

def requestedResources (decode : AceDecode) : List AceRes :=
  decode.resources.filterMap fun resource =>
    (aceDecodeResource resource).bind fun res =>
      ocSecAddNewAceRes res.href res.wildcard

/-- A payload's ACE read on its own: without subject, or with a negative
permission, it asks for nothing. -/
def requestedAce (item : Rep) : Option Ace :=
  match ocSecDecodeAce item with
  | none => none
  | some decode =>
      if requestedPermission item < 0 then none
      else decode.subject.map fun subject =>
        { address := 0
          aceid := decode.aceid
          permission := UInt16.ofNat (requestedPermission item).toNat
          subject := subject
          tag := decode.tag
          resources := requestedResources decode }

/-- Every access that is allowed afterwards was allowed before, or is granted
by one of the requested entries on its own. -/
def GrantsNothingNew (before after requested : List Ace) : Prop :=
  ∀ (ocPki : Bool) (creds : List Cred) (query : AccessQuery),
    ocSecCheckAclByPermissions ocPki creds after query = true →
      ocSecCheckAclByPermissions ocPki creds before query = true ∨
      ∃ ace ∈ requested,
        ocSecCheckAclByPermissions ocPki creds [ace] query = true

/-- The update puts a resource with an href or a wildcard into an entry that
has none that fits. -/
def Extends (acl : Acl) (update : AceUpdate) : Prop :=
  (ocSecAddNewAceRes update.href update.wildcard).isSome ∧ acl.Adds update

/-- An entry that the update extends has its subject and its permission. -/
def MergesExactly (acl : Acl) (update : AceUpdate) : Prop :=
  Extends acl update →
    ∀ ace, ocSecAceFindSubject acl.aces update.query = some ace →
      ace.subject = update.subject ∧ ace.permission = update.permission

/-- The condition on one step of a payload: a resource that extends an entry
is merged exactly, and its ACE has a subject and a permission that is not
negative. -/
def StepMergesExactly (machine : AclMachine) : AclStep → Prop
  | .addResource item decode res =>
      MergesExactly machine.acl (decode.update res) ∧
        (Extends machine.acl (decode.update res) →
          decode.subject.isSome ∧ 0 ≤ requestedPermission item)
  | _ => True

instance (acl : Acl) (update : AceUpdate) : Decidable (Extends acl update) := by
  unfold Extends Acl.Adds
  cases ocSecAceFindSubject acl.aces update.query with
  | none => infer_instance
  | some ace => infer_instance

instance (acl : Acl) (update : AceUpdate) :
    Decidable (MergesExactly acl update) :=
  inferInstanceAs (Decidable (_ → ∀ ace ∈ ocSecAceFindSubject acl.aces
    update.query, ace.subject = update.subject ∧
      ace.permission = update.permission))

instance (machine : AclMachine) :
    ∀ step, Decidable (StepMergesExactly machine step)
  | .addResource _ _ _ => inferInstanceAs (Decidable (_ ∧ (_ → _)))
  | .setRowner _ | .beginAce _ | .endAce => isTrue trivial

/-- What the entry grants is granted by the one or the other list. -/
def Covered (before requested : List Ace) (ace : Ace) : Prop :=
  ∀ method resource isDCR subject,
    ace.grants method resource isDCR subject = true →
      ∃ other, (other ∈ before ∨ other ∈ requested) ∧
        other.grants method resource isDCR subject = true

section Coverage

variable {before after requested : List Ace} {ace base own : Ace}

theorem covered_of_mem (member : ace ∈ before) :
    Covered before requested ace := by
  intro method resource isDCR subject granted
  exact ⟨ace, .inl member, granted⟩

theorem Covered.addResource {res : AceRes}
    (covered : Covered before requested base) (member : own ∈ requested)
    (subject : base.subject = own.subject)
    (permission : base.permission = own.permission)
    (resource : res ∈ own.resources) :
    Covered before requested
      { base with resources := base.resources ++ [res] } := by
  intro method target isDCR peer granted
  simp only [Ace.grants, List.any_append, List.any_cons, List.any_nil,
    Bool.or_false, Bool.and_eq_true, Bool.or_eq_true] at granted
  obtain ⟨⟨matching, old | new⟩, allowed⟩ := granted
  · refine covered method target isDCR peer ?_
    simp only [Ace.grants, Bool.and_eq_true]
    exact ⟨⟨matching, old⟩, allowed⟩
  · refine ⟨own, .inr member, ?_⟩
    simp only [Ace.grants, Bool.and_eq_true]
    refine ⟨⟨?_, List.any_eq_true.mpr ⟨res, resource, new⟩⟩, ?_⟩
    · cases peer <;> simpa [ocAceHasMatchingSubject, ← subject] using matching
    · rw [← permission]
      exact allowed

theorem grantsNothingNew_of_covered
    (covered : ∀ ace ∈ after, Covered before requested ace) :
    GrantsNothingNew before after requested := by
  intro ocPki creds query allowed
  simp only [ocSecCheckAclByPermissions_eq, Bool.or_eq_true,
    List.any_eq_true] at allowed ⊢
  rcases allowed with privileged | ⟨ace, member, granted⟩
  · exact .inl (.inl privileged)
  · obtain ⟨subject, own, grants⟩ := List.any_eq_true.mp granted
    obtain ⟨other, source, otherGrants⟩ :=
      covered ace member _ _ _ _ grants
    have otherGranted : query.grantedBy ocPki creds other = true :=
      List.any_eq_true.mpr ⟨subject, own, otherGrants⟩
    rcases source with old | requestedHere
    · exact .inl (.inr ⟨other, old, otherGranted⟩)
    · exact .inr ⟨other, requestedHere,
        .inr ⟨other, List.mem_singleton_self other, otherGranted⟩⟩

end Coverage

section Payloads

private theorem uint16OfInt_of_nonneg {value : Int} (nonneg : 0 ≤ value) :
    uint16OfInt value = UInt16.ofNat value.toNat := by
  have reduced : (value % 65536).toNat = value.toNat % 65536 :=
    Int.toNat_emod nonneg (by decide)
  rw [uint16OfInt, reduced]
  apply UInt16.toNat_inj.mp
  simp

variable {item : Rep}

private theorem ocSecDecodeAceFrom_permission {start decode : AceDecode}
    {value : Int} (decoded : ocSecDecodeAceFrom item start = some decode)
    (starting : start.permission = uint16OfInt value) :
    decode.permission = uint16OfInt (item.foldl (fun value entry =>
      match entry with
      | (name, .int new) => if name = ascii "permission" then new else value
      | _ => value) value) := by
  induction item generalizing start value with
  | nil =>
      obtain rfl : start = decode := Option.some.inj decoded
      exact starting
  | cons entry item ih =>
      obtain ⟨name, content⟩ := entry
      obtain ⟨next, here, later⟩ := Option.bind_eq_some_iff.mp decoded
      refine ih later ?_
      cases content with
      | int new =>
          simp only [aceDecodeProperty, aceDecodeIntProperty] at here
          split_ifs at here with isPermission
          · obtain rfl := Option.some.inj here
            simp [isPermission]
          · obtain rfl := Option.some.inj here
            simpa [isPermission] using starting
      | string text =>
          simp only [aceDecodeProperty] at here
          split_ifs at here <;> obtain rfl := Option.some.inj here <;>
            exact starting
      | object rep =>
          simp only [aceDecodeProperty] at here
          split_ifs at here
          obtain ⟨subject, -, rfl⟩ := Option.map_eq_some_iff.mp here
          exact starting
      | objectArray items =>
          simp only [aceDecodeProperty] at here
          split_ifs at here
          obtain rfl := Option.some.inj here
          exact starting
      | nil =>
          simp only [aceDecodeProperty] at here
          split_ifs at here
          obtain rfl := Option.some.inj here
          exact starting
      | array =>
          simp only [aceDecodeProperty] at here
          split_ifs at here
          obtain rfl := Option.some.inj here
          exact starting
      | _ => cases here

theorem permission_of_ocSecDecodeAce {decode : AceDecode}
    (decoded : ocSecDecodeAce item = some decode)
    (nonneg : 0 ≤ requestedPermission item) :
    decode.permission = UInt16.ofNat (requestedPermission item).toNat := by
  have last := ocSecDecodeAceFrom_permission decoded
    (show ({} : AceDecode).permission = uint16OfInt 0 from rfl)
  rw [last, ← uint16OfInt_of_nonneg nonneg]
  rfl

theorem addResource_mem_aclSteps {decode : AceDecode} {res : AceResDecode}
    {rep : Rep} (member : .addResource item decode res ∈ (aclSteps rep).2) :
    item ∈ payloadAces rep ∧ ocSecDecodeAce item = some decode ∧
      ∃ resource ∈ decode.resources,
        aceDecodeResource resource = some res := by
  rcases mem_aclSteps member with ⟨value, impossible⟩ | ⟨own, inside, step⟩
  · cases impossible
  · obtain ⟨other, decoded, impossible | impossible | ⟨found, same, listed⟩⟩ :=
      mem_itemSteps step
    · cases impossible
    · cases impossible
    · obtain ⟨rfl, rfl, rfl⟩ := AclStep.addResource.inj same
      exact ⟨inside, decoded, listed⟩

end Payloads

section Updates

variable {newAceid : NewAceid} {acl : Acl} {update : AceUpdate}
  {before requested : List Ace}

/-- A requested entry that an update may be read as: its subject, its
permission and its resource. -/
structure Asks (requested : List Ace) (update : AceUpdate) (own : Ace) :
    Prop where
  member : own ∈ requested
  subject : own.subject = update.subject
  permission : own.permission = update.permission
  resource : ∀ res, ocSecAddNewAceRes update.href update.wildcard = some res →
    res ∈ own.resources

/-- An update that is merged exactly keeps the entries covered. -/
theorem covered_ocSecAclUpdateRes
    (covered : ∀ ace ∈ acl.aces, Covered before requested ace)
    (merges : MergesExactly acl update)
    (asked : Extends acl update → ∃ own, Asks requested update own) :
    ∀ ace ∈ (acl.ocSecAclUpdateRes newAceid update).1.aces,
      Covered before requested ace := by
  intro ace inside
  rcases Acl.mem_ocSecAclUpdateRes inside with old |
    ⟨base, res, source, adds, added, rfl⟩
  · exact covered ace old
  have extending : Extends acl update := ⟨by rw [added]; rfl, adds⟩
  obtain ⟨own, member, subject, permission, resource⟩ := asked extending
  rcases source with found | rfl
  · obtain ⟨sameSubject, samePermission⟩ := merges extending base found
    have present : base ∈ acl.aces := List.mem_of_find?_eq_some found
    exact (covered base present).addResource member
      (sameSubject.trans subject.symm) (samePermission.trans permission.symm)
      (resource res added)
  · have bare : Covered before requested (acl.newAce newAceid update) := by
      intro method target isDCR peer granted
      simp [Ace.grants, Acl.newAce] at granted
    exact bare.addResource member subject.symm permission.symm
      (resource res added)

/-- The requested entries have one for the resource of a step whose ACE has
what it takes. -/
def Requested (requested : List Ace) (step : AclStep) : Prop :=
  ∀ item decode res, step = .addResource item decode res →
    decode.subject.isSome ∧ 0 ≤ requestedPermission item →
      ∃ own, Asks requested (decode.update res) own

theorem covered_step {machine : AclMachine} {step : AclStep}
    (covered : ∀ ace ∈ machine.acl.aces, Covered before requested ace)
    (merges : StepMergesExactly machine step)
    (known : Requested requested step) :
    ∀ ace ∈ (machine.step newAceid step).acl.aces,
      Covered before requested ace := by
  cases step with
  | setRowner value => exact covered
  | beginAce decode =>
      intro ace member
      exact covered ace (Acl.mem_unlinkReplaced member)
  | addResource item decode res =>
      obtain ⟨exactly, complete⟩ := merges
      rw [AclMachine.acl_step_addResource]
      refine covered_ocSecAclUpdateRes covered exactly ?_
      exact fun extending => known item decode res rfl (complete extending)
  | endAce => exact covered

theorem requested_of_mem {rep : Rep} {step : AclStep}
    (member : step ∈ (aclSteps rep).2) :
    Requested ((payloadAces rep).filterMap requestedAce) step := by
  rintro item decode res rfl ⟨given, nonneg⟩
  obtain ⟨inside, decoded, resource, listed, found⟩ :=
    addResource_mem_aclSteps member
  obtain ⟨subject, same⟩ := Option.isSome_iff_exists.mp given
  have own : requestedAce item = some
      { address := 0
        aceid := decode.aceid
        permission := UInt16.ofNat (requestedPermission item).toNat
        subject := subject
        tag := decode.tag
        resources := requestedResources decode } := by
    unfold requestedAce
    simp [decoded, same, not_lt.mpr nonneg]
  refine ⟨_, List.mem_filterMap.mpr ⟨item, inside, own⟩, ?_, ?_, ?_⟩
  · simp [AceDecode.update, AceDecode.subjectOrZero, same]
  · exact (permission_of_ocSecDecodeAce decoded nonneg).symm
  · intro added new
    refine List.mem_filterMap.mpr ⟨resource, listed, ?_⟩
    rw [found, Option.bind_some]
    exact new

/-- Updates that are merged exactly grant nothing new: a single one through
`oc_sec_acl_update_res`, and all those of a payload through
`oc_sec_decode_acl`. -/
theorem grantsNothingNew_of_mergesExactly (newAceid : NewAceid) (acl : Acl) :
    (∀ update, MergesExactly acl update →
      GrantsNothingNew acl.aces
        (acl.ocSecAclUpdateRes newAceid update).1.aces [update.ownAce]) ∧
    (∀ dos fromStorage rep,
      Along (AclMachine.step newAceid) StepMergesExactly
        (AclMachine.start acl) (admittedSteps dos fromStorage rep).2 →
      GrantsNothingNew acl.aces
        (ocSecDecodeAcl newAceid dos fromStorage rep acl).2.acl.aces
        ((payloadAces rep).filterMap requestedAce)) := by
  constructor
  · intro update merges
    apply grantsNothingNew_of_covered
    refine covered_ocSecAclUpdateRes (fun _ => covered_of_mem) merges ?_
    intro _
    refine ⟨update.ownAce, List.mem_singleton_self _, rfl, rfl, ?_⟩
    intro res added
    simp [AceUpdate.ownAce, added]
  · intro dos fromStorage rep merges
    rw [ocSecDecodeAcl_eq_runFrom]
    apply grantsNothingNew_of_covered
    have known : ∀ step ∈ (admittedSteps dos fromStorage rep).2,
        Requested ((payloadAces rep).filterMap requestedAce) step := by
      intro step member
      unfold admittedSteps at member
      split_ifs at member
      · cases member
      · exact requested_of_mem member
    let covers (machine : AclMachine) : Prop := ∀ ace ∈ machine.acl.aces,
      Covered acl.aces ((payloadAces rep).filterMap requestedAce) ace
    have start : covers (AclMachine.start acl) := fun _ => covered_of_mem
    refine (merges.and_forall known).invariant start ?_
    intro machine step covered here
    exact covered_step covered here.1 here.2

end Updates

section Samples

private def roleAce : Ace where
  address := 0
  aceid := 1
  permission := OcPerm.retrieve
  subject := .role (ascii "guest") []
  tag := none
  resources := [⟨ascii "/a", .noWc⟩]

private def guestList : Acl := ⟨[roleAce], Uuid.nil, 1⟩

private def sampleAceid : NewAceid := fun address _ => address + 100

private def resourceRep (href : String) : Rep :=
  [(ascii "href", .string (ascii href))]

private def aceRep (subject : Rep) (permission : Int) (href : String) : Rep :=
  [(ascii "subject", .object subject), (ascii "permission", .int permission),
    (ascii "resources", .objectArray [resourceRep href])]

private def aclist2 (items : List Rep) : Rep :=
  [(ascii "aclist2", .objectArray items)]

private def guestOf (authority : String) : Rep :=
  [(ascii "role", .string (ascii "guest")),
    (ascii "authority", .string (ascii authority))]

private def sampleQuery (roles : List RoleCert) (di : Uuid) :
    AccessQuery where
  method := .get
  resource := ⟨ascii "/b", .application, true, true, false, 0, by simp⟩
  isDCR := false
  isSVR := false
  endpoint := ⟨0, true, 0, 0, di⟩
  peer := some ⟨⟨0, true, 0, 0, di⟩, false, false, roles, rfl⟩

private def guestUpdate : AceUpdate :=
  ⟨.role (ascii "guest") [], -1, 2, none, some (ascii "/b"), .noWc⟩

/-- Another resource for the same role with the same permission is merged
exactly. -/
theorem grantsNothingNew_guest :
    GrantsNothingNew guestList.aces
      (guestList.ocSecAclUpdateRes sampleAceid guestUpdate).1.aces
      [guestUpdate.ownAce] ∧
    GrantsNothingNew guestList.aces
      (ocSecDecodeAcl sampleAceid .rfpro false
        (aclist2 [aceRep [(ascii "role", .string (ascii "guest"))] 2 "/b"])
        guestList).2.acl.aces
      ((payloadAces (aclist2
        [aceRep [(ascii "role", .string (ascii "guest"))] 2 "/b"])).filterMap
          requestedAce) :=
  ⟨(grantsNothingNew_of_mergesExactly sampleAceid guestList).1 guestUpdate
      (by decide +kernel),
    (grantsNothingNew_of_mergesExactly sampleAceid guestList).2 .rfpro false _
      (by decide +kernel)⟩

private def Widens (item : Rep) (query : AccessQuery) : Prop :=
  ocSecCheckAclByPermissions true [] (ocSecDecodeAcl sampleAceid .rfpro false
    (aclist2 [item]) guestList).2.acl.aces query = true ∧
  ocSecCheckAclByPermissions true [] guestList.aces query = false ∧
  ∀ ace ∈ (payloadAces (aclist2 [item])).filterMap requestedAce,
    ocSecCheckAclByPermissions true [] [ace] query = false

private def GrantsOnlyRequested (item : Rep) : Prop :=
  GrantsNothingNew guestList.aces
    (ocSecDecodeAcl sampleAceid .rfpro false (aclist2 [item])
      guestList).2.acl.aces
    ((payloadAces (aclist2 [item])).filterMap requestedAce)

private theorem not_grantsOnlyRequested_of_widens {item : Rep}
    {query : AccessQuery} (widens : Widens item query) :
    ¬ GrantsOnlyRequested item := by
  intro nothingNew
  obtain ⟨after, before, own⟩ := widens
  rcases nothingNew true [] query after with allowed | ⟨ace, member, allowed⟩
  · rw [before] at allowed
    cases allowed
  · rw [own ace member] at allowed
    cases allowed

/-- Updates that grant more than they say: a role under one authority is
merged into the role under any, no permission at all into any permission, an
ACE without subject is applied to the nil UUID, and a negative permission
becomes a large one. -/
theorem not_grantsNothingNew :
    ¬ GrantsOnlyRequested (aceRep (guestOf "x") 2 "/b") ∧
    ¬ GrantsOnlyRequested (aceRep (guestOf "y") 0 "/b") ∧
    ¬ GrantsOnlyRequested
      [(ascii "permission", .int 2),
        (ascii "resources", .objectArray [resourceRep "/b"])] ∧
    ¬ GrantsOnlyRequested
      (aceRep [(ascii "uuid",
        .string (ascii "00000000-0000-0000-0000-000000000001"))] (-1)
          "/b") := by
  refine ⟨?_, ?_, ?_, ?_⟩
  · exact @not_grantsOnlyRequested_of_widens _
      (sampleQuery [⟨ascii "guest", ascii "y", true⟩] Uuid.nil)
      (by unfold Widens; decide +kernel)
  · exact @not_grantsOnlyRequested_of_widens _
      (sampleQuery [⟨ascii "guest", ascii "y", true⟩] Uuid.nil)
      (by unfold Widens; decide +kernel)
  · exact @not_grantsOnlyRequested_of_widens _ (sampleQuery [] Uuid.nil)
      (by unfold Widens; decide +kernel)
  · exact @not_grantsOnlyRequested_of_widens _
      (sampleQuery [] (Uuid.ofBytes (List.replicate 15 0 ++ [1])))
      (by unfold Widens; decide +kernel)

end Samples

end IotivityLite
