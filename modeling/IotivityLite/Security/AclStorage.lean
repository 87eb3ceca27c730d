import IotivityLite.Security.UuidText

/-!
# The access control list in the storage

`oc_sec_encode_acl` and what `oc_sec_decode_acl` makes of it on an empty list.
The payload is given as the tree that `oc_parse_rep` reads back from it.  Of a
resource with an href only the href is written, so `kept` describes the
entries that come back.
-/

namespace IotivityLite

/-- `oc_ace_connection_type_to_string` -/
def ocAceConnectionTypeToString : AceConnectionType → Bytes
  | .authCrypt => ascii "auth-crypt"
  | .anonClear => ascii "anon-clear"

/-- `oc_ace_wildcard_to_string` -/
def ocAceWildcardToString : AceWildcard → Bytes
  | .noWc => []
  | .all => ascii "*"
  | .allSecured => ascii "+"
  | .allPublic => ascii "-"

def aceEncodeSubject : AceSubject → Rep
  | .uuid uuid => [(ascii "uuid", .string (ocUuidToStr uuid))]
  | .role role authority =>
      (ascii "role", .string role) ::
        if authority = [] then []
        else [(ascii "authority", .string authority)]
  | .conn type =>
      [(ascii "conntype", .string (ocAceConnectionTypeToString type))]

/-- `ace_encode_subject_resource`; it returns after the href. -/
def aceEncodeSubjectResource (res : AceRes) : Rep :=
  let wildcard := ocAceWildcardToString res.wildcard
  if res.href ≠ [] then [(ascii "href", .string res.href)]
  else if wildcard ≠ [] then [(ascii "wc", .string wildcard)]
  else []

def aceEncodeSubjectResources (resources : List AceRes) : Rep :=
  if resources = [] then []
  else
    [(ascii "resources",
      .objectArray (resources.map aceEncodeSubjectResource))]

def ocSecEncodeAce (toStorage : Bool) (ace : Ace) : Rep :=
  (ascii "subject", .object (aceEncodeSubject ace.subject)) ::
    (aceEncodeSubjectResources ace.resources ++
      (ascii "permission", .int ace.permission.toNat) ::
      (ascii "aceid", .int ace.aceid) ::
      if toStorage = true ∧ ace.tag.getD [] ≠ [] then
        [(ascii "tag", .string (ace.tag.getD []))]
      else [])

/-- `oc_sec_encode_acl` for the storage.  An array without items is read back
as one without a type. -/
def ocSecEncodeAcl (acl : Acl) : Rep :=
  [(ascii "rt", .stringArray [ascii "oic.r.acl2"]),
    (ascii "if", .stringArray [ascii "oic.if.rw", ascii "oic.if.baseline"]),
    (ascii "aclist2",
      if acl.aces = [] then .nil
      else .objectArray (acl.aces.map (ocSecEncodeAce true))),
    (ascii "rowneruuid", .string (ocUuidToStr acl.rowneruuid))]

/-- What the storage keeps of a resource. -/
def AceRes.kept (res : AceRes) : AceRes :=
  if res.href ≠ [] then ⟨res.href, .noWc⟩ else ⟨[], res.wildcard⟩

/-- The decoded form of it. -/
def AceRes.decoded (res : AceRes) : AceResDecode :=
  if res.href ≠ [] then ⟨some res.href, .noWc⟩ else ⟨none, res.wildcard⟩

/-- An empty tag is not written. -/
def keptTag (tag : Option Bytes) : Option Bytes :=
  if tag.getD [] ≠ [] then tag else none

def Ace.decoded (ace : Ace) : AceDecode where
  aceid := ace.aceid
  permission := ace.permission
  subject := some ace.subject
  resources := ace.resources.map aceEncodeSubjectResource
  tag := keptTag ace.tag

theorem aceDecodeSubject_aceEncodeSubject (subject : AceSubject) :
    aceDecodeSubject (aceEncodeSubject subject) = some subject := by
  cases subject with
  | uuid uuid =>
      simp [aceEncodeSubject, aceDecodeSubject, aceDecodeSubjectProperties,
        aceDecodeSubjectStringProperty, AceSubjectDecode.subject,
        ocStrToUuidV1_ocUuidToStr]
  | role role authority =>
      by_cases none : authority = []
      · subst none
        rfl
      · rw [aceEncodeSubject, if_neg none]
        rfl
  | conn type => cases type <;> rfl

theorem aceDecodeResource_encoded (res : AceRes) :
    aceDecodeResource (aceEncodeSubjectResource res) = some res.decoded := by
  obtain ⟨href, wildcard⟩ := res
  unfold aceEncodeSubjectResource AceRes.decoded
  by_cases given : href = []
  · subst given
    cases wildcard <;> rfl
  · simp only [ne_eq, given, not_false_eq_true, if_true]
    rfl

theorem uint16OfInt_toNat (value : UInt16) :
    uint16OfInt value.toNat = value := by
  have small := value.toNat_lt
  rw [uint16OfInt]
  have same : ((value.toNat : Int) % 65536).toNat = value.toNat := by omega
  rw [same, UInt16.ofNat_toNat]

/-- An aceid is an `int`. -/
def IsAceid (aceid : Int) : Prop :=
  Int.bmod aceid (2 ^ 32) = aceid ∧ aceid ≠ -1

theorem IsAceid.le {aceid : Int} (fits : IsAceid aceid) :
    aceid ≤ 2 ^ 31 - 1 := by
  have bound := @Int.bmod_lt aceid (2 ^ 32) (by decide)
  rw [fits.1] at bound
  omega

section Fields

variable {rest : Rep} {decode : AceDecode}

theorem ocSecDecodeAceFrom_encodedResources (resources : List AceRes)
    (empty : decode.resources = []) :
    ocSecDecodeAceFrom (aceEncodeSubjectResources resources ++ rest) decode =
      ocSecDecodeAceFrom rest { decode with
        resources := resources.map aceEncodeSubjectResource } := by
  by_cases none : resources = []
  · rw [none, aceEncodeSubjectResources, if_pos rfl, List.nil_append,
      List.map_nil, ← empty]
  · rw [aceEncodeSubjectResources, if_neg none]
    rfl

theorem ocSecDecodeAceFrom_encodedPermission (permission : UInt16) :
    ocSecDecodeAceFrom ((ascii "permission", .int permission.toNat) :: rest)
        decode =
      ocSecDecodeAceFrom rest { decode with permission := permission } := by
  have bound := permission.toNat_lt
  have small : ¬ ((permission.toNat : Int) > 65535) := by omega
  rw [ocSecDecodeAceFrom, aceDecodeProperty, aceDecodeIntProperty,
    if_pos rfl, if_neg small, uint16OfInt_toNat]
  rfl

theorem ocSecDecodeAceFrom_encodedAceid {aceid : Int} (fits : IsAceid aceid) :
    ocSecDecodeAceFrom ((ascii "aceid", .int aceid) :: rest) decode =
      ocSecDecodeAceFrom rest { decode with aceid := aceid } := by
  have other : ascii "aceid" ≠ ascii "permission" := by decide
  have small : ¬ (aceid > 2 ^ 31 - 1) := not_lt.mpr fits.le
  rw [ocSecDecodeAceFrom, aceDecodeProperty, aceDecodeIntProperty,
    if_neg other, if_pos rfl, if_neg small, fits.1]
  rfl

end Fields

theorem ocSecDecodeAce_encoded {ace : Ace} (fits : IsAceid ace.aceid) :
    ocSecDecodeAce (ocSecEncodeAce true ace) = some ace.decoded := by
  rw [ocSecDecodeAce, ocSecEncodeAce, ocSecDecodeAceFrom, aceDecodeProperty]
  dsimp only
  rw [if_pos rfl, aceDecodeSubject_aceEncodeSubject, Option.map_some,
    Option.bind_some, ocSecDecodeAceFrom_encodedResources _ rfl,
    ocSecDecodeAceFrom_encodedPermission, ocSecDecodeAceFrom_encodedAceid fits]
  unfold Ace.decoded keptTag
  by_cases tagged : ace.tag.getD [] = []
  · simp [tagged, ocSecDecodeAceFrom]
  · rw [if_pos ⟨rfl, tagged⟩, if_pos tagged]
    obtain ⟨tag, same⟩ : ∃ tag, ace.tag = some tag :=
      Option.ne_none_iff_exists'.mp fun none => tagged (by rw [none]; rfl)
    rw [same]
    rfl

/-- The resource has an href or a wildcard. -/
def AceRes.storable (res : AceRes) : Prop :=
  res.href ≠ [] ∨ res.wildcard ≠ .noWc

/-- A resource is added unless one that is there stands for it. -/
def addDecoded (resources : List AceRes) (res : AceResDecode) :
    List AceRes :=
  if resources.any (aceResMatches res.href res.wildcard.bits) then resources
  else resources ++ [⟨res.href.getD [], res.wildcard⟩]

/-- The entry that comes back, with some of its resources. -/
def Ace.restoredWith (address : Nat) (resources : List AceRes) (ace : Ace) :
    Ace where
  address := address
  aceid := ace.aceid
  permission := ace.permission
  subject := ace.subject
  tag := keptTag ace.tag
  resources := resources

def Ace.restored (address : Nat) (ace : Ace) : Ace :=
  ace.restoredWith address
    ((ace.resources.map AceRes.decoded).foldl addDecoded [])

/-- The entries that come back, with the addresses from `address` on. -/
def restoredAces (address : Nat) : List Ace → List Ace
  | [] => []
  | ace :: aces => ace.restored address :: restoredAces (address + 1) aces

theorem ocSecAddNewAceRes_decoded {res : AceRes} (storable : res.storable) :
    ocSecAddNewAceRes res.decoded.href res.decoded.wildcard =
      some ⟨res.decoded.href.getD [], res.decoded.wildcard⟩ := by
  rw [ocSecAddNewAceRes, if_neg]
  rintro ⟨wildcard, href⟩
  unfold AceRes.decoded at wildcard href
  split at href <;> rename_i given
  · cases href
  · rw [if_neg given] at wildcard
    exact storable.elim given fun other => other wildcard

theorem ocSecAceGetOrAddRes_decoded {res : AceRes} (storable : res.storable)
    (ace : Ace) :
    ∃ created, ocSecAceGetOrAddRes ace res.decoded.href res.decoded.wildcard =
      some ({ ace with resources := addDecoded ace.resources res.decoded },
        created) := by
  rw [ocSecAceGetOrAddRes, ocSecAceFindResource, addDecoded,
    ocSecAddNewAceRes_decoded storable]
  cases found : ace.resources.find? (aceResMatches res.decoded.href
      res.decoded.wildcard.bits) with
  | none =>
      have none := List.find?_eq_none.mp found
      rw [if_neg (by simpa using none)]
      exact ⟨true, rfl⟩
  | some old =>
      rw [if_pos (List.any_eq_true.mpr ⟨old, List.mem_of_find?_eq_some found,
        List.find?_some found⟩)]
      exact ⟨false, rfl⟩

section Restoring

variable {newAceid : NewAceid} {acl : Acl} {ace : Ace}

/-- No entry of the list has the aceid. -/
def AceidUnused (acl : Acl) (aceid : Int) : Prop :=
  ∀ other ∈ acl.aces, other.aceid ≠ aceid

theorem not_accepts_of_unused (fits : IsAceid ace.aceid)
    (unused : AceidUnused acl ace.aceid) (res : AceResDecode) :
    ∀ other ∈ acl.aces,
      (ace.decoded.update res).query.accepts other = false := by
  intro other member
  have different := unused other member
  simp [AceQuery.accepts, AceUpdate.query, AceDecode.update, Ace.decoded,
    fits.2, different]

theorem accepts_restored (address : Nat) (resources : List AceRes)
    (res : AceResDecode) :
    (ace.decoded.update res).query.accepts
      (ace.restoredWith address resources) = true := by
  have subject : ocAceHasMatchingSubject (ace.restoredWith address resources)
      ace.subject = true := by
    cases same : ace.subject <;>
      simp [ocAceHasMatchingSubject, Ace.restoredWith, same]
  simp [AceQuery.accepts, AceUpdate.query, AceDecode.update, Ace.decoded,
    ocAceHasMatchingTag, AceDecode.subjectOrZero, subject]
  simp [Ace.restoredWith]

theorem ocSecAclUpdateRes_first (fits : IsAceid ace.aceid)
    (unused : AceidUnused acl ace.aceid) {res : AceRes}
    (storable : res.storable) :
    acl.ocSecAclUpdateRes newAceid (ace.decoded.update res.decoded) =
      ({ acl with
          aces := acl.aces ++
            [ace.restoredWith acl.allocated (addDecoded [] res.decoded)]
          allocated := acl.allocated + 1 },
        some ⟨acl.allocated, true, true⟩) := by
  have others := not_accepts_of_unused fits unused res.decoded
  have absent := List.findIdx?_eq_none_iff.mpr others
  have added : ocSecAddNewAceRes
      (ace.decoded.update res.decoded).href
      (ace.decoded.update res.decoded).wildcard = _ :=
    ocSecAddNewAceRes_decoded storable
  rw [Acl.ocSecAclUpdateRes_of_absent absent, added]
  simp [Acl.newAce, AceDecode.update, Ace.decoded, Ace.restoredWith,
    addDecoded, AceDecode.subjectOrZero, fits.2]

theorem ocSecAclUpdateRes_later (fits : IsAceid ace.aceid)
    (unused : AceidUnused acl ace.aceid) (address : Nat)
    (resources : List AceRes) {res : AceRes} (storable : res.storable) :
    ∃ data, ({ acl with
        aces := acl.aces ++ [ace.restoredWith address resources] } :
          Acl).ocSecAclUpdateRes newAceid (ace.decoded.update res.decoded) =
      ({ acl with aces := acl.aces ++ [ace.restoredWith address
          (addDecoded resources res.decoded)] }, some data) := by
  have others := not_accepts_of_unused fits unused res.decoded
  have found : (acl.aces ++ [ace.restoredWith address resources]).findIdx?
        (ace.decoded.update res.decoded).query.accepts =
          some acl.aces.length := by
    rw [List.findIdx?_append, List.findIdx?_eq_none_iff.mpr others]
    simp [List.findIdx?_cons, accepts_restored]
  obtain ⟨created, added⟩ := ocSecAceGetOrAddRes_decoded storable
    (ace.restoredWith address resources)
  have added' : ocSecAceGetOrAddRes (ace.restoredWith address resources)
      (ace.decoded.update res.decoded).href
      (ace.decoded.update res.decoded).wildcard = some
        (ace.restoredWith address (addDecoded resources res.decoded),
          created) := added
  refine ⟨⟨address, false, created⟩, ?_⟩
  rw [Acl.ocSecAclUpdateRes_of_found found List.getElem?_concat_length,
    added']
  simp [Ace.restoredWith]

theorem ocSecDecodeAceResources_later (fits : IsAceid ace.aceid)
    (unused : AceidUnused acl ace.aceid) (address : Nat)
    (resources : List AceRes) {later : List AceRes}
    (storable : ∀ res ∈ later, res.storable) (data : ResourcesData) :
    ∃ data', ocSecDecodeAceResources newAceid ace.decoded
        (later.map aceEncodeSubjectResource)
        { acl with
          aces := acl.aces ++ [ace.restoredWith address resources] } data =
      (true, { acl with aces := acl.aces ++ [ace.restoredWith address
        ((later.map AceRes.decoded).foldl addDecoded resources)] },
        data') := by
  induction later generalizing resources data with
  | nil => exact ⟨data, rfl⟩
  | cons res later ih =>
      rw [List.forall_mem_cons] at storable
      obtain ⟨added, update⟩ := @ocSecAclUpdateRes_later newAceid acl ace fits
        unused address resources res storable.1
      rw [List.map_cons, ocSecDecodeAceResources, aceDecodeResource_encoded]
      dsimp only
      rw [aclDecodeAceResources, update]
      exact ih _ storable.2 _

/-- An entry that the storage can hold. -/
structure Ace.Storable (ace : Ace) : Prop where
  aceid : IsAceid ace.aceid
  nonempty : ace.resources ≠ []
  resources : ∀ res ∈ ace.resources, res.storable

theorem decodeAclist2Item_encoded {state : AclDecode}
    (storable : ace.Storable) (unused : AceidUnused state.acl ace.aceid) :
    ∃ applied, decodeAclist2Item newAceid (ocSecEncodeAce true ace) state =
      (true, ⟨⟨state.acl.aces ++ [ace.restored state.acl.allocated],
        state.acl.rowneruuid, state.acl.allocated + 1⟩, applied⟩) := by
  have nothing : state.acl.unlinkReplaced ace.decoded = (state.acl, none) := by
    rw [Acl.unlinkReplaced, if_neg]
    rintro ⟨-, used⟩
    refine used (List.all_eq_true.mpr fun other member => ?_)
    simpa [Ace.decoded] using unused other member
  obtain ⟨res, later, same⟩ :=
    List.exists_cons_of_ne_nil storable.nonempty
  have each := storable.resources
  rw [same, List.forall_mem_cons] at each
  have first := @ocSecAclUpdateRes_first newAceid _ _ storable.aceid unused
    res each.1
  obtain ⟨data, rest⟩ := @ocSecDecodeAceResources_later newAceid
    ⟨state.acl.aces, state.acl.rowneruuid, state.acl.allocated + 1⟩ ace
    storable.aceid unused state.acl.allocated (addDecoded [] res.decoded)
    later each.2 ⟨some state.acl.allocated, true, true⟩
  have resources : ocSecDecodeAceResources newAceid ace.decoded
      ace.decoded.resources state.acl {} =
        (true, ⟨state.acl.aces ++ [ace.restored state.acl.allocated],
          state.acl.rowneruuid, state.acl.allocated + 1⟩, data) := by
    rw [show ace.decoded.resources =
      ace.resources.map aceEncodeSubjectResource from rfl, same,
      List.map_cons, ocSecDecodeAceResources, aceDecodeResource_encoded]
    dsimp only
    rw [aclDecodeAceResources, first]
    dsimp only
    rw [Ace.restored, same]
    exact rest
  rw [decodeAclist2Item, ocSecDecodeAce_encoded storable.aceid]
  dsimp only
  rw [nothing]
  dsimp only
  rw [resources]
  exact ⟨_, rfl⟩

theorem decodeAclist2_encoded {aces : List Ace}
    (storable : ∀ ace ∈ aces, ace.Storable)
    (distinct : (aces.map (·.aceid)).Nodup) {state : AclDecode}
    (unused : ∀ ace ∈ aces, AceidUnused state.acl ace.aceid) :
    ∃ applied, decodeAclist2 newAceid (aces.map (ocSecEncodeAce true)) state =
      (true, ⟨⟨state.acl.aces ++ restoredAces state.acl.allocated aces,
        state.acl.rowneruuid, state.acl.allocated + aces.length⟩,
        applied⟩) := by
  induction aces generalizing state with
  | nil => exact ⟨state.applied, by simp [decodeAclist2, restoredAces]⟩
  | cons ace aces ih =>
      rw [List.forall_mem_cons] at storable unused
      rw [List.map_cons, List.nodup_cons] at distinct
      obtain ⟨applied, item⟩ := @decodeAclist2Item_encoded newAceid _ state
        storable.1 unused.1
      have later : ∀ other ∈ aces, AceidUnused
          ⟨state.acl.aces ++ [ace.restored state.acl.allocated],
            state.acl.rowneruuid, state.acl.allocated + 1⟩ other.aceid := by
        intro other member present inside
        rcases List.mem_append.mp inside with old | new
        · exact unused.2 other member present old
        · rw [List.mem_singleton.mp new]
          intro same
          exact distinct.1 (List.mem_map.mpr ⟨other, member, same.symm⟩)
      obtain ⟨applied', rest⟩ := @ih storable.2 distinct.2
        ⟨⟨_, state.acl.rowneruuid, state.acl.allocated + 1⟩, applied⟩ later
      rw [List.map_cons, decodeAclist2, item]
      dsimp only
      rw [rest]
      refine ⟨applied', ?_⟩
      simp [restoredAces, Nat.add_comm, Nat.add_left_comm]

theorem decodeAclEntries_of_entry {entry : Bytes × RepValue} {rep : Rep}
    {state after : AclDecode}
    (decoded : decodeAclEntry newAceid entry state = (true, after)) :
    decodeAclEntries newAceid (entry :: rep) state =
      decodeAclEntries newAceid rep after := by
  rw [decodeAclEntries, decoded]

theorem ocSecDecodeAcl_encoded (dos : DosType)
    (storable : ∀ ace ∈ acl.aces, ace.Storable)
    (distinct : (acl.aces.map (·.aceid)).Nodup) (rowneruuid : Uuid)
    (allocated : Nat) :
    ∃ applied, ocSecDecodeAcl newAceid dos true (ocSecEncodeAcl acl)
        ⟨[], rowneruuid, allocated⟩ =
      (true, ⟨⟨restoredAces allocated acl.aces, acl.rowneruuid,
        allocated + acl.aces.length⟩, applied⟩) := by
  have list : ∃ applied, decodeAclEntry newAceid (ascii "aclist2",
      if acl.aces = [] then .nil
      else .objectArray (acl.aces.map (ocSecEncodeAce true)))
      ⟨⟨[], rowneruuid, allocated⟩, []⟩ =
        (true, ⟨⟨restoredAces allocated acl.aces, rowneruuid,
          allocated + acl.aces.length⟩, applied⟩) := by
    by_cases empty : acl.aces = []
    · rw [if_pos empty, empty]
      exact ⟨[], rfl⟩
    · rw [if_neg empty]
      exact @decodeAclist2_encoded newAceid acl.aces storable distinct
        ⟨⟨[], rowneruuid, allocated⟩, []⟩ fun ace _ other member => by
          cases member
  obtain ⟨applied, list⟩ := list
  refine ⟨applied, ?_⟩
  rw [ocSecDecodeAcl, Bool.not_true, Bool.false_and, if_neg (by simp),
    ocSecEncodeAcl, decodeAclEntries_of_entry rfl,
    decodeAclEntries_of_entry rfl, decodeAclEntries_of_entry list,
    decodeAclEntries, decodeAclEntry, if_pos rfl, ocStrToUuid_ocUuidToStr]
  rfl

end Restoring

end IotivityLite
