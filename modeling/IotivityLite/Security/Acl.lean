import IotivityLite.Security.Ace

/-!
# The access control list

`oc_sec_acl_update_res` and `oc_sec_decode_acl` of `oc_acl.c`.  The payload is
applied while it is walked, so the decoder returns its success together with
the list as it is at that moment.  The random aceid of a new entry is a
parameter: a function of the entry's address and the list.
-/

namespace IotivityLite

/-- `dos.s` of the provisioning status. -/
inductive DosType where
  | reset
  | rfotm
  | rfpro
  | rfnop
  | sreset
  deriving DecidableEq, Repr

/-- `allocated` is the address of the next entry. -/
structure Acl where
  aces : List Ace
  rowneruuid : Uuid
  allocated : Nat
  deriving DecidableEq

abbrev NewAceid := (address : Nat) → List Ace → Int

/-- What `oc_sec_acl_update_res` is asked to add. -/
structure AceUpdate where
  subject : AceSubject
  aceid : Int
  permission : UInt16
  tag : Option Bytes
  href : Option Bytes
  wildcard : AceWildcard

def AceUpdate.query (update : AceUpdate) : AceQuery where
  subject := update.subject
  aceid := update.aceid
  permission := update.permission
  tag := some update.tag

structure AceUpdateData where
  address : Nat
  created : Bool
  createdResource : Bool
  deriving DecidableEq

namespace Acl

/-- `oc_sec_new_ace` -/
def newAce (newAceid : NewAceid) (acl : Acl) (update : AceUpdate) : Ace where
  address := acl.allocated
  aceid :=
    if update.aceid = -1 then newAceid acl.allocated acl.aces
    else update.aceid
  permission := update.permission
  subject := update.subject
  tag := update.tag
  resources := []

def addAce (newAceid : NewAceid) (acl : Acl) (update : AceUpdate) : Acl :=
  { acl with
    aces := acl.aces ++ [acl.newAce newAceid update]
    allocated := acl.allocated + 1 }

/-- The position of the entry to add to, which is created when there is
none. -/
def findOrAddAce (newAceid : NewAceid) (acl : Acl) (update : AceUpdate) :
    Acl × Nat × Bool :=
  match acl.aces.findIdx? update.query.accepts with
  | some index => (acl, index, false)
  | none => (acl.addAce newAceid update, acl.aces.length, true)

/-- An entry whose resource cannot be added is removed altogether. -/
def addResource (acl : Acl) (index : Nat) (created : Bool)
    (update : AceUpdate) : Acl × Option AceUpdateData :=
  match acl.aces[index]? with
  | none => (acl, none)
  | some ace =>
      match ocSecAceGetOrAddRes ace update.href update.wildcard with
      | none => ({ acl with aces := acl.aces.eraseIdx index }, none)
      | some (changed, createdResource) =>
          ({ acl with aces := acl.aces.set index changed },
            some ⟨ace.address, created, createdResource⟩)

def ocSecAclUpdateRes (newAceid : NewAceid) (acl : Acl)
    (update : AceUpdate) : Acl × Option AceUpdateData :=
  let (acl, index, created) := acl.findOrAddAce newAceid update
  acl.addResource index created update

def uniqueAceid (acl : Acl) (aceid : Int) : Bool :=
  acl.aces.all (·.aceid != aceid)

/-- The entry that is unlinked, if the aceid is taken. -/
def removeByAceid (acl : Acl) (aceid : Int) : Acl × Option Ace :=
  match acl.aces.findIdx? (·.aceid == aceid) with
  | none => (acl, none)
  | some index =>
      ({ acl with aces := acl.aces.eraseIdx index }, acl.aces[index]?)

end Acl

/-- A call of the callback, with the list it can see. -/
structure AppliedAce where
  rowneruuid : Uuid
  address : Nat
  replaced : Option Ace
  created : Bool
  createdResource : Bool
  aces : List Ace
  deriving DecidableEq

/-- `acl_decode_ace_resources_data_t`: the last entry that was added to. -/
structure ResourcesData where
  ace : Option Nat := none
  created : Bool := false
  createdResource : Bool := false
  deriving DecidableEq

def AceDecode.update (decode : AceDecode) (res : AceResDecode) : AceUpdate where
  subject := decode.subjectOrZero
  aceid := decode.aceid
  permission := decode.permission
  tag := decode.tag
  href := res.href
  wildcard := res.wildcard

def aclDecodeAceResources (newAceid : NewAceid) (decode : AceDecode)
    (res : AceResDecode) (acl : Acl) (data : ResourcesData) :
    Acl × ResourcesData :=
  match acl.ocSecAclUpdateRes newAceid (decode.update res) with
  | (acl, some added) =>
      (acl, ⟨some added.address, data.created || added.created,
        data.createdResource || added.createdResource⟩)
  | (acl, none) => (acl, data)

def ocSecDecodeAceResources (newAceid : NewAceid) (decode : AceDecode) :
    List Rep → Acl → ResourcesData → Bool × Acl × ResourcesData
  | [], acl, data => (true, acl, data)
  | item :: items, acl, data =>
      match aceDecodeResource item with
      | none => (false, acl, data)
      | some res =>
          let (acl, data) := aclDecodeAceResources newAceid decode res acl data
          ocSecDecodeAceResources newAceid decode items acl data

structure AclDecode where
  acl : Acl
  applied : List AppliedAce
  deriving DecidableEq

/-- The entry that an update replaces is unlinked before the update. -/
def Acl.unlinkReplaced (acl : Acl) (decode : AceDecode) : Acl × Option Ace :=
  if decode.aceid ≠ -1 ∧ ¬ acl.uniqueAceid decode.aceid then
    acl.removeByAceid decode.aceid
  else (acl, none)

/-- The callback is called when some resource was added to an entry. -/
def onApplyAce (acl : Acl) (replaced : Option Ace) (data : ResourcesData) :
    List AppliedAce :=
  data.ace.toList.map fun address =>
    { rowneruuid := acl.rowneruuid
      address := address
      replaced := replaced
      created := data.created
      createdResource := data.createdResource
      aces := acl.aces }

/-- One entry of the payload's list. -/
def decodeAclist2Item (newAceid : NewAceid) (item : Rep)
    (state : AclDecode) : Bool × AclDecode :=
  match ocSecDecodeAce item with
  | none => (false, state)
  | some decode =>
      let (acl, replaced) := state.acl.unlinkReplaced decode
      match ocSecDecodeAceResources newAceid decode decode.resources acl {} with
      | (false, acl, _) => (false, { state with acl := acl })
      | (true, acl, data) =>
          (true, ⟨acl, state.applied ++ onApplyAce acl replaced data⟩)

def decodeAclist2 (newAceid : NewAceid) :
    List Rep → AclDecode → Bool × AclDecode
  | [], state => (true, state)
  | item :: items, state =>
      match decodeAclist2Item newAceid item state with
      | (false, state) => (false, state)
      | (true, state) => decodeAclist2 newAceid items state

/-- The first loop: what the provisioning state forbids. -/
def aclForbidden (dos : DosType) : Bytes × RepValue → Bool
  | (name, .string _) =>
      name == ascii "rowneruuid" && (dos == .rfnop || dos == .rfpro)
  | (_, .objectArray _) => dos == .rfnop
  | _ => false

/-- One round of the second loop. -/
def decodeAclEntry (newAceid : NewAceid) (entry : Bytes × RepValue)
    (state : AclDecode) : Bool × AclDecode :=
  match entry with
  | (name, .string value) =>
      if name = ascii "rowneruuid" then
        (true, { state with
          acl := { state.acl with
            rowneruuid := ocStrToUuid value state.acl.rowneruuid } })
      else (true, state)
  | (_, .objectArray items) => decodeAclist2 newAceid items state
  | _ => (true, state)

def decodeAclEntries (newAceid : NewAceid) :
    Rep → AclDecode → Bool × AclDecode
  | [], state => (true, state)
  | entry :: rep, state =>
      match decodeAclEntry newAceid entry state with
      | (false, state) => (false, state)
      | (true, state) => decodeAclEntries newAceid rep state

def ocSecDecodeAcl (newAceid : NewAceid) (dos : DosType) (fromStorage : Bool)
    (rep : Rep) (acl : Acl) : Bool × AclDecode :=
  if !fromStorage && rep.any (aclForbidden dos) then (false, ⟨acl, []⟩)
  else decodeAclEntries newAceid rep ⟨acl, []⟩

/-- The update adds a resource to an entry or to a new one. -/
def Acl.Adds (acl : Acl) (update : AceUpdate) : Prop :=
  match ocSecAceFindSubject acl.aces update.query with
  | none => True
  | some ace =>
      ocSecAceFindResource ace update.href update.wildcard.bits = none

section Updates

variable {newAceid : NewAceid} {acl : Acl} {update : AceUpdate} {index : Nat}
  {ace : Ace}

theorem Acl.ocSecAclUpdateRes_of_found
    (found : acl.aces.findIdx? update.query.accepts = some index)
    (here : acl.aces[index]? = some ace) :
    acl.ocSecAclUpdateRes newAceid update =
      match ocSecAceGetOrAddRes ace update.href update.wildcard with
      | none => ({ acl with aces := acl.aces.eraseIdx index }, none)
      | some (changed, createdResource) =>
          ({ acl with aces := acl.aces.set index changed },
            some ⟨ace.address, false, createdResource⟩) := by
  simp only [ocSecAclUpdateRes, findOrAddAce, found, addResource, here]

theorem Acl.ocSecAclUpdateRes_of_absent
    (absent : acl.aces.findIdx? update.query.accepts = none) :
    acl.ocSecAclUpdateRes newAceid update =
      match ocSecAddNewAceRes update.href update.wildcard with
      | none => ({ acl with allocated := acl.allocated + 1 }, none)
      | some res =>
          ({ acl with
              aces := acl.aces ++
                [{ acl.newAce newAceid update with resources := [res] }]
              allocated := acl.allocated + 1 },
            some ⟨acl.allocated, true, true⟩) := by
  have empty : ocSecAceGetOrAddRes (acl.newAce newAceid update) update.href
      update.wildcard = (ocSecAddNewAceRes update.href update.wildcard).map
        fun res =>
          ({ acl.newAce newAceid update with resources := [res] }, true) := rfl
  simp only [ocSecAclUpdateRes, findOrAddAce, absent, addResource, addAce,
    List.getElem?_concat_length, empty]
  cases ocSecAddNewAceRes update.href update.wildcard with
  | none => simp [List.eraseIdx_append_of_length_le]
  | some res => simp [newAce]

theorem Acl.getElem?_of_findIdx?
    (found : acl.aces.findIdx? update.query.accepts = some index) :
    ∃ ace, acl.aces[index]? = some ace ∧
      ocSecAceFindSubject acl.aces update.query = some ace := by
  obtain ⟨bound, -⟩ := List.findIdx?_eq_some_iff_getElem.mp found
  refine ⟨acl.aces[index], List.getElem?_eq_getElem bound, ?_⟩
  rw [ocSecAceFindSubject, List.find?_eq_bind_findIdx?_getElem?, found,
    Option.bind_some, List.getElem?_eq_getElem bound]

theorem Acl.mem_ocSecAclUpdateRes
    (member : ace ∈ (acl.ocSecAclUpdateRes newAceid update).1.aces) :
    ace ∈ acl.aces ∨ ∃ base res,
      (ocSecAceFindSubject acl.aces update.query = some base ∨
        base = acl.newAce newAceid update) ∧
      acl.Adds update ∧
      ocSecAddNewAceRes update.href update.wildcard = some res ∧
      ace = { base with resources := base.resources ++ [res] } := by
  unfold Adds
  cases found : acl.aces.findIdx? update.query.accepts with
  | none =>
      have absent : ocSecAceFindSubject acl.aces update.query = none := by
        rw [ocSecAceFindSubject, List.find?_eq_bind_findIdx?_getElem?, found,
          Option.bind_none]
      rw [ocSecAclUpdateRes_of_absent found] at member
      rw [absent]
      cases added : ocSecAddNewAceRes update.href update.wildcard with
      | none =>
          rw [added] at member
          exact .inl member
      | some res =>
          rw [added] at member
          rcases List.mem_append.mp member with old | new
          · exact .inl old
          · rw [List.mem_singleton] at new
            exact .inr ⟨_, res, .inr rfl, trivial, rfl, new⟩
  | some index =>
      obtain ⟨base, here, first⟩ := getElem?_of_findIdx? found
      rw [ocSecAclUpdateRes_of_found found here] at member
      rw [first]
      unfold ocSecAceGetOrAddRes at member
      cases present : ocSecAceFindResource base update.href
          update.wildcard.bits with
      | some old =>
          rw [present] at member
          rcases List.mem_or_eq_of_mem_set member with other | rfl
          · exact .inl other
          · exact .inl (List.mem_of_getElem? here)
      | none =>
          rw [present] at member
          cases added : ocSecAddNewAceRes update.href update.wildcard with
          | none =>
              rw [added] at member
              exact .inl (List.mem_of_mem_eraseIdx member)
          | some res =>
              rw [added] at member
              rcases List.mem_or_eq_of_mem_set member with other | rfl
              · exact .inl other
              · exact .inr ⟨base, res, .inl rfl, present, rfl, rfl⟩

theorem Acl.unlinkReplaced_cases (acl : Acl) (decode : AceDecode) :
    acl.unlinkReplaced decode = (acl, none) ∨
    ∃ index ace, acl.aces[index]? = some ace ∧ ace.aceid = decode.aceid ∧
      decode.aceid ≠ -1 ∧ acl.unlinkReplaced decode =
        ({ acl with aces := acl.aces.eraseIdx index }, some ace) := by
  unfold unlinkReplaced removeByAceid
  split_ifs with taken
  · cases found : acl.aces.findIdx? (·.aceid == decode.aceid) with
    | none => exact .inl rfl
    | some index =>
        obtain ⟨bound, same, -⟩ := List.findIdx?_eq_some_iff_getElem.mp found
        have here := List.getElem?_eq_getElem bound
        refine .inr ⟨index, acl.aces[index], here, beq_iff_eq.mp same,
          taken.1, ?_⟩
        simp only [here]
  · exact .inl rfl

theorem Acl.mem_unlinkReplaced {decode : AceDecode}
    (member : ace ∈ (acl.unlinkReplaced decode).1.aces) : ace ∈ acl.aces := by
  rcases acl.unlinkReplaced_cases decode with same | ⟨index, other, -, -, -, same⟩
  · rw [same] at member
    exact member
  · rw [same] at member
    exact List.mem_of_mem_eraseIdx member

end Updates

private theorem decodeAclEntries_of_admitted {newAceid : NewAceid} {rep : Rep}
    {state : AclDecode}
    (admitted : ∀ entry ∈ rep, aclForbidden .rfnop entry = false) :
    decodeAclEntries newAceid rep state = (true, state) := by
  induction rep with
  | nil => rfl
  | cons entry rep ih =>
      rw [List.forall_mem_cons] at admitted
      obtain ⟨name, value⟩ := entry
      have same : decodeAclEntry newAceid (name, value) state =
          (true, state) := by
        cases value with
        | string value =>
            have other : name ≠ ascii "rowneruuid" := by
              simpa [aclForbidden] using admitted.1
            simp [decodeAclEntry, other]
        | objectArray items => cases admitted.1
        | _ => rfl
      unfold decodeAclEntries
      rw [same]
      exact ih admitted.2

theorem ocSecDecodeAcl_rfnop (newAceid : NewAceid) (rep : Rep) (acl : Acl) :
    (ocSecDecodeAcl newAceid .rfnop false rep acl).2.acl = acl := by
  unfold ocSecDecodeAcl
  cases forbidden : rep.any (aclForbidden .rfnop) with
  | true => rfl
  | false =>
      rw [List.any_eq_false] at forbidden
      rw [decodeAclEntries_of_admitted]
      · rfl
      · intro entry member
        rw [← Bool.not_eq_true]
        exact forbidden entry member

end IotivityLite
