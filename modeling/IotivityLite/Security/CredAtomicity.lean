import IotivityLite.Security.CredIds
import IotivityLite.Security.Device
import IotivityLite.Tls.Roles

/-!
# Failed additions of credentials

An addition that gives the id of a credential takes this one out of the list
first and creates its successor afterwards.  Where the successor cannot be
created, the old one is gone although the call reports an error.  This is the
only way in which a failed addition changes the list.
-/

namespace IotivityLite

/-- Where `oc_sec_add_new_cred` adds to: the credentials of the device, or the
roles of a client. -/
inductive CredTarget where
  | device
  | roles (env : RoleEnv) (peer : RolePeer)

/-- The credentials of a device and the roles of the clients. -/
structure CredLists where
  creds : Creds
  clients : List RolesEntry

section Add

variable (env : CredEnv) (keypair : Option EcdsaKeypair) (deviceuuid : Uuid)
  (decode : CredDecode)

/-- `oc_sec_add_new_cred`; the answer is whether there was no error. -/
def CredLists.add (target : CredTarget) (lists : CredLists) :
    CredLists × Bool :=
  match target with
  | .device =>
      let (creds, credid) :=
        ocSecAddNewCred env keypair deviceuuid decode lists.creds
      ({ lists with creds }, credid.isSome)
  | .roles roleEnv peer =>
      let (clients, _, success) := addRole roleEnv peer decode lists.clients
      ({ lists with clients }, success)

/-- A failed call leaves the credentials of the device as they are. -/
def FailsUnchanged (target : CredTarget) (lists : CredLists) : Prop :=
  (lists.add env keypair deviceuuid decode target).2 = false →
    ((lists.add env keypair deviceuuid decode target).1.creds.creds).Perm
      lists.creds.creds

/-- The checks in front of the first change: the subject and the key pair. -/
def credChecks : Option (Uuid × Option EcdsaKeypair) :=
  (credPublicKey env decode).bind fun publicKey =>
    (ocSecCredSetSubject decode.subjectuuid decode.credusage).bind
      fun subject =>
        (identityKeypair env keypair deviceuuid decode publicKey).map
          fun own => (subject, own)

/-- The rest of `oc_sec_add_new_cred`. -/
def addChecked (creds : Creds) (subject : Uuid) (own : Option EcdsaKeypair) :
    Creds × Option Int :=
  match creds.ocSecGetCredByCredid decode.credid with
  | none => addScanned env creds decode subject own
  | some existing =>
      if ocCredIsDuplicate existing decode subject then
        (creds, some decode.credid)
      else
        addScanned env (creds.ocSecRemoveCred existing) decode subject own

/-- Another credential of the subject has the same certificates, so that
nothing is created. -/
def hasDuplicateChain (subject : Uuid) (creds : List Cred) : Bool :=
  creds.any fun cred =>
    cred.subjectuuid == subject && cred.credtype == decode.credtype &&
      cred.credid != decode.credid && decode.credtype == CredType.cert &&
      secMatchCredWithPublicdata cred decode

/-- There is no memory, the role certificate cannot be parsed, or the private
data is refused. -/
def creationRefused (own : Option EcdsaKeypair) (address : Nat) : Bool :=
  !env.allocCred address || (credRole env decode).isNone ||
    (credPrivatedata own decode).isNone

/-- A credential of the device has the given id and other contents, and its
successor cannot be created. -/
def LosesReplaced (creds : Creds) : Prop :=
  ∃ subject own existing,
    credChecks env keypair deviceuuid decode = some (subject, own) ∧
    creds.ocSecGetCredByCredid decode.credid = some existing ∧
    ocCredIsDuplicate existing decode subject = false ∧
    hasDuplicateChain decode subject creds.creds = false ∧
    creationRefused env decode own creds.allocated = true

end Add

section Proofs

variable {env : CredEnv} {keypair : Option EcdsaKeypair} {deviceuuid : Uuid}
  {decode : CredDecode} {creds : Creds} {subject : Uuid}
  {own : Option EcdsaKeypair}

theorem ocSecAddNewCred_of_checks_none
    (refused : credChecks env keypair deviceuuid decode = none) :
    ocSecAddNewCred env keypair deviceuuid decode creds = (creds, none) := by
  unfold ocSecAddNewCred
  cases key : credPublicKey env decode with
  | none => rfl
  | some publicKey =>
      simp only
      split
      · rename_i subject own subject_eq own_eq
        simp [credChecks, key, subject_eq, own_eq] at refused
      · rfl

theorem ocSecAddNewCred_of_checks_some
    (checked : credChecks env keypair deviceuuid decode = some (subject, own)) :
    ocSecAddNewCred env keypair deviceuuid decode creds =
      addChecked env decode creds subject own := by
  simp only [credChecks, Option.bind_eq_some_iff, Option.map_eq_some_iff,
    Prod.mk.injEq] at checked
  obtain ⟨publicKey, key, _, subject_eq, _, own_eq, rfl, rfl⟩ := checked
  simp only [ocSecAddNewCred, key, subject_eq, own_eq]
  rfl

theorem credCreate_none_iff (given : decode.credid ≠ -1) :
    credCreate env creds decode subject own = none ↔
      creationRefused env decode own creds.allocated = true := by
  have credid : credCredid env creds decode = some decode.credid :=
    if_neg given
  unfold credCreate creationRefused
  cases env.allocCred creds.allocated with
  | false => simp
  | true =>
      cases credRole env decode with
      | none => simp
      | some role =>
          cases credPrivatedata own decode with
          | none => simp [credid]
          | some privatedata => simp [credid]

theorem addCreated_none
    (failed : (addCreated env creds decode subject own).2 = none) :
    (addCreated env creds decode subject own).1.creds = creds.creds := by
  unfold addCreated at failed ⊢
  split at failed
  · rfl
  · cases failed

theorem addCreated_eq_none_iff (given : decode.credid ≠ -1) :
    (addCreated env creds decode subject own).2 = none ↔
      creationRefused env decode own creds.allocated = true := by
  rw [← credCreate_none_iff given]
  unfold addCreated
  cases credCreate env creds decode subject own <;> simp

theorem scanSubject_eq_unrelated_iff {list : List Cred}
    (unused : ∀ other ∈ list, other.credid ≠ decode.credid) :
    scanSubject decode subject list = .unrelated ↔
      hasDuplicateChain decode subject list = false := by
  induction list with
  | nil => simp [scanSubject, hasDuplicateChain]
  | cons cred list ih =>
      rw [List.forall_mem_cons] at unused
      have later := ih unused.2
      unfold hasDuplicateChain at later ⊢
      rw [scanSubject, List.any_cons, Bool.or_eq_false_iff, ← later]
      by_cases related :
          cred.subjectuuid = subject ∧ cred.credtype = decode.credtype
      · by_cases chain : decode.credtype = CredType.cert ∧
            secMatchCredWithPublicdata cred decode = true
        · simp [related, chain, unused.1]
        · simp only [related, chain, unused.1, and_self, if_true, if_false]
          have apart : decode.credtype = CredType.cert →
              secMatchCredWithPublicdata cred decode = false := by
            simpa using chain
          simpa [unused.1] using fun _ => apart
      · simp only [related, if_false]
        simp only [Bool.and_eq_false_iff, beq_eq_false_iff_ne]
        tauto

theorem addScanned_unused (env : CredEnv) (subject : Uuid)
    (own : Option EcdsaKeypair)
    (unused : ∀ other ∈ creds.creds, other.credid ≠ decode.credid) :
    addScanned env creds decode subject own =
        addCreated env creds decode subject own ∧
        hasDuplicateChain decode subject creds.creds = false ∨
      (addScanned env creds decode subject own).2 ≠ none ∧
        hasDuplicateChain decode subject creds.creds = true := by
  unfold addScanned
  split
  · rename_i credid scanned
    refine .inr ⟨Option.some_ne_none _, ?_⟩
    rw [← Bool.not_eq_false, ← scanSubject_eq_unrelated_iff unused, scanned]
    simp
  · rename_i scanned
    exact absurd scanned (scanSubject_ne_replaces unused)
  · rename_i scanned
    exact .inl ⟨rfl, (scanSubject_eq_unrelated_iff unused).mp scanned⟩

theorem hasDuplicateChain_remove {existing : Cred} (sound : creds.Sound)
    (found : creds.ocSecGetCredByCredid decode.credid = some existing) :
    hasDuplicateChain decode subject
        (creds.ocSecRemoveCred existing).creds =
      hasDuplicateChain decode subject creds.creds := by
  have member := List.mem_of_find?_eq_some found
  have same : existing.credid = decode.credid := by
    simpa using List.find?_some found
  unfold hasDuplicateChain
  rw [Bool.eq_iff_iff, List.any_eq_true, List.any_eq_true]
  constructor
  · rintro ⟨cred, left, chain⟩
    exact ⟨cred, List.eraseP_subset left, chain⟩
  · rintro ⟨cred, here, chain⟩
    refine ⟨cred, ?_, chain⟩
    refine (mem_eraseP_key_iff sound.addresses).mpr ⟨here, ?_⟩
    intro same_record
    have equal := List.inj_on_of_nodup_map sound.addresses here member
      same_record
    rw [equal] at chain
    simp [same] at chain

theorem not_perm_remove {existing : Cred} {credid : Int}
    (found : creds.ocSecGetCredByCredid credid = some existing) :
    ¬ ((creds.ocSecRemoveCred existing).creds).Perm creds.creds := by
  intro same
  have member := List.mem_of_find?_eq_some found
  have shorter := List.length_eraseP_of_mem (p := (·.address == existing.address))
    member (by simp)
  have equal := same.length_eq
  have positive := List.length_pos_of_mem member
  simp only [Creds.ocSecRemoveCred] at equal
  omega

theorem addScanned_none_of_unused
    (unused : ∀ other ∈ creds.creds, other.credid ≠ decode.credid)
    (failed : (addScanned env creds decode subject own).2 = none) :
    (addScanned env creds decode subject own).1.creds = creds.creds := by
  rcases addScanned_unused env subject own unused with ⟨created, -⟩ | ⟨answered, -⟩
  · rw [created] at failed ⊢
    exact addCreated_none failed
  · exact absurd failed answered

theorem addScanned_none_iff (given : decode.credid ≠ -1)
    (unused : ∀ other ∈ creds.creds, other.credid ≠ decode.credid) :
    (addScanned env creds decode subject own).2 = none ↔
      hasDuplicateChain decode subject creds.creds = false ∧
        creationRefused env decode own creds.allocated = true := by
  rcases addScanned_unused env subject own unused with ⟨created, alone⟩ | ⟨answered, chain⟩
  · rw [created, addCreated_eq_none_iff given, alone]
    simp
  · simp [answered, chain]

theorem ocSecAddNewCred_unchanged_iff (sound : creds.Sound) :
    ((ocSecAddNewCred env keypair deviceuuid decode creds).2 = none →
      ((ocSecAddNewCred env keypair deviceuuid decode creds).1.creds).Perm
        creds.creds) ↔
      ¬ LosesReplaced env keypair deviceuuid decode creds := by
  cases checked : credChecks env keypair deviceuuid decode with
  | none =>
      rw [ocSecAddNewCred_of_checks_none checked]
      simp [LosesReplaced, checked]
  | some pair =>
      obtain ⟨subject, own⟩ := pair
      rw [ocSecAddNewCred_of_checks_some checked]
      unfold addChecked
      cases found : creds.ocSecGetCredByCredid decode.credid with
      | none =>
          have unused := find?_key_none_iff.mp found
          have kept : ¬ LosesReplaced env keypair deviceuuid decode creds := by
            rintro ⟨_, _, _, -, replaced, -⟩
            rw [found] at replaced
            cases replaced
          refine iff_of_true ?_ kept
          intro failed
          rw [addScanned_none_of_unused unused failed]
      | some existing =>
          have member := List.mem_of_find?_eq_some found
          have same : existing.credid = decode.credid := by
            simpa using List.find?_some found
          have given : decode.credid ≠ -1 := by
            rw [← same]
            exact sound.given existing member
          have unused : ∀ other ∈ (creds.ocSecRemoveCred existing).creds,
              other.credid ≠ decode.credid := by
            intro other left
            rw [← same]
            exact sound.credid_ne_of_mem_remove member left
          have loses : LosesReplaced env keypair deviceuuid decode creds ↔
              ocCredIsDuplicate existing decode subject = false ∧
              (addScanned env (creds.ocSecRemoveCred existing) decode subject
                own).2 = none := by
            rw [addScanned_none_iff given unused,
              hasDuplicateChain_remove sound found]
            simp only [LosesReplaced, checked, found, Option.some.injEq,
              Prod.mk.injEq]
            constructor
            · rintro ⟨_, _, _, ⟨rfl, rfl⟩, rfl, lost⟩
              exact lost
            · intro lost
              exact ⟨_, _, _, ⟨rfl, rfl⟩, rfl, lost⟩
          rw [loses]
          cases duplicate : ocCredIsDuplicate existing decode subject with
          | true => simp [duplicate]
          | false =>
              simp only [duplicate, Bool.false_eq_true, if_false, true_and]
              refine imp_congr_right ?_
              intro failed
              rw [addScanned_none_of_unused unused failed]
              exact iff_false_intro (not_perm_remove found)

end Proofs

/-- After any calls, a failed addition leaves the credentials of the device as
they are, unless a credential with the given id is to be replaced, all checks
in front of this pass, and the new credential is refused. -/
theorem failsUnchanged_iff (env : CredEnv) (calls : List CredCall)
    (clients : List RolesEntry) (target : CredTarget)
    (keypair : Option EcdsaKeypair) (deviceuuid : Uuid)
    (decode : CredDecode) :
    let creds := runFrom (Creds.step env) .initial calls
    FailsUnchanged env keypair deviceuuid decode target ⟨creds, clients⟩ ↔
      ¬ (target = .device ∧
        LosesReplaced env keypair deviceuuid decode creds) := by
  intro creds
  have sound : creds.Sound := sound_run env calls
  cases target with
  | device =>
      simp only [true_and]
      rw [← ocSecAddNewCred_unchanged_iff sound]
      unfold FailsUnchanged CredLists.add
      simp only [Option.isSome_eq_false_iff, Option.isNone_iff_eq_none]
  | roles roleEnv peer =>
      simp only [reduceCtorEq, false_and, not_false_eq_true, iff_true]
      intro _
      exact List.Perm.refl _

/-- A symmetric key for anybody. -/
def pskFor (key : Bytes) : CredDecode where
  credid := 1
  credtype := CredType.psk
  subjectuuid := some (ascii "*")
  privatedata := ⟨key, .raw⟩

def longKey : Bytes := List.replicate 16 7

def shortKey : Bytes := List.replicate 5 7

/-- The credential with a key of sixteen bytes is gone after an attempt to
replace the key by one of five bytes. -/
theorem not_failsUnchanged_shortKey :
    ¬ ∀ (env : CredEnv) (calls : List CredCall) (clients : List RolesEntry)
        (target : CredTarget) (keypair : Option EcdsaKeypair)
        (deviceuuid : Uuid) (decode : CredDecode),
      FailsUnchanged env keypair deviceuuid decode target
        ⟨runFrom (Creds.step env) .initial calls, clients⟩ := by
  intro always
  have unchanged := always DeviceEnv.bare.cred
    [.add none Uuid.nil (pskFor longKey)] [] .device none Uuid.nil
    (pskFor shortKey)
  have same := (unchanged (by decide)).length_eq
  revert same
  decide

end IotivityLite
