import IotivityLite.Security.CredAtomicity

/-!
# The roles a client can assert

`oc_roles.c` keeps a list of the roles for which the device has a role
certificate.  A pair of role and authority is entered when such a credential
is created, and it is taken out whenever a credential with the pair is freed,
whatever its type is and whoever else has the pair.
-/

namespace IotivityLite

abbrev RoleId := Bytes × Bytes

/-- The credentials of the device and `g_role_creds`.  `unset` has the
addresses of the records whose authority was never set, which is not the same
as an empty one. -/
structure OwnRoles where
  creds : Creds
  unset : List Nat
  roleCreds : List RoleId
  deriving DecidableEq

/-- The pair for which a role certificate stands. -/
def Cred.ownRole (cred : Cred) : Option RoleId :=
  if cred.credtype = CredType.cert ∧ cred.credusage = .roleCert ∧
      cred.role ≠ [] then some (cred.role, cred.authority)
  else none

namespace OwnRoles

/-- `room` tells if there is memory for one more pair. -/
def ocSecRoleCredAddOrGet (room : Nat → Bool) (pair : RoleId)
    (roleCreds : List RoleId) : List RoleId :=
  if pair ∈ roleCreds then roleCreds
  else if room roleCreds.length then roleCreds ++ [pair]
  else roleCreds

/-- Nothing is found for an authority that is not set. -/
def ocSecRoleCredRemove (pair : Option RoleId) (roleCreds : List RoleId) :
    List RoleId :=
  match pair with
  | none => roleCreds
  | some pair => roleCreds.erase pair

/-- The pair that is taken out when the credential is freed. -/
def freedPair (state : OwnRoles) (cred : Cred) : Option RoleId :=
  if cred.role = [] ∨ cred.address ∈ state.unset then none
  else some (cred.role, cred.authority)

/-- `oc_sec_cred_free`, as far as the pairs are concerned. -/
def free (state : OwnRoles) (pair : Option RoleId) : OwnRoles where
  creds := state.creds
  unset := state.unset
  roleCreds := ocSecRoleCredRemove pair state.roleCreds

/-- `cred_remove_from_device` -/
def unlink (state : OwnRoles) (cred : Cred) : OwnRoles where
  creds := state.creds.ocSecRemoveCred cred
  unset := state.unset
  roleCreds := state.roleCreds

def ocSecRemoveCred (state : OwnRoles) (cred : Cred) : OwnRoles :=
  (state.unlink cred).free (state.freedPair cred)

/-- The first credential that is wanted is removed. -/
def removeFirst (state : OwnRoles) (wanted : Cred → Bool) : OwnRoles :=
  match state.creds.creds.find? wanted with
  | none => state
  | some cred => state.ocSecRemoveCred cred

/-- `oc_sec_cred_clear`; the loop is over the list as it was. -/
def ocSecCredClear (filter : Cred → Bool) : List Cred → OwnRoles → OwnRoles
  | [], state => state
  | cred :: rest, state =>
      ocSecCredClear filter rest
        (if filter cred then state.ocSecRemoveCred cred else state)

section Add

variable (env : CredEnv) (room : Nat → Bool) (decode : CredDecode)

/-- The authority comes from the certificate or from the payload. -/
def lacksAuthority : Bool :=
  decode.credusage != .roleCert &&
    (decode.role.isNone || decode.authority.isNone)

/-- The pair that a record has got from its certificate by the time its
private key is refused. -/
def refusedPair (address : Nat) : Option RoleId :=
  if env.allocCred address && decode.credusage == .roleCert then
    (env.parseRoleCertificate decode.publicdata.data).filter (·.1 ≠ [])
  else none

/-- The pair of a new role certificate is entered. -/
def enterRole (cred : Cred) (roleCreds : List RoleId) : List RoleId :=
  match cred.ownRole with
  | none => roleCreds
  | some pair => ocSecRoleCredAddOrGet room pair roleCreds

/-- The creation of the record and what follows it; a record that is given up
is freed. -/
def addCreated (subject : Uuid) (own : Option EcdsaKeypair)
    (state : OwnRoles) : OwnRoles × Option Int :=
  let result := IotivityLite.addCreated env state.creds decode subject own
  match credCreate env state.creds decode subject own with
  | none =>
      (⟨result.1, state.unset, ocSecRoleCredRemove
        (refusedPair env decode state.creds.allocated) state.roleCreds⟩,
        result.2)
  | some cred =>
      (⟨result.1,
        if lacksAuthority decode then cred.address :: state.unset
        else state.unset,
        enterRole room cred state.roleCreds⟩, result.2)

/-- A credential makes way for another.  It is freed in the end where the
caller wants to see it, and at once elsewhere. -/
def replaceWith (deferred : Bool) (cred : Cred)
    (create : OwnRoles → OwnRoles × Option Int) (state : OwnRoles) :
    OwnRoles × Option Int :=
  if deferred then
    ((create (state.unlink cred)).1.free (state.freedPair cred),
      (create (state.unlink cred)).2)
  else create (state.ocSecRemoveCred cred)

def addScanned (deferred : Bool) (subject : Uuid)
    (own : Option EcdsaKeypair) (state : OwnRoles) :
    OwnRoles × Option Int :=
  match scanSubject decode subject state.creds.creds with
  | .duplicates credid => (state, some credid)
  | .replaces cred =>
      replaceWith deferred cred (addCreated env room decode subject own) state
  | .unrelated => addCreated env room decode subject own state

/-- `oc_sec_add_new_cred`, up to the point where its caller has freed the
credential that was replaced. -/
def ocSecAddNewCred (deferred : Bool) (keypair : Option EcdsaKeypair)
    (deviceuuid : Uuid) (state : OwnRoles) : OwnRoles × Option Int :=
  match credChecks env keypair deviceuuid decode with
  | none => (state, none)
  | some (subject, own) =>
      match state.creds.ocSecGetCredByCredid decode.credid with
      | none => addScanned env room decode deferred subject own state
      | some existing =>
          if ocCredIsDuplicate existing decode subject then
            (state, some decode.credid)
          else
            replaceWith deferred existing
              (addScanned env room decode deferred subject own) state

/-- The pair of a record that was given up, if there was one. -/
def addRefused (keypair : Option EcdsaKeypair) (deviceuuid : Uuid)
    (creds : Creds) : Option RoleId :=
  if (credChecks env keypair deviceuuid decode).isSome &&
      (IotivityLite.ocSecAddNewCred env keypair deviceuuid decode
        creds).2.isNone then
    refusedPair env decode creds.allocated
  else none

end Add

end OwnRoles

/-- What changes the credentials of the device.  An entry of a payload is
added by `add`; the other callers of `oc_sec_add_new_cred` give no id and do
not ask for what is replaced.  `set` is what is written to a credential that is
in the list. -/
inductive OwnRolesCall where
  | add (keypair : Option EcdsaKeypair) (deviceuuid : Uuid)
      (decode : CredDecode)
  | addNew (keypair : Option EcdsaKeypair) (deviceuuid : Uuid)
      (decode : CredDecode)
  | remove (wanted : Cred → Bool)
  | clear (filter : Cred → Bool)
  | set (address : Nat) (privatedata : EncodedData)
      (oscore : Option OscoreParams) (ownerCred : Bool)

/-- `oc_sec_add_new_cred` without an id. -/
def CredDecode.withoutId (decode : CredDecode) : CredDecode :=
  { decode with credid := -1 }

/-- What is set on a credential after it has been created. -/
def Cred.setData (privatedata : EncodedData) (oscore : Option OscoreParams)
    (ownerCred : Bool) (cred : Cred) : Cred :=
  { cred with
    privatedata := privatedata
    oscore := oscore
    ownerCred := ownerCred }

namespace OwnRoles

section Step

variable (env : CredEnv) (room : Nat → Bool)

def step (state : OwnRoles) : OwnRolesCall → OwnRoles
  | .add keypair deviceuuid decode =>
      (ocSecAddNewCred env room decode true keypair deviceuuid state).1
  | .addNew keypair deviceuuid decode =>
      (ocSecAddNewCred env room decode.withoutId false keypair deviceuuid
        state).1
  | .remove wanted => state.removeFirst wanted
  | .clear filter => ocSecCredClear filter state.creds.creds state
  | .set address privatedata oscore ownerCred =>
      ⟨state.creds.update address
          (Cred.setData privatedata oscore ownerCred),
        state.unset, state.roleCreds⟩

/-- The credentials after a call, as the credential list alone has them. -/
def credsAfter (creds : Creds) : OwnRolesCall → Creds
  | .add keypair deviceuuid decode =>
      (IotivityLite.ocSecAddNewCred env keypair deviceuuid decode creds).1
  | .addNew keypair deviceuuid decode =>
      (IotivityLite.ocSecAddNewCred env keypair deviceuuid decode.withoutId
        creds).1
  | .remove wanted =>
      match creds.creds.find? wanted with
      | none => creds
      | some cred => creds.ocSecRemoveCred cred
  | .clear filter => Creds.ocSecCredClear filter creds.creds creds
  | .set address privatedata oscore ownerCred =>
      creds.update address (Cred.setData privatedata oscore ownerCred)

/-- The pair of a record that the call gives up. -/
def refusedBy (creds : Creds) : OwnRolesCall → Option RoleId
  | .add keypair deviceuuid decode =>
      addRefused env decode keypair deviceuuid creds
  | .addNew keypair deviceuuid decode =>
      addRefused env decode.withoutId keypair deviceuuid creds
  | _ => none

end Step

/-- The pairs for which a credential of the list stands. -/
def heldRoles (creds : Creds) : List RoleId :=
  creds.creds.filterMap Cred.ownRole

/-- The list has the pairs of the role certificates, each of them once. -/
structure Agree (state : OwnRoles) : Prop where
  pairs : ∀ pair, pair ∈ state.roleCreds ↔ pair ∈ heldRoles state.creds
  once : state.roleCreds.Nodup

/-- The record is none of the list. -/
def Gone (creds : Creds) (cred : Cred) : Prop :=
  ∀ other ∈ creds.creds, other.address ≠ cred.address

/-- No record that is freed has the pair of a role certificate that is in the
list afterwards, and a new pair finds memory. -/
structure Careful (room : Nat → Bool) (state : OwnRoles)
    (refused : Option RoleId) (after : Creds) : Prop where
  freed : ∀ cred ∈ state.creds.creds, Gone after cred →
    ∀ pair, state.freedPair cred = some pair → pair ∉ heldRoles after
  refused : ∀ pair, refused = some pair → pair ∉ heldRoles after
  room : ∀ cred ∈ after.creds, Gone state.creds cred →
    ∀ pair, cred.ownRole = some pair →
      pair ∈ state.roleCreds ∨ room state.roleCreds.length = true

/-- The call is careful with the credentials it finds. -/
def CarefulCall (env : CredEnv) (room : Nat → Bool) (state : OwnRoles)
    (call : OwnRolesCall) : Prop :=
  state.Careful room (refusedBy env state.creds call)
    (credsAfter env state.creds call)

/-- Records are told apart, and the authority of a role certificate is set. -/
structure WellKept (state : OwnRoles) : Prop where
  sound : state.creds.Sound
  bounded : ∀ address ∈ state.unset, address < state.creds.allocated
  set : ∀ cred ∈ state.creds.creds, cred.credusage = .roleCert →
    cred.address ∉ state.unset

section Projection

variable {env : CredEnv} {room : Nat → Bool} {decode : CredDecode}
  {subject : Uuid} {own : Option EcdsaKeypair} {deferred : Bool}

theorem creds_addCreated (state : OwnRoles) :
    ((addCreated env room decode subject own state).1.creds,
        (addCreated env room decode subject own state).2) =
      IotivityLite.addCreated env state.creds decode subject own := by
  unfold addCreated
  cases credCreate env state.creds decode subject own with
  | none => rfl
  | some cred => rfl

theorem creds_replaceWith {cred : Cred}
    {create : OwnRoles → OwnRoles × Option Int}
    {other : Creds → Creds × Option Int}
    (same : ∀ state, ((create state).1.creds, (create state).2) =
      other state.creds) (state : OwnRoles) :
    ((replaceWith deferred cred create state).1.creds,
        (replaceWith deferred cred create state).2) =
      other (state.creds.ocSecRemoveCred cred) := by
  unfold replaceWith
  cases deferred with
  | false => exact same (state.ocSecRemoveCred cred)
  | true => exact same (state.unlink cred)

theorem creds_addScanned (state : OwnRoles) :
    ((addScanned env room decode deferred subject own state).1.creds,
        (addScanned env room decode deferred subject own state).2) =
      IotivityLite.addScanned env state.creds decode subject own := by
  unfold addScanned IotivityLite.addScanned
  cases scanSubject decode subject state.creds.creds with
  | unrelated => exact creds_addCreated state
  | replaces cred =>
      exact @creds_replaceWith deferred cred _
        (fun creds => IotivityLite.addCreated env creds decode subject own)
        creds_addCreated state
  | duplicates credid => rfl

theorem creds_ocSecAddNewCred {keypair : Option EcdsaKeypair}
    {deviceuuid : Uuid} (state : OwnRoles) :
    ((ocSecAddNewCred env room decode deferred keypair deviceuuid
          state).1.creds,
        (ocSecAddNewCred env room decode deferred keypair deviceuuid
          state).2) =
      IotivityLite.ocSecAddNewCred env keypair deviceuuid decode
        state.creds := by
  unfold ocSecAddNewCred
  cases checked : credChecks env keypair deviceuuid decode with
  | none => rw [ocSecAddNewCred_of_checks_none checked]
  | some checks =>
      obtain ⟨subject, own⟩ := checks
      rw [ocSecAddNewCred_of_checks_some checked]
      unfold addChecked
      cases state.creds.ocSecGetCredByCredid decode.credid with
      | none => exact creds_addScanned state
      | some existing =>
          simp only
          split
          · rfl
          · exact @creds_replaceWith deferred existing _
              (fun creds => IotivityLite.addScanned env creds decode subject
                own) creds_addScanned state

theorem creds_ocSecCredClear (filter : Cred → Bool) (rest : List Cred) :
    ∀ state : OwnRoles, (ocSecCredClear filter rest state).creds =
      Creds.ocSecCredClear filter rest state.creds := by
  induction rest with
  | nil => exact fun _ => rfl
  | cons cred rest ih =>
      intro state
      rw [ocSecCredClear, Creds.ocSecCredClear, ih]
      split <;> rfl

theorem creds_step (state : OwnRoles) (call : OwnRolesCall) :
    (state.step env room call).creds = credsAfter env state.creds call := by
  cases call with
  | add keypair deviceuuid decode =>
      exact congrArg Prod.fst (creds_ocSecAddNewCred state)
  | addNew keypair deviceuuid decode =>
      exact congrArg Prod.fst (creds_ocSecAddNewCred state)
  | remove wanted =>
      simp only [step, credsAfter, removeFirst]
      cases state.creds.creds.find? wanted with
      | none => rfl
      | some cred => rfl
  | clear filter => exact creds_ocSecCredClear filter _ state
  | set address privatedata oscore ownerCred => rfl

end Projection

variable {pair : RoleId} {creds : Creds}

theorem mem_heldRoles :
    pair ∈ heldRoles creds ↔
      ∃ cred ∈ creds.creds, cred.ownRole = some pair :=
  List.mem_filterMap

variable {cred : Cred}

theorem freedPair_of_ownRole {state : OwnRoles} (kept : state.WellKept)
    (member : cred ∈ state.creds.creds) (own : cred.ownRole = some pair) :
    state.freedPair cred = some pair := by
  unfold Cred.ownRole at own
  split_ifs at own with certificate
  obtain ⟨-, usage, named⟩ := certificate
  have known := kept.set cred member usage
  unfold freedPair
  rw [if_neg (by simp [named, known])]
  exact own

/-- Some records are freed, at most one is created, and at most one is given
up. -/
structure Changes (room : Nat → Bool) (before after : OwnRoles)
    (removed : List Cred) (created : Option Cred)
    (refused : Option RoleId) : Prop where
  creds : ∀ cred, cred ∈ after.creds.creds ↔
    (cred ∈ before.creds.creds ∧
      ∀ gone ∈ removed, cred.address ≠ gone.address) ∨ created = some cred
  found : ∀ gone ∈ removed, gone ∈ before.creds.creds
  fresh : ∀ cred, created = some cred → Gone before.creds cred
  roles : ∀ pair, pair ∈ after.roleCreds ↔
    (pair ∈ before.roleCreds ∨
      (room before.roleCreds.length = true ∧
        created.bind Cred.ownRole = some pair)) ∧
      (∀ gone ∈ removed, before.freedPair gone ≠ some pair) ∧
      refused ≠ some pair
  once : after.roleCreds.Nodup

namespace Changes

variable {room : Nat → Bool} {before after : OwnRoles}
  {removed : List Cred} {created : Option Cred} {refused : Option RoleId}

theorem gone_iff (changes : Changes room before after removed created refused)
    (kept : before.WellKept) (member : cred ∈ before.creds.creds) :
    Gone after.creds cred ↔ cred ∈ removed := by
  constructor
  · intro gone
    by_contra left
    refine gone cred ((changes.creds cred).mpr (.inl ⟨member, ?_⟩)) rfl
    intro other out same
    have equal := List.inj_on_of_nodup_map kept.sound.addresses member
      (changes.found other out) same
    exact left (equal ▸ out)
  · intro out other here
    rcases (changes.creds other).mp here with ⟨-, apart⟩ | new
    · exact apart cred out
    · exact fun same => changes.fresh other new cred member same.symm

theorem agree_iff (changes : Changes room before after removed created refused)
    (kept : before.WellKept) (agree : before.Agree) :
    after.Agree ↔ before.Careful room refused after.creds := by
  constructor
  · intro still
    refine ⟨?_, ?_, ?_⟩
    · intro cred member gone pair freed held
      have listed := (changes.roles pair).mp ((still.pairs pair).mpr held)
      exact listed.2.1 cred ((changes.gone_iff kept member).mp gone) freed
    · intro pair given held
      exact ((changes.roles pair).mp ((still.pairs pair).mpr held)).2.2 given
    · intro cred here new pair own
      have held := mem_heldRoles.mpr ⟨cred, here, own⟩
      have listed := (changes.roles pair).mp ((still.pairs pair).mpr held)
      exact listed.1.imp_right And.left
  · intro careful
    refine ⟨fun pair => ?_, changes.once⟩
    rw [changes.roles pair]
    constructor
    · rintro ⟨listed, notFreed, -⟩
      rcases listed with old | ⟨-, own⟩
      · obtain ⟨cred, member, own⟩ :=
          mem_heldRoles.mp ((agree.pairs pair).mp old)
        refine mem_heldRoles.mpr ⟨cred, ?_, own⟩
        refine (changes.creds cred).mpr (.inl ⟨member, ?_⟩)
        intro gone out same
        have equal := List.inj_on_of_nodup_map kept.sound.addresses member
          (changes.found gone out) same
        exact notFreed gone out
          (equal ▸ freedPair_of_ownRole kept member own)
      · obtain ⟨cred, new, own⟩ := Option.bind_eq_some_iff.mp own
        exact mem_heldRoles.mpr
          ⟨cred, (changes.creds cred).mpr (.inr new), own⟩
    · intro held
      refine ⟨?_, ?_, fun given => careful.refused pair given held⟩
      · obtain ⟨cred, here, own⟩ := mem_heldRoles.mp held
        rcases (changes.creds cred).mp here with ⟨old, -⟩ | new
        · exact .inl ((agree.pairs pair).mpr
            (mem_heldRoles.mpr ⟨cred, old, own⟩))
        · refine (careful.room cred here (changes.fresh cred new) pair
            own).imp_right fun space => ⟨space, ?_⟩
          rw [new]
          exact own
      · intro gone out freed
        have member := changes.found gone out
        exact careful.freed gone member
          ((changes.gone_iff kept member).mpr out) pair freed held

end Changes

section Calls

variable {env : CredEnv} {room : Nat → Bool} {state : OwnRoles}

theorem mem_ocSecRoleCredRemove {pair : RoleId} {taken : Option RoleId}
    {roleCreds : List RoleId} (once : roleCreds.Nodup) :
    pair ∈ ocSecRoleCredRemove taken roleCreds ↔
      pair ∈ roleCreds ∧ taken ≠ some pair := by
  cases taken with
  | none => simp [ocSecRoleCredRemove]
  | some other =>
      rw [ocSecRoleCredRemove, once.mem_erase_iff, and_comm]
      refine and_congr_right fun _ => ?_
      simp [eq_comm]

variable {roleCreds : List RoleId}

theorem nodup_ocSecRoleCredRemove {taken : Option RoleId}
    (once : roleCreds.Nodup) : (ocSecRoleCredRemove taken roleCreds).Nodup := by
  cases taken with
  | none => exact once
  | some other => exact once.erase other

theorem mem_ocSecRoleCredAddOrGet {pair given : RoleId} :
    pair ∈ ocSecRoleCredAddOrGet room given roleCreds ↔
      pair ∈ roleCreds ∨ room roleCreds.length = true ∧ given = pair := by
  unfold ocSecRoleCredAddOrGet
  split_ifs with known space
  · constructor
    · exact .inl
    · rintro (old | ⟨-, rfl⟩)
      · exact old
      · exact known
  · simp [space, eq_comm]
  · simp [space]

theorem nodup_ocSecRoleCredAddOrGet {given : RoleId} (once : roleCreds.Nodup) :
    (ocSecRoleCredAddOrGet room given roleCreds).Nodup := by
  unfold ocSecRoleCredAddOrGet
  split_ifs with known
  · exact once
  · rw [List.nodup_append_comm, List.singleton_append, List.nodup_cons]
    exact ⟨known, once⟩
  · exact once

theorem mem_enterRole :
    pair ∈ enterRole room cred roleCreds ↔
      pair ∈ roleCreds ∨
        room roleCreds.length = true ∧ cred.ownRole = some pair := by
  unfold enterRole
  cases cred.ownRole with
  | none => simp
  | some given =>
      rw [Option.some.injEq]
      exact mem_ocSecRoleCredAddOrGet

theorem nodup_enterRole (once : roleCreds.Nodup) :
    (enterRole room cred roleCreds).Nodup := by
  unfold enterRole
  cases cred.ownRole with
  | none => exact once
  | some given => exact nodup_ocSecRoleCredAddOrGet once

theorem changes_refl (once : state.roleCreds.Nodup) :
    Changes room state state [] none none where
  creds := by simp
  found := by simp
  fresh := by simp
  roles := by simp
  once := once

theorem mem_unlink {cred other : Cred} (sound : state.creds.Sound) :
    other ∈ (state.unlink cred).creds.creds ↔
      other ∈ state.creds.creds ∧ other.address ≠ cred.address :=
  mem_eraseP_key_iff sound.addresses

theorem changes_remove (kept : state.WellKept) (once : state.roleCreds.Nodup)
    (member : cred ∈ state.creds.creds) :
    Changes room state (state.ocSecRemoveCred cred) [cred] none none where
  creds := fun other => by
    rw [List.forall_mem_singleton, or_iff_left (by simp)]
    exact mem_unlink kept.sound
  found := by simpa using member
  fresh := by simp
  roles := fun pair => by
    simp only [Option.bind_none, reduceCtorEq, and_false, or_false,
      List.forall_mem_singleton, ne_eq, not_false_eq_true, and_true]
    exact mem_ocSecRoleCredRemove once
  once := nodup_ocSecRoleCredRemove once

/-- What is created after a credential was unlinked, which is freed in the
end. -/
theorem Changes.deferred {after : OwnRoles} {created : Option Cred}
    {refused : Option RoleId} (kept : state.WellKept)
    (member : cred ∈ state.creds.creds)
    (changes : Changes room (state.unlink cred) after [] created refused)
    (new : ∀ other, created = some other → Gone state.creds other) :
    Changes room state (after.free (state.freedPair cred)) [cred] created
      refused where
  creds := fun other => by
    have inner := changes.creds other
    simp only [List.not_mem_nil, false_implies, implies_true,
      and_true] at inner
    rw [List.forall_mem_singleton, ← mem_unlink kept.sound]
    exact inner
  found := by simpa using member
  fresh := new
  roles := fun pair => by
    rw [List.forall_mem_singleton]
    have inner := changes.roles pair
    have taken := @mem_ocSecRoleCredRemove pair (state.freedPair cred)
      after.roleCreds changes.once
    simp only [List.not_mem_nil, false_implies, implies_true,
      true_and] at inner
    refine taken.trans ?_
    rw [inner, and_assoc]
    exact and_congr_right fun _ => and_comm
  once := nodup_ocSecRoleCredRemove changes.once

/-- A removal in front of further removals. -/
theorem Changes.after_remove {after : OwnRoles} {removed : List Cred}
    (kept : state.WellKept) (once : state.roleCreds.Nodup)
    (member : cred ∈ state.creds.creds)
    (changes : Changes room (state.ocSecRemoveCred cred) after removed none
      none) :
    Changes room state after (cred :: removed) none none where
  creds := fun other => by
    have first := @mem_unlink state cred other kept.sound
    have later := changes.creds other
    rw [List.forall_mem_cons, ← and_assoc, ← first]
    exact later
  found := by
    rw [List.forall_mem_cons]
    exact ⟨member, fun gone out =>
      ((mem_unlink kept.sound).mp (changes.found gone out)).1⟩
  fresh := by simp
  roles := fun pair => by
    have first := @mem_ocSecRoleCredRemove pair (state.freedPair cred)
      state.roleCreds once
    have later := changes.roles pair
    simp only [Option.bind_none, reduceCtorEq, and_false, or_false, ne_eq,
      not_false_eq_true, and_true, List.forall_mem_cons] at later ⊢
    rw [later, ← and_assoc]
    exact and_congr_left fun _ => first
  once := changes.once

theorem WellKept.unlink (kept : state.WellKept) (cred : Cred) :
    (state.unlink cred).WellKept where
  sound := kept.sound.remove cred
  bounded := kept.bounded
  set := fun other left =>
    kept.set other (List.eraseP_subset left)

theorem WellKept.free (kept : state.WellKept) (pair : Option RoleId) :
    (state.free pair).WellKept :=
  ⟨kept.sound, kept.bounded, kept.set⟩

theorem changes_ocSecCredClear (filter : Cred → Bool) (rest : List Cred) :
    ∀ state : OwnRoles, state.WellKept → state.roleCreds.Nodup →
      (rest.map (·.address)).Nodup →
      (∀ cred ∈ rest, cred ∈ state.creds.creds) →
      Changes room state (ocSecCredClear filter rest state)
        (rest.filter filter) none none := by
  induction rest with
  | nil => exact fun _ _ once _ _ => changes_refl once
  | cons cred rest ih =>
      intro state kept once distinct inside
      rw [List.map_cons, List.nodup_cons] at distinct
      rw [List.forall_mem_cons] at inside
      unfold ocSecCredClear
      by_cases wanted : filter cred = true
      · rw [List.filter_cons_of_pos wanted, if_pos wanted]
        refine .after_remove kept once inside.1 (ih _
          ((kept.unlink cred).free _) (nodup_ocSecRoleCredRemove once)
          distinct.2 ?_)
        intro other later
        refine (mem_unlink kept.sound).mpr ⟨inside.2 other later, ?_⟩
        intro same
        exact distinct.1 (List.mem_map.mpr ⟨other, later, same⟩)
      · rw [List.filter_cons_of_neg wanted, if_neg wanted]
        exact ih state kept once distinct.2 inside.2

section Add

variable {decode : CredDecode} {subject : Uuid} {own : Option EcdsaKeypair}
  {deferred : Bool}

theorem gone_of_allocated (sound : state.creds.Sound)
    (address : cred.address = state.creds.allocated) :
    Gone state.creds cred := by
  intro other member same
  have below := sound.allocated other member
  omega

theorem changes_addCreated (kept : state.WellKept)
    (once : state.roleCreds.Nodup) :
    ∃ created,
      Changes room state (addCreated env room decode subject own state).1 []
        created
        (if (addCreated env room decode subject own state).2.isNone then
            refusedPair env decode state.creds.allocated
          else none) ∧
        ∀ cred, created = some cred →
          cred.address = state.creds.allocated := by
  refine ⟨credCreate env state.creds decode subject own, ?_,
    fun cred new => (credCreate_some new).1⟩
  have fresh : ∀ cred,
      credCreate env state.creds decode subject own = some cred →
        Gone state.creds cred := fun cred new =>
    gone_of_allocated kept.sound (credCreate_some new).1
  have result : (addCreated env room decode subject own state).2 =
      (credCreate env state.creds decode subject own).map (·.credid) := by
    have same := congrArg Prod.snd
      (@creds_addCreated env room decode subject own state)
    refine same.trans ?_
    unfold IotivityLite.addCreated
    cases credCreate env state.creds decode subject own <;> rfl
  rw [result]
  unfold addCreated IotivityLite.addCreated
  cases created : credCreate env state.creds decode subject own with
  | none =>
      rw [created] at fresh
      refine ⟨by simp, by simp, fresh, fun pair => ?_,
        nodup_ocSecRoleCredRemove once⟩
      simp only [Option.bind_none, reduceCtorEq, and_false, or_false,
        List.not_mem_nil, false_implies, implies_true, true_and,
        Option.map_none, Option.isNone_none, if_true]
      exact mem_ocSecRoleCredRemove once
  | some cred =>
      rw [created] at fresh
      refine ⟨?_, by simp, fresh, fun pair => ?_, nodup_enterRole once⟩
      · intro other
        simp [eq_comm]
      · simp only [Option.bind_some, List.not_mem_nil, false_implies,
          implies_true, Option.map_some, Option.isNone_some,
          Bool.false_eq_true, if_false, ne_eq, reduceCtorEq,
          not_false_eq_true, and_true]
        exact mem_enterRole

theorem changes_addScanned (kept : state.WellKept)
    (once : state.roleCreds.Nodup)
    (unused : ∀ other ∈ state.creds.creds, other.credid ≠ decode.credid) :
    ∃ created,
      Changes room state
        (addScanned env room decode deferred subject own state).1 [] created
        (if (addScanned env room decode deferred subject own
            state).2.isNone then
            refusedPair env decode state.creds.allocated
          else none) ∧
        ∀ cred, created = some cred →
          cred.address = state.creds.allocated := by
  unfold addScanned
  cases scanned : scanSubject decode subject state.creds.creds with
  | unrelated => exact changes_addCreated kept once
  | replaces cred => exact absurd scanned (scanSubject_ne_replaces unused)
  | duplicates credid =>
      exact ⟨none, changes_refl once, fun _ new => absurd new (by simp)⟩

theorem changes_ocSecAddNewCred {keypair : Option EcdsaKeypair}
    {deviceuuid : Uuid} (kept : state.WellKept)
    (once : state.roleCreds.Nodup)
    (told : deferred = true ∨ decode.credid = -1) :
    ∃ removed created, Changes room state
      (ocSecAddNewCred env room decode deferred keypair deviceuuid state).1
      removed created
      (addRefused env decode keypair deviceuuid state.creds) := by
  have same := congrArg Prod.snd (@creds_ocSecAddNewCred env room decode
    deferred keypair deviceuuid state)
  unfold addRefused
  rw [← same]
  unfold ocSecAddNewCred
  cases credChecks env keypair deviceuuid decode with
  | none => exact ⟨[], none, changes_refl once⟩
  | some checks =>
      obtain ⟨subject, own⟩ := checks
      simp only [Option.isSome_some, Bool.true_and]
      cases found : state.creds.ocSecGetCredByCredid decode.credid with
      | none =>
          obtain ⟨created, changes, -⟩ := @changes_addScanned env room state
            decode subject own deferred kept once
            (find?_key_none_iff.mp found)
          exact ⟨[], created, changes⟩
      | some existing =>
          have member := List.mem_of_find?_eq_some found
          have sameId : existing.credid = decode.credid := by
            simpa using List.find?_some found
          have asked : deferred = true := by
            refine told.resolve_right fun missing => ?_
            exact kept.sound.given existing member (sameId.trans missing)
          subst asked
          by_cases duplicate : ocCredIsDuplicate existing decode subject = true
          · simp only [duplicate, if_true]
            exact ⟨[], none, changes_refl once⟩
          · simp only [duplicate, Bool.false_eq_true, if_false]
            obtain ⟨created, changes, address⟩ := @changes_addScanned env room
              (state.unlink existing) decode subject own true
              (kept.unlink existing) once
              (fun other left => by
                rw [← sameId]
                exact kept.sound.credid_ne_of_mem_remove member left)
            exact ⟨[existing], created, changes.deferred kept member
              fun other new => gone_of_allocated kept.sound
                (address other new)⟩

theorem credusage_of_credCreate
    (created : credCreate env creds decode subject own = some cred) :
    cred.credusage = decode.credusage := by
  unfold credCreate at created
  split at created
  · simp only [Option.bind_eq_some_iff, Option.map_eq_some_iff] at created
    obtain ⟨role, -, credid, -, privatedata, -, rfl⟩ := created
    rfl
  · cases created

section

variable (kept : state.WellKept)

include kept

theorem bounded_addCreated :
    ∀ address ∈ (addCreated env room decode subject own state).1.unset,
      address < (addCreated env room decode subject own
        state).1.creds.allocated := by
  unfold addCreated IotivityLite.addCreated
  cases created : credCreate env state.creds decode subject own with
  | none =>
      exact fun address member =>
        Nat.lt_succ_of_lt (kept.bounded address member)
  | some cred =>
      have allocated := (credCreate_some created).1
      intro address member
      simp only at member ⊢
      split_ifs at member
      · rcases List.mem_cons.mp member with rfl | old
        · omega
        · exact Nat.lt_succ_of_lt (kept.bounded address old)
      · exact Nat.lt_succ_of_lt (kept.bounded address member)

theorem set_addCreated :
    ∀ other ∈ (addCreated env room decode subject own state).1.creds.creds,
      other.credusage = .roleCert →
      other.address ∉
        (addCreated env room decode subject own state).1.unset := by
  unfold addCreated IotivityLite.addCreated
  cases created : credCreate env state.creds decode subject own with
  | none => exact kept.set
  | some cred =>
      have allocated := (credCreate_some created).1
      have usage := credusage_of_credCreate created
      have fresh : cred.address ∉ state.unset := fun old => by
        have below := kept.bounded cred.address old
        omega
      intro other member certificate
      simp only at member ⊢
      rcases List.mem_append.mp member with old | new
      · have known := kept.set other old certificate
        have below := kept.sound.allocated other old
        split_ifs
        · rw [List.mem_cons, not_or]
          exact ⟨by omega, known⟩
        · exact known
      · rw [List.mem_singleton.mp new] at certificate ⊢
        rw [usage] at certificate
        rw [if_neg (by simp [lacksAuthority, certificate])]
        exact fresh

theorem WellKept.addCreated
    (unused : ∀ other ∈ state.creds.creds, other.credid ≠ decode.credid) :
    (addCreated env room decode subject own state).1.WellKept := by
  refine ⟨?_, bounded_addCreated kept, set_addCreated kept⟩
  have same : (OwnRoles.addCreated env room decode subject own
      state).1.creds = (IotivityLite.addCreated env state.creds decode subject
        own).1 :=
    congrArg Prod.fst (creds_addCreated state)
  rw [same]
  exact sound_addCreated kept.sound unused

theorem WellKept.addScanned
    (unused : ∀ other ∈ state.creds.creds, other.credid ≠ decode.credid) :
    (addScanned env room decode deferred subject own state).1.WellKept := by
  unfold OwnRoles.addScanned
  cases scanned : scanSubject decode subject state.creds.creds with
  | unrelated => exact kept.addCreated unused
  | replaces cred => exact absurd scanned (scanSubject_ne_replaces unused)
  | duplicates credid => exact kept

theorem WellKept.ocSecAddNewCred {keypair : Option EcdsaKeypair}
    {deviceuuid : Uuid} :
    (ocSecAddNewCred env room decode deferred keypair deviceuuid
      state).1.WellKept := by
  unfold OwnRoles.ocSecAddNewCred
  cases credChecks env keypair deviceuuid decode with
  | none => exact kept
  | some checks =>
      simp only
      cases found : state.creds.ocSecGetCredByCredid decode.credid with
      | none => exact kept.addScanned (find?_key_none_iff.mp found)
      | some existing =>
          have member := List.mem_of_find?_eq_some found
          have sameId : existing.credid = decode.credid := by
            simpa using List.find?_some found
          have unlinked := kept.unlink existing
          have unused : ∀ other ∈ (state.unlink existing).creds.creds,
              other.credid ≠ decode.credid := fun other left =>
            sameId ▸ kept.sound.credid_ne_of_mem_remove member left
          simp only
          split_ifs
          · exact kept
          · unfold replaceWith
            cases deferred with
            | false => exact (unlinked.free _).addScanned unused
            | true => exact (unlinked.addScanned unused).free _

end

end Add

theorem WellKept.ocSecCredClear (filter : Cred → Bool) (rest : List Cred) :
    ∀ state : OwnRoles, state.WellKept →
      (ocSecCredClear filter rest state).WellKept := by
  induction rest with
  | nil => exact fun _ kept => kept
  | cons cred rest ih =>
      intro state kept
      refine ih _ ?_
      split
      · exact (kept.unlink cred).free _
      · exact kept

section Set

variable (address : Nat) (privatedata : EncodedData)
  (oscore : Option OscoreParams) (ownerCred : Bool)

theorem exists_mem_update (member : cred ∈ creds.creds) :
    ∃ other ∈ (creds.update address
        (Cred.setData privatedata oscore ownerCred)).creds,
      other.address = cred.address := by
  refine ⟨_, List.mem_map.mpr ⟨cred, member, rfl⟩, ?_⟩
  split <;> rfl

theorem exists_mem_of_update
    (member : cred ∈ (creds.update address
      (Cred.setData privatedata oscore ownerCred)).creds) :
    ∃ other ∈ creds.creds, other.address = cred.address ∧
      other.credusage = cred.credusage := by
  obtain ⟨other, old, rfl⟩ := List.mem_map.mp member
  refine ⟨other, old, ?_⟩
  split <;> exact ⟨rfl, rfl⟩

theorem heldRoles_update (creds : Creds) :
    heldRoles (creds.update address
      (Cred.setData privatedata oscore ownerCred)) = heldRoles creds := by
  unfold heldRoles Creds.update
  rw [List.filterMap_map]
  apply List.filterMap_congr
  intro cred _
  rw [Function.comp_apply]
  split <;> rfl

theorem WellKept.set_step (kept : state.WellKept) :
    (state.step env room
      (.set address privatedata oscore ownerCred)).WellKept where
  sound := kept.sound.update (fun _ => rfl) (fun _ => rfl)
  bounded := kept.bounded
  set := fun cred member certificate => by
    obtain ⟨other, old, address, usage⟩ :=
      exists_mem_of_update _ _ _ _ member
    rw [← address]
    exact kept.set other old (usage.trans certificate)

theorem agree_set_iff (agree : state.Agree) :
    (state.step env room (.set address privatedata oscore
        ownerCred)).Agree ↔
      CarefulCall env room state
        (.set address privatedata oscore ownerCred) := by
  have held := heldRoles_update address privatedata oscore ownerCred
    state.creds
  have stays : (state.step env room (.set address privatedata oscore
      ownerCred)).Agree :=
    ⟨fun pair => (agree.pairs pair).trans (by
      rw [creds_step, credsAfter, held]), agree.once⟩
  refine iff_of_true stays ⟨?_, ?_, ?_⟩
  · intro cred member gone
    obtain ⟨other, here, same⟩ := exists_mem_update address privatedata
      oscore ownerCred member
    exact absurd same (gone other here)
  · intro pair given
    cases given
  · intro cred member gone
    obtain ⟨other, old, same, -⟩ :=
      exists_mem_of_update _ _ _ _ member
    exact absurd same (gone other old)

end Set

/-- Every call keeps the own roles in order. -/
theorem WellKept.step (kept : state.WellKept) (call : OwnRolesCall) :
    (state.step env room call).WellKept := by
  cases call with
  | add keypair deviceuuid decode => exact kept.ocSecAddNewCred
  | addNew keypair deviceuuid decode => exact kept.ocSecAddNewCred
  | remove wanted =>
      simp only [OwnRoles.step, removeFirst]
      split
      · exact kept
      · exact (kept.unlink _).free _
  | clear filter => exact WellKept.ocSecCredClear filter _ state kept
  | set address privatedata oscore ownerCred =>
      exact kept.set_step address privatedata oscore ownerCred

theorem agree_step_iff (kept : state.WellKept) (agree : state.Agree)
    (call : OwnRolesCall) :
    (state.step env room call).Agree ↔ CarefulCall env room state call := by
  unfold CarefulCall
  rw [← @creds_step env room]
  cases call with
  | add keypair deviceuuid decode =>
      obtain ⟨removed, created, changes⟩ := @changes_ocSecAddNewCred env room
        state decode true keypair deviceuuid kept agree.once (.inl rfl)
      exact changes.agree_iff kept agree
  | addNew keypair deviceuuid decode =>
      obtain ⟨removed, created, changes⟩ := @changes_ocSecAddNewCred env room
        state decode.withoutId false keypair deviceuuid kept agree.once
        (.inr rfl)
      exact changes.agree_iff kept agree
  | remove wanted =>
      simp only [OwnRoles.step, removeFirst]
      cases found : state.creds.creds.find? wanted with
      | none => exact (changes_refl agree.once).agree_iff kept agree
      | some cred =>
          exact (changes_remove kept agree.once
            (List.mem_of_find?_eq_some found)).agree_iff kept agree
  | clear filter =>
      exact (changes_ocSecCredClear filter _ state kept agree.once
        kept.sound.addresses fun _ member => member).agree_iff kept agree
  | set address privatedata oscore ownerCred =>
      rw [creds_step]
      exact agree_set_iff address privatedata oscore ownerCred agree

end Calls

/-- A device without credentials. -/
def initial : OwnRoles := ⟨.initial, [], []⟩

theorem wellKept_initial : initial.WellKept where
  sound := Creds.sound_initial
  bounded := by simp [initial]
  set := by simp [initial, Creds.initial]

theorem agree_initial : initial.Agree where
  pairs := by simp [initial, heldRoles, Creds.initial]
  once := List.nodup_nil

/-- The list of roles agrees with the credentials after every call of a run
exactly when every call is careful. -/
theorem own_roles_agree (env : CredEnv) (room : Nat → Bool)
    (calls : List OwnRolesCall) :
    Along (step env room)
        (fun state call => (state.step env room call).Agree) initial calls ↔
      Along (step env room) (CarefulCall env room) initial calls := by
  refine @Along.congr_iff_of_invariant _ _ _ _ _ _
    (fun state => state.WellKept ∧ state.Agree) _
    ⟨wellKept_initial, agree_initial⟩ ?_ ?_
  · rintro state call ⟨kept, agree⟩
    exact agree_step_iff kept agree call
  · rintro state call ⟨kept, agree⟩ careful
    exact ⟨kept.step call, (agree_step_iff kept agree call).mpr careful⟩

/-- Every role certificate is for the owner's role. -/
def ownerRoles : CredEnv where
  parsePublicKey := fun _ => some [4]
  parseCnForUuid := fun _ => none
  parseRoleCertificate := fun _ => some (ascii "oic.role.owner", ascii "CA")
  oscoreContext := fun _ _ => true
  deriveOwnerPsk := fun _ _ _ => none
  allocCred := fun _ => true
  randomValues := fun _ => []
  rawMemory := List.replicate 16 0

def roleCertificate (credid : Int) (chain : Bytes) : CredDecode where
  credid := credid
  credtype := CredType.cert
  credusage := .roleCert
  publicdata := ⟨chain, .pem⟩

def ownerKey : CredDecode where
  credid := 3
  credtype := CredType.psk
  subjectuuid := some [42]
  privatedata := ⟨List.replicate 16 7, .raw⟩
  role := some (ascii "oic.role.owner")
  authority := some (ascii "CA")

def addition (decode : CredDecode) : OwnRolesCall :=
  .add none Uuid.nil decode

/-- The pair is dropped with one of two certificates for it, and with a key
that carries the same role id. -/
theorem not_agree_sameRole :
    ¬ Along (step ownerRoles fun _ => true)
        (fun state call => (state.step ownerRoles (fun _ => true) call).Agree)
        initial
        [addition (roleCertificate 1 [1]), addition (roleCertificate 2 [2]),
          .remove fun cred => cred.credid == 2] ∧
      ¬ Along (step ownerRoles fun _ => true)
        (fun state call => (state.step ownerRoles (fun _ => true) call).Agree)
        initial
        [addition (roleCertificate 1 [1]), addition ownerKey,
          .remove fun cred => cred.credid == 3] := by
  constructor
  · rintro ⟨-, -, dropped, -⟩
    have listed := dropped.pairs (ascii "oic.role.owner", ascii "CA")
    revert listed
    decide +kernel
  · rintro ⟨-, -, dropped, -⟩
    have listed := dropped.pairs (ascii "oic.role.owner", ascii "CA")
    revert listed
    decide +kernel

end OwnRoles

end IotivityLite
