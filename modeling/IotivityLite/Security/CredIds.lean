import IotivityLite.Foundation.Keyed
import IotivityLite.Security.Cred

/-!
# The ids of credentials

A credential is looked up by its id, and at most one has it.  An id that is
given takes the place of the credential that has it; an id that is missing is
chosen among those that nobody has.
-/

namespace IotivityLite

/-- The calls that change the credentials of a device.  Additions and payloads
come with the key pair and the UUID the device has then.  A payload for the
roles resource brings the ids that were given to its roles; their list is not
that of the device. -/
inductive CredCall where
  | add (keypair : Option EcdsaKeypair) (deviceuuid : Uuid)
      (decode : CredDecode)
  | decode (keypair : Option EcdsaKeypair) (deviceuuid : Uuid)
      (dos : DosType) (fromStorage : Bool) (rep : Rep)
  | decodeRoles (items : List (CredDecode × Int))
  | apply (keypair : Option EcdsaKeypair) (deviceuuid : Uuid)
      (dos : DosType) (oxmsel : Int) (rep : Rep)
  | removeByCredid (credid : Int)
  | removeBySubject (subjectuuid : Bytes)
  | clear (filter : Cred → Bool)
  | default

namespace Creds

/-- `oc_sec_cred_init` -/
def initial : Creds := ⟨[], Uuid.nil, 0⟩

/-- `oc_cred_find_by_subject` -/
def ocCredFindBySubject (creds : Creds) (subjectuuid : Bytes) : Option Cred :=
  creds.ocSecFindCredsForSubject
    (if subjectuuid.head? = some 42 then Uuid.ofBytes [42]
      else ocStrToUuid subjectuuid Uuid.nil)

/-- `oc_cred_remove_by_subject` -/
def ocCredRemoveBySubject (creds : Creds) (subjectuuid : Bytes) : Creds :=
  match creds.ocCredFindBySubject subjectuuid with
  | none => creds
  | some cred => creds.ocSecRemoveCred cred

/-- `oc_sec_cred_clear`; the loop is over the list as it was. -/
def ocSecCredClear (filter : Cred → Bool) : List Cred → Creds → Creds
  | [], creds => creds
  | cred :: rest, creds =>
      ocSecCredClear filter rest
        (if filter cred then creds.ocSecRemoveCred cred else creds)

/-- What `oc_sec_decode_cred` does with the id of every role: a credential of
the device with this id is finished like one of a payload. -/
def decodeRoles (env : CredEnv) :
    List (CredDecode × Int) → CredApply → Bool × CredApply
  | [], state => (true, state)
  | (decode, credid) :: items, state =>
      match state.creds.ocSecGetCredByCredid credid with
      | none => decodeRoles env items state
      | some cred =>
          match finishCred env false decode cred state with
          | (false, state) => (false, state)
          | (true, state) => decodeRoles env items state

def step (env : CredEnv) (creds : Creds) : CredCall → Creds
  | .add keypair deviceuuid decode =>
      (ocSecAddNewCred env keypair deviceuuid decode creds).1
  | .decode keypair deviceuuid dos fromStorage rep =>
      (ocSecDecodeCred env keypair deviceuuid dos fromStorage rep
        creds).2.creds
  | .decodeRoles items => (decodeRoles env items { creds }).2.creds
  | .apply keypair deviceuuid dos oxmsel rep =>
      (ocSecApplyCred env keypair deviceuuid dos oxmsel rep creds).2
  | .removeByCredid credid => (creds.ocSecRemoveCredByCredid credid).1
  | .removeBySubject subjectuuid => creds.ocCredRemoveBySubject subjectuuid
  | .clear filter => ocSecCredClear filter creds.creds creds
  | .default => ocSecCredDefault creds

/-- Records and ids are distinct, and no id is that of a missing one. -/
structure Sound (creds : Creds) : Prop where
  addresses : (creds.creds.map (·.address)).Nodup
  allocated : ∀ cred ∈ creds.creds, cred.address < creds.allocated
  credids : (creds.creds.map (·.credid)).Nodup
  given : ∀ cred ∈ creds.creds, cred.credid ≠ -1

theorem sound_initial : initial.Sound := by
  constructor <;> simp [initial]

namespace Sound

variable {creds : Creds}

theorem sublist {other : Creds} (sound : creds.Sound)
    (fewer : other.creds.Sublist creds.creds)
    (allocated : creds.allocated ≤ other.allocated) : other.Sound where
  addresses := sound.addresses.sublist (fewer.map _)
  allocated := fun cred member =>
    Nat.lt_of_lt_of_le (sound.allocated cred (fewer.subset member)) allocated
  credids := sound.credids.sublist (fewer.map _)
  given := fun cred member => sound.given cred (fewer.subset member)

theorem remove (sound : creds.Sound) (cred : Cred) :
    (creds.ocSecRemoveCred cred).Sound :=
  sound.sublist List.eraseP_sublist (Nat.le_refl _)

theorem credid_ne_of_mem_remove {cred other : Cred} (sound : creds.Sound)
    (member : cred ∈ creds.creds)
    (left : other ∈ (creds.ocSecRemoveCred cred).creds) :
    other.credid ≠ cred.credid := by
  obtain ⟨here, elsewhere⟩ := (mem_eraseP_key_iff sound.addresses).mp left
  intro same
  have equal := List.inj_on_of_nodup_map sound.credids here member same
  exact elsewhere (by rw [equal])

theorem update {address : Nat} {change : Cred → Cred} (sound : creds.Sound)
    (same_address : ∀ cred, (change cred).address = cred.address)
    (same_credid : ∀ cred, (change cred).credid = cred.credid) :
    (creds.update address change).Sound := by
  have addresses : (creds.update address change).creds.map (·.address) =
      creds.creds.map (·.address) := by
    simp only [Creds.update, List.map_map]
    apply List.map_congr_left
    intro cred _
    simp only [Function.comp_apply]
    split <;> simp [same_address]
  have credids : (creds.update address change).creds.map (·.credid) =
      creds.creds.map (·.credid) := by
    simp only [Creds.update, List.map_map]
    apply List.map_congr_left
    intro cred _
    simp only [Function.comp_apply]
    split <;> simp [same_credid]
  constructor
  · rw [addresses]
    exact sound.addresses
  · have bounded := sound.allocated
    rw [← List.forall_mem_map (f := fun cred : Cred => cred.address)
      (P := (· < creds.allocated)), ← addresses, List.forall_mem_map] at bounded
    exact bounded
  · rw [credids]
    exact sound.credids
  · have bounded := sound.given
    rw [← List.forall_mem_map (f := fun cred : Cred => cred.credid)
      (P := (· ≠ -1)), ← credids, List.forall_mem_map] at bounded
    exact bounded

end Sound

end Creds

theorem getNewCredid_some {credids : List Int} {values : List UInt32}
    {credid : Int} (found : getNewCredid credids values = some credid) :
    0 < credid ∧ credid ∉ credids := by
  have drawn := List.mem_of_find?_eq_some found
  obtain ⟨value, -, rfl⟩ := List.mem_map.mp drawn
  have unused := List.find?_some found
  simp only [Bool.and_eq_true, bne_iff_ne, ne_eq, Bool.not_eq_true',
    List.contains_eq_mem, decide_eq_false_iff_not] at unused
  refine ⟨?_, unused.2⟩
  have positive := unused.1
  simp only [Int.ofNat_eq_natCast] at positive ⊢
  omega

section Add

variable {env : CredEnv} {creds : Creds} {decode : CredDecode}
  {subject : Uuid} {own : Option EcdsaKeypair} {cred : Cred}

theorem credCreate_some
    (created : credCreate env creds decode subject own = some cred) :
    cred.address = creds.allocated ∧
      credCredid env creds decode = some cred.credid := by
  unfold credCreate at created
  split at created
  · simp only [Option.bind_eq_some_iff, Option.map_eq_some_iff] at created
    obtain ⟨role, -, credid, found, privatedata, -, rfl⟩ := created
    exact ⟨rfl, found⟩
  · cases created

theorem credid_new
    (created : credCreate env creds decode subject own = some cred)
    (unused : ∀ other ∈ creds.creds, other.credid ≠ decode.credid) :
    cred.credid ≠ -1 ∧ ∀ other ∈ creds.creds, other.credid ≠ cred.credid := by
  have found := (credCreate_some created).2
  unfold credCredid at found
  split at found
  · obtain ⟨positive, fresh⟩ := getNewCredid_some found
    refine ⟨by omega, ?_⟩
    intro other member same
    exact fresh (List.mem_map.mpr ⟨other, member, same⟩)
  · rename_i given
    rw [← Option.some.inj found]
    exact ⟨given, unused⟩

theorem sound_addCreated (sound : creds.Sound)
    (unused : ∀ other ∈ creds.creds, other.credid ≠ decode.credid) :
    (addCreated env creds decode subject own).1.Sound := by
  unfold addCreated
  split
  · exact sound.sublist (List.Sublist.refl _) (Nat.le_succ _)
  · rename_i cred created
    obtain ⟨given, fresh⟩ := credid_new created unused
    have address := (credCreate_some created).1
    constructor
    · rw [List.map_append, List.nodup_append_comm]
      simp only [List.map_cons, List.map_nil, List.singleton_append,
        List.nodup_cons]
      refine ⟨?_, sound.addresses⟩
      rw [List.mem_map]
      rintro ⟨other, member, same⟩
      have below := sound.allocated other member
      omega
    · intro other member
      rcases List.mem_append.mp member with old | new
      · exact Nat.lt_succ_of_lt (sound.allocated other old)
      · rw [List.mem_singleton.mp new, address]
        exact Nat.lt_succ_self _
    · rw [List.map_append, List.nodup_append_comm]
      simp only [List.map_cons, List.map_nil, List.singleton_append,
        List.nodup_cons]
      refine ⟨?_, sound.credids⟩
      rw [List.mem_map]
      rintro ⟨other, member, same⟩
      exact fresh other member same
    · intro other member
      rcases List.mem_append.mp member with old | new
      · exact sound.given other old
      · rw [List.mem_singleton.mp new]
        exact given

theorem sound_addScanned (sound : creds.Sound)
    (unused : ∀ other ∈ creds.creds, other.credid ≠ decode.credid) :
    (addScanned env creds decode subject own).1.Sound := by
  unfold addScanned
  split
  · exact sound
  · refine sound_addCreated (sound.remove _) ?_
    intro other member
    exact unused other (List.eraseP_subset member)
  · exact sound_addCreated sound unused

theorem sound_ocSecAddNewCred {keypair : Option EcdsaKeypair}
    {deviceuuid : Uuid} (sound : creds.Sound) :
    (ocSecAddNewCred env keypair deviceuuid decode creds).1.Sound := by
  unfold ocSecAddNewCred
  split
  · exact sound
  · split
    · split
      · rename_i missing
        refine sound_addScanned sound ?_
        exact find?_key_none_iff.mp missing
      · rename_i existing found
        have member := List.mem_of_find?_eq_some found
        have same : existing.credid = decode.credid := by
          simpa using List.find?_some found
        split
        · exact sound
        · refine sound_addScanned (sound.remove existing) ?_
          intro other left
          rw [← same]
          exact sound.credid_ne_of_mem_remove member left
    · exact sound

variable {keypair : Option EcdsaKeypair} {deviceuuid : Uuid}
  {state : CredApply} {fromStorage : Bool} {rep : Rep}

section

variable (sound : state.creds.Sound)

include sound

theorem sound_finishCred :
    (finishCred env fromStorage decode cred state).2.creds.Sound := by
  have owned : ∀ {address : Nat} {state : CredApply}, state.creds.Sound →
      (finishCred.owned fromStorage decode address state).creds.Sound := by
    intro address state sound
    unfold finishCred.owned
    split
    · exact sound.update (fun _ => rfl) (fun _ => rfl)
    · exact sound
  unfold finishCred
  simp only
  split
  · split
    · exact owned (sound.update (fun _ => rfl) (fun _ => rfl))
    · exact sound
  · exact owned (sound.update (fun _ => rfl) (fun _ => rfl))

theorem sound_decodeCredsItem {item : Rep} :
    (decodeCredsItem env keypair deviceuuid fromStorage item
      state).2.creds.Sound := by
  unfold decodeCredsItem
  split
  · exact sound
  · split
    · split
      · exact sound
      · rename_i decode _ _ _
        have added : (ocSecAddNewCred env keypair deviceuuid decode
          state.creds).1.Sound := sound_ocSecAddNewCred sound
        split
        · rename_i result
          rw [result] at added
          exact added
        · rename_i result
          rw [result] at added
          split
          · exact added
          · exact sound_finishCred added
    · exact sound

theorem sound_decodeCredsItems {items : List Rep} :
    (decodeCredsItems env keypair deviceuuid fromStorage items
      state).2.creds.Sound := by
  induction items generalizing state with
  | nil => exact sound
  | cons item items ih =>
      have first : (decodeCredsItem env keypair deviceuuid fromStorage item
        state).2.creds.Sound := sound_decodeCredsItem sound
      unfold decodeCredsItems
      split
      · rename_i result
        rw [result] at first
        exact first
      · rename_i result
        rw [result] at first
        exact ih first

theorem sound_decodeCredEntry {entry : Bytes × RepValue} :
    (decodeCredEntry env keypair deviceuuid fromStorage entry
      state).2.creds.Sound := by
  unfold decodeCredEntry
  split
  · split
    · exact sound.sublist (List.Sublist.refl _) (Nat.le_refl _)
    · exact sound
  · split
    · exact sound_decodeCredsItems sound
    · exact sound
  · exact sound

theorem sound_decodeCredEntries :
    (decodeCredEntries env keypair deviceuuid fromStorage rep
      state).2.creds.Sound := by
  induction rep generalizing state with
  | nil => exact sound
  | cons entry rep ih =>
      have first : (decodeCredEntry env keypair deviceuuid fromStorage entry
        state).2.creds.Sound := sound_decodeCredEntry sound
      unfold decodeCredEntries
      split
      · rename_i result
        rw [result] at first
        exact first
      · rename_i result
        rw [result] at first
        exact ih first

theorem sound_decodeRoles {items : List (CredDecode × Int)} :
    (Creds.decodeRoles env items state).2.creds.Sound := by
  induction items generalizing state with
  | nil => exact sound
  | cons item items ih =>
      obtain ⟨decode, credid⟩ := item
      unfold Creds.decodeRoles
      split
      · exact ih sound
      · rename_i cred _
        have first : (finishCred env false decode cred state).2.creds.Sound :=
          sound_finishCred sound
        split
        · rename_i result
          rw [result] at first
          exact first
        · rename_i result
          rw [result] at first
          exact ih first

end

theorem sound_ocSecDecodeCred {dos : DosType} {fromStorage : Bool}
    (sound : creds.Sound) :
    (ocSecDecodeCred env keypair deviceuuid dos fromStorage rep
      creds).2.creds.Sound := by
  unfold ocSecDecodeCred
  split
  · exact sound
  · exact sound_decodeCredEntries sound

theorem sound_ocSecRemoveCredByCredid (sound : creds.Sound)
    (credid : Int) : (creds.ocSecRemoveCredByCredid credid).1.Sound := by
  unfold Creds.ocSecRemoveCredByCredid
  split
  · exact sound
  · exact sound.remove _

theorem sound_deriveOwnerKey {oxmsel : Int} {owner : Cred}
    (sound : creds.Sound) :
    (deriveOwnerKey env deviceuuid oxmsel creds owner).2.Sound := by
  unfold deriveOwnerKey
  split
  · split
    · exact sound.update (fun _ => rfl) (fun _ => rfl)
    · split
      · exact sound
      · exact sound.update (fun _ => rfl) (fun _ => rfl)
  · exact sound

theorem sound_ocSecApplyCred {dos : DosType} {oxmsel : Int}
    (sound : creds.Sound) :
    (ocSecApplyCred env keypair deviceuuid dos oxmsel rep creds).2.Sound := by
  have decoded : (ocSecDecodeCred env keypair deviceuuid dos false rep
    creds).2.creds.Sound := sound_ocSecDecodeCred sound
  unfold ocSecApplyCred
  simp only
  split
  · exact decoded
  · split
    · split
      · exact sound_deriveOwnerKey decoded
      · exact sound_ocSecRemoveCredByCredid (sound_deriveOwnerKey decoded) _
    · exact sound_ocSecRemoveCredByCredid decoded _

end Add

theorem sound_ocSecCredClear {creds : Creds} {filter : Cred → Bool}
    {rest : List Cred} (sound : creds.Sound) :
    (Creds.ocSecCredClear filter rest creds).Sound := by
  induction rest generalizing creds with
  | nil => exact sound
  | cons cred rest ih =>
      unfold Creds.ocSecCredClear
      split
      · exact ih (sound.remove cred)
      · exact ih sound

theorem Creds.Sound.step {env : CredEnv} {creds : Creds} (call : CredCall)
    (sound : creds.Sound) : (creds.step env call).Sound := by
  cases call with
  | add keypair deviceuuid decode => exact sound_ocSecAddNewCred sound
  | decode keypair deviceuuid dos fromStorage rep =>
      exact sound_ocSecDecodeCred sound
  | decodeRoles items => exact sound_decodeRoles sound
  | apply keypair deviceuuid dos oxmsel rep => exact sound_ocSecApplyCred sound
  | removeByCredid credid => exact sound_ocSecRemoveCredByCredid sound credid
  | removeBySubject subjectuuid =>
      simp only [Creds.step, ocCredRemoveBySubject]
      split
      · exact sound
      · exact sound.remove _
  | clear filter => exact sound_ocSecCredClear sound
  | default => exact sound.sublist (List.nil_sublist _) (Nat.le_refl _)

theorem sound_run (env : CredEnv) (calls : List CredCall) :
    (runFrom (Creds.step env) .initial calls).Sound :=
  invariant_runFrom calls Creds.sound_initial
    (fun _ call sound => sound.step call)

section Chosen

variable {env : CredEnv} {keypair : Option EcdsaKeypair} {deviceuuid : Uuid}
  {decode : CredDecode} {creds : Creds}

theorem scanSubject_ne_replaces {subject : Uuid} {list : List Cred}
    {replaced : Cred}
    (unused : ∀ other ∈ list, other.credid ≠ decode.credid) :
    scanSubject decode subject list ≠ .replaces replaced := by
  induction list with
  | nil => simp [scanSubject]
  | cons cred list ih =>
      rw [List.forall_mem_cons] at unused
      unfold scanSubject
      simp only [unused.1, if_false]
      split
      · split
        · simp
        · exact ih unused.2
      · exact ih unused.2

theorem ocSecAddNewCred_chosen (sound : creds.Sound)
    (missing : decode.credid = -1) :
    (ocSecAddNewCred env keypair deviceuuid decode creds).1.creds =
        creds.creds ∨
      ∃ cred,
        (ocSecAddNewCred env keypair deviceuuid decode creds).1.creds =
            creds.creds ++ [cred] ∧
          (ocSecAddNewCred env keypair deviceuuid decode creds).2 =
            some cred.credid ∧
          0 < cred.credid ∧
          ∀ other ∈ creds.creds, other.credid ≠ cred.credid := by
  have unused : ∀ other ∈ creds.creds, other.credid ≠ decode.credid := by
    rw [missing]
    exact sound.given
  have nobody : creds.ocSecGetCredByCredid decode.credid = none :=
    find?_key_none_iff.mpr unused
  unfold ocSecAddNewCred
  split
  · exact .inl rfl
  · split
    · rw [nobody]
      simp only [addScanned]
      split
      · exact .inl rfl
      · rename_i scanned
        exact absurd scanned (scanSubject_ne_replaces unused)
      · unfold addCreated
        split
        · exact .inl rfl
        · rename_i cred created
          have found := (credCreate_some created).2
          simp only [credCredid, missing, if_true] at found
          have positive := (getNewCredid_some found).1
          exact .inr ⟨cred, rfl, rfl, positive, (credid_new created unused).2⟩
    · exact .inl rfl

end Chosen

/-- After any calls the ids of the credentials are distinct, and an addition
without an id then either adds nothing or adds a credential with a positive id
that no other has.  The same choice of an id is made for the roles of a
client. -/
theorem credids_unique (env : CredEnv) (calls : List CredCall) :
    let creds := runFrom (Creds.step env) .initial calls
    (creds.creds.map (·.credid)).Nodup ∧
      (∀ keypair deviceuuid decode, decode.credid = -1 →
        let added := ocSecAddNewCred env keypair deviceuuid decode creds
        added.1.creds = creds.creds ∨
          ∃ cred, added.1.creds = creds.creds ++ [cred] ∧
            added.2 = some cred.credid ∧ 0 < cred.credid ∧
            ∀ other ∈ creds.creds, other.credid ≠ cred.credid) ∧
      ∀ roleids values credid, getNewCredid roleids values = some credid →
        0 < credid ∧ credid ∉ roleids := by
  intro creds
  have sound : creds.Sound := sound_run env calls
  refine ⟨sound.credids, ?_, ?_⟩
  · intro keypair deviceuuid decode missing
    exact ocSecAddNewCred_chosen sound missing
  · intro roleids values credid found
    exact getNewCredid_some found

end IotivityLite
