import IotivityLite.Security.Transitions

/-!
# Ownership in normal operation

The owner of a device is checked when it enters the normal operation, and from
then on all requests that could change it are refused.  Two ways around remain:
a payload that leaves the normal operation and comes back within one request,
with the owner in between, and a reset that fails to create its key pair after
it has cleared everything.
-/

namespace IotivityLite

/-- The owner of a resource is there and has a credential. -/
def OwnedBy (creds : Creds) (uuid : Uuid) : Prop :=
  uuid ≠ Uuid.nil ∧ ∃ cred ∈ creds.creds, cred.subjectuuid = uuid

structure Owned (device : Device) : Prop where
  owned : device.doxm.owned = true
  devowneruuid : device.doxm.devowneruuid ≠ Uuid.nil
  deviceuuid : device.doxm.deviceuuid ≠ Uuid.nil
  pstat : OwnedBy device.creds device.pstat.rowneruuid
  doxm : OwnedBy device.creds device.doxm.rowneruuid
  acl : OwnedBy device.creds device.acl.rowneruuid
  creds : OwnedBy device.creds device.creds.rowneruuid

/-- The UUIDs, the ACEs and the credentials are the same. -/
structure SameOwnership (before after : Device) : Prop where
  devowneruuid : after.doxm.devowneruuid = before.doxm.devowneruuid
  deviceuuid : after.doxm.deviceuuid = before.doxm.deviceuuid
  pstatRowneruuid : after.pstat.rowneruuid = before.pstat.rowneruuid
  doxmRowneruuid : after.doxm.rowneruuid = before.doxm.rowneruuid
  aclRowneruuid : after.acl.rowneruuid = before.acl.rowneruuid
  credsRowneruuid : after.creds.rowneruuid = before.creds.rowneruuid
  aces : after.acl.aces = before.acl.aces
  creds : after.creds.creds = before.creds.creds

/-- Normal operation is entered with an owner and does not change it. -/
structure KeepsOwnership (before after : Device) : Prop where
  owned : after.pstat.s = .rfnop → Owned after
  same : before.pstat.s = .rfnop → after.pstat.s = .rfnop →
    SameOwnership before after

/-- A request to the provisioning status that stays in normal operation sets
no owner, and a reset of a device in normal operation gets its key pair. -/
def OwnerSafe (device : Device) : DeviceEvent → Prop
  | .pstatPost rep _ => device.pstat.s = .rfnop → rep.all entryOk = true →
      ownersAdmitted (some .rfnop) rep = true →
      lastOr (some .rfnop) (dosStates rep) = some .rfnop → owners rep = []
  | .reset true input => device.pstat.s = .rfnop → input.keypair.isSome = true
  | .delayedReset input => device.pstat.s = .rfnop →
      device.delayedReset = true → input.keypair.isSome = true
  | _ => True

instance (device : Device) : (event : DeviceEvent) →
    Decidable (OwnerSafe device event)
  | .pstatPost _ _ => inferInstanceAs (Decidable (_ → _ → _ → _ → _))
  | .reset true _ => inferInstanceAs (Decidable (_ → _))
  | .delayedReset _ => inferInstanceAs (Decidable (_ → _ → _))
  | .reset false _ => isTrue trivial
  | .doxmPost _ _ => isTrue trivial
  | .aclPost _ => isTrue trivial
  | .aclDelete _ => isTrue trivial
  | .credPost _ => isTrue trivial
  | .credDelete _ => isTrue trivial

section Events

variable {env : DeviceEnv} {input : ResetInput} {device : Device}

theorem SameOwnership.refl (device : Device) : SameOwnership device device :=
  ⟨rfl, rfl, rfl, rfl, rfl, rfl, rfl, rfl⟩

theorem KeepsOwnership.of_left {before after : Device}
    (left : after.pstat.s ≠ .rfnop) : KeepsOwnership before after :=
  ⟨fun here => absurd here left, fun _ here => absurd here left⟩

theorem ownedBy_of_ownerOk {creds : Creds} {uuid : Uuid}
    (ok : ownerOk creds uuid = true) : OwnedBy creds uuid := by
  rw [ownerOk, Bool.and_eq_true, Bool.not_eq_true', nilUuid,
    beq_eq_false_iff_ne] at ok
  obtain ⟨given, found⟩ := ok
  obtain ⟨cred, first⟩ := Option.isSome_iff_exists.mp found
  unfold Creds.ocSecFindCredsForSubject at first
  have subject := List.find?_some first
  exact ⟨given, cred, List.mem_of_find?_eq_some first, beq_iff_eq.mp subject⟩

theorem owned_of_pstatCheckState {ps : Pstat} {after : Device}
    (checked : pstatCheckState ps device = true)
    (doxm : after.doxm = device.doxm) (acl : after.acl = device.acl)
    (creds : after.creds = device.creds)
    (rowneruuid : after.pstat.rowneruuid = ps.rowneruuid) : Owned after := by
  simp only [pstatCheckState, Bool.and_eq_true, Bool.not_eq_true', nilUuid,
    beq_eq_false_iff_ne] at checked
  obtain ⟨⟨⟨⟨⟨⟨⟨-, pstatOk⟩, owned⟩, devowner⟩, deviceuuid⟩, doxmOk⟩, aclOk⟩,
    credsOk⟩ := checked
  constructor
  · rw [doxm]
    exact owned
  · rw [doxm]
    exact devowner
  · rw [doxm]
    exact deviceuuid
  · rw [creds, rowneruuid]
    exact ownedBy_of_ownerOk pstatOk
  · rw [creds, doxm]
    exact ownedBy_of_ownerOk doxmOk
  · rw [creds, acl]
    exact ownedBy_of_ownerOk aclOk
  · rw [creds]
    exact ownedBy_of_ownerOk credsOk

private theorem rowneruuid_requested {rep : Rep} (none : owners rep = []) :
    (device.pstat.startDecode.requested rep).rowneruuid =
      device.pstat.rowneruuid := by
  simp only [PstatDecode.requested, none, List.foldl_nil]
  rfl

private theorem keeps_of_pstat {before after : Device}
    (owned : before.pstat.s = .rfnop → Owned before)
    (sameState : after.pstat.s = before.pstat.s)
    (rowneruuid : before.pstat.s = .rfnop →
      after.pstat.rowneruuid = before.pstat.rowneruuid)
    (doxm : before.pstat.s = .rfnop → after.doxm = before.doxm)
    (acl : before.pstat.s = .rfnop → after.acl = before.acl)
    (creds : before.pstat.s = .rfnop → after.creds = before.creds) :
    KeepsOwnership before after := by
  constructor
  · intro rfnop
    rw [sameState] at rfnop
    have before := owned rfnop
    constructor
    · rw [doxm rfnop]
      exact before.owned
    · rw [doxm rfnop]
      exact before.devowneruuid
    · rw [doxm rfnop]
      exact before.deviceuuid
    · rw [creds rfnop, rowneruuid rfnop]
      exact before.pstat
    · rw [creds rfnop, doxm rfnop]
      exact before.doxm
    · rw [creds rfnop, acl rfnop]
      exact before.acl
    · rw [creds rfnop]
      exact before.creds
  · intro rfnop _
    constructor
    · rw [doxm rfnop]
    · rw [doxm rfnop]
    · rw [rowneruuid rfnop]
    · rw [doxm rfnop]
    · rw [acl rfnop]
    · rw [creds rfnop]
    · rw [acl rfnop]
    · rw [creds rfnop]

section

variable (notInProgress : device.pstat.resetInProgress = false)

include notInProgress

theorem keepsOwnership_pstatPost {rep : Rep}
    (owned : device.pstat.s = .rfnop → Owned device)
    (safe : OwnerSafe device (.pstatPost rep input)) :
    KeepsOwnership device (ocSecDecodePstat env input rep device).2 := by
  rcases @ocSecDecodePstat_cases env input rep device notInProgress with
    same | ⟨ok, admitted, tm, actions, outcome⟩
  · rw [same]
    exact ⟨owned, fun _ _ => SameOwnership.refl device⟩
  · have noOwner (rfnop : device.pstat.s = .rfnop)
        (named : (device.pstat.startDecode.requested rep).s = some .rfnop) :
        (device.pstat.startDecode.requested rep).rowneruuid =
          device.pstat.rowneruuid := by
      apply rowneruuid_requested
      refine safe rfnop ok ?_ ?_
      · rw [← rfnop]
        exact admitted
      · rw [← rfnop]
        rw [← rfnop] at named
        exact named
    generalize ocSecDecodePstat env input rep device = result at outcome
    cases outcome with
    | refused =>
        exact keeps_of_pstat owned rfl (fun _ => rfl) (fun _ => rfl)
          (fun _ => rfl) (fun _ => rfl)
    | @updated s named valid update =>
        have dos : dosStates rep = [] := by
          simpa [PstatDecode.requested, Pstat.startDecode] using update
        have state : s = device.pstat.s := by
          simpa [PstatDecode.requested, dos, eq_comm] using named
        subst state
        refine keeps_of_pstat owned rfl (fun rfnop => ?_) (fun _ => rfl)
          (fun _ => rfl) (fun _ => rfl)
        refine noOwner rfnop (named.trans ?_)
        rw [rfnop]
    | scheduled named pstat =>
        refine KeepsOwnership.of_left ?_
        rw [pstat]
        exact DosType.noConfusion
    | onboarding named valid rfotm =>
        refine KeepsOwnership.of_left ?_
        rw [rfotm]
        exact DosType.noConfusion
    | @owned s cm isop observers named valid checked =>
        constructor
        · intro _
          exact owned_of_pstatCheckState checked rfl rfl rfl rfl
        · intro rfnop stays
          obtain rfl : s = .rfnop := stays
          exact ⟨rfl, rfl, noOwner rfnop named, rfl, rfl, rfl, rfl, rfl⟩

theorem keepsOwnership_forced
    (generated : device.pstat.s = .rfnop → input.keypair.isSome = true) :
    (ocResetDeviceV1 env input true device).2.pstat.s ≠ .rfnop := by
  cases success : (ocResetDeviceV1 env input true device).1 with
  | true =>
      rw [(pstat_of_success success).1]
      exact DosType.noConfusion
  | false =>
      rw [ocResetDeviceV1_force, if_neg (by simp [notInProgress])]
        at success ⊢
      split_ifs at success ⊢ with keys
      intro rfnop
      exact keys (generated rfnop)

/-- A safe event keeps the ownership. -/
theorem keepsOwnership_step {event : DeviceEvent}
    (owned : device.pstat.s = .rfnop → Owned device)
    (safe : OwnerSafe device event) :
    KeepsOwnership device (device.step env event) := by
  cases event with
  | pstatPost rep input =>
      exact keepsOwnership_pstatPost notInProgress owned safe
  | doxmPost doc rep =>
      refine keeps_of_pstat owned rfl (fun _ => rfl) (fun rfnop => ?_)
        (fun _ => rfl) (fun _ => rfl)
      apply ocSecDecodeDoxm_of_closed
      · simp [rfnop]
      · simp [rfnop]
  | aclPost rep =>
      refine keeps_of_pstat owned rfl (fun _ => rfl) (fun _ => rfl)
        (fun rfnop => ?_) (fun _ => rfl)
      simp only [Device.step, Device.handle, rfnop]
      exact ocSecDecodeAcl_rfnop env.newAceid rep device.acl
  | aclDelete aceid =>
      refine keeps_of_pstat owned rfl (fun _ => rfl) (fun _ => rfl)
        (fun rfnop => ?_) (fun _ => rfl)
      simp only [Device.step, Device.handle, rfnop]
      rfl
  | credPost rep =>
      refine keeps_of_pstat owned rfl (fun _ => rfl) (fun _ => rfl)
        (fun _ => rfl) (fun rfnop => ?_)
      simp only [Device.step, Device.handle, rfnop]
      exact ocSecApplyCred_rfnop device.doxm.oxmsel rep device.creds
  | credDelete credid =>
      refine keeps_of_pstat owned rfl (fun _ => rfl) (fun _ => rfl)
        (fun _ => rfl) (fun rfnop => ?_)
      simp only [Device.step, Device.handle, rfnop, credResourceDelete_rfnop]
  | reset force input =>
      cases force with
      | false =>
          simp only [Device.step, Device.handle, ocResetDeviceV1,
            Bool.false_eq_true, if_false, setDelayedReset]
          split_ifs
          · exact ⟨owned, fun _ _ => SameOwnership.refl device⟩
          · exact KeepsOwnership.of_left DosType.noConfusion
      | true =>
          exact KeepsOwnership.of_left
            (keepsOwnership_forced notInProgress safe)
  | delayedReset input =>
      simp only [Device.step, Device.handle, IotivityLite.delayedReset]
      split_ifs with pending
      · apply KeepsOwnership.of_left
        apply keepsOwnership_forced
        · exact notInProgress
        · intro rfnop
          exact safe rfnop pending
      · exact ⟨owned, fun _ _ => SameOwnership.refl device⟩

end

end Events

/-- In every run of safe events that starts outside of the normal operation,
the normal operation is entered with an owner and does not change it. -/
theorem keepsOwnership_of_ownerSafe (env : DeviceEnv) {start : Device}
    {events : List DeviceEvent}
    (notInProgress : start.pstat.resetInProgress = false)
    (outside : start.pstat.s ≠ .rfnop)
    (safe : Along (Device.step env) OwnerSafe start events) :
    Along (Device.step env)
      (fun device event => KeepsOwnership device (device.step env event))
      start events := by
  apply @Along.imp _ _ _ _ _ _
    (fun device : Device => device.pstat.resetInProgress = false ∧
      (device.pstat.s = .rfnop → Owned device)) _ safe
    ⟨notInProgress, fun here => absurd here outside⟩
  · rintro before event ⟨notInProgress, owned⟩ safe
    exact ⟨(follows_step event notInProgress).2,
      (keepsOwnership_step notInProgress owned safe).owned⟩
  · rintro before event ⟨notInProgress, owned⟩ safe
    exact keepsOwnership_step notInProgress owned safe

section Samples

private def ownerText : Bytes := ascii "11111111-0000-0000-0000-000000000000"

private def otherText : Bytes := ascii "22222222-0000-0000-0000-000000000000"

private theorem privateKey_ne_nil : ([2] : Bytes) ≠ [] :=
  List.cons_ne_nil 2 []

private def keys : ResetInput :=
  ⟨Uuid.ofBytes [7], some ⟨[1], [2], privateKey_ne_nil⟩⟩

private def stateRep (s : Int) : Bytes × RepValue :=
  (ascii "dos", .object [(ascii "s", .int s)])

private def rownerRep (text : Bytes) : Bytes × RepValue :=
  (ascii "rowneruuid", .string text)

private def pskRep (subject : Bytes) : Rep :=
  [(ascii "credtype", .int 1), (ascii "subjectuuid", .string subject),
    (ascii "privatedata", .object
      [(ascii "data", .byteString (List.replicate 16 5)),
        (ascii "encoding", .string (ascii "oic.sec.encoding.raw"))])]

/-- From the first start to normal operation, with credentials for the owner
and for another peer. -/
private def onboardingRun : List DeviceEvent :=
  [.reset true keys,
    .doxmPost true
      [(ascii "devowneruuid", .string ownerText),
        (ascii "deviceuuid", .string (ascii
          "33333333-0000-0000-0000-000000000000")),
        rownerRep ownerText, (ascii "owned", .bool true)],
    .aclPost [rownerRep ownerText],
    .credPost
      [rownerRep ownerText,
        (ascii "creds", .objectArray [pskRep ownerText, pskRep otherText])],
    .pstatPost [rownerRep ownerText, stateRep 2] keys,
    .pstatPost [stateRep 3] keys]

private def KeepsAlong (events : List DeviceEvent) : Prop :=
  Along (Device.step DeviceEnv.bare)
    (fun device event =>
      KeepsOwnership device (device.step DeviceEnv.bare event))
    (Device.unstarted 0) events

private def ownerChange : DeviceEvent :=
  .pstatPost [stateRep 4, rownerRep otherText, stateRep 3] keys

private def resetWithoutKeys : DeviceEvent :=
  .reset true ⟨Uuid.ofBytes [7], none⟩

private theorem onboarded :
    let device := runFrom (Device.step DeviceEnv.bare) (Device.unstarted 0)
      onboardingRun
    let changed := device.step DeviceEnv.bare ownerChange
    let reset := device.step DeviceEnv.bare resetWithoutKeys
    device.pstat.s = .rfnop ∧
      (changed.pstat.s = .rfnop ∧
        changed.pstat.rowneruuid ≠ device.pstat.rowneruuid) ∧
      (reset.pstat.s = .rfnop ∧ reset.doxm.owned ≠ true) := by
  decide +kernel

/-- The run that leads to normal operation. -/
theorem keepsOwnership_onboarding :
    KeepsAlong onboardingRun ∧
      (runFrom (Device.step DeviceEnv.bare) (Device.unstarted 0)
        onboardingRun).pstat.s = .rfnop :=
  ⟨keepsOwnership_of_ownerSafe DeviceEnv.bare rfl (by decide)
      (by decide +kernel), onboarded.1⟩

/-- The owner changes within one request, and a reset without key pair leaves
a device in normal operation that nobody owns. -/
theorem not_keepsOwnership :
    ¬ KeepsAlong (onboardingRun ++
      [.pstatPost [stateRep 4, rownerRep otherText, stateRep 3] keys]) ∧
    ¬ KeepsAlong (onboardingRun ++
      [.reset true ⟨Uuid.ofBytes [7], none⟩]) := by
  obtain ⟨isNormal, ⟨isChanged, otherOwner⟩, isReset, notOwned⟩ := onboarded
  constructor
  · intro along
    have keeps := (along_append.mp along).2.1
    exact otherOwner (keeps.same isNormal isChanged).pstatRowneruuid
  · intro along
    have keeps := (along_append.mp along).2.1
    exact notOwned (keeps.owned isReset).owned

end Samples

end IotivityLite
