import IotivityLite.Security.PstatOutcome
import Mathlib.Data.List.Flatten

/-!
# Transitions of the provisioning state

Every change of the state follows the relation of the onboarding states.  A
request that is refused leaves everything as it was, and the order of the
properties in a payload does not matter, unless the payload sets a property to
two values, mixes states in which the owner can and cannot be set, or asks for
a software update together with a transition that is refused.
-/

namespace IotivityLite

/-- From `RESET` only to the onboarding, from there not to `SRESET`; from the
states with an owner not to the onboarding; from `SRESET` not directly to the
normal operation. -/
def OcfTransition (before after : DosType) : Prop :=
  match before with
  | .reset => after = .reset ∨ after = .rfotm
  | .rfotm => after ≠ .sreset
  | .rfpro | .rfnop => after ≠ .rfotm
  | .sreset => after ≠ .rfotm ∧ after ≠ .rfnop

def DeviceEvent.isReset : DeviceEvent → Bool
  | .reset _ _ | .delayedReset _ => true
  | _ => false

/-- A change of the state is a transition; a reset passes through `RESET`. -/
def FollowsOcf (event : DeviceEvent) (before after : Device) : Prop :=
  after.pstat.s = before.pstat.s ∨
    OcfTransition before.pstat.s after.pstat.s ∨
    event.isReset = true ∧ OcfTransition before.pstat.s .reset ∧
      OcfTransition .reset after.pstat.s

/-- The same property, with its own entries in another order if it is an
object. -/
def EntryReordered (entry other : Bytes × RepValue) : Prop :=
  entry = other ∨ ∃ name dos dos', entry = (name, .object dos) ∧
    other = (name, .object dos') ∧ dos.Perm dos'

def Reordered (rep other : Rep) : Prop :=
  ∃ middle, rep.Perm middle ∧ List.Forall₂ EntryReordered middle other

structure SoundPost (env : DeviceEnv) (input : ResetInput) (rep : Rep)
    (device : Device) : Prop where
  error : (ocSecDecodePstat env input rep device).1 = false →
    (ocSecDecodePstat env input rep device).2.pstat = device.pstat ∧
    (ocSecDecodePstat env input rep device).2.swupdateActions =
      device.swupdateActions
  order : ∀ other, Reordered rep other →
    ocSecDecodePstat env input other device =
      ocSecDecodePstat env input rep device

def SoundEvent (env : DeviceEnv) (device : Device) (event : DeviceEvent) :
    Prop :=
  FollowsOcf event device (device.step env event) ∧
    match event with
    | .pstatPost rep input => SoundPost env input rep device
    | _ => True

/-- No two different values. -/
def Uniform {α : Type} (values : List α) : Prop :=
  ∀ value ∈ values, ∀ other ∈ values, value = other

instance {α : Type} [DecidableEq α] (values : List α) :
    Decidable (Uniform values) :=
  inferInstanceAs (Decidable (∀ value ∈ values, ∀ other ∈ values,
    value = other))

/-- No property has two values, the owner can be set in all of the states that
are read or in none, and a software update is not asked for together with a
transition that the device cannot make. -/
structure OrderlyPost (device : Device) (rep : Rep) : Prop where
  dosStates : Uniform (dosStates rep)
  targetModes : Uniform (targetModes rep)
  operationalModes : Uniform (operationalModes rep)
  owners : Uniform (owners rep)
  locks : IotivityLite.owners rep ≠ [] →
    ∀ state ∈ IotivityLite.dosStates rep,
      ownerLocked state = ownerLocked (some device.pstat.s)
  updates : ownersAdmitted (some device.pstat.s) rep = true →
    (∃ tm ∈ IotivityLite.targetModes rep,
      (targetModeAction tm).isSome = true) →
    IotivityLite.dosStates rep ≠ [] →
    transitionAdmitted device (device.pstat.startDecode.requested rep) = true

def OrderlyEvent (device : Device) : DeviceEvent → Prop
  | .pstatPost rep _ => rep.all entryOk = true → OrderlyPost device rep
  | _ => True

section Reorderings

variable {rep other : Rep} {α : Type}

theorem Uniform.eq_of_perm {values others : List α} (uniform : Uniform values)
    (perm : values.Perm others) :
    others = values := by
  cases values with
  | nil => exact perm.nil_eq.symm
  | cons value rest =>
      have constant : value :: rest =
          List.replicate (rest.length + 1) value := by
        rw [List.eq_replicate_iff]
        refine ⟨rfl, ?_⟩
        intro next member
        exact uniform next member value List.mem_cons_self
      rw [constant] at perm ⊢
      exact List.perm_replicate.mp perm.symm

private theorem flatMap_perm_of_entries {values : Bytes × RepValue → List α}
    (entries : ∀ entry next, EntryReordered entry next →
      (values entry).Perm (values next)) (reordered : Reordered rep other) :
    (rep.flatMap values).Perm (other.flatMap values) := by
  obtain ⟨middle, perm, pointwise⟩ := reordered
  refine (perm.flatMap_right values).trans ?_
  clear perm
  induction pointwise with
  | nil => exact List.Perm.nil
  | cons here _ ih =>
      simp only [List.flatMap_cons]
      exact (entries _ _ here).append ih

private theorem values_perm_of_flat {values : Bytes × RepValue → List α}
    (flat : ∀ name dos, values (name, .object dos) = [])
    (entry next : Bytes × RepValue) (reordered : EntryReordered entry next) :
    (values entry).Perm (values next) := by
  rcases reordered with rfl | ⟨name, dos, dos', rfl, rfl, -⟩
  · exact List.Perm.refl _
  · rw [flat, flat]

section

variable (reordered : Reordered rep other)

include reordered

theorem dosStates_perm : (dosStates rep).Perm (dosStates other) := by
  apply flatMap_perm_of_entries _ reordered
  rintro entry next (rfl | ⟨name, dos, dos', rfl, rfl, perm⟩)
  · exact List.Perm.refl _
  · exact perm.filterMap _

theorem targetModes_perm : (targetModes rep).Perm (targetModes other) :=
  flatMap_perm_of_entries (values_perm_of_flat fun _ _ => rfl) reordered

theorem operationalModes_perm :
    (operationalModes rep).Perm (operationalModes other) :=
  flatMap_perm_of_entries (values_perm_of_flat fun _ _ => rfl) reordered

theorem owners_perm : (owners rep).Perm (owners other) :=
  flatMap_perm_of_entries (values_perm_of_flat fun _ _ => rfl) reordered

theorem all_entryOk_reordered : other.all entryOk = rep.all entryOk := by
  obtain ⟨middle, perm, pointwise⟩ := reordered
  rw [perm.all_eq]
  clear perm
  induction pointwise with
  | nil => rfl
  | cons here _ ih =>
      rw [List.all_cons, List.all_cons, ih]
      rcases here with rfl | ⟨name, dos, dos', rfl, rfl, perm⟩
      · rfl
      · simp only [entryOk, perm.all_eq]

end

private theorem ownerLocked_lastOr {s : Option DosType}
    {states : List (Option DosType)}
    (same : ∀ state ∈ states, ownerLocked state = ownerLocked s) :
    ownerLocked (lastOr s states) = ownerLocked s := by
  unfold lastOr
  cases last : states.getLast? with
  | none => rfl
  | some state => exact same state (List.mem_of_getLast? last)

theorem ownersAdmitted_eq {s : Option DosType}
    (same : owners rep ≠ [] →
      ∀ state ∈ dosStates rep, ownerLocked state = ownerLocked s) :
    ownersAdmitted s rep = ((owners rep).isEmpty || !ownerLocked s) := by
  cases given : owners rep with
  | nil =>
      clear same
      induction rep generalizing s with
      | nil => rfl
      | cons entry rep ih =>
          simp only [owners, List.flatMap_cons, List.append_eq_nil_iff]
            at given
          rw [ownersAdmitted, given.1, @ih _ given.2]
          rfl
  | cons first rest =>
      have agree := same (by simp [given])
      rw [← given]
      clear given same
      induction rep generalizing s with
      | nil => rfl
      | cons entry rep ih =>
          simp only [dosStates, List.flatMap_cons, List.forall_mem_append]
            at agree
          have lock := ownerLocked_lastOr agree.1
          have later : ∀ state ∈ dosStates rep, ownerLocked state =
              ownerLocked (lastOr s (entryDosStates entry)) := by
            rw [lock]
            exact agree.2
          rw [ownersAdmitted, ih later, lock]
          cases locked : ownerLocked s with
          | false => simp
          | true =>
              simp only [owners, List.flatMap_cons, Bool.not_true,
                Bool.or_false]
              cases entryOwners entry with
              | nil => rfl
              | cons _ _ => rfl

theorem decodePstatEntries_reordered {device : Device}
    (orderly : rep.all entryOk = true → OrderlyPost device rep)
    (reordered : Reordered rep other) :
    decodePstatEntries other device.pstat.startDecode =
      decodePstatEntries rep device.pstat.startDecode := by
  rw [decodePstatEntries_eq, decodePstatEntries_eq,
    all_entryOk_reordered reordered]
  by_cases ok : rep.all entryOk = true
  · have post := orderly ok
    have sameDos := post.dosStates.eq_of_perm (dosStates_perm reordered)
    have sameTm := post.targetModes.eq_of_perm (targetModes_perm reordered)
    have sameOm :=
      post.operationalModes.eq_of_perm (operationalModes_perm reordered)
    have sameOwners := post.owners.eq_of_perm (owners_perm reordered)
    have requested : device.pstat.startDecode.requested other =
        device.pstat.startDecode.requested rep := by
      simp only [PstatDecode.requested, sameDos, sameTm, sameOm, sameOwners]
    have locks := post.locks
    rw [← sameOwners, ← sameDos] at locks
    have admitted : ownersAdmitted (some device.pstat.s) other =
        ownersAdmitted (some device.pstat.s) rep := by
      rw [ownersAdmitted_eq locks, ownersAdmitted_eq post.locks, sameOwners]
    rw [requested, Pstat.startDecode_s, admitted]
  · rw [if_neg (fun all => ok all.1), if_neg (fun all => ok all.1)]

end Reorderings

section Events

variable {env : DeviceEnv} {input : ResetInput} {rep : Rep} {device : Device}

theorem validTransition_iff (before after : DosType) :
    validTransition before (some after) = true ↔
      OcfTransition before after := by
  cases before with
  | _ => cases after with
    | _ => simp [validTransition, OcfTransition]

theorem ocfTransition_reset (before : DosType) :
    OcfTransition before .reset := by
  cases before with
  | _ => simp [OcfTransition]

theorem handleTargetMode_cases (ps : PstatDecode) (device : Device) :
    ocPstatHandleTargetMode ps device = (ps, device) ∨
    ∃ action, ps.targetMode = true ∧ targetModeAction ps.tm = some action ∧
      ocPstatHandleTargetMode ps device =
        ({ ps with tm := 0 }, { device with
          swupdateActions := device.swupdateActions ++ [action] }) := by
  unfold ocPstatHandleTargetMode
  cases asked : ps.targetMode with
  | false => exact .inl rfl
  | true =>
      cases wanted : targetModeAction ps.tm with
      | none =>
          refine .inl ?_
          rw [if_pos rfl]
      | some action =>
          refine .inr ⟨action, rfl, rfl, ?_⟩
          rw [if_pos rfl]

theorem transitionAdmitted_of_update (ps : PstatDecode)
    (actions : List SwupdateAction) :
    transitionAdmitted { device with swupdateActions := actions }
        { ps with tm := 0 } =
      transitionAdmitted device ps := by
  unfold transitionAdmitted
  cases ps.s with
  | none => rfl
  | some s => cases s with
    | _ => rfl

theorem ocSecDecodePstat_cases
    (notInProgress : device.pstat.resetInProgress = false) :
    ocSecDecodePstat env input rep device = (false, device) ∨
    rep.all entryOk = true ∧
    ownersAdmitted (some device.pstat.s) rep = true ∧
    ∃ tm actions, PstatOutcome
      { device.pstat.startDecode.requested rep with tm := tm }
      { device with swupdateActions := actions }
      (ocSecDecodePstat env input rep device) := by
  unfold ocSecDecodePstat
  rw [decodePstatEntries_eq]
  split_ifs with decoded
  · refine .inr ⟨decoded.1, decoded.2, ?_⟩
    rcases handleTargetMode_cases (device.pstat.startDecode.requested rep)
      device with same | ⟨action, -, -, same⟩
    · simp only [same]
      exact ⟨_, _, pstatOutcome notInProgress⟩
    · simp only [same]
      refine ⟨0, device.swupdateActions ++ [action], pstatOutcome ?_⟩
      exact notInProgress
  · exact .inl rfl

theorem PstatOutcome.follows {ps : PstatDecode} {result : Bool × Device}
    (outcome : PstatOutcome ps device result)
    (notInProgress : device.pstat.resetInProgress = false) :
    (result.2.pstat.s = device.pstat.s ∨
      OcfTransition device.pstat.s result.2.pstat.s) ∧
      result.2.pstat.resetInProgress = false := by
  cases outcome with
  | refused => exact ⟨.inl rfl, notInProgress⟩
  | updated named valid =>
      exact ⟨.inr ((validTransition_iff _ _).mp valid), notInProgress⟩
  | scheduled named scheduled =>
      rw [scheduled]
      exact ⟨.inr (ocfTransition_reset _), rfl⟩
  | onboarding named valid rfotm cleared =>
      refine ⟨.inr ?_, cleared⟩
      rw [rfotm]
      exact (validTransition_iff _ _).mp valid
  | owned named valid =>
      exact ⟨.inr ((validTransition_iff _ _).mp valid), notInProgress⟩

theorem follows_pstatPost
    (notInProgress : device.pstat.resetInProgress = false) :
    ((ocSecDecodePstat env input rep device).2.pstat.s = device.pstat.s ∨
      OcfTransition device.pstat.s
        (ocSecDecodePstat env input rep device).2.pstat.s) ∧
      (ocSecDecodePstat env input rep device).2.pstat.resetInProgress =
        false := by
  rcases @ocSecDecodePstat_cases env input rep device notInProgress with
    same | ⟨-, -, tm, actions, outcome⟩
  · rw [same]
    exact ⟨.inl rfl, notInProgress⟩
  · exact outcome.follows notInProgress

theorem follows_forced
    (notInProgress : device.pstat.resetInProgress = false) :
    ((ocResetDeviceV1 env input true device).2.pstat.s = device.pstat.s ∨
      (ocResetDeviceV1 env input true device).2.pstat.s = .rfotm) ∧
      (ocResetDeviceV1 env input true device).2.pstat.resetInProgress =
        false := by
  cases success : (ocResetDeviceV1 env input true device).1 with
  | true =>
      obtain ⟨rfotm, -, cleared⟩ := pstat_of_success success
      exact ⟨.inr rfotm, cleared⟩
  | false =>
      rw [ocResetDeviceV1_force] at success ⊢
      split_ifs at success ⊢
      · exact ⟨.inl rfl, notInProgress⟩
      · exact ⟨.inl rfl, rfl⟩

/-- Every event follows the table of transitions. -/
theorem follows_step (event : DeviceEvent)
    (notInProgress : device.pstat.resetInProgress = false) :
    FollowsOcf event device (device.step env event) ∧
      (device.step env event).pstat.resetInProgress = false := by
  cases event with
  | pstatPost rep input =>
      obtain ⟨follows, cleared⟩ :=
        @follows_pstatPost env input rep device notInProgress
      refine ⟨?_, cleared⟩
      rcases follows with same | transition
      · exact .inl same
      · exact .inr (.inl transition)
  | reset force input =>
      cases force with
      | false =>
          simp only [Device.step, Device.handle, ocResetDeviceV1,
            Bool.false_eq_true, if_false, setDelayedReset]
          split_ifs
          · exact ⟨.inl rfl, notInProgress⟩
          · exact ⟨.inr (.inl (ocfTransition_reset _)), rfl⟩
      | true =>
          obtain ⟨same | rfotm, cleared⟩ :=
            @follows_forced env input device notInProgress
          · exact ⟨.inl same, cleared⟩
          · refine ⟨.inr (.inr ⟨rfl, ocfTransition_reset _, .inr rfotm⟩),
              cleared⟩
  | delayedReset input =>
      simp only [Device.step, Device.handle, IotivityLite.delayedReset]
      split_ifs
      · obtain ⟨same | rfotm, cleared⟩ := @follows_forced env input
          { device with delayedReset := false } notInProgress
        · exact ⟨.inl same, cleared⟩
        · refine ⟨.inr (.inr ⟨rfl, ocfTransition_reset _, .inr rfotm⟩),
            cleared⟩
      · exact ⟨.inl rfl, notInProgress⟩
  | doxmPost => exact ⟨.inl rfl, notInProgress⟩
  | aclPost => exact ⟨.inl rfl, notInProgress⟩
  | aclDelete => exact ⟨.inl rfl, notInProgress⟩
  | credPost => exact ⟨.inl rfl, notInProgress⟩
  | credDelete => exact ⟨.inl rfl, notInProgress⟩

private theorem not_refused_of_update {action : SwupdateAction}
    (post : OrderlyPost device rep)
    (admitted : ownersAdmitted (some device.pstat.s) rep = true)
    (asked : (device.pstat.startDecode.requested rep).targetMode = true)
    (wanted : targetModeAction (device.pstat.startDecode.requested rep).tm =
      some action) {result : Bool × Device}
    (outcome : PstatOutcome
      { device.pstat.startDecode.requested rep with tm := 0 }
      { device with swupdateActions := device.swupdateActions ++ [action] }
      result) : result.1 = true := by
  cases outcome with
  | refused transition update =>
      rw [transitionAdmitted_of_update] at transition
      have updates : targetModes rep ≠ [] := by
        simpa [PstatDecode.requested, Pstat.startDecode] using asked
      by_cases dos : dosStates rep = []
      · refine absurd ?_ (update (by
          simp [PstatDecode.requested, Pstat.startDecode, dos]))
        simp [PstatDecode.requested, dos]
      · have can := post.updates admitted
          ⟨_, lastOr_mem updates, Option.isSome_iff_exists.mpr ⟨_, wanted⟩⟩ dos
        rw [transition (by simp [PstatDecode.requested, dos])] at can
        cases can
  | _ => rfl

theorem error_of_orderly
    (notInProgress : device.pstat.resetInProgress = false)
    (orderly : rep.all entryOk = true → OrderlyPost device rep)
    (refused : (ocSecDecodePstat env input rep device).1 = false) :
    (ocSecDecodePstat env input rep device).2 = device := by
  unfold ocSecDecodePstat at refused ⊢
  rw [decodePstatEntries_eq] at refused ⊢
  by_cases decoded : rep.all entryOk = true ∧
      ownersAdmitted device.pstat.startDecode.s rep = true
  · rw [if_pos decoded] at refused ⊢
    rcases handleTargetMode_cases (device.pstat.startDecode.requested rep)
      device with same | ⟨action, asked, wanted, same⟩
    · simp only [same] at refused ⊢
      have outcome := @pstatOutcome env input
        (device.pstat.startDecode.requested rep) device notInProgress
      generalize applyPstat env input _ device = result at outcome refused ⊢
      cases outcome with
      | refused => rfl
      | _ => cases refused
    · -- the update is started before the transition is checked
      simp only [same] at refused
      have success := not_refused_of_update (orderly decoded.1) decoded.2
        asked wanted (@pstatOutcome env input _ _ notInProgress)
      rw [refused] at success
      cases success
  · rw [if_neg decoded]

theorem soundEvent_of_orderly {event : DeviceEvent}
    (notInProgress : device.pstat.resetInProgress = false)
    (orderly : OrderlyEvent device event) : SoundEvent env device event := by
  refine ⟨(follows_step event notInProgress).1, ?_⟩
  cases event with
  | pstatPost rep input =>
      constructor
      · intro refused
        rw [error_of_orderly notInProgress orderly refused]
        exact ⟨rfl, rfl⟩
      · intro other reordered
        unfold ocSecDecodePstat
        rw [decodePstatEntries_reordered orderly reordered]
  | _ => trivial

end Events

/-- In every run of orderly events each event keeps what is promised. -/
theorem sound_of_orderly (env : DeviceEnv) {start : Device}
    {events : List DeviceEvent}
    (notInProgress : start.pstat.resetInProgress = false)
    (orderly : Along (Device.step env) OrderlyEvent start events) :
    Along (Device.step env) (SoundEvent env) start events := by
  apply @Along.imp _ _ _ _ _ _
    (fun device : Device => device.pstat.resetInProgress = false) _ orderly
    notInProgress
  · intro before event notInProgress _
    exact (follows_step event notInProgress).2
  · intro before event notInProgress orderly
    exact soundEvent_of_orderly notInProgress orderly

section Samples

private theorem freshKey_ne_nil : ([2] : Bytes) ≠ [] :=
  List.cons_ne_nil 2 []

private def freshKeys : ResetInput :=
  ⟨Uuid.ofBytes [7], some ⟨[1], [2], freshKey_ne_nil⟩⟩

private def dosRep (s : Int) : Bytes × RepValue :=
  (ascii "dos", .object [(ascii "s", .int s)])

private def onboarding (rep : Rep) : List DeviceEvent :=
  [.reset true freshKeys, .pstatPost rep freshKeys]

/-- A device that was reset is told its operational mode. -/
theorem sound_of_orderly_mode :
    Along (Device.step DeviceEnv.bare) (SoundEvent DeviceEnv.bare)
      (Device.unstarted 0) (onboarding [(ascii "om", .int 1), dosRep 1]) :=
  sound_of_orderly DeviceEnv.bare rfl
    ⟨trivial,
      fun _ =>
        { dosStates := by decide
          targetModes := by decide
          operationalModes := by decide
          owners := by decide
          locks := by decide +kernel
          updates := by decide +kernel },
      trivial⟩

/-- A refused transition that still starts a software update. -/
private def lateUpdate : Rep := [(ascii "tm", .int 256), dosRep 4]

private def ownerRep : Bytes × RepValue :=
  (ascii "rowneruuid", .string (ascii "00000000-0000-0000-0000-00000000000f"))

/-- An owner that is refused because of the state in front of it. -/
private def ownerBetween : Rep := [dosRep 2, ownerRep, dosRep 1]

/-- Two requests, one of them refused after its update, the other one
depending on the order. -/
theorem not_sound :
    ¬ Along (Device.step DeviceEnv.bare) (SoundEvent DeviceEnv.bare)
      (Device.unstarted 0) (onboarding lateUpdate) ∧
    ¬ Along (Device.step DeviceEnv.bare) (SoundEvent DeviceEnv.bare)
      (Device.unstarted 0) (onboarding ownerBetween) := by
  constructor
  · rintro ⟨-, ⟨-, sound⟩, -⟩
    exact absurd (sound.error (by decide +kernel)).2 (by decide +kernel)
  · rintro ⟨-, ⟨-, sound⟩, -⟩
    have reordered : Reordered ownerBetween [ownerRep, dosRep 2, dosRep 1] :=
      ⟨_, List.Perm.swap _ _ _, List.forall₂_same.mpr fun _ _ => .inl rfl⟩
    have same := congrArg Prod.fst (sound.order _ reordered)
    exact absurd same (by decide +kernel)

end Samples

end IotivityLite
