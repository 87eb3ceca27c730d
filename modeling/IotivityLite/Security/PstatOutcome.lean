import IotivityLite.Security.Reset

/-!
# What a request to the provisioning status can do

One case for each way through `oc_pstat_handle_state`.  Everything that is
proved about requests to the provisioning status goes through these cases.
-/

namespace IotivityLite

/-- What the device needs for a state: no other reset pending, no owner for
the onboarding, and a complete owner for the other states. -/
def stateAdmitted (device : Device) (ps : PstatDecode) : DosType → Bool
  | .reset => !ocResetInProgress device
  | .rfotm =>
      !device.doxm.owned && nilUuid device.doxm.devowneruuid &&
        !device.pstat.isop
  | .rfpro =>
      pstatCheckState (ownedPstat (ps.pstat device.pstat .rfpro) 0 false)
        device
  | .rfnop =>
      pstatCheckState (ownedPstat (ps.pstat device.pstat .rfnop) 0 true)
        device
  | .sreset =>
      pstatCheckState (ownedPstat (ps.pstat device.pstat .sreset) 1 false)
        device

/-- The transition that is asked for is valid and the device has what it
needs for it. -/
def transitionAdmitted (device : Device) (ps : PstatDecode) : Bool :=
  validTransition device.pstat.s ps.s && ps.s.any (stateAdmitted device ps)

/-- The answer to a decoded request and the device after it. -/
inductive PstatOutcome (ps : PstatDecode) (device : Device) :
    Bool × Device → Prop where
  | refused
      (transition : ps.transitionState = true →
        transitionAdmitted device ps = false)
      (update : ps.transitionState = false → ps.s ≠ some device.pstat.s) :
      PstatOutcome ps device (false, device)
  | updated {s : DosType} (named : ps.s = some s)
      (valid : validTransition device.pstat.s (some s) = true)
      (update : ps.transitionState = false) :
      PstatOutcome ps device
        (true, { device with pstat := ps.pstat device.pstat s })
  | scheduled {after : Device} (named : ps.s = some .reset)
      (pstat : after.pstat = { resetPstat false with p := true }) :
      PstatOutcome ps device (true, after)
  | onboarding {after : Device} (named : ps.s = some .rfotm)
      (valid : validTransition device.pstat.s (some .rfotm) = true)
      (rfotm : after.pstat.s = .rfotm)
      (notInProgress : after.pstat.resetInProgress = false) :
      PstatOutcome ps device (true, after)
  | owned {s : DosType} {cm : Nat} {isop : Bool} {observers : List Observer}
      (named : ps.s = some s)
      (valid : validTransition device.pstat.s (some s) = true)
      (checked : pstatCheckState
        (ownedPstat (ps.pstat device.pstat s) cm isop) device = true) :
      PstatOutcome ps device
        (true, { device with
          pstat :=
            { ownedPstat (ps.pstat device.pstat s) cm isop with p := false }
          observers := observers })

section Outcomes

variable {env : DeviceEnv} {input : ResetInput} {ps : PstatDecode}
  {device : Device}

theorem validTransition_self (s : DosType) :
    validTransition s (some s) = true := by
  cases s with
  | _ => rfl

private theorem transitionAdmitted_eq {s : DosType} (named : ps.s = some s)
    (valid : validTransition device.pstat.s (some s) = true) :
    transitionAdmitted device ps = stateAdmitted device ps s := by
  rw [transitionAdmitted, named, valid, Option.any_some, Bool.true_and]

private theorem refused_of_not_admitted
    (transition : ps.transitionState = true)
    (refused : transitionAdmitted device ps = false) :
    PstatOutcome ps device (false, device) :=
  .refused (fun _ => refused) (by simp [transition])

private theorem enterRfotm_outcome
    (notInProgress : device.pstat.resetInProgress = false)
    (transition : ps.transitionState = true) (named : ps.s = some .rfotm)
    (valid : validTransition device.pstat.s (some .rfotm) = true) :
    PstatOutcome ps device
      (enterRfotm env (ps.pstat device.pstat .rfotm) device) := by
  have admitted := transitionAdmitted_eq named valid
  cases can : transitionAdmitted device ps with
  | true =>
      rw [can] at admitted
      simp only [stateAdmitted, Bool.true_eq, Bool.and_eq_true,
        Bool.not_eq_true', nilUuid, beq_iff_eq] at admitted
      obtain ⟨⟨notOwned, devowneruuid⟩, notOperational⟩ := admitted
      rw [enterRfotm_of_unowned notOwned devowneruuid
        (show (ps.pstat device.pstat .rfotm).isop = false from
          notOperational)]
      cases preset : env.presets with
      | none => exact .onboarding named valid rfl notInProgress
      | some callback =>
          have kept := env.presets_pstat callback preset
          refine .onboarding named valid ?_ ?_
          · exact congrArg Pstat.s (kept _)
          · exact (congrArg Pstat.resetInProgress (kept _)).trans
              notInProgress
  | false =>
      rw [can] at admitted
      have same : { device with
          pstat := { device.pstat with resetInProgress := false } } =
            device := by
        rw [← notInProgress]
      unfold enterRfotm
      rw [if_pos, same]
      · exact refused_of_not_admitted transition can
      · simp only [stateAdmitted, Bool.false_eq, Bool.and_eq_false_iff,
          Bool.not_eq_false'] at admitted
        rcases admitted with (owned | owner) | operational
        · simp [owned]
        · simp [owner]
        · simp [operational, pstatCheckPsState, PstatDecode.pstat]

private theorem enterOwned_outcome {s : DosType} {cm : Nat} {isop : Bool}
    (transition : ps.transitionState = true) (named : ps.s = some s)
    (valid : validTransition device.pstat.s (some s) = true)
    (needs : stateAdmitted device ps s =
      pstatCheckState (ownedPstat (ps.pstat device.pstat s) cm isop) device) :
    PstatOutcome ps device
      (enterOwned (ownedPstat (ps.pstat device.pstat s) cm isop) device) := by
  unfold enterOwned
  split_ifs with checked
  · exact .owned named valid checked
  · apply refused_of_not_admitted transition
    rw [transitionAdmitted_eq named valid, needs]
    exact Bool.eq_false_of_not_eq_true checked

private theorem handleRfnop_outcome
    (transition : ps.transitionState = true) (named : ps.s = some .rfnop)
    (valid : validTransition device.pstat.s (some .rfnop) = true) :
    PstatOutcome ps device (ocPstatHandleState env input
      (ps.pstat device.pstat .rfnop) device) := by
  let ps' := ownedPstat (ps.pstat device.pstat .rfnop) 0 true
  show PstatOutcome ps device (if (enterOwned ps' device).1 then
    (true, coapRemoveObserversOnDosChange env false (enterOwned ps' device).2)
    else (false, (enterOwned ps' device).2))
  cases checked : pstatCheckState ps' device with
  | true =>
      rw [enterOwned, if_pos checked, if_pos rfl]
      exact .owned named valid checked
  | false =>
      rw [enterOwned, if_neg (Bool.eq_false_iff.mp checked),
        if_neg Bool.false_ne_true]
      apply refused_of_not_admitted transition
      rw [transitionAdmitted_eq named valid]
      exact checked

private theorem setDelayedReset_outcome
    (transition : ps.transitionState = true) (named : ps.s = some .reset)
    (valid : validTransition device.pstat.s (some .reset) = true) :
    PstatOutcome ps device (setDelayedReset env device) := by
  unfold setDelayedReset
  split_ifs with pending
  · apply refused_of_not_admitted transition
    rw [transitionAdmitted_eq named valid, stateAdmitted, pending]
    rfl
  · exact .scheduled named rfl

theorem pstatOutcome (notInProgress : device.pstat.resetInProgress = false) :
    PstatOutcome ps device (applyPstat env input ps device) := by
  unfold applyPstat
  cases valid : validTransition device.pstat.s ps.s with
  | false =>
      refine .refused (fun _ => by simp [transitionAdmitted, valid]) ?_
      rintro - same
      rw [same, validTransition_self] at valid
      cases valid
  | true =>
      rw [if_pos rfl]
      cases named : ps.s with
      | none =>
          exact .refused (fun _ => by simp [transitionAdmitted, named])
            (by simp [named])
      | some s =>
          rw [named] at valid
          cases transition : ps.transitionState with
          | false => exact .updated named valid transition
          | true =>
              cases s with
              | reset => exact setDelayedReset_outcome transition named valid
              | rfotm =>
                  exact enterRfotm_outcome notInProgress transition named valid
              | rfpro => exact enterOwned_outcome transition named valid rfl
              | rfnop =>
                  exact @handleRfnop_outcome env input ps device transition
                    named valid
              | sreset => exact enterOwned_outcome transition named valid rfl

end Outcomes

end IotivityLite
