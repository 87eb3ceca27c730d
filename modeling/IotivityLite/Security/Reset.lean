import IotivityLite.Security.Device

/-!
# What a reset leaves behind

A forced reset that succeeds ends in `RFOTM` with everything cleared, whatever
the device was in before: with a delayed reset pending, or after a reset that
failed half-way.  The application's callback for factory presets is the only
thing that can add to it.
-/

namespace IotivityLite

/-- Nothing of an owner is left. -/
structure Cleared (device : Device) : Prop where
  rfotm : device.pstat.s = .rfotm
  notInProgress : device.pstat.resetInProgress = false
  noDelayedReset : device.delayedReset = false
  noCreds : device.creds.creds = []
  noAces : device.acl.aces = []
  noRoles : ∀ peer ∈ device.peers, peer.endpoint.device = device.index →
    peer.roles = []
  noObservers : ∀ observer ∈ device.observers,
    observer.endpoint.device ≠ device.index
  notOwned : device.doxm.owned = false
  devowneruuid : device.doxm.devowneruuid = Uuid.nil
  pstatRowneruuid : device.pstat.rowneruuid = Uuid.nil
  doxmRowneruuid : device.doxm.rowneruuid = Uuid.nil
  aclRowneruuid : device.acl.rowneruuid = Uuid.nil
  credsRowneruuid : device.creds.rowneruuid = Uuid.nil

section Resets

variable {env : DeviceEnv} {input : ResetInput} {device : Device}

theorem roles_eq_nil_of_mem_ocSecFreeRolesForDevice {index : Nat}
    {peers : List TlsPeer} {peer : TlsPeer}
    (member : peer ∈ ocSecFreeRolesForDevice index peers)
    (own : peer.endpoint.device = index) : peer.roles = [] := by
  obtain ⟨before, -, rfl⟩ := List.mem_map.mp member
  by_cases isOwn : before.endpoint.device = index
  · rw [if_pos isOwn]
  · rw [if_neg isOwn] at own
    exact absurd own isOwn

/-- The device that is handed to the callback for factory presets. -/
def resetDevice (env : DeviceEnv) (input : ResetInput) (device : Device) :
    Device :=
  { coapRemoveObserversOnDosChange env true (clearDevice input device) with
    pstat := { resetPstat false with p := true, s := .rfotm, cm := 2, tm := 0 } }

theorem cleared_resetDevice : Cleared (resetDevice env input device) where
  rfotm := rfl
  notInProgress := rfl
  noDelayedReset := rfl
  noCreds := rfl
  noAces := rfl
  noRoles := fun _ member own =>
    roles_eq_nil_of_mem_ocSecFreeRolesForDevice member own
  noObservers := by
    intro observer member
    have kept := (List.mem_filter.mp member).2
    simp only [Bool.true_or, Bool.and_true, Bool.not_eq_true',
      beq_eq_false_iff_ne] at kept
    exact kept
  notOwned := rfl
  devowneruuid := rfl
  pstatRowneruuid := rfl
  doxmRowneruuid := rfl
  aclRowneruuid := rfl
  credsRowneruuid := rfl

theorem enterRfotm_of_unowned {ps : Pstat}
    (notOwned : device.doxm.owned = false)
    (devowneruuid : device.doxm.devowneruuid = Uuid.nil)
    (notOperational : ps.isop = false) :
    enterRfotm env ps device =
      let entered := { device with
        pstat := { ps with p := true, s := .rfotm, cm := 2, tm := 0 } }
      let preset := env.presets.elim entered fun callback => callback entered
      (true, { preset with pstat := { preset.pstat with p := false } }) := by
  unfold enterRfotm
  rw [if_neg]
  simp [notOwned, devowneruuid, notOperational, nilUuid, pstatCheckPsState]

theorem ocResetDeviceV1_force :
    ocResetDeviceV1 env input true device =
      if device.pstat.resetInProgress then (false, device)
      else if input.keypair.isSome then
        let handed := resetDevice env input device
        let preset := env.presets.elim handed fun callback => callback handed
        (true, { preset with pstat := { preset.pstat with p := false } })
      else
        (false, { clearDevice input device with
          pstat := { device.pstat with resetInProgress := false } }) := by
  show enterReset env input _ device = _
  unfold enterReset
  split_ifs
  · rfl
  · exact enterRfotm_of_unowned rfl rfl rfl
  · rfl

theorem forced_of_success
    (success : (ocResetDeviceV1 env input true device).1 = true) :
    let handed := resetDevice env input device
    let preset := env.presets.elim handed fun callback => callback handed
    (ocResetDeviceV1 env input true device).2 =
      { preset with pstat := { preset.pstat with p := false } } ∧
    preset.pstat = handed.pstat := by
  intro handed preset
  rw [ocResetDeviceV1_force] at success ⊢
  split_ifs at success ⊢
  refine ⟨rfl, ?_⟩
  cases given : env.presets with
  | none => simp only [preset, given, Option.elim_none]
  | some callback =>
      simp only [preset, given, Option.elim_some]
      exact env.presets_pstat callback given handed

theorem pstat_of_success
    (success : (ocResetDeviceV1 env input true device).1 = true) :
    (ocResetDeviceV1 env input true device).2.pstat.s = .rfotm ∧
    (ocResetDeviceV1 env input true device).2.pstat.p = false ∧
    (ocResetDeviceV1 env input true device).2.pstat.resetInProgress =
      false := by
  obtain ⟨after, pstat⟩ := forced_of_success success
  rw [after]
  refine ⟨?_, rfl, ?_⟩
  · exact congrArg Pstat.s pstat
  · exact congrArg Pstat.resetInProgress pstat

/-- A reset that succeeds is complete; one that meets another one in progress
changes nothing. -/
theorem reset_complete (env : DeviceEnv) (input : ResetInput)
    (device : Device) :
    let result := ocResetDeviceV1 env input true device
    (result.1 = true →
      result.2.pstat.s = .rfotm ∧ result.2.pstat.p = false ∧
      result.2.pstat.resetInProgress = false ∧
      (env.presets = none → Cleared result.2) ∧
      ∀ callback ∈ env.presets, ∃ handed, Cleared handed ∧
        result.2 = { callback handed with
          pstat := { (callback handed).pstat with p := false } }) ∧
    (device.pstat.resetInProgress = true → result = (false, device)) := by
  intro result
  constructor
  · intro success
    have handed : Cleared (resetDevice env input device) := cleared_resetDevice
    obtain ⟨rfotm, pending, notInProgress⟩ := pstat_of_success success
    obtain ⟨after, -⟩ := forced_of_success success
    refine ⟨rfotm, pending, notInProgress, ?_, ?_⟩
    · intro none
      rw [none] at after
      rw [after]
      exact { handed with }
    · intro callback given
      rw [Option.mem_def.mp given] at after
      exact ⟨_, handed, after⟩
  · intro inProgress
    have equation : result = _ := ocResetDeviceV1_force
    rw [equation, if_pos inProgress]

end Resets

private def drawn : ResetInput :=
  ⟨Uuid.ofBytes [7], some ⟨[1], [2], List.cons_ne_nil 2 []⟩⟩

/-- A device that is owned, with a delayed reset pending. -/
private def pendingDevice : Device :=
  { Device.unstarted 0 with
    pstat := { resetPstat false with p := true }
    doxm := ⟨0, 9, true, Uuid.ofBytes [1], Uuid.ofBytes [2], Uuid.ofBytes [1]⟩
    acl := ⟨[⟨0, 1, 2, .conn .anonClear, none, []⟩], Uuid.ofBytes [1], 1⟩
    delayedReset := true }

theorem reset_complete_pending :
    Cleared (ocResetDeviceV1 DeviceEnv.bare drawn true pendingDevice).2 :=
  ((reset_complete DeviceEnv.bare drawn pendingDevice).1 rfl).2.2.2.1 rfl

end IotivityLite
