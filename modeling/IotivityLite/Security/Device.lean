import IotivityLite.Security.AccessCheck
import IotivityLite.Security.Doxm
import IotivityLite.Security.Pstat

/-!
# The security state of a device

`oc_pstat_handle_state`, the resets and the requests to the security
resources.  The device is in normal operation only after the state of all four
resources has been checked; a reset clears them one by one.
-/

namespace IotivityLite

structure Observer where
  resource : OcResource
  endpoint : OcEndpoint

/-- `delayedReset` says that the callback `delayed_reset` waits for its time;
it is never scheduled twice.  `swupdateActions` are the software updates that
were asked for. -/
structure Device where
  index : Nat
  pstat : Pstat
  doxm : Doxm
  acl : Acl
  creds : Creds
  keypair : Option EcdsaKeypair
  peers : List TlsPeer
  observers : List Observer
  delayedReset : Bool
  swupdateActions : List SwupdateAction

/-- What the device rests on: the build, random ids, the TLS library and the
application's callback for factory presets, which leaves the provisioning
status to the caller. -/
structure DeviceEnv where
  ocWkcore : Bool
  plgdTime : Bool
  resourceAccessInRfotm : Bool
  newAceid : NewAceid
  cred : CredEnv
  oxms : List Int
  presets : Option (Device → Device)
  presets_pstat : ∀ callback ∈ presets, ∀ device,
    (callback device).pstat = device.pstat

/-- What a reset draws: the new device UUID, and the key pair unless its
generation fails. -/
structure ResetInput where
  deviceuuid : Uuid
  keypair : Option EcdsaKeypair

/-- The memory of a device before it is started for the first time. -/
def Device.unstarted (index : Nat) : Device where
  index := index
  pstat :=
    { s := .reset, p := false, isop := false, cm := 0, tm := 0, om := 0
      sm := 0, rowneruuid := Uuid.nil, resetInProgress := false }
  doxm :=
    { oxmsel := 0, sct := 0, owned := false, devowneruuid := Uuid.nil
      deviceuuid := Uuid.nil, rowneruuid := Uuid.nil }
  acl := ⟨[], Uuid.nil, 0⟩
  creds := ⟨[], Uuid.nil, 0⟩
  keypair := none
  peers := []
  observers := []
  delayedReset := false
  swupdateActions := []

/-- An application without factory presets, and a TLS library that knows no
certificate. -/
def DeviceEnv.bare : DeviceEnv where
  ocWkcore := false
  plgdTime := false
  resourceAccessInRfotm := false
  newAceid := fun address _ => address + 1
  cred :=
    { parsePublicKey := fun _ => none
      parseCnForUuid := fun _ => none
      parseRoleCertificate := fun _ => none
      oscoreContext := fun _ _ => true
      deriveOwnerPsk := fun _ _ _ => none
      allocCred := fun _ => true
      randomValues := fun address => [(address.toUInt32 + 1) <<< 1]
      rawMemory := List.replicate 16 0 }
  oxms := [0]
  presets := none
  presets_pstat := by rintro _ ⟨⟩

def Device.accessState (env : DeviceEnv) (device : Device) : AccessState where
  ocPki := true
  ocWkcore := env.ocWkcore
  plgdTime := env.plgdTime
  resourceAccessInRfotm := env.resourceAccessInRfotm
  dos := device.pstat.s
  acl := device.acl
  creds := device.creds
  doxmRowneruuid := device.doxm.rowneruuid
  pstatRowneruuid := device.pstat.rowneruuid
  peers := device.peers

def nilUuid (uuid : Uuid) : Bool := uuid == Uuid.nil

/-- The owner is there and has a credential. -/
def ownerOk (creds : Creds) (uuid : Uuid) : Bool :=
  !nilUuid uuid && (creds.ocSecFindCredsForSubject uuid).isSome

def pstatCheckState (ps : Pstat) (device : Device) : Bool :=
  pstatCheckPsState ps && ownerOk device.creds ps.rowneruuid &&
    device.doxm.owned && !nilUuid device.doxm.devowneruuid &&
    !nilUuid device.doxm.deviceuuid &&
    ownerOk device.creds device.doxm.rowneruuid &&
    ownerOk device.creds device.acl.rowneruuid &&
    ownerOk device.creds device.creds.rowneruuid

def ocSecAclDefault (acl : Acl) : Acl :=
  { acl with aces := [], rowneruuid := Uuid.nil }

def ocSecFreeRolesForDevice (index : Nat) (peers : List TlsPeer) :
    List TlsPeer :=
  peers.map fun peer =>
    if peer.endpoint.device = index then { peer with roles := [] } else peer

/-- `coap_remove_observers_on_dos_change`: a reset removes every observer of
the device, another change those that may not read their resource any more. -/
def coapRemoveObserversOnDosChange (env : DeviceEnv) (reset : Bool)
    (device : Device) : Device :=
  { device with
    observers := device.observers.filter fun observer =>
      !(observer.endpoint.device == device.index &&
        (reset || !ocSecCheckAcl (device.accessState env) .get
          observer.resource observer.endpoint)) }

/-- From `RFOTM` on; the part of a reset that follows the clearing. -/
def enterRfotm (env : DeviceEnv) (ps : Pstat) (device : Device) :
    Bool × Device :=
  let ps := { ps with p := true, s := .rfotm, cm := 2, tm := 0 }
  if device.doxm.owned || !nilUuid device.doxm.devowneruuid ||
      !pstatCheckPsState ps then
    (false, { device with
      pstat := { device.pstat with resetInProgress := false } })
  else
    let device := { device with pstat := ps }
    let device := env.presets.elim device fun callback => callback device
    (true, { device with pstat := { device.pstat with p := false } })

/-- The resources in `RESET`; the status is still the old one. -/
def clearDevice (input : ResetInput) (device : Device) : Device :=
  { device with
    pstat := { device.pstat with resetInProgress := true }
    doxm := ocSecDoxmSetDefault input.deviceuuid
    acl := ocSecAclDefault device.acl
    creds := ocSecCredDefault device.creds
    peers := ocSecFreeRolesForDevice device.index device.peers
    keypair := input.keypair
    delayedReset := false }

/-- `ps` after the clearing. -/
def resetPstat (resetInProgress : Bool) : Pstat where
  s := .reset
  p := false
  isop := false
  cm := 1
  tm := 2
  om := 3
  sm := 4
  rowneruuid := Uuid.nil
  resetInProgress := resetInProgress

def enterReset (env : DeviceEnv) (input : ResetInput) (ps : Pstat)
    (device : Device) : Bool × Device :=
  if device.pstat.resetInProgress then (false, device)
  else
    let cleared := clearDevice input device
    if input.keypair.isSome then
      enterRfotm env (resetPstat ps.resetInProgress)
        (coapRemoveObserversOnDosChange env true cleared)
    else
      (false, { cleared with
        pstat := { cleared.pstat with resetInProgress := false } })

/-- The status in one of the states with an owner. -/
def ownedPstat (ps : Pstat) (cm : Nat) (isop : Bool) : Pstat :=
  { ps with p := true, cm := cm, tm := 0, isop := isop }

def enterOwned (ps : Pstat) (device : Device) : Bool × Device :=
  if pstatCheckState ps device then
    (true, { device with pstat := { ps with p := false } })
  else (false, device)

def ocPstatHandleState (env : DeviceEnv) (input : ResetInput) (ps : Pstat)
    (device : Device) : Bool × Device :=
  match ps.s with
  | .reset => enterReset env input ps device
  | .rfotm => enterRfotm env ps device
  | .rfpro => enterOwned (ownedPstat ps 0 false) device
  | .rfnop =>
      let (success, entered) := enterOwned (ownedPstat ps 0 true) device
      if success then
        (true, coapRemoveObserversOnDosChange env false entered)
      else (false, entered)
  | .sreset => enterOwned (ownedPstat ps 1 false) device

def ocResetInProgress (device : Device) : Bool :=
  device.pstat.resetInProgress || device.delayedReset

/-- The status is `RESET` until the callback comes. -/
def setDelayedReset (env : DeviceEnv) (device : Device) : Bool × Device :=
  if ocResetInProgress device then (false, device)
  else
    (true, { coapRemoveObserversOnDosChange env true device with
      pstat := { resetPstat false with p := true }
      delayedReset := true })

def ocPstatResetDevice (env : DeviceEnv) (input : ResetInput)
    (device : Device) : Bool × Device :=
  ocPstatHandleState env input (Device.unstarted device.index).pstat device

def ocResetDeviceV1 (env : DeviceEnv) (input : ResetInput) (force : Bool)
    (device : Device) : Bool × Device :=
  if force then ocPstatResetDevice env input device
  else setDelayedReset env device

/-- The callback comes: it is off the list when it returns. -/
def delayedReset (env : DeviceEnv) (input : ResetInput) (device : Device) :
    Device :=
  if device.delayedReset then
    (ocResetDeviceV1 env input true { device with delayedReset := false }).2
  else device

/-- The software update that the target mode asks for is started, and the
target mode is zero again. -/
def ocPstatHandleTargetMode (ps : PstatDecode) (device : Device) :
    PstatDecode × Device :=
  match if ps.targetMode then targetModeAction ps.tm else none with
  | none => (ps, device)
  | some action =>
      ({ ps with tm := 0 },
        { device with
          swupdateActions := device.swupdateActions ++ [action] })

/-- The decoded copy with the state it names. -/
def PstatDecode.pstat (ps : PstatDecode) (pstat : Pstat) (s : DosType) :
    Pstat :=
  { pstat with s := s, tm := ps.tm, om := ps.om, rowneruuid := ps.rowneruuid }

/-- The part after the decoding. -/
def applyPstat (env : DeviceEnv) (input : ResetInput) (ps : PstatDecode)
    (device : Device) : Bool × Device :=
  if validTransition device.pstat.s ps.s then
    match ps.s with
    | none => (false, device)
    | some s =>
        if ps.transitionState then
          if s = .reset then ocResetDeviceV1 env input false device
          else ocPstatHandleState env input (ps.pstat device.pstat s) device
        else (true, { device with pstat := ps.pstat device.pstat s })
  else (false, device)

def ocSecDecodePstat (env : DeviceEnv) (input : ResetInput) (rep : Rep)
    (device : Device) : Bool × Device :=
  match decodePstatEntries rep device.pstat.startDecode with
  | none => (false, device)
  | some ps =>
      let (ps, device) := ocPstatHandleTargetMode ps device
      applyPstat env input ps device

/-- `acl_resource_delete`; `aceid` is the number in the query, if there is
one. -/
def aclResourceDelete (dos : DosType) (aceid : Option Int) (acl : Acl) :
    Bool × Acl :=
  if dos = .rfnop then (false, acl)
  else match aceid with
    | none => (true, { acl with aces := [] })
    | some aceid =>
        if aceid = 0 then (false, acl)
        else
          let (acl, removed) := acl.removeByAceid aceid
          (removed.isSome, acl)

inductive DeviceEvent where
  | pstatPost (rep : Rep) (input : ResetInput)
  | doxmPost (doc : Bool) (rep : Rep)
  | aclPost (rep : Rep)
  | aclDelete (aceid : Option Int)
  | credPost (rep : Rep)
  | credDelete (credid : Option Int)
  | reset (force : Bool) (input : ResetInput)
  | delayedReset (input : ResetInput)

/-- What an event is answered, and the device after it. -/
def Device.handle (env : DeviceEnv) (device : Device) :
    DeviceEvent → Bool × Device
  | .pstatPost rep input => ocSecDecodePstat env input rep device
  | .doxmPost doc rep =>
      let (success, doxm) :=
        ocSecDecodeDoxm ⟨env.oxms, device.pstat.s, doc⟩ rep device.doxm
      (success, { device with doxm := doxm })
  | .aclPost rep =>
      let (success, decode) :=
        ocSecDecodeAcl env.newAceid device.pstat.s false rep device.acl
      (success, { device with acl := decode.acl })
  | .aclDelete aceid =>
      let (success, acl) :=
        aclResourceDelete device.pstat.s aceid device.acl
      (success, { device with acl := acl })
  | .credPost rep =>
      let (success, creds) :=
        ocSecApplyCred env.cred device.keypair device.doxm.deviceuuid
          device.pstat.s device.doxm.oxmsel rep device.creds
      (success, { device with creds := creds })
  | .credDelete credid =>
      let (creds, success) :=
        credResourceDelete device.pstat.s credid device.creds
      (success, { device with creds := creds })
  | .reset force input => ocResetDeviceV1 env input force device
  | .delayedReset input => (true, IotivityLite.delayedReset env input device)

def Device.step (env : DeviceEnv) (device : Device) (event : DeviceEvent) :
    Device :=
  (device.handle env event).2

end IotivityLite
