import IotivityLite.Security.Acl

/-!
# The owner transfer resource

`oc_sec_decode_doxm` of `oc_doxm.c` for requests.  The payload is decoded as a
whole before anything of it is applied.
-/

namespace IotivityLite

structure Doxm where
  oxmsel : Int
  sct : Int
  owned : Bool
  devowneruuid : Uuid
  deviceuuid : Uuid
  rowneruuid : Uuid
  deriving DecidableEq

/-- With certificates and OSCORE, as client and as server. -/
def doxmSctDefault : Int := 9 + 64 + 128 + 256

/-- The new device UUID is random. -/
def ocSecDoxmSetDefault (deviceuuid : Uuid) : Doxm where
  oxmsel := 4
  sct := doxmSctDefault
  owned := false
  devowneruuid := Uuid.nil
  deviceuuid := deviceuuid
  rowneruuid := Uuid.nil

structure DoxmDecode where
  deviceuuid : Option Bytes := none
  devowneruuid : Option Bytes := none
  rowneruuid : Option Bytes := none
  oxmsel : Option Int := none
  owned : Option Bool := none

/-- What a request is decoded against: the owner transfer methods, the
provisioning state and whether the peer is the onboarding one. -/
structure DoxmRequest where
  oxms : List Int
  dos : DosType
  doc : Bool

namespace DoxmRequest

variable (request : DoxmRequest)

def doxmDecodeBoolProperty (name : Bytes) (value : Bool)
    (decode : DoxmDecode) : Option DoxmDecode :=
  if name = ascii "owned" then
    if request.dos = .rfotm ∧ request.doc then
      some { decode with owned := some value }
    else none
  else none

/-- `sct` cannot be set by a request. -/
def doxmDecodeIntProperty (name : Bytes) (value : Int)
    (decode : DoxmDecode) : Option DoxmDecode :=
  let value := Int.bmod value (2 ^ 32)
  if name = ascii "oxmsel" then
    if request.dos = .rfotm ∧ ¬ request.doc ∧ value ∈ request.oxms then
      some { decode with oxmsel := some value }
    else none
  else none

def doxmStringPropertyIsWritable (allowedStates : List DosType) : Bool :=
  allowedStates.contains request.dos && request.doc

def doxmDecodeStringProperty (name value : Bytes) (decode : DoxmDecode) :
    Option DoxmDecode :=
  if name = ascii "deviceuuid" then
    if request.doxmStringPropertyIsWritable [.rfotm] then
      some { decode with deviceuuid := some value }
    else none
  else if name = ascii "devowneruuid" then
    if request.doxmStringPropertyIsWritable [.rfotm] then
      some { decode with devowneruuid := some value }
    else none
  else if name = ascii "rowneruuid" then
    if request.doxmStringPropertyIsWritable [.rfotm, .sreset] then
      some { decode with rowneruuid := some value }
    else none
  else none

def doxmDecodeProperty (name : Bytes) (value : RepValue)
    (decode : DoxmDecode) : Option DoxmDecode :=
  match value with
  | .bool value => request.doxmDecodeBoolProperty name value decode
  | .int value => request.doxmDecodeIntProperty name value decode
  | .string value => request.doxmDecodeStringProperty name value decode
  | _ => none

def doxmDecode : Rep → DoxmDecode → Option DoxmDecode
  | [], decode => some decode
  | (name, value) :: rep, decode =>
      (request.doxmDecodeProperty name value decode).bind (doxmDecode rep)

end DoxmRequest

def doxmDecodeCopy (decode : DoxmDecode) (doxm : Doxm) : Doxm where
  oxmsel := decode.oxmsel.getD doxm.oxmsel
  sct := doxm.sct
  owned := decode.owned.getD doxm.owned
  devowneruuid := decode.devowneruuid.elim doxm.devowneruuid
    fun text => ocStrToUuid text doxm.devowneruuid
  deviceuuid := decode.deviceuuid.elim doxm.deviceuuid
    fun text => ocStrToUuid text doxm.deviceuuid
  rowneruuid := decode.rowneruuid.elim doxm.rowneruuid
    fun text => ocStrToUuid text doxm.rowneruuid

def ocSecDecodeDoxm (request : DoxmRequest) (rep : Rep) (doxm : Doxm) :
    Bool × Doxm :=
  match request.doxmDecode rep {} with
  | none => (false, doxm)
  | some decode => (true, doxmDecodeCopy decode doxm)

section Closed

variable {request : DoxmRequest}

theorem doxmDecodeProperty_of_closed (notRfotm : request.dos ≠ .rfotm)
    (notSreset : request.dos ≠ .sreset) (name : Bytes) (value : RepValue)
    (decode : DoxmDecode) :
    request.doxmDecodeProperty name value decode = none := by
  have refused (states : List DosType) (few : states ⊆ [.rfotm, .sreset]) :
      request.doxmStringPropertyIsWritable states = false := by
    unfold DoxmRequest.doxmStringPropertyIsWritable
    rw [Bool.and_eq_false_iff, ← Bool.not_eq_true, List.contains_iff_mem]
    refine .inl fun member => ?_
    have listed := few member
    simp [notRfotm, notSreset] at listed
  cases value with
  | bool value =>
      simp [DoxmRequest.doxmDecodeProperty,
        DoxmRequest.doxmDecodeBoolProperty, notRfotm]
  | int value =>
      simp [DoxmRequest.doxmDecodeProperty,
        DoxmRequest.doxmDecodeIntProperty, notRfotm]
  | string value =>
      simp [DoxmRequest.doxmDecodeProperty,
        DoxmRequest.doxmDecodeStringProperty, refused]
  | _ => rfl

theorem ocSecDecodeDoxm_of_closed (notRfotm : request.dos ≠ .rfotm)
    (notSreset : request.dos ≠ .sreset) (rep : Rep) (doxm : Doxm) :
    (ocSecDecodeDoxm request rep doxm).2 = doxm := by
  cases rep with
  | nil => rfl
  | cons entry rep =>
      obtain ⟨name, value⟩ := entry
      simp [ocSecDecodeDoxm, DoxmRequest.doxmDecode,
        doxmDecodeProperty_of_closed notRfotm notSreset]

end Closed

end IotivityLite
