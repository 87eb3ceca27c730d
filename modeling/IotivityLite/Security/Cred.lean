import IotivityLite.Oscore.SenderSequence
import IotivityLite.Security.Acl
import IotivityLite.Util.Base64

/-!
# Credentials

The credential list of `oc_cred.c` and the decoder of the credential
resource.  Like the access control list it is changed while the payload is
walked.  What the TLS library contributes is a parameter.
-/

namespace IotivityLite

inductive CredUsage where
  | null
  | trustca
  | identityCert
  | roleCert
  | mfgTrustca
  | mfgCert
  deriving DecidableEq, Repr

inductive CredEncoding where
  | unsupported
  | base64
  | raw
  | pem
  | handle
  deriving DecidableEq, Repr

/-! The values of `oc_sec_credtype_t`; a payload can bring any number. -/

namespace CredType

abbrev null : Int := 0
abbrev psk : Int := 1
abbrev cert : Int := 8
abbrev oscore : Int := 64
abbrev oscoreMcastClient : Int := 128
abbrev oscoreMcastServer : Int := 256

end CredType

/-- `oc_sec_encoded_data_t` and `oc_cred_data_t` -/
structure EncodedData where
  data : Bytes
  encoding : CredEncoding
  deriving DecidableEq

def EncodedData.empty : EncodedData := ⟨[], .unsupported⟩

/-- `oc_oscore_context_t` as far as it is given with its credential; ids that
are not given are empty. -/
structure OscoreParams where
  sendid : Bytes
  recvid : Bytes
  desc : Bytes
  ssn : Nat
  deriving DecidableEq

/-- The ids of an OSCORE context in a payload, as hexadecimal digits, with its
description and the sender sequence number it starts from. -/
structure OscoreIds where
  senderid : Option Bytes := none
  recipientid : Option Bytes := none
  desc : Option Bytes := none
  ssn : Nat := 0
  deriving DecidableEq

/-- A credential without role has an empty one. -/
structure Cred where
  address : Nat
  credid : Int
  credtype : Int
  credusage : CredUsage
  subjectuuid : Uuid
  role : Bytes
  authority : Bytes
  privatedata : EncodedData
  publicdata : EncodedData
  oscore : Option OscoreParams
  tag : Bytes
  ownerCred : Bool
  deriving DecidableEq

/-- `allocated` is the address of the next credential. -/
structure Creds where
  creds : List Cred
  rowneruuid : Uuid
  allocated : Nat
  deriving DecidableEq

namespace Creds

def ocSecGetCredByCredid (creds : Creds) (credid : Int) : Option Cred :=
  creds.creds.find? (·.credid == credid)

def ocSecFindCredsForSubject (creds : Creds) (subject : Uuid) : Option Cred :=
  creds.creds.find? (·.subjectuuid == subject)

def ocSecRemoveCred (creds : Creds) (cred : Cred) : Creds :=
  { creds with creds := creds.creds.eraseP (·.address == cred.address) }

/-- The list and whether there was such a credential. -/
def ocSecRemoveCredByCredid (creds : Creds) (credid : Int) : Creds × Bool :=
  match creds.ocSecGetCredByCredid credid with
  | none => (creds, false)
  | some cred => (creds.ocSecRemoveCred cred, true)

/-- The credentials at the address are changed, of which there is one. -/
def update (creds : Creds) (address : Nat) (change : Cred → Cred) : Creds :=
  { creds with
    creds := creds.creds.map fun cred =>
      if cred.address = address then change cred else cred }

end Creds

structure EcdsaKeypair where
  publicKey : Bytes
  privateKey : Bytes
  privateKey_ne_nil : privateKey ≠ []
  deriving DecidableEq

/-- The TLS library as the credential list uses it.  Certificates are parsed
by it, `allocCred` tells if there is memory for the next record, and
`randomValues` is what `oc_random_value` gives while its id is looked for;
`rawMemory` is what a freshly allocated key of 16 bytes holds. -/
structure CredEnv where
  parsePublicKey : Bytes → Option Bytes
  parseCnForUuid : Bytes → Option Bytes
  parseRoleCertificate : Bytes → Option (Bytes × Bytes)
  oscoreContext : OscoreIds → Cred → Bool
  deriveOwnerPsk : (oxm : Bytes) → (device owner : Uuid) → Option Bytes
  allocCred : (address : Nat) → Bool
  randomValues : (address : Nat) → List UInt32
  rawMemory : Bytes

def ocCredEncodingFromString (text : Bytes) : CredEncoding :=
  if text = ascii "oic.sec.encoding.base64" then .base64
  else if text = ascii "oic.sec.encoding.raw" then .raw
  else if text = ascii "oic.sec.encoding.handle" then .handle
  else if text = ascii "oic.sec.encoding.pem" then .pem
  else .unsupported

def ocCredUsageFromString (text : Bytes) : CredUsage :=
  if text = ascii "oic.sec.cred.trustca" then .trustca
  else if text = ascii "oic.sec.cred.cert" then .identityCert
  else if text = ascii "oic.sec.cred.rolecert" then .roleCert
  else if text = ascii "oic.sec.cred.mfgtrustca" then .mfgTrustca
  else if text = ascii "oic.sec.cred.mfgcert" then .mfgCert
  else .null

structure CredDecode where
  credid : Int := -1
  credtype : Int := CredType.null
  credusage : CredUsage := .null
  subjectuuid : Option Bytes := none
  privatedata : EncodedData := EncodedData.empty
  publicdata : EncodedData := EncodedData.empty
  role : Option Bytes := none
  authority : Option Bytes := none
  oscore : OscoreIds := {}
  ownerCred : Bool := false
  tag : Option Bytes := none

def isValidOscoreId (id : Bytes) : Bool :=
  id.length == 14 && id.all fun digit =>
    (48 ≤ digit && digit ≤ 57) || (65 ≤ digit && digit ≤ 70) ||
      (97 ≤ digit && digit ≤ 102)

/-- `privatedata` and `publicdata`; an unknown encoding is an error. -/
def credDecodeData : Rep → EncodedData → Option EncodedData
  | [], data => some data
  | (name, .string value) :: rep, data =>
      if name = ascii "encoding" then
        match ocCredEncodingFromString value with
        | .unsupported => none
        | encoding => credDecodeData rep { data with encoding := encoding }
      else if name = ascii "data" then
        credDecodeData rep { data with data := value }
      else credDecodeData rep data
  | (name, .byteString value) :: rep, data =>
      if name = ascii "data" then
        credDecodeData rep { data with data := value }
      else credDecodeData rep data
  | _ :: rep, data => credDecodeData rep data

/-- The type of the value is not looked at; only texts are modelled. -/
def credDecodeRoleid : Rep → CredDecode → CredDecode
  | [], decode => decode
  | (name, .string value) :: rep, decode =>
      if name = ascii "role" then
        credDecodeRoleid rep { decode with role := some value }
      else if name = ascii "authority" then
        credDecodeRoleid rep { decode with authority := some value }
      else credDecodeRoleid rep decode
  | _ :: rep, decode => credDecodeRoleid rep decode

def credDecodeOscore (fromStorage : Bool) : Rep → OscoreIds → Option OscoreIds
  | [], ids => some ids
  | (name, .string value) :: rep, ids =>
      if name = ascii "senderid" then
        if isValidOscoreId value then
          credDecodeOscore fromStorage rep { ids with senderid := some value }
        else none
      else if name = ascii "recipientid" then
        if isValidOscoreId value then
          credDecodeOscore fromStorage rep
            { ids with recipientid := some value }
        else none
      else if name = ascii "desc" then
        credDecodeOscore fromStorage rep { ids with desc := some value }
      else none
  | (name, .int value) :: rep, ids =>
      if name = ascii "ssn" ∧ fromStorage then
        credDecodeOscore fromStorage rep
          { ids with ssn := (value % 2 ^ 64).toNat }
      else none
  | _ :: _, _ => none

def credDecodeProperty (fromStorage : Bool) (name : Bytes) (value : RepValue)
    (decode : CredDecode) : Option CredDecode :=
  match value with
  | .int value =>
      if name = ascii "credid" then
        some { decode with credid := Int.bmod value (2 ^ 32) }
      else if name = ascii "credtype" then
        some { decode with credtype := value % 2 ^ 32 }
      else some decode
  | .string value =>
      if name = ascii "subjectuuid" then
        some { decode with subjectuuid := some value }
      else if name = ascii "credusage" then
        some { decode with credusage := ocCredUsageFromString value }
      else if name = ascii "tag" then some { decode with tag := some value }
      else some decode
  | .object rep =>
      if name = ascii "privatedata" then
        (credDecodeData rep decode.privatedata).map fun data =>
          { decode with privatedata := data }
      else if name = ascii "publicdata" then
        (credDecodeData rep decode.publicdata).map fun data =>
          { decode with publicdata := data }
      else if name = ascii "roleid" then some (credDecodeRoleid rep decode)
      else if name = ascii "oscore" then
        (credDecodeOscore fromStorage rep decode.oscore).map fun ids =>
          { decode with oscore := ids }
      else some decode
  | .bool value =>
      if name = ascii "owner_cred" then
        some { decode with ownerCred := value }
      else some decode
  | _ => some decode

def credDecodeFrom (fromStorage : Bool) :
    Rep → CredDecode → Option CredDecode
  | [], decode => some decode
  | (name, value) :: rep, decode =>
      (credDecodeProperty fromStorage name value decode).bind
        (credDecodeFrom fromStorage rep)

/-- The ids an OSCORE credential must and must not have; its secret has 32
bytes. -/
def CredDecode.oscoreOk (decode : CredDecode) : Bool :=
  let ids := decode.oscore
  let secretOk := decode.privatedata.data.length == 32
  if decode.credtype = CredType.oscore then
    ids.senderid.isSome && ids.recipientid.isSome && secretOk &&
      ids.desc.isNone
  else if decode.credtype = CredType.oscoreMcastClient then
    ids.senderid.isSome && ids.recipientid.isNone && secretOk
  else if decode.credtype = CredType.oscoreMcastServer then
    ids.recipientid.isSome && ids.senderid.isNone && secretOk
  else true

/-- A stored text keeps a terminating zero, which counts except for PEM. -/
def ocCredDataIsEqualToEncodedData (stored given : EncodedData) : Bool :=
  stored.encoding == given.encoding &&
    (if stored.encoding = .pem ∨ stored.data = [] then stored.data
      else stored.data ++ [0]) == given.data

def ocSecCredSetSubject (subjectuuid : Option Bytes) (credusage : CredUsage) :
    Option Uuid :=
  match subjectuuid with
  | none =>
      if credusage = .roleCert then some (Uuid.ofBytes [42]) else none
  | some text =>
      if text.head? = some 42 then some (Uuid.ofBytes [42])
      else some (ocStrToUuid text Uuid.nil)

def credCheckSymmetricKeyLength (size : Nat) : Bool :=
  size == 16 || size == 32

/-- `oc_cred_set_privatedata`; `none` when the key is refused. -/
def ocCredSetPrivatedata (credtype : Int) (given : EncodedData) :
    Option EncodedData :=
  if credtype = CredType.psk then
    if given.encoding = .base64 then
      if given.data.length > 64 then none
      else match ocBase64Decode given.data with
        | none => none
        | some key =>
            if credCheckSymmetricKeyLength key.length then some ⟨key, .raw⟩
            else none
    else if credCheckSymmetricKeyLength given.data.length then some given
    else none
  else some given

section Add

variable (env : CredEnv)

/-- The certificate names the UUID. -/
def checkUuidFromCertRaw (publicdata : Bytes) (uuid : Uuid) : Bool :=
  env.parseCnForUuid publicdata == some (ocUuidToStr uuid)

/-- The device's own key pair, if the certificate is for it.  There is a
public key to compare with only where a certificate was parsed. -/
def ocSecGetValidEcdsaKeypair (keypair : Option EcdsaKeypair)
    (deviceuuid : Uuid) (publicKey : Option Bytes) (publicdata : Bytes) :
    Option EcdsaKeypair :=
  keypair.filter fun own =>
    match publicKey with
    | none => false
    | some publicKey =>
        own.publicKey.take publicKey.length == publicKey &&
          checkUuidFromCertRaw env publicdata deviceuuid

/-- The key pair that an identity certificate without private key needs;
`none` when it does not fit. -/
def identityKeypair (keypair : Option EcdsaKeypair) (deviceuuid : Uuid)
    (decode : CredDecode) (publicKey : Option Bytes) :
    Option (Option EcdsaKeypair) :=
  if decode.credusage = .identityCert ∧ decode.privatedata.data = [] then
    (ocSecGetValidEcdsaKeypair env keypair deviceuuid publicKey
      decode.publicdata.data).map some
  else some none

/-- The role and authority of a role certificate, which an explicit role
overrides. -/
def credRole (decode : CredDecode) : Option (Bytes × Bytes) :=
  (if decode.credusage = .roleCert then
      env.parseRoleCertificate decode.publicdata.data
    else some ([], [])).map fun (role, authority) =>
      match decode.role with
      | none => (role, authority)
      | some explicit => (explicit, decode.authority.getD authority)

/-- The key that is stored. -/
def credPrivatedata (keypair : Option EcdsaKeypair) (decode : CredDecode) :
    Option EncodedData :=
  if decode.privatedata.data ≠ [] then
    ocCredSetPrivatedata decode.credtype decode.privatedata
  else some (match keypair with
    | none => EncodedData.empty
    | some own => ⟨own.privateKey, .raw⟩)

/-- `get_new_credid` takes the first random value that is no id of a list yet.
The record of the new credential is in the list already, with the id zero.
Values that run out stand for a loop that goes on. -/
def getNewCredid (credids : List Int) (values : List UInt32) : Option Int :=
  let drawn := values.map fun value : UInt32 => Int.ofNat (value >>> 1).toNat
  drawn.find? fun credid => credid != 0 && !credids.contains credid

/-- The id that is given, or a new one. -/
def credCredid (creds : Creds) (decode : CredDecode) : Option Int :=
  if decode.credid = -1 then
    getNewCredid (creds.creds.map (·.credid))
      (env.randomValues creds.allocated)
  else some decode.credid

/-- `cred_create`: the credential to be appended to the list. -/
def credCreate (creds : Creds) (decode : CredDecode) (subject : Uuid)
    (keypair : Option EcdsaKeypair) : Option Cred :=
  if env.allocCred creds.allocated then
    (credRole env decode).bind fun (role, authority) =>
      (credCredid env creds decode).bind fun credid =>
        (credPrivatedata keypair decode).map fun privatedata =>
          { address := creds.allocated
            credid := credid
            credtype := decode.credtype
            credusage := decode.credusage
            subjectuuid := subject
            role := role
            authority := authority
            privatedata := privatedata
            publicdata :=
              if decode.publicdata.data = [] then EncodedData.empty
              else decode.publicdata
            oscore := none
            tag := decode.tag.getD []
            ownerCred := false }
  else none

def ocCredIsDuplicate (cred : Cred) (decode : CredDecode) (subject : Uuid) :
    Bool :=
  cred.credtype == decode.credtype && cred.subjectuuid == subject &&
    ocCredDataIsEqualToEncodedData cred.privatedata decode.privatedata &&
    cred.tag == decode.tag.getD [] && cred.credusage == decode.credusage &&
    ocCredDataIsEqualToEncodedData cred.publicdata decode.publicdata

def secMatchCredWithPublicdata (cred : Cred) (decode : CredDecode) : Bool :=
  cred.credusage == decode.credusage && decode.publicdata.data != [] &&
    ocCredDataIsEqualToEncodedData cred.publicdata decode.publicdata &&
    cred.tag == decode.tag.getD []

/-- What the credentials of the subject say about a new one. -/
inductive SubjectScan where
  | unrelated
  | replaces (cred : Cred)
  | duplicates (credid : Int)

/-- The loop over the credentials of the subject. -/
def scanSubject (decode : CredDecode) (subject : Uuid) :
    List Cred → SubjectScan
  | [] => .unrelated
  | cred :: creds =>
      if cred.subjectuuid = subject ∧ cred.credtype = decode.credtype then
        if cred.credid = decode.credid then .replaces cred
        else if decode.credtype = CredType.cert ∧
            secMatchCredWithPublicdata cred decode then
          .duplicates cred.credid
        else scanSubject decode subject creds
      else scanSubject decode subject creds

/-- A new credential is appended; a refused one leaves the list as it is. -/
def addCreated (creds : Creds) (decode : CredDecode) (subject : Uuid)
    (keypair : Option EcdsaKeypair) : Creds × Option Int :=
  match credCreate env creds decode subject keypair with
  | none => ({ creds with allocated := creds.allocated + 1 }, none)
  | some cred =>
      ({ creds with
          creds := creds.creds ++ [cred]
          allocated := creds.allocated + 1 }, some cred.credid)

/-- After the entry with the same credid, if any, is out of the list. -/
def addScanned (creds : Creds) (decode : CredDecode) (subject : Uuid)
    (keypair : Option EcdsaKeypair) : Creds × Option Int :=
  match scanSubject decode subject creds.creds with
  | .duplicates credid => (creds, some credid)
  | .replaces cred =>
      addCreated env (creds.ocSecRemoveCred cred) decode subject keypair
  | .unrelated => addCreated env creds decode subject keypair

/-- The public key of a certificate, and nothing for another type; `none` when
it cannot be parsed. -/
def credPublicKey (decode : CredDecode) : Option (Option Bytes) :=
  if decode.credtype = CredType.cert then
    (env.parsePublicKey decode.publicdata.data).map some
  else some none

/-- `oc_sec_add_new_cred` for the credential resource; `none` stands for the
result -1. -/
def ocSecAddNewCred (keypair : Option EcdsaKeypair) (deviceuuid : Uuid)
    (decode : CredDecode) (creds : Creds) : Creds × Option Int :=
  match credPublicKey env decode with
  | none => (creds, none)
  | some publicKey =>
      match ocSecCredSetSubject decode.subjectuuid decode.credusage,
          identityKeypair env keypair deviceuuid decode publicKey with
      | some subject, some own =>
          match creds.ocSecGetCredByCredid decode.credid with
          | none => addScanned env creds decode subject own
          | some existing =>
              if ocCredIsDuplicate existing decode subject then
                (creds, some decode.credid)
              else
                addScanned env (creds.ocSecRemoveCred existing) decode
                  subject own
      | _, _ => (creds, none)

end Add

/-- The list while a payload is applied, with the address of the owner
credential that was found last. -/
structure CredApply where
  creds : Creds
  owner : Option Nat := none

section Decode

variable (env : CredEnv) (keypair : Option EcdsaKeypair) (deviceuuid : Uuid)

/-- `oc_conv_hex_string_to_byte_array` for an even number of digits. -/
def ocConvHexStringToByteArray : Bytes → Bytes
  | high :: low :: digits =>
      (uuidDigit high <<< 4 ||| uuidDigit low) ::
        ocConvHexStringToByteArray digits
  | _ => []

/-- `oc_oscore_add_context`, as far as the context is given by the payload.
The description is a text that ends with a zero. -/
def ocOscoreAddContext (fromStorage : Bool) (ids : OscoreIds) :
    OscoreParams where
  sendid := (ids.senderid.map ocConvHexStringToByteArray).getD []
  recvid := (ids.recipientid.map ocConvHexStringToByteArray).getD []
  desc := (ids.desc.getD []).takeWhile (· ≠ 0)
  ssn := if fromStorage then SenderState.resumeSsn ids.ssn else ids.ssn

/-- What is set on a credential once it is in the list; `none` when its
OSCORE context cannot be created. -/
def finishCred (fromStorage : Bool) (decode : CredDecode) (cred : Cred)
    (state : CredApply) : Bool × CredApply :=
  let ids := decode.oscore
  if ids.senderid.isSome || ids.recipientid.isSome then
    if env.oscoreContext ids cred then
      (true, owned cred.address
        { state with
          creds := state.creds.update cred.address fun cred =>
            { cred with
              oscore := some (ocOscoreAddContext fromStorage ids)
              ownerCred := decode.ownerCred } })
    else (false, state)
  else
    (true, owned cred.address
      { state with
        creds := state.creds.update cred.address fun cred =>
          { cred with ownerCred := decode.ownerCred } })
where
  /-- A symmetric key that is not given is the owner's; the storage is read
  without looking for the owner. -/
  owned (address : Nat) (state : CredApply) : CredApply :=
    if decode.credtype = CredType.psk ∧ decode.privatedata.data = [] ∧
        fromStorage = false then
      { creds := state.creds.update address fun cred =>
          { cred with ownerCred := true }
        owner := some address }
    else state

/-- One entry of the array; an empty one is skipped. -/
def decodeCredsItem (fromStorage : Bool) (item : Rep) (state : CredApply) :
    Bool × CredApply :=
  match credDecodeFrom fromStorage item {} with
  | none => (false, state)
  | some decode =>
      if decode.oscoreOk then
        if item.isEmpty then (true, state)
        else
          match ocSecAddNewCred env keypair deviceuuid decode state.creds with
          | (creds, none) => (false, { state with creds := creds })
          | (creds, some credid) =>
              match creds.ocSecGetCredByCredid credid with
              | none => (true, { state with creds := creds })
              | some cred =>
                  finishCred env fromStorage decode cred
                    { state with creds := creds }
      else (false, state)

def decodeCredsItems (fromStorage : Bool) :
    List Rep → CredApply → Bool × CredApply
  | [], state => (true, state)
  | item :: items, state =>
      match decodeCredsItem env keypair deviceuuid fromStorage item state with
      | (false, state) => (false, state)
      | (true, state) => decodeCredsItems fromStorage items state

/-- The first loop: what the provisioning state forbids. -/
def credForbidden (dos : DosType) : Bytes × RepValue → Bool
  | (name, .string _) =>
      name == ascii "rowneruuid" && dos != .rfotm && dos != .sreset
  | (_, .objectArray _) => dos != .rfotm && dos != .sreset && dos != .rfpro
  | _ => false

/-- One round of the second loop. -/
def decodeCredEntry (fromStorage : Bool) (entry : Bytes × RepValue)
    (state : CredApply) : Bool × CredApply :=
  match entry with
  | (name, .string value) =>
      if name = ascii "rowneruuid" then
        (true, { state with
          creds := { state.creds with
            rowneruuid := ocStrToUuid value state.creds.rowneruuid } })
      else (true, state)
  | (name, .objectArray items) =>
      if name = ascii "creds" ∨ name = ascii "roles" then
        decodeCredsItems env keypair deviceuuid fromStorage items state
      else (true, state)
  | _ => (true, state)

def decodeCredEntries (fromStorage : Bool) :
    Rep → CredApply → Bool × CredApply
  | [], state => (true, state)
  | entry :: rep, state =>
      match decodeCredEntry env keypair deviceuuid fromStorage entry state with
      | (false, state) => (false, state)
      | (true, state) => decodeCredEntries fromStorage rep state

/-- `oc_sec_decode_cred` for the credential resource. -/
def ocSecDecodeCred (dos : DosType) (fromStorage : Bool) (rep : Rep)
    (creds : Creds) : Bool × CredApply :=
  if !fromStorage && rep.any (credForbidden dos) then (false, { creds })
  else decodeCredEntries env keypair deviceuuid fromStorage rep { creds }

/-- The label that the owner's key is derived with. -/
def oxmLabel (oxmsel : Int) : Option Bytes :=
  if oxmsel = 0 then some (ascii "oic.sec.doxm.jw")
  else if oxmsel = 1 then some (ascii "oic.sec.doxm.rdp")
  else if oxmsel = 2 then some (ascii "oic.sec.doxm.mfgcert")
  else none

/-- The owner's key is derived from the session when the owner of the list
is the subject of an owner credential. -/
def deriveOwnerKey (oxmsel : Int) (creds : Creds) (owner : Cred) :
    Bool × Creds :=
  if owner.subjectuuid = creds.rowneruuid then
    match oxmLabel oxmsel with
    | none =>
        (true, creds.update owner.address fun cred =>
          { cred with privatedata := ⟨env.rawMemory, .raw⟩ })
    | some label =>
        match env.deriveOwnerPsk label deviceuuid owner.subjectuuid with
        | none => (false, creds)
        | some key =>
            (true, creds.update owner.address fun cred =>
              { cred with privatedata := ⟨key, .raw⟩ })
  else (true, creds)

/-- `oc_sec_apply_cred` for the credential resource.  An owner credential that
a later part of the payload has replaced is not looked at any more. -/
def ocSecApplyCred (dos : DosType) (oxmsel : Int) (rep : Rep)
    (creds : Creds) : Bool × Creds :=
  let (success, state) :=
    ocSecDecodeCred env keypair deviceuuid dos false rep creds
  let owner := state.owner.bind fun address =>
    state.creds.creds.find? (·.address == address)
  match owner with
  | none => (success, state.creds)
  | some owner =>
      let (success, creds) :=
        if success then deriveOwnerKey env deviceuuid oxmsel state.creds owner
        else (false, state.creds)
      if success then (true, creds)
      else (false, (creds.ocSecRemoveCredByCredid owner.credid).1)

end Decode

/-- `cred_resource_delete`: the answer is whether anything was deleted.
`credid` is the value of the query parameter of that name; without it the
whole list goes. -/
def credResourceDelete (dos : DosType) (credid : Option Int) (creds : Creds) :
    Creds × Bool :=
  if dos = .rfnop then (creds, false)
  else match credid with
    | none => ({ creds with creds := [] }, true)
    | some credid =>
        if credid > 2 ^ 31 - 1 ∨ credid < 0 then (creds, false)
        else creds.ocSecRemoveCredByCredid credid

def ocSecCredDefault (creds : Creds) : Creds :=
  { creds with creds := [], rowneruuid := Uuid.nil }

section NormalOperation

variable {env : CredEnv} {keypair : Option EcdsaKeypair} {deviceuuid : Uuid}

private theorem decodeCredEntries_of_admitted {fromStorage : Bool} {rep : Rep}
    {state : CredApply}
    (admitted : ∀ entry ∈ rep, credForbidden .rfnop entry = false) :
    decodeCredEntries env keypair deviceuuid fromStorage rep state =
      (true, state) := by
  induction rep with
  | nil => rfl
  | cons entry rep ih =>
      rw [List.forall_mem_cons] at admitted
      obtain ⟨name, value⟩ := entry
      have same : decodeCredEntry env keypair deviceuuid fromStorage
          (name, value) state = (true, state) := by
        cases value with
        | string value =>
            have other : name ≠ ascii "rowneruuid" := by
              simpa [credForbidden] using admitted.1
            simp [decodeCredEntry, other]
        | objectArray items => cases admitted.1
        | _ => rfl
      unfold decodeCredEntries
      rw [same]
      exact ih admitted.2

theorem ocSecApplyCred_rfnop (oxmsel : Int) (rep : Rep) (creds : Creds) :
    (ocSecApplyCred env keypair deviceuuid .rfnop oxmsel rep creds).2 =
      creds := by
  have decoded : ∃ success, ocSecDecodeCred env keypair deviceuuid .rfnop
      false rep creds = (success, { creds }) := by
    unfold ocSecDecodeCred
    cases forbidden : rep.any (credForbidden .rfnop) with
    | true => exact ⟨false, rfl⟩
    | false =>
        refine ⟨true, ?_⟩
        rw [List.any_eq_false] at forbidden
        apply decodeCredEntries_of_admitted
        intro entry member
        rw [← Bool.not_eq_true]
        exact forbidden entry member
  obtain ⟨success, decoded⟩ := decoded
  unfold ocSecApplyCred
  rw [decoded]
  rfl

theorem credResourceDelete_rfnop (credid : Option Int) (creds : Creds) :
    credResourceDelete .rfnop credid creds = (creds, false) := rfl

end NormalOperation

end IotivityLite
