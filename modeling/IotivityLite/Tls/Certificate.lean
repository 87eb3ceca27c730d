import IotivityLite.Security.Cred

/-!
# Certificates of a peer

The fields of a parsed certificate that `oc_certs_validate.c` and
`oc_certs.c` read, and the checks on the certificates of a chain.  A check
reports whether the certificate passed, and the flags, which it may extend
even when the certificate fails.
-/

namespace IotivityLite

/-- A parsed certificate.  `isFuture` and `isPast` are what the library says
about its two dates, `afterSubject` is what follows the subject in `raw`, an
absent extension is `none`, and so is a key that cannot be extracted. -/
structure X509Crt where
  raw : Bytes
  version : Nat
  sigMd : Nat
  isEcdsa : Bool
  groupId : Nat
  isFuture : Bool
  isPast : Bool
  issuerRaw : Bytes
  subjectRaw : Bytes
  afterSubject : Bytes
  keyUsage : UInt32
  caIstrue : Bool
  maxPathlen : Nat
  extKeyUsage : Option (List Bytes)
  commonName : Option Bytes
  publicKey : Option Bytes
  deriving DecidableEq

/-- The masks of allowed digests and elliptic curves. -/
structure CertsConfig where
  allowedMds : UInt32
  allowedEcpGrpids : UInt32

namespace X509

abbrev badcertExpired : UInt32 := 0x01
abbrev badcertFuture : UInt32 := 0x0200
abbrev kuDigitalSignature : UInt32 := 0x80
abbrev kuKeyAgreement : UInt32 := 0x08
abbrev kuKeyCertSign : UInt32 := 0x04
abbrev kuCrlSign : UInt32 := 0x02
abbrev oidServerAuth : Bytes := [0x2b, 0x06, 0x01, 0x05, 0x05, 0x07, 0x03, 0x01]
abbrev oidClientAuth : Bytes := [0x2b, 0x06, 0x01, 0x05, 0x05, 0x07, 0x03, 0x02]
abbrev oidAnyExtendedKeyUsage : Bytes := [0x55, 0x1d, 0x25, 0x00]
abbrev identityCertOid : Bytes :=
  [0x2b, 0x06, 0x01, 0x04, 0x01, 0x82, 0xde, 0x7c, 0x01, 0x06]
abbrev roleCertOid : Bytes :=
  [0x2b, 0x06, 0x01, 0x04, 0x01, 0x82, 0xde, 0x7c, 0x01, 0x07]

end X509

/-- `certs_x509_id_flag_value` against a mask -/
def idIsAllowed (value : Nat) (mask : UInt32) : Bool :=
  0 < value && value < 32 && mask.toNat.testBit (value - 1)

section Validate

variable (config : CertsConfig)

def validateX509v1Fields (cert : X509Crt) (flags : UInt32) : Bool × UInt32 :=
  if !idIsAllowed cert.sigMd config.allowedMds then (false, flags)
  else if cert.version ≠ 3 then (false, flags)
  else
    let flags := if cert.isFuture then flags ||| X509.badcertFuture else flags
    let flags := if cert.isPast then flags ||| X509.badcertExpired else flags
    (cert.isEcdsa && idIsAllowed cert.groupId config.allowedEcpGrpids, flags)

/-- Either the lengths are equal or the bytes are: with a shorter subject the
comparison goes on into what follows it. -/
def X509Crt.isSelfIssued (cert : X509Crt) : Bool :=
  cert.issuerRaw.length == cert.subjectRaw.length ||
    (cert.subjectRaw ++ cert.afterSubject).take cert.issuerRaw.length ==
      cert.issuerRaw

/-- The fields beyond those of every certificate. -/
def nonEndEntityFieldsOk (cert : X509Crt) (isRoot isOtm : Bool)
    (depth : Nat) : Bool :=
  let optionalKeyUsage :=
    if isOtm then X509.kuDigitalSignature
    else X509.kuDigitalSignature ||| X509.kuCrlSign
  let keyUsage :=
    if isOtm then X509.kuKeyCertSign ||| X509.kuCrlSign
    else X509.kuKeyCertSign
  isRoot == cert.isSelfIssued &&
    cert.keyUsage &&& keyUsage == keyUsage &&
    cert.keyUsage &&& ~~~(optionalKeyUsage ||| keyUsage) == 0 &&
    cert.caIstrue &&
    (cert.maxPathlen == 0 || depth ≤ cert.maxPathlen) &&
    !(isOtm && !isRoot && cert.maxPathlen != 1)

def ocCertsValidateNonEndEntityCert (cert : X509Crt) (isRoot isOtm : Bool)
    (depth : Nat) (flags : UInt32) : Bool × UInt32 :=
  match validateX509v1Fields config cert flags with
  | (false, flags) => (false, flags)
  | (true, flags) => (nonEndEntityFieldsOk cert isRoot isOtm depth, flags)

def endEntityFieldsOk (checkExtendedKeyUsage : X509Crt → Bytes → Bool)
    (cert : X509Crt) : Bool :=
  let keyUsage := X509.kuDigitalSignature ||| X509.kuKeyAgreement
  let has := checkExtendedKeyUsage cert
  cert.keyUsage &&& keyUsage == keyUsage &&
    cert.keyUsage &&& ~~~keyUsage == 0 &&
    !(cert.caIstrue || cert.maxPathlen != 0) &&
    has X509.oidServerAuth && has X509.oidClientAuth &&
    has X509.identityCertOid && !has X509.roleCertOid &&
    !has X509.oidAnyExtendedKeyUsage

/-- `checkExtendedKeyUsage` is the library's test whether a certificate may
be used for a purpose. -/
def ocCertsValidateEndEntityCert
    (checkExtendedKeyUsage : X509Crt → Bytes → Bool) (cert : X509Crt)
    (flags : UInt32) : Bool × UInt32 :=
  match validateX509v1Fields config cert flags with
  | (false, flags) => (false, flags)
  | (true, flags) => (endEntityFieldsOk checkExtendedKeyUsage cert, flags)

end Validate

/-- What follows the first occurrence of the prefix. -/
def certsFindUuidPrefix : Bytes → Option Bytes
  | [] => none
  | byte :: bytes =>
      if (byte :: bytes).take 5 = ascii "uuid:" then
        some ((byte :: bytes).drop 5)
      else certsFindUuidPrefix bytes

def ocCertsParseCnBufferForUuid (commonName : Bytes) : Option Bytes :=
  if commonName.length ≤ 5 then none
  else match certsFindUuidPrefix commonName with
    | none => none
    | some rest => if rest.length < 36 then none else some (rest.take 36)

def ocCertsExtractCnForUuid (cert : X509Crt) : Option Bytes :=
  cert.commonName.bind ocCertsParseCnBufferForUuid

example : ocCertsParseCnBufferForUuid
    (ascii "uuid:00000000-0000-0000-0000-00000000000f") =
      some (ascii "00000000-0000-0000-0000-00000000000f") := by decide

end IotivityLite
