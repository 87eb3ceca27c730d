import IotivityLite.Security.Rep
import Mathlib.Data.List.Basic

/-!
# Access control entries

The entries of `oc_ace.c`: their subjects and resources, the two lookups, and
the decoders of one entry and of its resources.  Allocation always succeeds
in this model and assertions are off.
-/

namespace IotivityLite

inductive AceConnectionType where
  | authCrypt
  | anonClear
  deriving DecidableEq, Repr

inductive AceWildcard where
  | noWc
  | all
  | allSecured
  | allPublic
  deriving DecidableEq, Repr

def AceWildcard.bits : AceWildcard → UInt16
  | noWc => 0
  | all => 0x111
  | allSecured => 0x01
  | allPublic => 0x10

/-- A role without authority has an empty one. -/
inductive AceSubject where
  | uuid (uuid : Uuid)
  | role (role authority : Bytes)
  | conn (type : AceConnectionType)
  deriving DecidableEq

/-- A resource without href has an empty one. -/
structure AceRes where
  href : Bytes
  wildcard : AceWildcard
  deriving DecidableEq

/-- `address` stands for the pointer to the entry. -/
structure Ace where
  address : Nat
  aceid : Int
  permission : UInt16
  subject : AceSubject
  tag : Option Bytes
  resources : List AceRes
  deriving DecidableEq

def ocAceHasMatchingTag (ace : Ace) (tag : Option Bytes) : Bool :=
  ace.tag == tag

/-- An entry for a role without authority matches the role under every
authority. -/
def ocAceHasMatchingSubject (ace : Ace) : AceSubject → Bool
  | .uuid uuid =>
      match ace.subject with
      | .uuid own => own == uuid
      | _ => false
  | .role role authority =>
      match ace.subject with
      | .role ownRole ownAuthority =>
          role == ownRole &&
            (ownAuthority == [] || authority == ownAuthority)
      | _ => false
  | .conn type =>
      match ace.subject with
      | .conn own => type == own
      | _ => false

/-- What `oc_sec_ace_find_subject` looks for: an aceid of -1, a permission of
0 and an absent tag to match stand for any. -/
structure AceQuery where
  subject : AceSubject
  aceid : Int
  permission : UInt16
  tag : Option (Option Bytes)

def AceQuery.accepts (query : AceQuery) (ace : Ace) : Bool :=
  (query.aceid == -1 || ace.aceid == query.aceid) &&
  (query.permission == 0 || ace.permission == query.permission) &&
  (match query.tag with
    | none => true
    | some tag => ocAceHasMatchingTag ace tag) &&
  ocAceHasMatchingSubject ace query.subject

def ocSecAceFindSubject (aces : List Ace) (query : AceQuery) : Option Ace :=
  aces.find? query.accepts

/-- `uri` may come without its leading slash. -/
def ocResourceMatchUri (canonical uri : Bytes) : Bool :=
  if uri.head?.any (· ≠ 47) then uri == canonical.drop 1 else uri == canonical

def aceResMatchWildCard (wc reswc : UInt16) : Bool :=
  if wc = AceWildcard.all.bits then reswc == AceWildcard.all.bits
  else wc &&& reswc != 0

/-- The body of the loop of `ace_res_find_resource`. -/
def aceResMatches (href : Option Bytes) (wildcard : UInt16) (res : AceRes) :
    Bool :=
  let hrefAsked := href.isSome && res.href != []
  let hrefMatches := href.any (ocResourceMatchUri res.href)
  let wildcardAsked := wildcard != 0 && res.wildcard != .noWc
  let wildcardMatches := aceResMatchWildCard wildcard res.wildcard.bits
  (!hrefAsked || hrefMatches) && (!wildcardAsked || wildcardMatches) &&
    (hrefAsked || wildcardAsked)

def ocSecAceFindResource (ace : Ace) (href : Option Bytes)
    (wildcard : UInt16) : Option AceRes :=
  ace.resources.find? (aceResMatches href wildcard)

/-- `none` when neither href nor wildcard is given. -/
def ocSecAddNewAceRes (href : Option Bytes) (wildcard : AceWildcard) :
    Option AceRes :=
  if wildcard = .noWc ∧ href = none then none
  else some ⟨href.getD [], wildcard⟩

/-- The entry with the resource in it, and whether it had to be added. -/
def ocSecAceGetOrAddRes (ace : Ace) (href : Option Bytes)
    (wildcard : AceWildcard) : Option (Ace × Bool) :=
  match ocSecAceFindResource ace href wildcard.bits with
  | some _ => some (ace, false)
  | none =>
      (ocSecAddNewAceRes href wildcard).map fun res =>
        ({ ace with resources := ace.resources ++ [res] }, true)

def ocAceConnectionTypeFromString (text : Bytes) : Option AceConnectionType :=
  if text = ascii "auth-crypt" then some .authCrypt
  else if text = ascii "anon-clear" then some .anonClear
  else none

def ocAceWildcardFromString (text : Bytes) : Option AceWildcard :=
  if text = ascii "*" then some .all
  else if text = ascii "+" then some .allSecured
  else if text = ascii "-" then some .allPublic
  else none

structure AceSubjectDecode where
  uuid : Option Bytes := none
  role : Option Bytes := none
  authority : Option Bytes := none
  conntype : Option Bytes := none

def aceDecodeSubjectStringProperty (name value : Bytes)
    (decode : AceSubjectDecode) : Option AceSubjectDecode :=
  if name = ascii "uuid" then some { decode with uuid := some value }
  else if name = ascii "role" then some { decode with role := some value }
  else if name = ascii "authority" then
    some { decode with authority := some value }
  else if name = ascii "conntype" then
    some { decode with conntype := some value }
  else none

def aceDecodeSubjectProperties : Rep → AceSubjectDecode →
    Option AceSubjectDecode
  | [], decode => some decode
  | (name, .string value) :: rep, decode =>
      (aceDecodeSubjectStringProperty name value decode).bind
        (aceDecodeSubjectProperties rep)
  | _ :: _, _ => none

def AceSubjectDecode.subject (decode : AceSubjectDecode) : Option AceSubject :=
  match decode.uuid with
  | some uuid =>
      if decode.role.isSome || decode.authority.isSome ||
          decode.conntype.isSome then
        none
      else (ocStrToUuidV1 uuid).map .uuid
  | none =>
      match decode.role with
      | some role =>
          if decode.conntype.isSome then none
          else some (.role role (decode.authority.getD []))
      | none =>
          if decode.authority.isSome then none
          else decode.conntype.bind fun conntype =>
            (ocAceConnectionTypeFromString conntype).map .conn

def aceDecodeSubject (rep : Rep) : Option AceSubject :=
  (aceDecodeSubjectProperties rep {}).bind AceSubjectDecode.subject

/-- A subject that was not given is all zero, which is the nil UUID. -/
structure AceDecode where
  aceid : Int := -1
  permission : UInt16 := 0
  subject : Option AceSubject := none
  resources : List Rep := []
  tag : Option Bytes := none

def AceDecode.subjectOrZero (decode : AceDecode) : AceSubject :=
  decode.subject.getD (.uuid Uuid.nil)

/-- A conversion from `int64_t`. -/
def uint16OfInt (value : Int) : UInt16 :=
  UInt16.ofNat (value % 65536).toNat

def aceDecodeIntProperty (name : Bytes) (value : Int) (decode : AceDecode) :
    Option AceDecode :=
  if name = ascii "permission" then
    if value > 65535 then none
    else some { decode with permission := uint16OfInt value }
  else if name = ascii "aceid" then
    if value > 2 ^ 31 - 1 then none
    else some { decode with aceid := Int.bmod value (2 ^ 32) }
  else none

def aceDecodeProperty (name : Bytes) (value : RepValue) (decode : AceDecode) :
    Option AceDecode :=
  match value with
  | .int value => aceDecodeIntProperty name value decode
  | .string value =>
      if name = ascii "tag" then some { decode with tag := some value }
      else if name = ascii "href" then some decode
      else none
  | .object rep =>
      if name = ascii "subject" then
        (aceDecodeSubject rep).map fun subject =>
          { decode with subject := some subject }
      else none
  | .objectArray items =>
      if name = ascii "resources" then
        some { decode with resources := items }
      else none
  | .nil | .array => if name = ascii "resources" then some decode else none
  | _ => none

def ocSecDecodeAceFrom : Rep → AceDecode → Option AceDecode
  | [], decode => some decode
  | (name, value) :: rep, decode =>
      (aceDecodeProperty name value decode).bind (ocSecDecodeAceFrom rep)

def ocSecDecodeAce (rep : Rep) : Option AceDecode := ocSecDecodeAceFrom rep {}

structure AceResDecode where
  href : Option Bytes := none
  wildcard : AceWildcard := .noWc
  deriving DecidableEq

def aceDecodeResourceFrom : Rep → AceResDecode → Option AceResDecode
  | [], decode => some decode
  | (name, .string value) :: rep, decode =>
      if name = ascii "href" then
        aceDecodeResourceFrom rep { decode with href := some value }
      else if name = ascii "wc" then
        (ocAceWildcardFromString value).bind fun wildcard =>
          aceDecodeResourceFrom rep { decode with wildcard := wildcard }
      else none
  | (name, .stringArray _) :: rep, decode =>
      if name = ascii "if" then aceDecodeResourceFrom rep decode else none
  | _ :: _, _ => none

def aceDecodeResource (rep : Rep) : Option AceResDecode :=
  aceDecodeResourceFrom rep {}

end IotivityLite
