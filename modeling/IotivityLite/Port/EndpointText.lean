import IotivityLite.Port.AddressText

/-!
# Endpoints as texts

The two directions between endpoints and texts of `oc_endpoint.c`.  The reader
looks for the slash, the bracket and the colon in searches of their own; it
takes a host for a name when the last character is a letter, and any other
host without brackets for an IPv4 address.
-/

namespace IotivityLite

namespace EndpointText

open AddressText

/-- The flags of `transport_flags` that a scheme stands for. -/
structure TransportFlags where
  secured : Bool
  tcp : Bool
  deriving DecidableEq

/-- The member of `union dev_addr`, for which there are the flags `IPV4` and
`IPV6`. -/
inductive Address where
  | ipv4 (octets : Octets 4)
  | ipv6 (octets : Octets 16)
  deriving DecidableEq

structure Endpoint where
  flags : TransportFlags
  address : Address
  port : UInt16
  deriving DecidableEq

def endpointFlagsToScheme (flags : TransportFlags) : Bytes :=
  if flags.tcp then
    if flags.secured then ascii "coaps+tcp://" else ascii "coap+tcp://"
  else if flags.secured then ascii "coaps://"
  else ascii "coap://"

section Printer

variable (mixed : Octets 16 → Bool)

def ocEndpointAddressAndPortToCstring (endpoint : Endpoint)
    (bufferSize : Nat) : Option Bytes :=
  match endpoint.address with
  | .ipv4 octets =>
      ocIpv4AddressAndPortToString octets endpoint.port bufferSize
  | .ipv6 octets =>
      ocIpv6AddressAndPortToString mixed octets endpoint.port bufferSize

def ocEndpointToCstring (endpoint : Endpoint) (bufferSize : Nat) :
    Option Bytes :=
  match printed (endpointFlagsToScheme endpoint.flags) bufferSize with
  | none => none
  | some scheme =>
      (ocEndpointAddressAndPortToCstring mixed endpoint
        (bufferSize - scheme.length)).map (scheme ++ ·)

/-- The buffer is an `oc_string64_t`. -/
def ocEndpointToString (endpoint : Endpoint) : Option Bytes :=
  ocEndpointToCstring mixed endpoint 64

end Printer

def hasScheme (text : Bytes) (flags : TransportFlags) : Bool :=
  (endpointFlagsToScheme flags).length < text.length &&
    (endpointFlagsToScheme flags).isPrefixOf text

def parseEndpointFlags (text : Bytes) : Option TransportFlags :=
  if hasScheme text ⟨true, true⟩ then some ⟨true, true⟩
  else if hasScheme text ⟨false, true⟩ then some ⟨false, true⟩
  else if hasScheme text ⟨true, false⟩ then some ⟨true, false⟩
  else if hasScheme text ⟨false, false⟩ then some ⟨false, false⟩
  else none

/-- The `endpoint_uri_t` that a text is taken apart to. -/
structure EndpointUri where
  flags : TransportFlags
  address : Bytes
  hostLen : Nat
  uri : Option Bytes
  port : UInt16
  deriving DecidableEq

/-- The place of the colon in front of the port, if there is one; `none` when
there is no end of an opened bracket.  Behind a bracket, the last character
of the text is not looked at. -/
def portColon (address : Bytes) : Option (Option Nat) :=
  if address.head? = some 91 then
    match address.idxOf? 93 with
    | none => none
    | some bracket =>
        some ((((address.drop bracket).take
          (address.length - (bracket + 1))).idxOf? 58).map (bracket + ·))
  else some (address.idxOf? 58)

/-- There are only digits up to the path.  When the path begins in front of
the port, the length of the port wraps around, and the loop runs into the
zero at the end of the text if into nothing else. -/
def digitsFollow (address : Bytes) (slash : Option Nat) (start : Nat) :
    Bool :=
  match slash with
  | some slash =>
      start ≤ slash && ((address.drop start).take (slash - start)).all isDigit
  | none => (address.drop start).all isDigit

def defaultPort (flags : TransportFlags) : UInt16 :=
  if flags.secured then 5684 else 5683

def parseEndpointUri (text : Bytes) (parseUri : Bool) : Option EndpointUri :=
  match parseEndpointFlags text with
  | none => none
  | some flags =>
      let address := text.drop (endpointFlagsToScheme flags).length
      let slash := address.idxOf? 47
      let uri := if parseUri then slash.map (address.drop ·) else none
      match portColon address with
      | none => none
      | some none =>
          some ⟨flags, address, slash.getD address.length, uri,
            defaultPort flags⟩
      | some (some colon) =>
          if digitsFollow address slash (colon + 1) then
            some ⟨flags, address, colon, uri,
              (strtoul (address.drop (colon + 1))).1.toUInt16⟩
          else none

section Parser

/- What `oc_dns_lookup` finds for a name: an IPv6 address or an IPv4 address,
over TCP or UDP. -/
variable (ocDnsLookup : (ipv6 tcp : Bool) → Bytes → Option Bytes)

/-- IPv4 first.  Without `OC_DNS_LOOKUP_IPV6` there is nothing to be found in
the second place. -/
def dnsLookup (flags : TransportFlags) (domain : Bytes) : Option Bytes :=
  let name := domain.takeWhile (· ≠ 0)
  match ocDnsLookup false flags.tcp name with
  | some address => some address
  | none => ocDnsLookup true flags.tcp name

def isLetter (byte : UInt8) : Bool :=
  (65 ≤ byte && byte ≤ 90) || (97 ≤ byte && byte ≤ 122)

/-- The last character of the host; in front of an empty one there is the
last slash of the scheme. -/
def lastOfHost (address : Bytes) (hostLen : Nat) : UInt8 :=
  if hostLen = 0 then 47 else address.getD (hostLen - 1) 0

def maxHostLen : Nat := 254

/-- The text of the address, and the length of the host in it. -/
def resolvedAddress (flags : TransportFlags) (address : Bytes)
    (hostLen : Nat) : Option (Bytes × Nat) :=
  if isLetter (lastOfHost address hostLen) then
    if hostLen > maxHostLen then none
    else (dnsLookup ocDnsLookup flags (address.take hostLen)).map
      fun ipaddress => (ipaddress, ipaddress.length)
  else some (address, hostLen)

def readAddress (address : Bytes) (hostLen : Nat) : Option Address :=
  if 1 < hostLen ∧ address.head? = some 91 ∧
      address[hostLen - 1]? = some 93 then
    (ocParseIpv6Address ((address.drop 1).take (hostLen - 2))).map .ipv6
  else some (.ipv4 (ocParseIpv4Address address hostLen))

def hostAddress (flags : TransportFlags) (address : Bytes) (hostLen : Nat) :
    Option Address :=
  (resolvedAddress ocDnsLookup flags address hostLen).bind
    fun found => readAddress found.1 found.2

/-- The endpoint, and the path that is stored in `uri` if the caller asks for
it. -/
def ocParseEndpointString (text : Bytes) (wantsUri : Bool) :
    Option (Endpoint × Option Bytes) :=
  match parseEndpointUri text wantsUri with
  | none => none
  | some parsed =>
      (hostAddress ocDnsLookup parsed.flags parsed.address
        parsed.hostLen).map fun address =>
          (⟨parsed.flags, address, parsed.port⟩, parsed.uri)

def ocStringToEndpoint (text : Bytes) (wantsUri : Bool) :
    Option (Endpoint × Option Bytes) :=
  ocParseEndpointString ocDnsLookup text wantsUri

end Parser

def Ipv4Literal (host : Bytes) : Prop :=
  ∃ octets : List Bytes, octets.length = 4 ∧
    (∀ octet ∈ octets, octet ≠ [] ∧
      (∀ byte ∈ octet, isDigit byte = true) ∧
        JsonInteger.ofDigits octet ≤ 255) ∧
    host = [46].intercalate octets

def HexField (segment : Bytes) : Prop :=
  segment ≠ [] ∧ segment.length ≤ 4 ∧
    ∀ byte ∈ segment, isHexDigit byte = true

/-- Segments for a number of groups; the last two may be in the notation of
IPv4. -/
def GroupFields (count : Nat) (segments : List Bytes) : Prop :=
  (segments.length = count ∧ ∀ segment ∈ segments, HexField segment) ∨
    ∃ front quad, segments = front ++ [quad] ∧ front.length + 2 = count ∧
      (∀ segment ∈ front, HexField segment) ∧ Ipv4Literal quad

/-- Eight groups, or fewer and two colons in the place of the others. -/
def Ipv6Literal (text : Bytes) : Prop :=
  (∃ segments, GroupFields 8 segments ∧
    text = [58].intercalate segments) ∨
  ∃ before after count, (∀ segment ∈ before, HexField segment) ∧
    GroupFields count after ∧ before.length + count < 8 ∧
      text = [58].intercalate before ++ 58 :: 58 :: [58].intercalate after

/-- The characters that set the parts of a URI apart: `:/?#[]@`. -/
def genDelims : Bytes := [58, 47, 63, 35, 91, 93, 64]

/-- The parts that a text is put together of. -/
structure Reference where
  flags : TransportFlags
  host : Bytes
  port : Option Bytes
  path : Bytes
  deriving DecidableEq

def portText : Option Bytes → Bytes
  | none => []
  | some digits => 58 :: digits

namespace Reference

/-- What follows the scheme. -/
def address (reference : Reference) : Bytes :=
  reference.host ++ portText reference.port ++ reference.path

def text (reference : Reference) : Bytes :=
  endpointFlagsToScheme reference.flags ++ reference.address

/-- The number in the text, or the default of the scheme. -/
def portNumber (reference : Reference) : Nat :=
  match reference.port with
  | none => (defaultPort reference.flags).toNat
  | some digits => JsonInteger.ofDigits digits

/-- What the caller gets for the path. -/
def uri (reference : Reference) (wantsUri : Bool) : Option Bytes :=
  if wantsUri = true ∧ reference.path ≠ [] then some reference.path
  else none

end Reference

section WellFormed

variable (ocDnsLookup : (ipv6 tcp : Bool) → Bytes → Option Bytes)

/-- An address, or a name that is known. -/
inductive IsHost (flags : TransportFlags) (host : Bytes) : Prop where
  | ipv4 (literal : Ipv4Literal host)
  | ipv6 (text : Bytes) (literal : Ipv6Literal text)
      (brackets : host = 91 :: text ++ [93])
  | name (nonempty : host ≠ []) (clean : ∀ byte ∈ host, byte ∉ genDelims)
      (known : (dnsLookup ocDnsLookup flags host).isSome = true)

def PortInRange (port : Option Bytes) : Prop :=
  ∀ digits ∈ port, digits ≠ [] ∧ JsonInteger.ofDigits digits ≤ 65535

structure WellFormed (reference : Reference) : Prop where
  host : IsHost ocDnsLookup reference.flags reference.host
  digits : ∀ digits ∈ reference.port, ∀ byte ∈ digits, isDigit byte = true
  port : PortInRange reference.port
  path : ∀ byte ∈ reference.path.head?, byte = 47

/-- What the property says of a text: it is accepted only as a scheme, a host
and a port in range, and the port and the path are those in the text. -/
def TextContract (text : Bytes) : Prop :=
  ∀ wantsUri endpoint uri,
    ocStringToEndpoint ocDnsLookup text wantsUri = some (endpoint, uri) →
      ∃ reference : Reference, reference.text = text ∧
        WellFormed ocDnsLookup reference ∧
        endpoint.flags = reference.flags ∧
        endpoint.port.toNat = reference.portNumber ∧
        uri = reference.uri wantsUri

/-- What the property says of an endpoint. -/
def RoundTrips (mixed : Octets 16 → Bool) (endpoint : Endpoint) : Prop :=
  ∃ text, ocEndpointToString mixed endpoint = some text ∧
    ∀ wantsUri, ocStringToEndpoint ocDnsLookup text wantsUri =
      some (endpoint, none)

/-- The places at which the reader takes a text apart: the first slash, and
the first colon, or that behind the bracket. -/
structure Split (reference : Reference) : Prop where
  nonempty : reference.address ≠ []
  host : 47 ∉ reference.host
  digits : ∀ digits ∈ reference.port, ∀ byte ∈ digits, isDigit byte = true
  path : ∀ byte ∈ reference.path.head?, byte = 47
  colon : portColon reference.address =
    some (reference.port.map fun _ => reference.host.length)

def Bracketed (host : Bytes) : Prop :=
  1 < host.length ∧ host.head? = some 91 ∧ host.getLast? = some 93

/-- In brackets, no segment that there is room for is too long. -/
def AddressTaken (host : Bytes) : Prop :=
  Bracketed host → SegmentsFit ((host.drop 1).take (host.length - 2))

def EndsInLetter (host : Bytes) : Prop :=
  ∃ byte ∈ host.getLast?, isLetter byte = true

/-- The hosts that the reader takes. -/
def HostTaken (flags : TransportFlags) (host : Bytes) : Prop :=
  (EndsInLetter host → host.length ≤ maxHostLen ∧
    ∃ ipaddress ∈ dnsLookup ocDnsLookup flags host,
      AddressTaken ipaddress) ∧
  (¬ EndsInLetter host → AddressTaken host)

/-- A text that is taken apart to a host that the reader takes has a
well-formed host there and a number in range for a port. -/
def TakenWellFormed (text : Bytes) : Prop :=
  ∀ reference : Reference, reference.text = text → Split reference →
    HostTaken ocDnsLookup reference.flags reference.host →
      IsHost ocDnsLookup reference.flags reference.host ∧
        PortInRange reference.port

end WellFormed

variable {text : Bytes} {flags : TransportFlags}

theorem of_hasScheme (found : hasScheme text flags = true) :
    ∃ address, address ≠ [] ∧
      text = endpointFlagsToScheme flags ++ address := by
  rw [hasScheme, Bool.and_eq_true, decide_eq_true_eq,
    List.isPrefixOf_iff_prefix] at found
  obtain ⟨longer, address, rfl⟩ := found
  refine ⟨address, ?_, rfl⟩
  rintro rfl
  simp at longer

theorem of_parseEndpointFlags (parsed : parseEndpointFlags text = some flags) :
    ∃ address, address ≠ [] ∧
      text = endpointFlagsToScheme flags ++ address := by
  refine of_hasScheme ?_
  rw [parseEndpointFlags] at parsed
  split_ifs at parsed with first second third fourth
  all_goals
    obtain rfl := Option.some.inj parsed
    assumption

variable {address : Bytes}

theorem hasScheme_self (nonempty : address ≠ []) (flags : TransportFlags) :
    hasScheme (endpointFlagsToScheme flags ++ address) flags = true := by
  have positive := List.length_pos_iff.mpr nonempty
  rw [hasScheme, Bool.and_eq_true, decide_eq_true_eq,
    List.isPrefixOf_iff_prefix, List.length_append]
  exact ⟨Nat.lt_add_of_pos_right positive, List.prefix_append _ _⟩

theorem hasScheme_other {flags other : TransportFlags}
    (different : flags ≠ other) (address : Bytes) :
    hasScheme (endpointFlagsToScheme other ++ address) flags = false := by
  rw [hasScheme, Bool.and_eq_false_iff]
  right
  obtain ⟨secured, tcp⟩ := flags
  obtain ⟨otherSecured, otherTcp⟩ := other
  cases secured <;> cases tcp <;> cases otherSecured <;> cases otherTcp
  all_goals first
    | rfl
    | exact absurd rfl different

theorem parseEndpointFlags_append (nonempty : address ≠ [])
    (flags : TransportFlags) :
    parseEndpointFlags (endpointFlagsToScheme flags ++ address) =
      some flags := by
  have self := hasScheme_self nonempty flags
  have others : ∀ other, other ≠ flags →
      hasScheme (endpointFlagsToScheme flags ++ address) other = false :=
    fun other different => hasScheme_other different address
  rw [parseEndpointFlags]
  obtain ⟨secured, tcp⟩ := flags
  cases secured <;> cases tcp <;> simp [self, others]

theorem idxOf?_behind {byte : UInt8} {front back : Bytes}
    (clean : byte ∉ front) :
    (front ++ back).idxOf? byte =
      (back.idxOf? byte).map (front.length + ·) := by
  induction front with
  | nil => simp
  | cons first front ih =>
      rw [List.mem_cons, not_or] at clean
      rw [List.cons_append, List.idxOf?_cons, ih clean.2,
        if_neg (by simpa using Ne.symm clean.1), List.length_cons,
        Option.map_map]
      congr 1
      funext place
      rw [Function.comp, Nat.add_right_comm]

theorem idxOf?_head {byte : UInt8} {back : Bytes}
    (first : ∀ other ∈ back.head?, other = byte) :
    back.idxOf? byte = if back = [] then none else some 0 := by
  cases back with
  | nil => rfl
  | cons other back =>
      rw [first other rfl, List.idxOf?_cons]
      simp

theorem idxOf?_slash {front path : Bytes} (clean : 47 ∉ front)
    (first : ∀ byte ∈ path.head?, byte = 47) :
    (front ++ path).idxOf? 47 =
      if path = [] then none else some front.length := by
  rw [idxOf?_behind clean, idxOf?_head first]
  split_ifs <;> rfl

theorem colon_of_portColon {colon : Nat}
    (found : portColon address = some (some colon)) :
    address[colon]? = some 58 := by
  have at_place : ∀ {text : Bytes} {place : Nat},
      text.idxOf? 58 = some place → text[place]? = some 58 := by
    intro text place first
    obtain ⟨inside, here, -⟩ := List.idxOf?_eq_some_iff.mp first
    rw [List.getElem?_eq_getElem inside, here]
  rw [portColon] at found
  split_ifs at found with bracket
  · cases ended : address.idxOf? 93 with
    | none =>
        rw [ended] at found
        cases found
    | some last =>
        rw [ended] at found
        obtain ⟨place, first, rfl⟩ :=
          Option.map_eq_some_iff.mp (Option.some.inj found)
        have here := at_place first
        rw [List.getElem?_take] at here
        split_ifs at here
        rwa [List.getElem?_drop] at here
  · exact at_place (Option.some.inj found)

namespace Reference

/-- The port that is read for the digits of the text. -/
def portRead (reference : Reference) : UInt16 :=
  match reference.port with
  | none => defaultPort reference.flags
  | some digits => (strtoul (digits ++ reference.path)).1.toUInt16

def parsed (reference : Reference) (parseUri : Bool) : EndpointUri where
  flags := reference.flags
  address := reference.address
  hostLen := reference.host.length
  uri := reference.uri parseUri
  port := reference.portRead

end Reference

theorem slash_not_mem_portText {port : Option Bytes}
    (digits : ∀ digits ∈ port, ∀ byte ∈ digits, isDigit byte = true) :
    47 ∉ portText port := by
  intro member
  cases port with
  | none => cases member
  | some digits' =>
      rcases List.mem_cons.mp member with colon | inside
      · cases colon
      · have digit := digits _ rfl _ inside
        simp [isDigit] at digit

variable {reference : Reference}

theorem Split.slash (split : Split reference) :
    reference.address.idxOf? 47 =
      if reference.path = [] then none
      else some (reference.host ++ portText reference.port).length := by
  refine idxOf?_slash ?_ split.path
  rw [List.mem_append, not_or]
  exact ⟨split.host, slash_not_mem_portText split.digits⟩

theorem Split.uri (split : Split reference) (parseUri : Bool) :
    (if parseUri = true then
      (reference.address.idxOf? 47).map (reference.address.drop ·)
    else none) = reference.uri parseUri := by
  rw [split.slash, Reference.uri]
  cases parseUri with
  | false => simp
  | true =>
      by_cases empty : reference.path = []
      · simp [empty]
      · simp only [empty, if_true, if_false, Option.map_some, ne_eq,
          not_false_eq_true, and_self]
        rw [Reference.address, List.drop_left]

theorem Reference.drop_address {digits : Bytes}
    (port : reference.port = some digits) :
    reference.address.drop (reference.host.length + 1) =
      digits ++ reference.path := by
  have behind : reference.address =
      (reference.host ++ [58]) ++ (digits ++ reference.path) := by
    simp [Reference.address, port, portText]
  have place : reference.host.length + 1 =
      (reference.host ++ [58]).length := by
    simp
  rw [behind, place, List.drop_left]

theorem Split.digitsFollow (split : Split reference) {digits : Bytes}
    (port : reference.port = some digits) :
    digitsFollow reference.address (reference.address.idxOf? 47)
      (reference.host.length + 1) = true := by
  have all : digits.all isDigit = true :=
    List.all_eq_true.mpr (split.digits digits port)
  rw [split.slash]
  by_cases empty : reference.path = []
  · rw [if_pos empty, EndpointText.digitsFollow,
      Reference.drop_address port, empty, List.append_nil]
    exact all
  · have place : (reference.host ++ portText reference.port).length =
        reference.host.length + 1 + digits.length := by
      rw [port, portText, List.length_append, List.length_cons]
      omega
    rw [if_neg empty, EndpointText.digitsFollow,
      Reference.drop_address port, place, Nat.add_sub_cancel_left,
      List.take_left, all, Bool.and_true, decide_eq_true_eq]
    exact Nat.le_add_right _ _

theorem parseEndpointUri_of_split (split : Split reference) (parseUri : Bool) :
    parseEndpointUri reference.text parseUri =
      some (reference.parsed parseUri) := by
  have flags := parseEndpointFlags_append split.nonempty reference.flags
  have behind : (endpointFlagsToScheme reference.flags ++
      reference.address).drop
        (endpointFlagsToScheme reference.flags).length =
      reference.address := List.drop_left
  have uri := split.uri parseUri
  have colon := split.colon
  rw [parseEndpointUri, Reference.text, flags]
  dsimp only
  rw [behind, colon, uri]
  cases port : reference.port with
  | none =>
      have hostLen : (reference.address.idxOf? 47).getD
          reference.address.length = reference.host.length := by
        rw [split.slash, Reference.address, port, portText,
          List.append_nil]
        split_ifs with empty
        · rw [empty, List.append_nil]
          rfl
        · rfl
      simp only [Option.map_none, hostLen, Reference.parsed,
        Reference.portRead, port]
  | some digits =>
      simp only [Option.map_some, split.digitsFollow port, if_true,
        Reference.drop_address port, Reference.parsed,
        Reference.portRead, port]

theorem host_of_digitsFollow {authority path : Bytes} {place : Nat}
    (colon : (authority ++ path)[place]? = some 58)
    (follow : digitsFollow (authority ++ path)
      (if path = [] then none else some authority.length) (place + 1) =
        true) :
    ∃ host digits, authority = host ++ 58 :: digits ∧
      host.length = place ∧ ∀ byte ∈ digits, isDigit byte = true := by
  have inside : place < authority.length ∧
      (authority.drop (place + 1)).all isDigit = true := by
    by_cases empty : path = []
    · rw [empty, List.append_nil] at colon
      rw [if_pos empty, digitsFollow, empty, List.append_nil] at follow
      exact ⟨(List.getElem?_eq_some_iff.mp colon).1, follow⟩
    · rw [if_neg empty, digitsFollow, Bool.and_eq_true,
        decide_eq_true_eq] at follow
      have digits : ((authority ++ path).drop (place + 1)).take
          (authority.length - (place + 1)) = authority.drop (place + 1) := by
        rw [List.drop_append_of_le_length follow.1,
          List.take_append_of_le_length (by rw [List.length_drop]),
          List.take_of_length_le (by rw [List.length_drop])]
      exact ⟨follow.1, digits ▸ follow.2⟩
  have here : authority[place] = 58 := by
    rw [List.getElem?_append_left inside.1] at colon
    exact (List.getElem?_eq_some_iff.mp colon).2
  refine ⟨authority.take place, authority.drop (place + 1), ?_, ?_,
    List.all_eq_true.mp inside.2⟩
  · rw [← here, ← List.drop_eq_getElem_cons, List.take_append_drop]
  · rw [List.length_take]
    omega

theorem split_of_parseEndpointUri {parseUri : Bool} {parsed : EndpointUri}
    (found : parseEndpointUri text parseUri = some parsed) :
    ∃ reference : Reference, Split reference ∧ reference.text = text ∧
      parsed = reference.parsed parseUri := by
  suffices taken : ∃ reference : Reference,
      Split reference ∧ reference.text = text by
    obtain ⟨reference, split, rfl⟩ := taken
    rw [parseEndpointUri_of_split split] at found
    exact ⟨reference, split, rfl, (Option.some.inj found).symm⟩
  rw [parseEndpointUri] at found
  cases scheme : parseEndpointFlags text with
  | none =>
      rw [scheme] at found
      cases found
  | some flags =>
      obtain ⟨address, nonempty, rfl⟩ := of_parseEndpointFlags scheme
      rw [scheme] at found
      dsimp only at found
      rw [List.drop_left] at found
      obtain ⟨authority, path, rfl, clean, first⟩ :=
        exists_before 47 address
      have slash := idxOf?_slash clean first
      cases colon : portColon (authority ++ path) with
      | none =>
          rw [colon] at found
          cases found
      | some result =>
          cases result with
          | none =>
              have whole : Reference.address
                  ⟨flags, authority, none, path⟩ = authority ++ path := by
                simp [Reference.address, portText]
              refine ⟨⟨flags, authority, none, path⟩, ?_, ?_⟩
              · exact
                  { nonempty := whole ▸ nonempty
                    host := clean
                    digits := fun _ absent => by cases absent
                    path := first
                    colon := whole ▸ colon }
              · rw [Reference.text, whole]
          | some place =>
              rw [colon] at found
              dsimp only at found
              have follow : digitsFollow (authority ++ path)
                  ((authority ++ path).idxOf? 47) (place + 1) = true := by
                by_contra other
                rw [if_neg other] at found
                cases found
              rw [slash] at follow
              obtain ⟨host, digits, rfl, rfl, areDigits⟩ :=
                host_of_digitsFollow (colon_of_portColon colon) follow
              rw [List.mem_append, not_or] at clean
              have whole : Reference.address
                  ⟨flags, host, some digits, path⟩ =
                    host ++ 58 :: digits ++ path := rfl
              refine ⟨⟨flags, host, some digits, path⟩, ?_, ?_⟩
              · exact
                  { nonempty := whole ▸ nonempty
                    host := clean.1
                    digits := fun _ same => by
                      obtain rfl := Option.some.inj same
                      exact areDigits
                    path := first
                    colon := whole ▸ colon }
              · rw [Reference.text, whole]

theorem portText_injective {first second : Option Bytes}
    (same : portText first = portText second) : first = second := by
  cases first <;> cases second <;> simp_all [portText]

theorem Split.unique {first second : Reference} (one : Split first)
    (two : Split second) (same : first.text = second.text) :
    first = second := by
  have parsed := parseEndpointUri_of_split one true
  rw [same, parseEndpointUri_of_split two] at parsed
  obtain ⟨flags, address, hostLen, uri, -⟩ :=
    EndpointUri.mk.inj (Option.some.inj parsed)
  have paths : second.path = first.path := by
    simp only [Reference.uri, true_and] at uri
    by_cases empty : second.path = [] <;>
      by_cases other : first.path = [] <;> simp_all
  obtain ⟨secondFlags, secondHost, secondPort, secondPath⟩ := second
  obtain ⟨firstFlags, firstHost, firstPort, firstPath⟩ := first
  simp only at flags paths hostLen
  simp only [Reference.address, List.append_assoc] at address
  subst flags paths
  obtain ⟨rfl, rest⟩ := List.append_inj address hostLen
  rw [portText_injective (List.append_cancel_right rest)]

section Hosts

variable {ocDnsLookup : (ipv6 tcp : Bool) → Bytes → Option Bytes}
  (host rest : Bytes)

theorem bracketed_iff :
    (1 < host.length ∧ (host ++ rest).head? = some 91 ∧
      (host ++ rest)[host.length - 1]? = some 93) ↔ Bracketed host := by
  refine and_congr_right fun long => ?_
  have nonempty : host ≠ [] := List.ne_nil_of_length_pos (by omega)
  have inside : host.length - 1 < host.length := by omega
  rw [List.head?_append_of_ne_nil _ nonempty,
    List.getElem?_append_left inside, ← List.getLast?_eq_getElem?]

theorem readAddress_isSome_iff :
    (readAddress (host ++ rest) host.length).isSome = true ↔
      AddressTaken host := by
  rw [readAddress, AddressTaken]
  by_cases brackets : Bracketed host
  · have text : ((host ++ rest).drop 1).take (host.length - 2) =
        (host.drop 1).take (host.length - 2) := by
      rw [List.drop_append_of_le_length (Nat.le_of_lt brackets.1),
        List.take_append_of_le_length (by rw [List.length_drop]; omega)]
    rw [if_pos ((bracketed_iff host rest).mpr brackets), text,
      Option.isSome_map, ocParseIpv6Address_isSome_iff]
    exact ⟨fun fit _ => fit, fun taken => taken brackets⟩
  · rw [if_neg (fun both => brackets ((bracketed_iff host rest).mp both))]
    exact iff_of_true rfl fun both => absurd both brackets

theorem endsInLetter_iff :
    isLetter (lastOfHost (host ++ rest) host.length) = true ↔
      EndsInLetter host := by
  rcases List.eq_nil_or_concat host with rfl | ⟨front, last, rfl⟩
  · simp [lastOfHost, EndsInLetter, isLetter]
  · simp [lastOfHost, EndsInLetter, List.getD]

theorem hostAddress_isSome_iff :
    (hostAddress ocDnsLookup flags (host ++ rest) host.length).isSome =
      true ↔ HostTaken ocDnsLookup flags host := by
  have letter := endsInLetter_iff host rest
  rw [hostAddress, resolvedAddress, HostTaken]
  by_cases ends : EndsInLetter host
  · rw [if_pos (letter.mpr ends)]
    simp only [ends, not_true_eq_false, false_imp_iff, and_true,
      true_imp_iff]
    by_cases long : host.length > maxHostLen
    · rw [if_pos long]
      exact iff_of_false (by simp) fun both =>
        absurd both.1 (Nat.not_le_of_lt long)
    · rw [if_neg long, List.take_left]
      cases found : dnsLookup ocDnsLookup flags host with
      | none => simp
      | some ipaddress =>
          have taken := readAddress_isSome_iff ipaddress []
          rw [List.append_nil] at taken
          simp [taken, Nat.le_of_not_lt long]
  · rw [if_neg (fun isLetter => ends (letter.mp isLetter))]
    simp only [ends, false_imp_iff, not_false_eq_true, true_imp_iff,
      true_and]
    exact readAddress_isSome_iff host rest

theorem ocStringToEndpoint_of_split {reference : Reference}
    (split : Split reference) (wantsUri : Bool) :
    ocStringToEndpoint ocDnsLookup reference.text wantsUri =
      (hostAddress ocDnsLookup reference.flags reference.address
        reference.host.length).map fun address =>
          (⟨reference.flags, address, reference.portRead⟩,
            reference.uri wantsUri) := by
  rw [ocStringToEndpoint, ocParseEndpointString,
    parseEndpointUri_of_split split]
  rfl

theorem hostTaken_iff (reference : Reference) :
    (hostAddress ocDnsLookup reference.flags reference.address
      reference.host.length).isSome = true ↔
        HostTaken ocDnsLookup reference.flags reference.host := by
  rw [Reference.address, List.append_assoc]
  exact hostAddress_isSome_iff _ _

theorem split_of_accepted {wantsUri : Bool} {endpoint : Endpoint}
    {uri : Option Bytes}
    (accepted : ocStringToEndpoint ocDnsLookup text wantsUri =
      some (endpoint, uri)) :
    ∃ reference : Reference, Split reference ∧ reference.text = text ∧
      HostTaken ocDnsLookup reference.flags reference.host ∧
      endpoint.flags = reference.flags ∧
      endpoint.port = reference.portRead ∧ uri = reference.uri wantsUri := by
  have taken : ∃ reference : Reference,
      Split reference ∧ reference.text = text := by
    cases parsed : parseEndpointUri text wantsUri with
    | none =>
        rw [ocStringToEndpoint, ocParseEndpointString, parsed] at accepted
        cases accepted
    | some parsed' =>
        obtain ⟨reference, split, same, -⟩ :=
          split_of_parseEndpointUri parsed
        exact ⟨reference, split, same⟩
  obtain ⟨reference, split, rfl⟩ := taken
  rw [ocStringToEndpoint_of_split split] at accepted
  obtain ⟨address, found, same⟩ := Option.map_eq_some_iff.mp accepted
  obtain ⟨rfl, rfl⟩ := Prod.mk.inj same
  refine ⟨reference, split, rfl, (hostTaken_iff reference).mp ?_, rfl, rfl,
    rfl⟩
  rw [found]
  rfl

end Hosts

/-- A host in which no delimiter is out of place. -/
def Delimited (host : Bytes) : Prop :=
  (host ≠ [] ∧ ∀ byte ∈ host,
    byte ≠ 47 ∧ byte ≠ 58 ∧ byte ≠ 91 ∧ byte ≠ 93) ∨
  ∃ text, host = 91 :: text ++ [93] ∧ ∀ byte ∈ text, byte ≠ 47 ∧ byte ≠ 93

variable {host : Bytes}

theorem Delimited.slash (delimited : Delimited host) : 47 ∉ host := by
  rcases delimited with ⟨-, clean⟩ | ⟨text, rfl, clean⟩
  · exact fun member => (clean 47 member).1 rfl
  · simpa using fun member => (clean 47 member).1 rfl

theorem Delimited.portColon (delimited : Delimited host) (rest : Bytes) :
    ∃ seen, (seen = rest ∨ seen = rest.dropLast) ∧
      portColon (host ++ rest) =
        some ((seen.idxOf? 58).map (host.length + ·)) := by
  rcases delimited with ⟨nonempty, clean⟩ | ⟨text, rfl, clean⟩
  · refine ⟨rest, .inl rfl, ?_⟩
    have plain : (host ++ rest).head? ≠ some 91 := by
      obtain ⟨first, others, rfl⟩ := List.exists_cons_of_ne_nil nonempty
      intro bracket
      exact (clean first (List.mem_cons_self ..)).2.2.1
        (Option.some.inj bracket)
    rw [EndpointText.portColon, if_neg plain,
      idxOf?_behind fun member => (clean 58 member).2.1 rfl]
  · refine ⟨rest.dropLast, .inr rfl, ?_⟩
    have whole : 91 :: text ++ [93] ++ rest =
        (91 :: text) ++ 93 :: rest := by
      simp
    have notInside : 93 ∉ 91 :: text := by
      simpa using fun member => (clean 93 member).2 rfl
    have ended : ((91 :: text) ++ 93 :: rest).idxOf? 93 =
        some (91 :: text).length := by
      rw [idxOf?_behind notInside, List.idxOf?_cons]
      rfl
    have remaining : (91 :: text ++ 93 :: rest).length -
        ((91 :: text).length + 1) = rest.length := by
      simp only [List.length_append, List.length_cons]
      omega
    have size : (91 :: text ++ [93]).length = (91 :: text).length + 1 := by
      rw [List.length_append, List.length_singleton]
    have seen : ((93 :: rest).take rest.length).idxOf? 58 =
        (rest.dropLast.idxOf? 58).map (1 + ·) := by
      rcases List.eq_nil_or_concat rest with rfl | ⟨front, last, rfl⟩
      · rfl
      · rw [List.concat_eq_append, List.dropLast_concat,
          List.length_append, List.length_singleton, List.take_succ_cons,
          List.take_left]
        exact @idxOf?_behind 58 [93] _ (by decide)
    have bracket : (91 :: text ++ 93 :: rest).head? = some 91 := rfl
    rw [whole, EndpointText.portColon, if_pos bracket, ended]
    dsimp only
    rw [remaining, List.drop_left, seen, Option.map_map, size]
    congr 2
    funext place
    rw [Function.comp, Nat.add_assoc]

theorem Delimited.nonempty (delimited : Delimited host) : host ≠ [] := by
  rcases delimited with ⟨nonempty, -⟩ | ⟨text, rfl, -⟩
  · exact nonempty
  · exact List.cons_ne_nil _ _

section Delimited

variable (delimited : Delimited reference.host)
  (path : ∀ byte ∈ reference.path.head?, byte = 47)

include delimited path

theorem split_of_port {digits : Bytes} (port : reference.port = some digits)
    (nonempty : digits ≠ [])
    (areDigits : ∀ byte ∈ digits, isDigit byte = true) :
    Split reference := by
  have whole : reference.address =
      reference.host ++ 58 :: (digits ++ reference.path) := by
    rw [Reference.address, port, portText, List.append_assoc,
      List.cons_append]
  obtain ⟨seen, kept, colon⟩ :=
    delimited.portColon (58 :: (digits ++ reference.path))
  have first : seen.idxOf? 58 = some 0 := by
    have more : digits ++ reference.path ≠ [] :=
      List.append_ne_nil_of_left_ne_nil nonempty _
    rcases kept with rfl | rfl
    · rw [List.idxOf?_cons]
      rfl
    · rw [List.dropLast_cons_of_ne_nil more, List.idxOf?_cons]
      rfl
  refine ⟨?_, delimited.slash, ?_, path, ?_⟩
  · rw [whole]
    exact List.append_ne_nil_of_left_ne_nil delimited.nonempty _
  · intro other same
    rw [port] at same
    obtain rfl := Option.some.inj same
    exact areDigits
  · rw [whole, colon, first, port]
    rfl

theorem split_or_rejected (port : reference.port = none) :
    Split reference ∨
      ∀ parseUri, parseEndpointUri reference.text parseUri = none := by
  have whole : reference.address = reference.host ++ reference.path := by
    rw [Reference.address, port, portText, List.append_nil]
  have nonempty : reference.address ≠ [] := by
    rw [whole]
    exact List.append_ne_nil_of_left_ne_nil delimited.nonempty _
  obtain ⟨seen, kept, colon⟩ := delimited.portColon reference.path
  rw [← whole] at colon
  cases first : seen.idxOf? 58 with
  | none =>
      left
      refine ⟨nonempty, delimited.slash, ?_, path, ?_⟩
      · intro other same
        rw [port] at same
        cases same
      · rw [colon, first, port]
        rfl
  | some place =>
      right
      intro parseUri
      have pathThere : reference.path ≠ [] := by
        intro empty
        rw [empty] at kept
        rcases kept with rfl | rfl <;> cases first
      have slash : reference.address.idxOf? 47 =
          some reference.host.length := by
        rw [whole, idxOf?_slash delimited.slash path, if_neg pathThere]
      have follow : digitsFollow reference.address
          (some reference.host.length)
            (reference.host.length + place + 1) = false := by
        rw [digitsFollow, Bool.and_eq_false_iff, decide_eq_false_iff_not]
        left
        omega
      rw [parseEndpointUri, Reference.text,
        parseEndpointFlags_append nonempty]
      dsimp only
      rw [List.drop_left, colon, first, slash]
      simp only [Option.map_some, follow, Bool.false_eq_true, if_false]

end Delimited

theorem mem_ipv4Literal (literal : Ipv4Literal host) :
    host ≠ [] ∧ ∀ byte ∈ host, isDigit byte = true ∨ byte = 46 := by
  obtain ⟨octets, four, each, rfl⟩ := literal
  refine ⟨?_, ?_⟩
  · match octets, four with
    | first :: second :: _, _ =>
        rw [List.intercalate_cons_cons]
        simp
  · intro byte member
    rcases mem_intercalate member with dot | ⟨octet, among, inside⟩
    · exact .inr dot
    · exact .inl ((each octet among).2.1 byte inside)

theorem mem_groupFields {count : Nat} {segments : List Bytes}
    (fields : GroupFields count segments) {segment : Bytes}
    (among : segment ∈ segments) {byte : UInt8} (inside : byte ∈ segment) :
    isHexDigit byte = true ∨ byte = 46 := by
  rcases fields with ⟨-, each⟩ | ⟨front, quad, rfl, -, each, literal⟩
  · exact .inl ((each segment among).2.2 byte inside)
  · rcases List.mem_append.mp among with early | last
    · exact .inl ((each segment early).2.2 byte inside)
    · rw [List.mem_singleton.mp last] at inside
      exact ((mem_ipv4Literal literal).2 byte inside).imp_left
        isHexDigit_of_isDigit

theorem mem_ipv6Literal (literal : Ipv6Literal text) :
    ∀ byte ∈ text, isHexDigit byte = true ∨ byte = 46 ∨ byte = 58 := by
  intro byte member
  have ofFields : ∀ {count : Nat} {segments : List Bytes},
      GroupFields count segments → byte ∈ [58].intercalate segments →
        isHexDigit byte = true ∨ byte = 46 ∨ byte = 58 := by
    intro count segments fields inText
    rcases mem_intercalate inText with colon | ⟨segment, among, inside⟩
    · exact .inr (.inr colon)
    · exact (mem_groupFields fields among inside).imp_right .inl
  rcases literal with ⟨segments, fields, rfl⟩ |
    ⟨before, after, count, each, fields, -, rfl⟩
  · exact ofFields fields member
  · rw [List.mem_append, List.mem_cons, List.mem_cons] at member
    rcases member with early | colon | colon | late
    · exact ofFields (.inl ⟨rfl, each⟩) early
    · exact .inr (.inr colon)
    · exact .inr (.inr colon)
    · exact ofFields fields late

theorem delimited_of_address
    (spelled : ∀ byte ∈ text, isHexDigit byte = true ∨ byte = 46 ∨ byte = 58) :
    Delimited (91 :: text ++ [93]) := by
  refine .inr ⟨text, rfl, fun byte member => ?_⟩
  rcases spelled byte member with hex | rfl | rfl
  · obtain ⟨slash, -, -, bracket⟩ := ne_of_isHexDigit hex
    exact ⟨slash, bracket⟩
  · decide
  · decide

theorem delimited_of_digits (nonempty : host ≠ [])
    (spelled : ∀ byte ∈ host, isDigit byte = true ∨ byte = 46) :
    Delimited host := by
  refine .inl ⟨nonempty, fun byte member => ?_⟩
  rcases spelled byte member with digit | rfl
  · exact ne_of_isHexDigit (isHexDigit_of_isDigit digit)
  · decide

section Texts

variable {ocDnsLookup : (ipv6 tcp : Bool) → Bytes → Option Bytes}

theorem IsHost.delimited (isHost : IsHost ocDnsLookup flags host) :
    Delimited host := by
  cases isHost with
  | ipv4 literal =>
      obtain ⟨nonempty, spelled⟩ := mem_ipv4Literal literal
      exact delimited_of_digits nonempty spelled
  | ipv6 text literal brackets =>
      rw [brackets]
      exact delimited_of_address (mem_ipv6Literal literal)
  | name nonempty clean known =>
      refine .inl ⟨nonempty, fun byte member => ?_⟩
      have others := clean byte member
      simp only [genDelims, List.mem_cons, List.not_mem_nil, or_false,
        not_or] at others
      exact ⟨others.2.1, others.1, others.2.2.2.2.1, others.2.2.2.2.2.1⟩

theorem WellFormed.split (wellFormed : WellFormed ocDnsLookup reference)
    {parseUri : Bool} {parsed : EndpointUri}
    (found : parseEndpointUri reference.text parseUri = some parsed) :
    Split reference := by
  have delimited := wellFormed.host.delimited
  cases port : reference.port with
  | some digits =>
      exact split_of_port delimited wellFormed.path port
        (wellFormed.port digits port).1 (wellFormed.digits digits port)
  | none =>
      rcases split_or_rejected delimited wellFormed.path port with
        split | rejected
      · exact split
      · rw [rejected] at found
        cases found

theorem portRead_eq (split : Split reference)
    (inRange : PortInRange reference.port) :
    reference.portRead.toNat = reference.portNumber := by
  rw [Reference.portRead, Reference.portNumber]
  cases port : reference.port with
  | none => rfl
  | some digits =>
      obtain ⟨nonempty, small⟩ := inRange digits port
      have ends : EndsNumber reference.path := by
        intro byte first
        rw [split.path byte first]
        rfl
      have fits : ¬ ulongMax < JsonInteger.ofDigits digits := by
        unfold ulongMax
        omega
      dsimp only
      rw [strtoul_digits nonempty (split.digits digits port) ends,
        if_neg fits]
      simp
      omega

theorem textContract_iff (text : Bytes) :
    TextContract ocDnsLookup text ↔ TakenWellFormed ocDnsLookup text := by
  constructor
  · rintro contract reference rfl split taken
    obtain ⟨address, found⟩ :=
      Option.isSome_iff_exists.mp ((hostTaken_iff reference).mpr taken)
    have accepted :=
      @ocStringToEndpoint_of_split ocDnsLookup reference split true
    rw [found, Option.map_some] at accepted
    obtain ⟨other, same, wellFormed, -⟩ := contract true _ _ accepted
    have parsed := parseEndpointUri_of_split split true
    rw [← same] at parsed
    obtain rfl := (wellFormed.split parsed).unique split same
    exact ⟨wellFormed.host, wellFormed.port⟩
  · intro taken wantsUri endpoint uri accepted
    obtain ⟨reference, split, same, hostTaken, flags, port, uri⟩ :=
      split_of_accepted accepted
    obtain ⟨isHost, inRange⟩ := taken reference same split hostTaken
    refine ⟨reference, same, ⟨isHost, split.digits, inRange, split.path⟩,
      flags, ?_, uri⟩
    rw [port, portRead_eq split inRange]

end Texts

section Printed

variable {mixed : Octets 16 → Bool}
  {ocDnsLookup : (ipv6 tcp : Bool) → Bytes → Option Bytes}

variable (mixed) in
/-- The host of a printed endpoint. -/
def hostText : Address → Bytes
  | .ipv4 octets => dotted octets.bytes
  | .ipv6 octets => 91 :: inetNtop mixed octets ++ [93]

variable (mixed) in
def printedReference (endpoint : Endpoint) : Reference where
  flags := endpoint.flags
  host := hostText mixed endpoint.address
  port := some (numeral endpoint.port.toNat)
  path := []

theorem length_scheme (flags : TransportFlags) :
    (endpointFlagsToScheme flags).length ≤ 12 := by
  obtain ⟨secured, tcp⟩ := flags
  cases secured <;> cases tcp <;> decide

theorem length_port (port : UInt16) : (numeral port.toNat).length ≤ 5 :=
  length_numeral_le (by decide)
    (Nat.lt_trans port.toNat_lt (by decide))

theorem printed_of_lt {size : Nat} (small : text.length < size) :
    printed text size = some text :=
  if_pos small

theorem of_printed {text result : Bytes} {size : Nat}
    (found : printed text size = some result) : text = result := by
  rw [printed] at found
  split_ifs at found
  exact Option.some.inj found

theorem printedReference_text (endpoint : Endpoint) :
    (printedReference mixed endpoint).text =
      endpointFlagsToScheme endpoint.flags ++
        (hostText mixed endpoint.address ++
          58 :: numeral endpoint.port.toNat) := by
  simp [Reference.text, Reference.address, printedReference, portText]

theorem text_of_addressAndPort {endpoint : Endpoint} {text : Bytes}
    {size : Nat} (found : ocEndpointAddressAndPortToCstring mixed endpoint
      size = some text) :
    text = hostText mixed endpoint.address ++
      58 :: numeral endpoint.port.toNat := by
  rw [ocEndpointAddressAndPortToCstring] at found
  cases address : endpoint.address with
  | ipv4 octets =>
      rw [address] at found
      dsimp only at found
      rw [ocIpv4AddressAndPortToString] at found
      cases host : ocIpv4AddressToString octets size with
      | none =>
          rw [host] at found
          cases found
      | some host' =>
          rw [host] at found
          obtain ⟨port, fits, rfl⟩ := Option.map_eq_some_iff.mp found
          rw [← of_printed fits, ← of_printed host]
          rfl
  | ipv6 octets =>
      rw [address] at found
      dsimp only at found
      rw [ocIpv6AddressAndPortToString] at found
      split_ifs at found with short
      cases host : ocIpv6AddressToString mixed octets (size - 1) with
      | none =>
          rw [host] at found
          cases found
      | some host' =>
          rw [host] at found
          obtain ⟨port, fits, rfl⟩ := Option.map_eq_some_iff.mp found
          rw [← of_printed fits, ← of_printed host]
          simp [hostText]

theorem text_of_printed {endpoint : Endpoint}
    (found : ocEndpointToString mixed endpoint = some text) :
    text = (printedReference mixed endpoint).text := by
  rw [ocEndpointToString, ocEndpointToCstring] at found
  cases scheme : printed (endpointFlagsToScheme endpoint.flags) 64 with
  | none =>
      rw [scheme] at found
      cases found
  | some scheme' =>
      rw [scheme] at found
      obtain ⟨address, printed, rfl⟩ := Option.map_eq_some_iff.mp found
      rw [printedReference_text, ← of_printed scheme,
        text_of_addressAndPort printed]

theorem ocEndpointToString_plain {endpoint : Endpoint}
    (plain : ∀ octets, endpoint.address = .ipv6 octets →
      mixed octets = false) :
    ocEndpointToString mixed endpoint =
      some (printedReference mixed endpoint).text := by
  have scheme := length_scheme endpoint.flags
  have port := length_port endpoint.port
  rw [ocEndpointToString, ocEndpointToCstring,
    printed_of_lt (Nat.lt_of_le_of_lt scheme (by decide)),
    printedReference_text]
  dsimp only
  rw [ocEndpointAddressAndPortToCstring]
  cases address : endpoint.address with
  | ipv4 octets =>
      have host := length_dotted_le octets.bytes
      rw [octets.length_bytes] at host
      dsimp only
      rw [ocIpv4AddressAndPortToString, ocIpv4AddressToString,
        printed_of_lt (by omega)]
      dsimp only
      rw [printed_of_lt (by rw [List.length_cons]; omega)]
      rfl
  | ipv6 octets =>
      have host := length_inetNtop_le (plain octets address)
      dsimp only
      rw [ocIpv6AddressAndPortToString, if_neg (by omega),
        ocIpv6AddressToString, printed_of_lt (by omega)]
      dsimp only
      rw [printed_of_lt (by rw [List.length_cons, List.length_cons]; omega)]
      simp [hostText]

theorem delimited_hostText (address : Address) :
    Delimited (hostText mixed address) := by
  cases address with
  | ipv4 octets =>
      refine delimited_of_digits ?_ fun byte => mem_dotted
      have long := le_length_dotted octets.bytes
      rw [octets.length_bytes] at long
      refine List.ne_nil_of_length_pos ?_
      rw [hostText]
      omega
  | ipv6 octets => exact delimited_of_address fun byte => mem_inetNtop

theorem split_printedReference (endpoint : Endpoint) :
    Split (printedReference mixed endpoint) := by
  have own := areDigitsOf_numeral endpoint.port.toNat
  exact split_of_port (delimited_hostText endpoint.address)
    (fun _ absent => by cases absent) rfl own.nonempty own.areDigits

/-- The address that is read from the host of a printed endpoint. -/
def addressRead (mixed : Octets 16 → Bool) : Address → Option Address
  | .ipv4 octets => some (.ipv4 octets)
  | .ipv6 octets =>
      (ocParseIpv6Address (inetNtop mixed octets)).map .ipv6

theorem not_endsInLetter_hostText (address : Address) :
    ¬ EndsInLetter (hostText mixed address) := by
  rintro ⟨byte, last, letter⟩
  cases address with
  | ipv4 octets =>
      rcases mem_dotted (List.mem_of_getLast? last) with digit | rfl
      · simp only [isDigit, isLetter, Bool.and_eq_true, Bool.or_eq_true,
          decide_eq_true_eq, UInt8.le_iff_toNat_le, UInt8.reduceToNat]
          at digit letter
        omega
      · cases letter
  | ipv6 octets =>
      rw [hostText, List.getLast?_concat] at last
      obtain rfl := Option.some.inj last
      cases letter

theorem hostAddress_hostText (flags : TransportFlags) (address : Address)
    {rest : Bytes} (ends : EndsNumber rest) :
    hostAddress ocDnsLookup flags (hostText mixed address ++ rest)
      (hostText mixed address).length = addressRead mixed address := by
  have noLetter := @not_endsInLetter_hostText mixed address
  rw [hostAddress, resolvedAddress,
    if_neg fun letter => noLetter ((endsInLetter_iff _ rest).mp letter),
    Option.bind_some, readAddress]
  cases address with
  | ipv4 octets =>
      have plain : ¬ Bracketed (hostText mixed (.ipv4 octets)) := by
        rintro ⟨-, bracket, -⟩
        rcases mem_dotted (List.mem_of_head? bracket) with digit | dot
        · cases digit
        · cases dot
      rw [if_neg fun both => plain ((bracketed_iff _ rest).mp both),
        hostText, ocParseIpv4Address_dotted octets ends]
      rfl
  | ipv6 octets =>
      have brackets : Bracketed (hostText mixed (.ipv6 octets)) := by
        rw [hostText]
        refine ⟨?_, rfl, List.getLast?_concat ..⟩
        rw [List.length_append, List.length_cons]
        exact Nat.lt_add_of_pos_left (Nat.succ_pos _)
      have inner : ((hostText mixed (.ipv6 octets) ++ rest).drop 1).take
          ((hostText mixed (.ipv6 octets)).length - 2) =
            inetNtop mixed octets := by
        simp [hostText]
      rw [if_pos ((bracketed_iff _ rest).mpr brackets), inner]
      rfl

theorem ocStringToEndpoint_printed (endpoint : Endpoint)
    (wantsUri : Bool) :
    ocStringToEndpoint ocDnsLookup (printedReference mixed endpoint).text
        wantsUri =
      (addressRead mixed endpoint.address).map fun address =>
        (⟨endpoint.flags, address, endpoint.port⟩, none) := by
  have split := @split_printedReference mixed endpoint
  have own := areDigitsOf_numeral endpoint.port.toNat
  have ends : EndsNumber (58 :: numeral endpoint.port.toNat ++ []) := by
    intro byte first
    obtain rfl := Option.some.inj first
    rfl
  have inRange : PortInRange (printedReference mixed endpoint).port := by
    intro digits same
    obtain rfl := Option.some.inj same
    refine ⟨own.nonempty, ?_⟩
    rw [own.value]
    exact Nat.le_of_lt_succ endpoint.port.toNat_lt
  have port : (printedReference mixed endpoint).portRead =
      endpoint.port := by
    refine UInt16.toNat_inj.mp ?_
    rw [portRead_eq split inRange]
    exact own.value
  have uri : (printedReference mixed endpoint).uri wantsUri = none := by
    rw [Reference.uri, if_neg fun both => both.2 rfl]
  rw [ocStringToEndpoint_of_split split, port, uri, Reference.address,
    List.append_assoc]
  exact congrArg _ (hostAddress_hostText endpoint.flags endpoint.address
    ends)

theorem roundTrips_iff (endpoint : Endpoint) :
    RoundTrips ocDnsLookup mixed endpoint ↔
      ∀ octets, endpoint.address = .ipv6 octets → mixed octets = false := by
  constructor
  · rintro ⟨text, printed, read⟩ octets address
    by_contra embedded
    have parsed := read false
    rw [text_of_printed printed, ocStringToEndpoint_printed, address,
      addressRead, ocParseIpv6Address_mixed (by simpa using embedded)]
      at parsed
    cases parsed
  · intro plain
    refine ⟨_, ocEndpointToString_plain plain, fun wantsUri => ?_⟩
    rw [ocStringToEndpoint_printed]
    cases address : endpoint.address with
    | ipv4 octets =>
        rw [addressRead, Option.map_some, ← address]
    | ipv6 octets =>
        rw [addressRead, ocParseIpv6Address_inetNtop (plain octets address),
          Option.map_some, Option.map_some, ← address]

end Printed

/-- The texts of endpoints are read back, and of other texts only the
well-formed ones are accepted. -/
structure EndpointTextContract (mixed : Octets 16 → Bool)
    (ocDnsLookup : (ipv6 tcp : Bool) → Bytes → Option Bytes) : Prop where
  endpoint : ∀ endpoint : Endpoint, 0 < endpoint.port →
    RoundTrips ocDnsLookup mixed endpoint
  text : ∀ text, TextContract ocDnsLookup text

theorem endpoint_text (mixed : Octets 16 → Bool)
    (ocDnsLookup : (ipv6 tcp : Bool) → Bytes → Option Bytes) :
    (∀ endpoint, RoundTrips ocDnsLookup mixed endpoint ↔
      ∀ octets, endpoint.address = .ipv6 octets → mixed octets = false) ∧
    ∀ text, TextContract ocDnsLookup text ↔
      TakenWellFormed ocDnsLookup text :=
  ⟨roundTrips_iff, textContract_iff⟩

/-- The addresses that stand for one of IPv4. -/
def mapped (address : Octets 16) : Bool :=
  address.bytes.take 12 == List.replicate 10 0 ++ [255, 255]

/-- The host 1.2.3.4 with a number that is no port. -/
def largePort : Reference :=
  ⟨⟨false, false⟩, ascii "1.2.3.4", some (ascii "65536"), []⟩

theorem split_largePort : Split largePort where
  nonempty := by decide
  host := by decide
  digits := by
    intro digits same
    obtain rfl := Option.some.inj same
    have all : (ascii "65536").all isDigit = true := by decide
    exact List.all_eq_true.mp all
  path := fun _ absent => by cases absent
  colon := by decide

/-- `::ffff:1.2.3.4` is not read back, and 65536 is accepted for a port. -/
theorem not_endpointTextContract_mapped :
    ¬ EndpointTextContract mapped (fun _ _ _ => none) ∧
      ¬ TextContract (fun _ _ _ => none)
        (ascii "coap://1.2.3.4:65536") := by
  constructor
  · intro contract
    have trip := contract.endpoint
      ⟨⟨false, false⟩, .ipv6 ⟨List.replicate 10 0 ++
        [255, 255, 1, 2, 3, 4], rfl⟩, 5683⟩ (by decide)
    have plain := (roundTrips_iff _).mp trip _ rfl
    revert plain
    decide
  · rw [textContract_iff]
    intro taken
    have hostTaken : HostTaken (fun _ _ _ => none) largePort.flags
        largePort.host := by
      refine ⟨?_, ?_⟩
      · rintro ⟨byte, last, letter⟩
        obtain rfl := Option.some.inj last
        cases letter
      · rintro - ⟨-, bracket, -⟩
        cases bracket
    have inRange :=
      (taken largePort (by decide) split_largePort hostTaken).2
    have small := (inRange _ rfl).2
    revert small
    decide

end EndpointText

end IotivityLite
