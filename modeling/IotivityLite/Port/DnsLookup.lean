import IotivityLite.Foundation.Run
import IotivityLite.Port.EndpointText

/-!
# Names of hosts

`oc_dns_lookup` of the Linux port, whose cache keeps the octets of an address
under the name alone, and `dns_lookup` of `oc_endpoint.c`, which asks for an
IPv4 address first.  What is found for a name is a text, and the endpoint gets
the address that the parser reads there.
-/

namespace IotivityLite

namespace DnsLookup

open AddressText EndpointText

/-- What `getaddrinfo` finds for a name. -/
structure Resolver where
  ipv4 : Bytes → Option (Octets 4)
  ipv6 : Bytes → Option (Octets 16)

/-- An address is in a `union dev_addr`, of which an IPv4 address is the first
four octets. -/
structure CachedDomain where
  domain : Bytes
  addr : Octets 16
  deriving DecidableEq

inductive DnsEvent where
  | lookup (domain : Bytes)
  | clear
  deriving DecidableEq

/-- The rest of the union was set to zero. -/
def devAddr (octets : Octets 4) : Octets 16 :=
  .ofBytes 16 (octets.bytes ++ List.replicate 12 0)

def firstOctets (addr : Octets 16) : Octets 4 :=
  .ofBytes 4 (addr.bytes.take 4)

section Lookup

/- `capacity` is the number of entries when memory is not dynamic, and
`lookupIpv6` stands for `OC_DNS_LOOKUP_IPV6`. -/
variable (mixed : Octets 16 → Bool) (resolver : Resolver)
  (capacity : Option Nat) (lookupIpv6 : Bool)

def ocDnsLookupCache (cache : List CachedDomain) (domain : Bytes) :
    Option CachedDomain :=
  cache.find? (·.domain = domain)

def ocDnsCacheDomain (cache : List CachedDomain) (domain : Bytes)
    (addr : Octets 16) : List CachedDomain :=
  if capacity.all (cache.length < ·) then cache ++ [⟨domain, addr⟩] else cache

def getaddrinfo (ipv6 : Bool) (domain : Bytes) : Option (Octets 16) :=
  if ipv6 then resolver.ipv6 domain else (resolver.ipv4 domain).map devAddr

def addressText (ipv6 : Bool) (addr : Octets 16) : Bytes :=
  if ipv6 then hostText mixed (.ipv6 addr)
  else hostText mixed (.ipv4 (firstOctets addr))

def ocDnsLookup (cache : List CachedDomain) (ipv6 : Bool) (domain : Bytes) :
    List CachedDomain × Option Bytes :=
  match ocDnsLookupCache cache domain with
  | some entry => (cache, some (addressText mixed ipv6 entry.addr))
  | none =>
      match getaddrinfo resolver ipv6 domain with
      | none => (cache, none)
      | some addr =>
          (ocDnsCacheDomain capacity cache domain addr,
            some (addressText mixed ipv6 addr))

def dnsLookup (cache : List CachedDomain) (domain : Bytes) :
    List CachedDomain × Option Bytes :=
  match ocDnsLookup mixed resolver capacity cache false domain with
  | (after, some text) => (after, some text)
  | (after, none) =>
      if lookupIpv6 then ocDnsLookup mixed resolver capacity after true domain
      else (after, none)

def step (cache : List CachedDomain) : DnsEvent → List CachedDomain
  | .lookup domain =>
      (dnsLookup mixed resolver capacity lookupIpv6 cache domain).1
  | .clear => []

/-- The address that an endpoint with this host gets. -/
def endpointAddress (cache : List CachedDomain) (domain : Bytes) :
    Option Address :=
  (dnsLookup mixed resolver capacity lookupIpv6 cache domain).2.bind
    fun text => readAddress text text.length

/-- The address that `getaddrinfo` knows, as its text is read. -/
def knownAddress (domain : Bytes) : Option Address :=
  match resolver.ipv4 domain with
  | some octets => some (.ipv4 octets)
  | none =>
      if lookupIpv6 then
        (resolver.ipv6 domain).bind fun octets =>
          addressRead mixed (.ipv6 octets)
      else none

/-- An endpoint gets the known address of its host. -/
def Resolves (cache : List CachedDomain) : DnsEvent → Prop
  | .lookup domain =>
      endpointAddress mixed resolver capacity lookupIpv6 cache domain =
        knownAddress mixed resolver lookupIpv6 domain
  | .clear => True

/-- A name that is in the cache has an IPv4 address. -/
def KeptAsIpv4 (cache : List CachedDomain) : DnsEvent → Prop
  | .lookup domain => ocDnsLookupCache cache domain ≠ none →
      resolver.ipv4 domain ≠ none
  | .clear => True

end Lookup

variable {mixed : Octets 16 → Bool} {resolver : Resolver}
  {capacity : Option Nat} {lookupIpv6 : Bool} {cache : List CachedDomain}
  {domain : Bytes}

theorem firstOctets_devAddr (octets : Octets 4) :
    firstOctets (devAddr octets) = octets := by
  have same : (devAddr octets).bytes.take 4 = octets.bytes := by
    have small : (octets.bytes ++ List.replicate 12 0).length = 16 := by
      rw [List.length_append, octets.length_bytes, List.length_replicate]
    show (List.take 16 (octets.bytes ++ List.replicate 12 0) ++ _).take 4 = _
    rw [List.take_of_length_le small.le, List.append_assoc]
    exact List.take_left' octets.length_bytes
  rw [firstOctets, same, Octets.ofBytes_bytes]

theorem readAddress_hostText (address : Address) :
    readAddress (hostText mixed address) (hostText mixed address).length =
      addressRead mixed address := by
  have read := @hostAddress_hostText mixed (fun _ _ _ => none)
    ⟨false, false⟩ address [] (fun _ absent => by cases absent)
  have noLetter := @not_endsInLetter_hostText mixed address
  rw [hostAddress, resolvedAddress,
    if_neg fun letter => noLetter ((endsInLetter_iff _ []).mp letter),
    Option.bind_some, List.append_nil] at read
  exact read

theorem readAddress_addressText (ipv6 : Bool) (addr : Octets 16) :
    readAddress (addressText mixed ipv6 addr)
        (addressText mixed ipv6 addr).length =
      addressRead mixed (if ipv6 then .ipv6 addr
        else .ipv4 (firstOctets addr)) := by
  cases ipv6 with
  | false => exact readAddress_hostText (.ipv4 (firstOctets addr))
  | true => exact readAddress_hostText (.ipv6 addr)

theorem hostAddress_eq_endpointAddress {flags : TransportFlags}
    (letter : EndsInLetter domain) (short : domain.length ≤ maxHostLen)
    (noZero : 0 ∉ domain) :
    hostAddress (fun ipv6 _ name =>
        if ipv6 && !lookupIpv6 then none
        else (ocDnsLookup mixed resolver capacity cache ipv6 name).2)
        flags domain domain.length =
      endpointAddress mixed resolver capacity lookupIpv6 cache domain := by
  have last := (endsInLetter_iff domain []).mpr letter
  have name : domain.takeWhile (· ≠ 0) = domain :=
    List.takeWhile_eq_self_iff.mpr fun byte member =>
      decide_eq_true fun zero => noZero (zero ▸ member)
  rw [List.append_nil] at last
  rw [hostAddress, resolvedAddress, if_pos last,
    if_neg (Nat.not_lt.mpr short), List.take_length, EndpointText.dnsLookup,
    name, endpointAddress, dnsLookup]
  cases known : ocDnsLookupCache cache domain with
  | some entry =>
      simp only [ocDnsLookup, known]
      rfl
  | none =>
      cases asked : getaddrinfo resolver false domain with
      | some addr =>
          simp only [ocDnsLookup, known, asked]
          rfl
      | none =>
          simp only [ocDnsLookup, known, asked]
          cases lookupIpv6 with
          | false => rfl
          | true => cases getaddrinfo resolver true domain <;> rfl

/-- The entries are what `getaddrinfo` found. -/
def Sound (resolver : Resolver) (cache : List CachedDomain) : Prop :=
  ∀ entry ∈ cache,
    (∃ octets, resolver.ipv4 entry.domain = some octets ∧
      entry.addr = devAddr octets) ∨
    resolver.ipv4 entry.domain = none ∧
      resolver.ipv6 entry.domain = some entry.addr

theorem Sound.cached (sound : Sound resolver cache) {addr : Octets 16}
    (found : (∃ octets, resolver.ipv4 domain = some octets ∧
        addr = devAddr octets) ∨
      resolver.ipv4 domain = none ∧ resolver.ipv6 domain = some addr) :
    Sound resolver (ocDnsCacheDomain capacity cache domain addr) := by
  unfold ocDnsCacheDomain
  split
  · intro entry member
    rcases List.mem_append.mp member with old | new
    · exact sound entry old
    · obtain rfl := List.mem_singleton.mp new
      exact found
  · exact sound

theorem of_cached {entry : CachedDomain}
    (found : ocDnsLookupCache cache domain = some entry) :
    entry ∈ cache ∧ entry.domain = domain := by
  rw [ocDnsLookupCache] at found
  have same := List.find?_some found
  exact ⟨List.mem_of_find?_eq_some found, of_decide_eq_true same⟩

theorem dnsLookup_cached {entry : CachedDomain}
    (found : ocDnsLookupCache cache domain = some entry) :
    dnsLookup mixed resolver capacity lookupIpv6 cache domain =
      (cache, some (addressText mixed false entry.addr)) := by
  simp only [dnsLookup, ocDnsLookup, found]

theorem dnsLookup_ipv4 {octets : Octets 4}
    (unknown : ocDnsLookupCache cache domain = none)
    (found : resolver.ipv4 domain = some octets) :
    dnsLookup mixed resolver capacity lookupIpv6 cache domain =
      (ocDnsCacheDomain capacity cache domain (devAddr octets),
        some (addressText mixed false (devAddr octets))) := by
  have asked : getaddrinfo resolver false domain = some (devAddr octets) :=
    congrArg (Option.map devAddr) found
  simp only [dnsLookup, ocDnsLookup, unknown, asked]

theorem dnsLookup_ipv6 (unknown : ocDnsLookupCache cache domain = none)
    (missing : resolver.ipv4 domain = none) :
    dnsLookup mixed resolver capacity lookupIpv6 cache domain =
      if lookupIpv6 then
        match resolver.ipv6 domain with
        | none => (cache, none)
        | some addr => (ocDnsCacheDomain capacity cache domain addr,
            some (addressText mixed true addr))
      else (cache, none) := by
  have asked : getaddrinfo resolver false domain = none :=
    congrArg (Option.map devAddr) missing
  simp only [dnsLookup, ocDnsLookup, unknown, asked]
  cases lookupIpv6 <;> rfl

theorem Sound.step (sound : Sound resolver cache) (event : DnsEvent) :
    Sound resolver (step mixed resolver capacity lookupIpv6 cache event) := by
  cases event with
  | clear => exact fun _ member => by cases member
  | lookup domain =>
      rw [DnsLookup.step]
      cases known : ocDnsLookupCache cache domain with
      | some entry =>
          rw [dnsLookup_cached known]
          exact sound
      | none =>
          cases found : resolver.ipv4 domain with
          | some octets =>
              rw [dnsLookup_ipv4 known found]
              exact sound.cached (.inl ⟨octets, found, rfl⟩)
          | none =>
              rw [dnsLookup_ipv6 known found]
              split
              · cases other : resolver.ipv6 domain with
                | none => exact sound
                | some addr => exact sound.cached (.inr ⟨found, other⟩)
              · exact sound

theorem resolves_iff (sound : Sound resolver cache) (event : DnsEvent) :
    Resolves mixed resolver capacity lookupIpv6 cache event ↔
      KeptAsIpv4 resolver cache event := by
  cases event with
  | clear => exact Iff.rfl
  | lookup domain =>
      rw [Resolves, KeptAsIpv4, endpointAddress, knownAddress]
      cases known : ocDnsLookupCache cache domain with
      | some entry =>
          obtain ⟨member, rfl⟩ := of_cached known
          rw [dnsLookup_cached known, Option.bind_some,
            readAddress_addressText]
          rcases sound entry member with ⟨octets, found, same⟩ | ⟨missing, _⟩
          · rw [found, same]
            refine iff_of_true ?_ fun _ absent => by cases absent
            exact congrArg (fun octets => some (Address.ipv4 octets))
              (firstOctets_devAddr octets)
          · -- the octets of the IPv6 address are taken for an IPv4 address
            rw [missing]
            refine iff_of_false ?_ fun kept => kept (by simp) rfl
            intro same
            change some (Address.ipv4 _) = _ at same
            cases lookupIpv6 with
            | false => cases same
            | true =>
                obtain ⟨addr, -, read⟩ :=
                  Option.bind_eq_some_iff.mp same.symm
                obtain ⟨octets, -, other⟩ := Option.map_eq_some_iff.mp read
                cases other
      | none =>
          refine iff_of_true ?_ fun absent => absurd rfl absent
          cases found : resolver.ipv4 domain with
          | some octets =>
              rw [dnsLookup_ipv4 known found, Option.bind_some,
                readAddress_addressText]
              exact congrArg (fun octets => some (Address.ipv4 octets))
                (firstOctets_devAddr octets)
          | none =>
              rw [dnsLookup_ipv6 known found]
              split
              · cases other : resolver.ipv6 domain with
                | none => rfl
                | some addr => exact readAddress_addressText true addr
              · rfl

/-- In every run of lookups from an empty cache, every endpoint gets the known
address of its host exactly if no name is looked up that has no IPv4 address
while it is in the cache. -/
theorem hosts_resolve_iff (mixed : Octets 16 → Bool) (resolver : Resolver)
    (capacity : Option Nat) (lookupIpv6 : Bool) (events : List DnsEvent) :
    Along (step mixed resolver capacity lookupIpv6)
        (Resolves mixed resolver capacity lookupIpv6) [] events ↔
      Along (step mixed resolver capacity lookupIpv6)
        (KeptAsIpv4 resolver) [] events := by
  refine @Along.congr_iff_of_invariant _ _ _ _ _ _ (Sound resolver) _
    (fun _ member => by cases member) ?_ ?_
  · intro before event sound
    exact resolves_iff sound event
  · intro before event sound _
    exact sound.step event

/-- The address 2001:db8::1 of a name becomes 32.1.13.184 when the name is
looked up a second time. -/
example :
    let resolver : Resolver := ⟨fun _ => none, fun _ =>
      some (.ofBytes 16 ([32, 1, 13, 184] ++ List.replicate 11 0 ++ [1]))⟩
    endpointAddress (fun _ => false) resolver none true
        (step (fun _ => false) resolver none true [] (.lookup (ascii "a")))
          (ascii "a") =
      some (.ipv4 (.ofBytes 4 [32, 1, 13, 184])) := by
  decide

end DnsLookup

end IotivityLite
