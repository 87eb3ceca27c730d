import IotivityLite.Cloud.Store
import IotivityLite.Rep.PayloadRoundTrip
import IotivityLite.Security.UuidText

/-!
# Dumping and loading the store of the cloud

A store comes back from its encoding, except when the id of the selected
server is the wildcard.  What is no encoding of a store is refused when it has
a property that no store has; anything else is reported as loaded.
-/

namespace IotivityLite

/-- A store that the functions of the API can build. -/
structure CloudRecord.Valid (limits : AddressLimits) (record : CloudRecord) :
    Prop where
  distinct : (record.ciServers.addresses.map (·.uri)).Nodup
  uris : ∀ address ∈ record.ciServers.addresses,
    EndpointAddresses.isValid limits address.uri = true
  selected : ∃ address ∈ record.ciServers.addresses,
    record.ciServers.selected = some address.uri
  pool : ∀ size, limits.pool = some size →
    record.ciServers.addresses.length ≤ size
  fits : ∀ text ∈ [record.authProvider, record.uid, record.accessToken,
      record.refreshToken] ++ record.ciServers.addresses.map (·.uri),
    FitsString text

/-- The load gives back every field, the set of servers and the selected
one. -/
structure StoreLoad.Restores (load : StoreLoad) (record : CloudRecord) :
    Prop where
  loaded : load.loaded = true
  servers : load.store.ciServers.addresses.Perm record.ciServers.addresses
  selected : load.store.ciServers.selected = record.ciServers.selected
  authProvider : load.store.authProvider = record.authProvider
  uid : load.store.uid = record.uid
  accessToken : load.store.accessToken = record.accessToken
  refreshToken : load.store.refreshToken = record.refreshToken
  status : load.store.status = record.status
  cps : load.store.cps = record.cps
  expiresIn : load.store.expiresIn = record.expiresIn

section Servers

variable {limits : AddressLimits} {selected : EndpointAddress}

theorem poolLeft_of_lt {addresses : EndpointAddresses}
    (pool : ∀ size, limits.pool = some size →
      addresses.addresses.length < size) :
    addresses.poolLeft limits = true := by
  unfold EndpointAddresses.poolLeft
  cases size : limits.pool with
  | none => rfl
  | some size' => exact decide_eq_true (pool size' size)

theorem initServers_of_valid {uri : Bytes} (uuid : Uuid)
    (valid : EndpointAddresses.isValid limits uri = true)
    (pool : ∀ size, limits.pool = some size → 0 < size) :
    initServers limits uri uuid = (⟨[⟨uri, uuid⟩], some uri⟩, true) := by
  have left : EndpointAddresses.empty.poolLeft limits = true :=
    poolLeft_of_lt pool
  have filled : uri.length > 0 := by
    unfold EndpointAddresses.isValid at valid
    rw [Bool.and_eq_true, decide_eq_true_eq] at valid
    exact valid.1
  unfold initServers
  rw [if_pos filled]
  unfold EndpointAddresses.allocateAndAdd
  simp only
  rw [valid, left]
  rfl

theorem add_of_new {addresses : EndpointAddresses} {address : EndpointAddress}
    (some_selected : addresses.selected ≠ none)
    (valid : EndpointAddresses.isValid limits address.uri = true)
    (new : addresses.contains address.uri = false)
    (pool : ∀ size, limits.pool = some size →
      addresses.addresses.length < size) :
    addresses.add limits address =
      some (⟨addresses.addresses ++ [address], addresses.selected⟩, false) := by
  unfold EndpointAddresses.add EndpointAddresses.allocateAndAdd
  simp only
  rw [valid, new, poolLeft_of_lt pool, if_neg some_selected]
  rfl

theorem selectedSid_ocUuidToStr {uuid : Uuid}
    (other : uuid ≠ Uuid.ofBytes [42]) :
    selectedSid (some (ocUuidToStr uuid)) = some uuid := by
  rw [ocUuidToStr_of_ne other, selectedSid, strToUuid_parts]
  exact if_pos rfl

theorem selectedSid_wildcard :
    selectedSid (some (ocUuidToStr (Uuid.ofBytes [42]))) = none := rfl

theorem getString_uri (address : EndpointAddress) :
    getString (ocEndpointAddressEncode cloudEndpointUri cloudEndpointId
      address) cloudEndpointUri = some address.uri := rfl

theorem getString_id (address : EndpointAddress) :
    getString (ocEndpointAddressEncode cloudEndpointUri cloudEndpointId
      address) cloudEndpointId = some (ocUuidToStr address.uuid) := rfl

theorem addServers_encoded {done rest : List EndpointAddress}
    (distinct : ((done ++ rest).map (·.uri)).Nodup)
    (before : ∀ address ∈ done, address.uri ≠ selected.uri)
    (valid : ∀ address ∈ rest,
      EndpointAddresses.isValid limits address.uri = true)
    (pool : ∀ size, limits.pool = some size →
      1 + done.length +
        (rest.filter (fun address => address.uri != selected.uri)).length ≤
          size) :
    addServers limits ⟨selected :: done, some selected.uri⟩
        (rest.map (ocEndpointAddressEncode cloudEndpointUri
          cloudEndpointId)) =
      (⟨selected :: done ++
        rest.filter (fun address => address.uri != selected.uri),
        some selected.uri⟩, true) := by
  induction rest generalizing done with
  | nil => simp [addServers]
  | cons address rest ih =>
      rw [List.forall_mem_cons] at valid
      rw [List.map_cons, addServers, getString_uri]
      simp only
      rw [getString_id, Option.bind_some, ocStrToUuidV1_ocUuidToStr]
      simp only
      by_cases same : address.uri = selected.uri
      · have known : (⟨selected :: done, some selected.uri⟩ :
            EndpointAddresses).contains address.uri = true := by
          simp [EndpointAddresses.contains, same]
        have filtered : (address :: rest).filter
              (fun address => address.uri != selected.uri) =
            rest.filter (fun address => address.uri != selected.uri) :=
          List.filter_cons_of_neg (by simp [same])
        rw [if_pos known, filtered]
        rw [filtered] at pool
        refine ih ?_ before valid.2 pool
        refine distinct.sublist (List.Sublist.map _ ?_)
        exact (List.Sublist.refl done).append (List.sublist_cons_self _ _)
      · have here : address.uri ∉ done.map (·.uri) := by
          intro member
          rw [List.map_append, List.nodup_append] at distinct
          exact distinct.2.2 _ member _ List.mem_cons_self rfl
        have new : (⟨selected :: done, some selected.uri⟩ :
            EndpointAddresses).contains address.uri = false := by
          simp only [EndpointAddresses.contains, List.any_cons,
            Bool.or_eq_false_iff, beq_eq_false_iff_ne, List.any_eq_false]
          refine ⟨fun equal => same equal.symm, ?_⟩
          intro other member equal
          exact here (List.mem_map.mpr ⟨other, member, by simpa using equal⟩)
        have filtered : (address :: rest).filter
              (fun address => address.uri != selected.uri) =
            address :: rest.filter
              (fun address => address.uri != selected.uri) :=
          List.filter_cons_of_pos (by simp [same])
        rw [filtered] at pool ⊢
        have room : ∀ size, limits.pool = some size →
            (selected :: done).length < size := by
          intro size bound
          have enough := pool size bound
          simp only [List.length_cons] at enough ⊢
          omega
        rw [if_neg (Bool.eq_false_iff.mp new),
          add_of_new (Option.some_ne_none _) valid.1 new room]
        simp only
        have next := @ih (done ++ [address])
          (by rw [List.append_assoc]; exact distinct)
          (by
            intro other member
            rcases List.mem_append.mp member with old | last
            · exact before other old
            · obtain rfl := List.mem_singleton.mp last
              exact same)
          valid.2
          (by
            intro size bound
            have enough := pool size bound
            simp only [List.length_cons, List.length_append,
              List.length_nil] at enough ⊢
            omega)
        rw [List.cons_append, next]
        simp

end Servers

section Decoding

variable {limits : AddressLimits} {record : CloudRecord}

theorem CloudRecord.Valid.selectedAddress (valid : record.Valid limits) :
    ∃ address ∈ record.ciServers.addresses,
      record.ciServers.selected = some address.uri ∧
      record.ciServers.selectedAddress = some address := by
  obtain ⟨address, member, selected⟩ := valid.selected
  refine ⟨address, member, selected, ?_⟩
  unfold EndpointAddresses.selectedAddress EndpointAddresses.find
  rw [selected, Option.bind_some]
  exact (find?_key_some_iff valid.distinct).mpr ⟨member, rfl⟩

/-- What the properties of an encoding are collected to. -/
def CloudRecord.data (record : CloudRecord) (selected : EndpointAddress) :
    CloudStoreData where
  ciServers :=
    if record.ciServers.addresses.length ≤ 1 then none
    else some (record.ciServers.addresses.map
      (ocEndpointAddressEncode cloudEndpointUri cloudEndpointId))
  ciServer := some selected.uri
  sid := some (ocUuidToStr selected.uuid)
  authProvider := some record.authProvider
  uid := some record.uid
  accessToken := some record.accessToken
  refreshToken := some record.refreshToken
  status := record.status
  cps := record.cps
  expiresIn := record.expiresIn

variable {selected : EndpointAddress}

theorem foldlM_encoded (store : CloudRecord)
    (found : record.ciServers.selectedAddress = some selected) :
    (ocCloudStoreEncode record).foldlM cloudStoreParseProperty
      (.start store) = some (record.data selected) := by
  have rest : ∀ csd : CloudStoreData,
      [(cloudAuthProvider, OcRepValue.string record.authProvider),
        (cloudUid, .string record.uid),
        (cloudAccessToken, .string record.accessToken),
        (cloudRefreshToken, .string record.refreshToken),
        (cloudStatus, .int (.ofNat record.status.toNat)),
        (cloudCps, .int (.ofNat record.cps.toNat)),
        (cloudExpiresIn, .int record.expiresIn)].foldlM
          cloudStoreParseProperty csd =
      some { csd with
        authProvider := some record.authProvider
        uid := some record.uid
        accessToken := some record.accessToken
        refreshToken := some record.refreshToken
        status := (Int64.ofNat record.status.toNat).toUInt64.toUInt8
        cps := (Int64.ofNat record.cps.toNat).toUInt64.toUInt8
        expiresIn := record.expiresIn } := fun _ => rfl
  have first : (ocEndpointAddressEncode cloudCiServer cloudSid
        selected).foldlM cloudStoreParseProperty (.start store) =
      some { CloudStoreData.start store with
        ciServer := some selected.uri
        sid := some (ocUuidToStr selected.uuid) } := rfl
  unfold ocCloudStoreEncode ocEndpointAddressesEncode
  rw [found]
  simp only
  rw [List.foldlM_append, List.foldlM_append, first]
  unfold CloudRecord.data
  split_ifs
  · simp only [List.foldlM_nil, Option.bind_eq_bind, Option.bind_some,
      pure_bind]
    rw [rest, toUInt8_ofNat, toUInt8_ofNat]
    rfl
  · have servers : ∀ csd : CloudStoreData, ∀ items : List OcRep,
        [(cloudServers, OcRepValue.objectArray items)].foldlM
          cloudStoreParseProperty csd =
        some { csd with ciServers := some items } := fun _ _ => rfl
    rw [Option.bind_eq_bind, Option.bind_some, servers, Option.bind_some,
      rest, toUInt8_ofNat, toUInt8_ofNat]

theorem ocCloudEndpointAddressesSet_encoded (valid : record.Valid limits)
    (member : selected ∈ record.ciServers.addresses) :
    ∃ addresses, addresses.Perm record.ciServers.addresses ∧
      ocCloudEndpointAddressesSet limits (some selected.uri) selected.uuid
        (record.data selected).ciServers =
          (⟨addresses, some selected.uri⟩, true) := by
  have filled : 0 < record.ciServers.addresses.length :=
    List.length_pos_of_mem member
  have init := initServers_of_valid selected.uuid
    (valid.uris selected member)
    (fun size bound => Nat.lt_of_lt_of_le filled (valid.pool size bound))
  unfold ocCloudEndpointAddressesSet
  rw [Option.getD_some, init]
  simp only [CloudRecord.data]
  split_ifs with single
  · refine ⟨[selected], ?_, rfl⟩
    obtain ⟨only, whole⟩ := List.length_eq_one_iff.mp
      (Nat.le_antisymm single filled)
    rw [whole] at member ⊢
    obtain rfl := List.mem_singleton.mp member
    exact List.Perm.refl _
  · refine ⟨selected :: record.ciServers.addresses.filter
      (fun address => address.uri != selected.uri), ?_, ?_⟩
    · have nodup : record.ciServers.addresses.Nodup :=
        List.Nodup.of_map _ valid.distinct
      refine (List.perm_ext_iff_of_nodup ?_ nodup).mpr ?_
      · rw [List.nodup_cons]
        refine ⟨?_, nodup.filter _⟩
        simp
      · intro address
        rw [List.mem_cons, List.mem_filter, bne_iff_ne]
        constructor
        · rintro (rfl | ⟨known, -⟩)
          · exact member
          · exact known
        · intro known
          by_cases same : address.uri = selected.uri
          · exact .inl (List.inj_on_of_nodup_map valid.distinct known member
              same)
          · exact .inr ⟨known, same⟩
    · have distinct : (([] ++ record.ciServers.addresses).map
        EndpointAddress.uri).Nodup := valid.distinct
      refine addServers_encoded distinct (fun _ other => by cases other)
        valid.uris ?_
      intro size bound
      change 1 + 0 + (record.ciServers.addresses.filter
        (fun address => address.uri != selected.uri)).length ≤ size
      have whole := valid.pool size bound
      have fewer : (record.ciServers.addresses.filter
          (fun address => address.uri != selected.uri)).length <
          record.ciServers.addresses.length := by
        apply List.length_filter_lt_length_iff_exists.mpr
        exact ⟨selected, member, by simp⟩
      omega

theorem ocCloudStoreDecode_encoded (store : CloudRecord)
    (found : record.ciServers.selectedAddress = some selected) :
    ocCloudStoreDecode limits (ocCloudStoreEncode record) store =
      some { record with ciServers :=
        (cloudStoreSetServers limits store.ciServers (some selected.uri)
          (some (ocUuidToStr selected.uuid))
          (record.data selected).ciServers).1 } := by
  unfold ocCloudStoreDecode
  rw [foldlM_encoded store found]
  rfl

end Decoding

section Bytes

variable {limits : AddressLimits} {record : CloudRecord}

theorem fitsString_ocUuidToStr (uuid : Uuid) :
    FitsString (ocUuidToStr uuid) := by
  unfold FitsString
  by_cases wildcard : uuid = Uuid.ofBytes [42]
  · rw [ocUuidToStr, if_pos wildcard]
    decide
  · rw [ocUuidToStr_of_ne wildcard, length_uuidParts uuid.length_id]
    decide

theorem membersSupported_append {first second : OcRep} :
    MembersSupported (first ++ second) ↔
      MembersSupported first ∧ MembersSupported second := by
  induction first with
  | nil => simp [MembersSupported]
  | cons member first ih =>
      obtain ⟨name, value⟩ := member
      simp only [List.cons_append, MembersSupported, ih, and_assoc]

theorem supported_ocEndpointAddressEncode {uriKey uuidKey : Bytes}
    {address : EndpointAddress} (uriFits : FitsString uriKey)
    (uuidFits : FitsString uuidKey) (fits : FitsString address.uri) :
    MembersSupported (ocEndpointAddressEncode uriKey uuidKey address) :=
  ⟨uriFits, fits, uuidFits, fitsString_ocUuidToStr address.uuid, trivial⟩

theorem supported_servers {addresses : List EndpointAddress}
    (fits : ∀ address ∈ addresses, FitsString address.uri) :
    ObjectsSupported (addresses.map
      (ocEndpointAddressEncode cloudEndpointUri cloudEndpointId)) := by
  induction addresses with
  | nil => trivial
  | cons address addresses ih =>
      rw [List.forall_mem_cons] at fits
      exact ⟨supported_ocEndpointAddressEncode (by unfold FitsString; decide)
        (by unfold FitsString; decide) fits.1, ih fits.2⟩

theorem supported_ocCloudStoreEncode (valid : record.Valid limits) :
    (RepRoot.object (ocCloudStoreEncode record)).Supported := by
  have uris : ∀ address ∈ record.ciServers.addresses,
      FitsString address.uri := fun address member =>
    valid.fits _ (List.mem_append_right _
      (List.mem_map.mpr ⟨address, member, rfl⟩))
  have texts := fun text member =>
    valid.fits text (List.mem_append_left _ member)
  simp only [List.forall_mem_cons] at texts
  obtain ⟨selected, member, -, found⟩ := valid.selectedAddress
  change MembersSupported (ocCloudStoreEncode record)
  unfold ocCloudStoreEncode ocEndpointAddressesEncode
  rw [found, membersSupported_append, membersSupported_append]
  refine ⟨⟨supported_ocEndpointAddressEncode (by unfold FitsString; decide)
    (by unfold FitsString; decide) (uris selected member), ?_⟩, ?_⟩
  · split_ifs with single
    · trivial
    · refine ⟨by unfold FitsString; decide, ⟨?_, supported_servers uris⟩,
        trivial⟩
      intro empty
      rw [List.map_eq_nil_iff] at empty
      rw [empty] at member
      cases member
  · simp only [MembersSupported, OcRepValue.Supported, and_true, true_and]
    refine ⟨?_, texts.1, ?_, texts.2.1, ?_, texts.2.2.1, ?_, texts.2.2.2.1,
      ?_, ?_, ?_⟩
    all_goals
      unfold FitsString
      decide

theorem bytes_ocCloudStoreEncode_ne_nil (codec : CborCodec)
    (definite : Bool) (members : OcRep) :
    codec.bytes ((RepRoot.object members).item definite).tokens ≠ [] := by
  intro empty
  have counted := codec.length_le_length_bytes
    ((RepRoot.object members).item definite).tokens
  rw [empty] at counted
  simp [RepRoot.item, CborItem.tokens] at counted

theorem ocCloudStoreEncode_ne_nil : ocCloudStoreEncode record ≠ [] := by
  unfold ocCloudStoreEncode
  simp

theorem ocCloudStoreLoad_encoded {codec : CborCodec} {stored : Bytes}
    {selected : EndpointAddress} (store : CloudRecord)
    (found : record.ciServers.selectedAddress = some selected)
    (filled : stored ≠ [])
    (parsed : ocParseRep codec stored = ocCloudStoreEncode record) :
    ocCloudStoreLoad codec limits stored store =
      ⟨{ record with ciServers :=
        (cloudStoreSetServers limits store.ciServers (some selected.uri)
          (some (ocUuidToStr selected.uuid))
          (record.data selected).ciServers).1 }, true⟩ := by
  unfold ocCloudStoreLoad ocStorageDataLoad
  rw [if_neg filled, parsed, if_neg (by
      rw [List.isEmpty_iff]
      exact ocCloudStoreEncode_ne_nil),
    ocCloudStoreDecode_encoded store found]
  rfl

theorem mem_initServers {uri : Bytes} {uuid : Uuid}
    {address : EndpointAddress}
    (member : address ∈ (initServers limits uri uuid).1.addresses) :
    address.uuid = uuid := by
  unfold initServers EndpointAddresses.allocateAndAdd at member
  simp only at member
  split_ifs at member with filled refused chosen
  · cases member
  · obtain rfl := List.mem_singleton.mp member
    rfl
  · exact absurd rfl chosen
  · cases member

theorem restores_iff {codec : CborCodec} {stored : Bytes}
    (valid : record.Valid limits) (filled : stored ≠ [])
    (parsed : ocParseRep codec stored = ocCloudStoreEncode record) :
    (ocCloudStoreLoad codec limits stored (.initial limits)).Restores
        record ↔
      ∀ address, record.ciServers.selectedAddress = some address →
        address.uuid ≠ Uuid.ofBytes [42] := by
  obtain ⟨selected, member, chosen, found⟩ := valid.selectedAddress
  have load := @ocCloudStoreLoad_encoded limits record codec stored selected
    (.initial limits) found filled parsed
  rw [load]
  constructor
  · intro restores address same wildcard
    obtain rfl := Option.some.inj (found.symm.trans same)
    have servers := restores.servers
    simp only [wildcard, cloudStoreSetServers, selectedSid_wildcard]
      at servers
    have known := servers.mem_iff.mpr member
    have initial := mem_initServers known
    rw [wildcard] at initial
    exact absurd initial (by decide)
  · intro other
    obtain ⟨addresses, permuted, set⟩ :=
      ocCloudEndpointAddressesSet_encoded valid member
    have sid := selectedSid_ocUuidToStr (other selected found)
    have result : (cloudStoreSetServers limits
        (CloudRecord.initial limits).ciServers (some selected.uri)
        (some (ocUuidToStr selected.uuid))
        (record.data selected).ciServers).1 =
          ⟨addresses, some selected.uri⟩ := by
      unfold cloudStoreSetServers
      rw [sid]
      simp only
      rw [set]
    rw [result]
    exact ⟨rfl, permuted, chosen.symm, rfl, rfl, rfl, rfl, rfl, rfl, rfl⟩

end Bytes

/-- The properties that a store has, with their types. -/
def KnownProperty : Bytes × OcRepValue → Prop
  | (name, .objectArray _) => name = cloudServers
  | (name, .string _) => name ∈ [cloudCiServer, cloudSid, cloudAuthProvider,
      cloudUid, cloudAccessToken, cloudRefreshToken]
  | (name, .int _) => name ∈ [cloudStatus, cloudCps, cloudExpiresIn]
  | _ => False

/-- The bytes hold properties of the encoding of a store. -/
def StoreEncoding (codec : CborCodec) (limits : AddressLimits)
    (stored : Bytes) : Prop :=
  ∃ rep record, ocRepParseCbor codec stored = .ok (.rep rep) ∧
    CloudRecord.Valid limits record ∧
    ∀ property ∈ rep, property ∈ ocCloudStoreEncode record

/-- The bytes can be parsed, and hold a property that no store has. -/
def HoldsUnknown (codec : CborCodec) (stored : Bytes) : Prop :=
  ∃ rep, ocRepParseCbor codec stored = .ok (.rep rep) ∧
    ∃ property ∈ rep, ¬ KnownProperty property

theorem cloudStoreParseProperty_eq_none_iff (csd : CloudStoreData)
    (property : Bytes × OcRepValue) :
    cloudStoreParseProperty csd property = none ↔
      ¬ KnownProperty property := by
  obtain ⟨name, value⟩ := property
  cases value with
  | objectArray items =>
      simp only [cloudStoreParseProperty, KnownProperty,
        cloudStoreParseObjectArrayProperty]
      split_ifs with known
      · simp [known]
      · simp [known]
  | string value =>
      simp only [cloudStoreParseProperty, KnownProperty,
        cloudStoreParseStringProperty, List.mem_cons, List.not_mem_nil,
        or_false]
      split_ifs
      all_goals simp_all
  | int value =>
      simp only [cloudStoreParseProperty, KnownProperty,
        cloudStoreParseIntProperty, List.mem_cons, List.not_mem_nil,
        or_false]
      split_ifs
      all_goals simp_all
  | _ => simp [cloudStoreParseProperty, KnownProperty]

theorem foldlM_eq_none_iff (rep : OcRep) (csd : CloudStoreData) :
    rep.foldlM cloudStoreParseProperty csd = none ↔
      ∃ property ∈ rep, ¬ KnownProperty property := by
  induction rep generalizing csd with
  | nil => simp
  | cons property rep ih =>
      rw [List.foldlM_cons]
      cases parsed : cloudStoreParseProperty csd property with
      | none =>
          have unknown :=
            (cloudStoreParseProperty_eq_none_iff csd property).mp parsed
          simp [unknown]
      | some next =>
          have known : KnownProperty property := by
            by_contra unknown
            rw [(cloudStoreParseProperty_eq_none_iff csd property).mpr
              unknown] at parsed
            cases parsed
          rw [Option.bind_eq_bind, Option.bind_some, ih next]
          simp [known]

theorem refused_iff (codec : CborCodec) (limits : AddressLimits)
    (stored : Bytes) (store : CloudRecord) :
    ocCloudStoreLoad codec limits stored store =
        ⟨.initial limits, false⟩ ↔
      stored = [] ∨ HoldsUnknown codec stored := by
  unfold ocCloudStoreLoad ocStorageDataLoad
  by_cases empty : stored = []
  · rw [if_pos empty]
    simp [empty]
  · rw [if_neg empty]
    simp only [empty, false_or]
    unfold HoldsUnknown ocParseRep
    cases parsed : ocRepParseCbor codec stored with
    | error error => simp
    | ok result =>
        cases result with
        | emptyArray => simp
        | null => simp
        | rep rep =>
            simp only [Except.ok.injEq, RepParseResult.rep.injEq,
              exists_eq_left']
            rw [← foldlM_eq_none_iff rep (.start store)]
            cases rep with
            | nil => simp
            | cons property rep =>
                simp only [List.isEmpty_cons]
                unfold ocCloudStoreDecode
                cases (property :: rep).foldlM cloudStoreParseProperty
                    (.start store) with
                | none => simp
                | some csd => simp

/-- A store that was dumped is loaded with the same content exactly when the
id of its selected server is not the wildcard.  Bytes that are no encoding of
a store are refused exactly when there are none or they hold a property that
no store has. -/
theorem cloud_store_storage_iff (codec : CborCodec) (definite : Bool)
    (limits : AddressLimits) (record : CloudRecord)
    (valid : record.Valid limits) (buffer : RepBuffer)
    (unwritten : buffer.written = [])
    (room : (codec.bytes ((RepRoot.object
      (ocCloudStoreEncode record)).item definite).tokens).length ≤
        buffer.capacity)
    (stored : Bytes) (store : CloudRecord) :
    (∃ after, (encodeRoot codec definite (.object
        (ocCloudStoreEncode record))).run buffer = .ok ((), after) ∧
      ((ocCloudStoreLoad codec limits after.written
          (.initial limits)).Restores record ↔
        ∀ address, record.ciServers.selectedAddress = some address →
          address.uuid ≠ Uuid.ofBytes [42])) ∧
      ((¬ StoreEncoding codec limits stored →
          ocCloudStoreLoad codec limits stored store =
            ⟨.initial limits, false⟩) ↔
        StoreEncoding codec limits stored ∨ stored = [] ∨
          HoldsUnknown codec stored) := by
  constructor
  · obtain ⟨after, ran, written, -⟩ := emits_encodeRoot codec definite
      (.object (ocCloudStoreEncode record)) buffer (by
        rw [unwritten, List.length_nil, Nat.zero_add]
        exact room)
    rw [unwritten, List.nil_append] at written
    have parsed := ocRepParseCbor_bytes codec definite
      (supported_ocCloudStoreEncode valid)
    refine ⟨after, ran, restores_iff valid ?_ ?_⟩
    · rw [written]
      exact bytes_ocCloudStoreEncode_ne_nil codec definite _
    · rw [written, ocParseRep, parsed]
      rfl
  · rw [refused_iff]
    constructor
    · intro refused
      by_cases encoding : StoreEncoding codec limits stored
      · exact .inl encoding
      · exact .inr (refused encoding)
    · rintro (encoding | refused) other
      · exact absurd encoding other
      · exact refused

namespace StoreFixture

def limits : AddressLimits := ⟨128, none⟩

/-- Two servers, of which the second is selected. -/
def record : CloudRecord where
  ciServers := ⟨[⟨[97], .nil⟩, ⟨[98], .ofBytes [1]⟩], some [98]⟩
  authProvider := [103]
  uid := [117]
  accessToken := [116]
  refreshToken := []
  status := 3
  cps := 3
  expiresIn := -1

theorem valid : record.Valid limits where
  distinct := by decide
  uris := by decide
  selected := ⟨⟨[98], .ofBytes [1]⟩, by decide, rfl⟩
  pool := fun _ bound => by cases bound
  fits := by
    unfold FitsString
    decide

end StoreFixture

/-- Two servers come back, and a property of another name is refused. -/
theorem cloud_store_storage_two :
    (∃ after, (encodeRoot shortestHeads true (.object
        (ocCloudStoreEncode StoreFixture.record))).run (.ofFixed 512) =
          .ok ((), after) ∧
      (ocCloudStoreLoad shortestHeads StoreFixture.limits after.written
        (.initial StoreFixture.limits)).Restores StoreFixture.record) ∧
      (¬ StoreEncoding shortestHeads StoreFixture.limits
          [0xa1, 0x61, 0x61, 0x01] →
        ocCloudStoreLoad shortestHeads StoreFixture.limits
          [0xa1, 0x61, 0x61, 0x01] StoreFixture.record =
            ⟨.initial StoreFixture.limits, false⟩) := by
  obtain ⟨⟨after, ran, restores⟩, refused⟩ := cloud_store_storage_iff
    shortestHeads true StoreFixture.limits StoreFixture.record
    StoreFixture.valid (.ofFixed 512) rfl (by decide +kernel)
    [0xa1, 0x61, 0x61, 0x01] StoreFixture.record
  refine ⟨⟨after, ran, restores.mpr ?_⟩, refused.mpr (.inr (.inr ?_))⟩
  · intro address selected
    obtain rfl := Option.some.inj selected
    decide
  · refine ⟨[([0x61], .int 1)], rfl, _, List.mem_singleton_self _, ?_⟩
    unfold KnownProperty
    decide

/-- A byte that is no CBOR is reported as loaded. -/
theorem garbage_loaded :
    ¬ StoreEncoding shortestHeads StoreFixture.limits [0xff] ∧
      (ocCloudStoreLoad shortestHeads StoreFixture.limits [0xff]
        StoreFixture.record).loaded = true := by
  refine ⟨?_, by decide⟩
  rintro ⟨rep, record, parsed, -⟩
  cases parsed

end IotivityLite
