import IotivityLite.Security.Cred
import IotivityLite.Security.Doxm

/-!
# The identity of a pre-shared key

`get_psk_cb` of `oc_tls.c`.  The identity that a peer sends is compared with
the subjects of credentials without a look at its length, so the comparison
reads behind a shorter identity and not to the end of a longer one.
-/

namespace IotivityLite

/-- A peer of `g_tls_peers`. -/
structure PskPeer where
  ssl : Nat
  device : Nat
  uuid : Uuid

/-- The peers and what the callback reads of their devices. -/
structure PskState where
  peers : List PskPeer
  dos : Nat → DosType
  creds : Nat → Creds
  doxm : Nat → Doxm
  pin : Bytes

/-- `setHsPsk` tells whether `mbedtls_ssl_set_hs_psk` takes a key, and
`pbkdf2` derives a key from the PIN and a UUID. -/
structure PskEnv where
  setHsPsk : Bytes → Bool
  pbkdf2 : Bytes → Uuid → Option Bytes

/-- The key that is supplied, if the result is zero, and the UUID of the peer
afterwards. -/
structure PskOutcome where
  key : Option Bytes
  uuid : Option Uuid
  deriving DecidableEq

/-- The prefix of an identity for the random PIN method. -/
def rdpPrefix : Bytes := ascii "oic.sec.doxm.rdp:"

/-- `OC_OXMTYPE_RDP_STR` -/
def ocOxmtypeRdpStr : Bytes := ascii "oic.sec.doxm.rdp"

/-- `OC_OXMTYPE_RDP` -/
def ocOxmtypeRdp : Int := 1

/-- `oc_sec_find_cred` from the start of the list -/
def Creds.ocSecFindCred (creds : Creds) (subject : Uuid) (credtype : Int)
    (credusage : CredUsage) : Option Cred :=
  creds.creds.find? fun cred =>
    cred.credtype == credtype && cred.credusage == credusage &&
      cred.subjectuuid == subject

/-- The bytes at an address taken as `oc_uuid_t`. -/
def Mem.uuidAt (memory : Mem) (address : Nat) : Uuid :=
  ⟨memory.read address 16, memory.length_read address 16⟩

/-- A key is handed to the library. -/
def PskEnv.supply (env : PskEnv) (key : Bytes) (uuid : Uuid) : PskOutcome :=
  ⟨if env.setHsPsk key then some key else none, some uuid⟩

/-- `get_psk_cb` -/
def getPskCb (env : PskEnv) (state : PskState) (memory : Mem)
    (ssl identity identityLen : Nat) : PskOutcome :=
  match state.peers.find? (·.ssl == ssl) with
  | none => ⟨none, none⟩
  | some peer =>
      let dos := state.dos peer.device
      let (identity, identityLen) :=
        if dos = .rfnop ∧ identityLen > 16 ∧
            memory.read identity 17 = rdpPrefix then
          (identity + 17, identityLen - 17)
        else (identity, identityLen)
      match (state.creds peer.device).ocSecFindCred (memory.uuidAt identity)
          CredType.psk .null with
      | some cred =>
          env.supply cred.privatedata.data (memory.uuidAt identity)
      | none =>
          let doxm := state.doxm peer.device
          if dos = .rfotm ∧ doxm.oxmsel = ocOxmtypeRdp then
            if identityLen ≠ ocOxmtypeRdpStr.length ∨
                memory.read identity ocOxmtypeRdpStr.length ≠
                  ocOxmtypeRdpStr then
              ⟨none, some peer.uuid⟩
            else
              match env.pbkdf2 state.pin doxm.deviceuuid with
              | none => ⟨none, some (memory.uuidAt identity)⟩
              | some key => env.supply key (memory.uuidAt identity)
          else ⟨none, some peer.uuid⟩

/-- The identity without the prefix, where this is removed. -/
def strippedIdentity (dos : DosType) (identity : Bytes) : Bytes :=
  if dos = .rfnop ∧ rdpPrefix <+: identity then identity.drop 17
  else identity

/-- The outcome rests on a credential whose subject is the identity, or on
the random PIN. -/
def PskOutcome.Justified (env : PskEnv) (state : PskState) (peer : PskPeer)
    (identity key : Bytes) (outcome : PskOutcome) : Prop :=
  (∃ cred ∈ (state.creds peer.device).creds,
    cred.credtype = CredType.psk ∧
      cred.subjectuuid.id =
        strippedIdentity (state.dos peer.device) identity ∧
      outcome.uuid = some cred.subjectuuid ∧ key = cred.privatedata.data) ∨
    (state.dos peer.device = .rfotm ∧
      (state.doxm peer.device).oxmsel = ocOxmtypeRdp ∧
      identity = ocOxmtypeRdpStr ∧
      env.pbkdf2 state.pin (state.doxm peer.device).deviceuuid = some key)

/-- Wherever the identity stands in memory, a key is supplied for a reason
only, and what stands behind the identity does not matter. -/
structure MatchesExactly (env : PskEnv) (state : PskState) (ssl : Nat)
    (identity : Bytes) : Prop where
  justified : ∀ memory address peer key, memory.Holds address identity →
    state.peers.find? (·.ssl == ssl) = some peer →
    (getPskCb env state memory ssl address identity.length).key = some key →
    (getPskCb env state memory ssl address identity.length).Justified env
      state peer identity key
  independent : ∀ memory other address place,
    memory.Holds address identity → other.Holds place identity →
    getPskCb env state memory ssl address identity.length =
      getPskCb env state other ssl place identity.length

/-- The UUID and the bytes agree as far as both go. -/
def Uuid.Agrees (uuid : Uuid) (bytes : Bytes) : Prop :=
  uuid.id.take bytes.length = bytes.take 16

/-- The identity has the length of a UUID, or no credential with a usable key
is found for a UUID that agrees with it; one with an unusable key changes
nothing that the bytes behind the identity decide on. -/
def SafeIdentity (env : PskEnv) (state : PskState) (peer : PskPeer)
    (identity : Bytes) : Prop :=
  identity.length = 16 ∨ ∀ uuid : Uuid, uuid.Agrees identity →
    ∀ cred, (state.creds peer.device).ocSecFindCred uuid CredType.psk .null =
        some cred →
      env.setHsPsk cred.privatedata.data = false ∧
        (16 < identity.length ∨ uuid = peer.uuid)

section Decision

variable {env : PskEnv} {state : PskState} {peer : PskPeer} {memory : Mem}
  {ssl address : Nat} {identity : Bytes}

/-- The decision for an identity without prefix, where the first bytes in
memory are the UUID. -/
def pskDecision (env : PskEnv) (state : PskState) (peer : PskPeer)
    (identity : Bytes) (uuid : Uuid) : PskOutcome :=
  match (state.creds peer.device).ocSecFindCred uuid CredType.psk .null with
  | some cred => env.supply cred.privatedata.data uuid
  | none =>
      if state.dos peer.device = .rfotm ∧
          (state.doxm peer.device).oxmsel = ocOxmtypeRdp ∧
          identity = ocOxmtypeRdpStr then
        match env.pbkdf2 state.pin (state.doxm peer.device).deviceuuid with
        | none => ⟨none, some uuid⟩
        | some key => env.supply key uuid
      else ⟨none, some peer.uuid⟩

/-- How far the prefix goes. -/
def prefixLength (dos : DosType) (identity : Bytes) : Nat :=
  if dos = .rfnop ∧ rdpPrefix <+: identity then 17 else 0

theorem length_rdpPrefix : rdpPrefix.length = 17 := rfl

theorem strippedIdentity_eq (dos : DosType) (identity : Bytes) :
    strippedIdentity dos identity =
      identity.drop (prefixLength dos identity) := by
  unfold strippedIdentity prefixLength
  split <;> rfl

theorem prefixLength_le (dos : DosType) (identity : Bytes) :
    prefixLength dos identity ≤ identity.length := by
  unfold prefixLength
  split
  · rename_i has
    exact has.2.length_le
  · exact Nat.zero_le _

theorem reads_rdpPrefix_iff (held : memory.Holds address identity) :
    identity.length > 16 ∧ memory.read address 17 = rdpPrefix ↔
      rdpPrefix <+: identity := by
  have first : ∀ count ≤ identity.length,
      memory.read address count = identity.take count := by
    intro count enough
    rw [← held, Mem.take_read, Nat.min_eq_left enough]
  constructor
  · rintro ⟨long, same⟩
    rw [first 17 long] at same
    exact same ▸ List.take_prefix 17 identity
  · intro has
    have long := has.length_le
    rw [length_rdpPrefix] at long
    refine ⟨long, ?_⟩
    rw [first 17 long]
    exact (List.prefix_iff_eq_take.mp has).symm

theorem holds_strippedIdentity (dos : DosType)
    (held : memory.Holds address identity) :
    memory.Holds (address + prefixLength dos identity)
      (strippedIdentity dos identity) := by
  have whole := List.take_append_drop (prefixLength dos identity) identity
  rw [← whole, Mem.holds_append, List.length_take,
    Nat.min_eq_left (prefixLength_le dos identity),
    ← strippedIdentity_eq] at held
  exact held.2

theorem agrees_uuidAt (held : memory.Holds address identity) :
    (memory.uuidAt address).Agrees identity := by
  unfold Uuid.Agrees Mem.uuidAt
  rw [Mem.take_read, ← held, Mem.take_read, Mem.length_read, Nat.min_comm]

theorem getPskCb_eq (held : memory.Holds address identity)
    (found : state.peers.find? (·.ssl == ssl) = some peer) :
    getPskCb env state memory ssl address identity.length =
      pskDecision env state peer
        (strippedIdentity (state.dos peer.device) identity)
        (memory.uuidAt
          (address + prefixLength (state.dos peer.device) identity)) := by
  have place : (if state.dos peer.device = .rfnop ∧
        identity.length > 16 ∧ memory.read address 17 = rdpPrefix then
        (address + 17, identity.length - 17)
      else (address, identity.length)) =
      (address + prefixLength (state.dos peer.device) identity,
        (strippedIdentity (state.dos peer.device) identity).length) := by
    rw [strippedIdentity_eq, List.length_drop]
    unfold prefixLength
    simp only [reads_rdpPrefix_iff held]
    split <;> rfl
  have stripped := holds_strippedIdentity (state.dos peer.device) held
  have text : ¬((strippedIdentity (state.dos peer.device) identity).length ≠
        ocOxmtypeRdpStr.length ∨ memory.read
          (address + prefixLength (state.dos peer.device) identity)
          ocOxmtypeRdpStr.length ≠ ocOxmtypeRdpStr) ↔
      strippedIdentity (state.dos peer.device) identity =
        ocOxmtypeRdpStr := by
    rw [not_or, not_not, not_not]
    constructor
    · rintro ⟨long, same⟩
      rw [← long] at same
      exact stripped.symm.trans same
    · intro same
      rw [same] at stripped ⊢
      exact ⟨rfl, stripped⟩
  rw [getPskCb, found]
  simp only [place]
  unfold pskDecision
  split
  · rfl
  · by_cases method : state.dos peer.device = .rfotm ∧
        (state.doxm peer.device).oxmsel = ocOxmtypeRdp
    · rw [if_pos method]
      by_cases same : strippedIdentity (state.dos peer.device) identity =
          ocOxmtypeRdpStr
      · rw [if_neg (text.mpr same), if_pos ⟨method.1, method.2, same⟩]
      · rw [if_pos (not_not.mp (mt text.mp same)),
          if_neg fun all => same all.2.2]
    · rw [if_neg method, if_neg fun all => method ⟨all.1, all.2.1⟩]

variable {uuid : Uuid}

theorem key_supply {key supplied : Bytes}
    (given : (env.supply key uuid).key = some supplied) :
    supplied = key ∧ env.setHsPsk key = true := by
  unfold PskEnv.supply at given
  simp only at given
  split at given
  · rename_i accepted
    cases given
    exact ⟨rfl, accepted⟩
  · cases given

theorem supply_of_refused {key : Bytes} (uuid : Uuid)
    (refused : env.setHsPsk key = false) :
    env.supply key uuid = ⟨none, some uuid⟩ := by
  rw [PskEnv.supply, refused]
  rfl

theorem ocSecFindCred_some {creds : Creds} {cred : Cred}
    (found : creds.ocSecFindCred uuid CredType.psk .null = some cred) :
    cred ∈ creds.creds ∧ cred.credtype = CredType.psk ∧
      cred.subjectuuid = uuid := by
  have matched := List.find?_some found
  simp only [Bool.and_eq_true, beq_iff_eq] at matched
  exact ⟨List.mem_of_find?_eq_some found, matched.1.1, matched.2⟩

variable {bytes : Bytes}

theorem Uuid.Agrees.unique {uuid other : Uuid} (long : 16 ≤ bytes.length)
    (here : uuid.Agrees bytes) (there : other.Agrees bytes) : uuid = other := by
  have whole : ∀ uuid : Uuid, uuid.Agrees bytes → uuid.id = bytes.take 16 := by
    intro uuid agrees
    rw [← agrees, List.take_of_length_le (uuid.length_id ▸ long)]
  cases uuid
  cases other
  simp only [Uuid.mk.injEq]
  exact (whole _ here).trans (whole _ there).symm

theorem Uuid.Agrees.id_eq (agrees : uuid.Agrees bytes)
    (exact : bytes.length = 16) : uuid.id = bytes := by
  have left := List.take_of_length_le (uuid.length_id.trans exact.symm).le
  have right := List.take_of_length_le exact.le
  exact left.symm.trans (agrees.trans right)

theorem Uuid.Agrees.take_append_drop (agrees : uuid.Agrees bytes) :
    (bytes ++ uuid.id.drop bytes.length).take 16 = uuid.id := by
  have rest : (uuid.id.drop bytes.length).take (16 - bytes.length) =
      uuid.id.drop bytes.length := by
    apply List.take_of_length_le
    rw [List.length_drop, uuid.length_id]
  rw [List.take_append, rest, ← agrees, List.take_append_drop]

theorem exists_uuidAt (before : Bytes) (agrees : uuid.Agrees bytes) :
    ∃ memory : Mem, memory.Holds 0 (before ++ bytes) ∧
      memory.uuidAt before.length = uuid := by
  refine ⟨Mem.ofBytes (before ++ (bytes ++ uuid.id.drop bytes.length)),
    ?_, ?_⟩
  · have held := Mem.holds_ofBytes
      (before ++ (bytes ++ uuid.id.drop bytes.length))
    rw [← List.append_assoc, Mem.holds_append] at held
    rw [← List.append_assoc]
    exact held.1
  · have held := Mem.holds_ofBytes
      (before ++ (bytes ++ uuid.id.drop bytes.length))
    rw [Mem.holds_append, Nat.zero_add] at held
    have start := held.2
    have long : 16 ≤ (bytes ++ uuid.id.drop bytes.length).length := by
      rw [List.length_append, List.length_drop, uuid.length_id]
      omega
    unfold Mem.Holds at start
    have first := congrArg (List.take 16) start
    rw [Mem.take_read, Nat.min_eq_left long] at first
    cases uuid
    unfold Mem.uuidAt
    simp only [Uuid.mk.injEq]
    exact first.trans agrees.take_append_drop

theorem exists_other_agrees (short : bytes.length < 16)
    (agrees : uuid.Agrees bytes) :
    ∃ other : Uuid, other ≠ uuid ∧ other.Agrees bytes := by
  have last : 15 < uuid.id.length := by rw [uuid.length_id]; decide
  refine ⟨⟨uuid.id.set 15 (uuid.id[15] + 1), by
    rw [List.length_set, uuid.length_id]⟩, ?_, ?_⟩
  · intro same
    have ids : uuid.id.set 15 (uuid.id[15] + 1) = uuid.id :=
      congrArg Uuid.id same
    have byte := congrArg (·[15]?) ids
    simp only [List.getElem?_set_self last, List.getElem?_eq_getElem last,
      Option.some.injEq] at byte
    have numbers := congrArg UInt8.toNat byte
    rw [UInt8.toNat_add] at numbers
    have small := (uuid.id[15]).toNat_lt
    have one : (1 : UInt8).toNat = 1 := rfl
    omega
  · unfold Uuid.Agrees
    rw [List.take_set_of_le (by omega)]
    exact agrees

variable {stripped key : Bytes}

theorem pskDecision_key (exact : stripped.length = 16)
    (agrees : uuid.Agrees stripped)
    (given : (pskDecision env state peer stripped uuid).key = some key) :
    (∃ cred ∈ (state.creds peer.device).creds,
      cred.credtype = CredType.psk ∧ cred.subjectuuid.id = stripped ∧
        (pskDecision env state peer stripped uuid).uuid =
          some cred.subjectuuid ∧ key = cred.privatedata.data) ∨
      (state.dos peer.device = .rfotm ∧
        (state.doxm peer.device).oxmsel = ocOxmtypeRdp ∧
        stripped = ocOxmtypeRdpStr ∧
        env.pbkdf2 state.pin (state.doxm peer.device).deviceuuid =
          some key) := by
  unfold pskDecision at given ⊢
  cases found : (state.creds peer.device).ocSecFindCred uuid CredType.psk
    .null with
  | some cred =>
      obtain ⟨member, psk, subject⟩ := ocSecFindCred_some found
      rw [found] at given
      refine .inl ⟨cred, member, psk, ?_, ?_, (key_supply given).1⟩
      · rw [subject]
        exact agrees.id_eq exact
      · rw [subject]
        rfl
  | none =>
      rw [found] at given
      simp only at given
      split at given
      · rename_i method
        cases derived : env.pbkdf2 state.pin
          (state.doxm peer.device).deviceuuid with
        | none =>
            rw [derived] at given
            cases given
        | some pin =>
            rw [derived] at given
            rw [(key_supply given).1]
            exact .inr ⟨method.1, method.2.1, method.2.2, rfl⟩
      · cases given

theorem pskDecision_of_safe (other : stripped.length ≠ 16)
    (safe : SafeIdentity env state peer stripped)
    (agrees : uuid.Agrees stripped) :
    pskDecision env state peer stripped uuid = ⟨none, some peer.uuid⟩ ∨
      (16 < stripped.length ∧
        pskDecision env state peer stripped uuid = ⟨none, some uuid⟩) := by
  unfold pskDecision
  cases found : (state.creds peer.device).ocSecFindCred uuid CredType.psk
    .null with
  | some cred =>
      obtain ⟨refused, same⟩ :=
        (safe.resolve_left other) uuid agrees cred found
      have outcome := supply_of_refused uuid refused
      rcases same with long | rfl
      · exact .inr ⟨long, outcome⟩
      · exact .inl outcome
  | none =>
      refine .inl (if_neg fun method => other ?_)
      rw [method.2.2]
      rfl

theorem matchesExactly_of_safe
    (safe : ∀ peer, state.peers.find? (·.ssl == ssl) = some peer →
      SafeIdentity env state peer
        (strippedIdentity (state.dos peer.device) identity)) :
    MatchesExactly env state ssl identity where
  justified memory address peer key held found given := by
    have stripped := holds_strippedIdentity (state.dos peer.device) held
    have agrees := agrees_uuidAt stripped
    rw [getPskCb_eq held found] at given ⊢
    by_cases exact :
        (strippedIdentity (state.dos peer.device) identity).length = 16
    · rcases pskDecision_key exact agrees given with cred | ⟨otm, rdp, text,
        derived⟩
      · exact .inl cred
      · refine .inr ⟨otm, rdp, ?_, derived⟩
        rw [strippedIdentity, otm, if_neg (fun normal =>
          DosType.noConfusion normal.1)] at text
        exact text
    · rcases pskDecision_of_safe exact (safe peer found) agrees with
        none | ⟨-, none⟩
      · rw [none] at given
        cases given
      · rw [none] at given
        cases given
  independent memory other address place held held' := by
    cases found : state.peers.find? (·.ssl == ssl) with
    | none => rw [getPskCb, getPskCb, found]
    | some peer =>
        have first := agrees_uuidAt
          (holds_strippedIdentity (state.dos peer.device) held)
        have second := agrees_uuidAt
          (holds_strippedIdentity (state.dos peer.device) held')
        rw [getPskCb_eq held found, getPskCb_eq held' found]
        by_cases exact :
            (strippedIdentity (state.dos peer.device) identity).length = 16
        · rw [first.unique exact.ge second]
        · rcases pskDecision_of_safe exact (safe peer found) first with
            none | ⟨long, -⟩
          · rcases pskDecision_of_safe exact (safe peer found) second with
              none' | ⟨long, -⟩
            · rw [none, none']
            · rw [first.unique long.le second]
          · rw [first.unique long.le second]

theorem safe_of_matchesExactly (matched : MatchesExactly env state ssl identity)
    (found : state.peers.find? (·.ssl == ssl) = some peer) :
    SafeIdentity env state peer
      (strippedIdentity (state.dos peer.device) identity) := by
  by_cases exact :
      (strippedIdentity (state.dos peer.device) identity).length = 16
  · exact .inl exact
  have whole : identity.take (prefixLength (state.dos peer.device) identity) ++
      strippedIdentity (state.dos peer.device) identity = identity := by
    rw [strippedIdentity_eq, List.take_append_drop]
  have start : (identity.take
      (prefixLength (state.dos peer.device) identity)).length =
        prefixLength (state.dos peer.device) identity := by
    rw [List.length_take, Nat.min_eq_left (prefixLength_le _ _)]
  have reach : ∀ uuid : Uuid, uuid.Agrees
      (strippedIdentity (state.dos peer.device) identity) →
      ∃ memory : Mem, memory.Holds 0 identity ∧
        getPskCb env state memory ssl 0 identity.length =
          pskDecision env state peer
            (strippedIdentity (state.dos peer.device) identity) uuid := by
    intro uuid agrees
    obtain ⟨memory, held, same⟩ := exists_uuidAt
      (identity.take (prefixLength (state.dos peer.device) identity)) agrees
    rw [whole] at held
    rw [start] at same
    refine ⟨memory, held, ?_⟩
    rw [getPskCb_eq held found, Nat.zero_add, same]
  refine .inr fun uuid agrees cred credFound => ?_
  obtain ⟨memory, held, outcome⟩ := reach uuid agrees
  have supplied : pskDecision env state peer
      (strippedIdentity (state.dos peer.device) identity) uuid =
        env.supply cred.privatedata.data uuid := by
    unfold pskDecision
    rw [credFound]
  rw [supplied] at outcome
  have refused : env.setHsPsk cred.privatedata.data = false := by
    by_contra accepted
    rw [Bool.not_eq_false] at accepted
    have given : (getPskCb env state memory ssl 0 identity.length).key =
        some cred.privatedata.data := by
      rw [outcome, PskEnv.supply, accepted]
      rfl
    rcases matched.justified memory 0 peer _ held found given with
      ⟨other, -, -, subject, -⟩ | ⟨otm, -, text, -⟩
    · exact exact (subject ▸ other.subjectuuid.length_id)
    · rw [strippedIdentity, otm, if_neg (fun normal =>
        DosType.noConfusion normal.1), text] at exact
      exact exact rfl
  refine ⟨refused, ?_⟩
  rcases Nat.lt_or_ge 16
    (strippedIdentity (state.dos peer.device) identity).length with
    long | short
  · exact .inl long
  · right
    by_contra apart
    obtain ⟨other, different, agrees'⟩ := exists_other_agrees
      (Nat.lt_of_le_of_ne short exact) agrees
    obtain ⟨memory', held', outcome'⟩ := reach other agrees'
    have same := matched.independent memory memory' 0 0 held held'
    rw [outcome, outcome', supply_of_refused uuid refused] at same
    have uuids := congrArg PskOutcome.uuid same
    unfold pskDecision at uuids
    split at uuids
    · exact different (Option.some.inj uuids).symm
    · split at uuids
      · rename_i method
        have length := congrArg List.length method.2.2
        exact exact length
      · exact apart (Option.some.inj uuids)

end Decision

/-- Identities are matched exactly if and only if they are safe. -/
theorem psk_identity_exact (env : PskEnv) (state : PskState) (ssl : Nat)
    (identity : Bytes) :
    MatchesExactly env state ssl identity ↔
      ∀ peer, state.peers.find? (·.ssl == ssl) = some peer →
        SafeIdentity env state peer
          (strippedIdentity (state.dos peer.device) identity) :=
  ⟨fun matched _ found => safe_of_matchesExactly matched found,
    matchesExactly_of_safe⟩

/-- One peer, and one credential for the nil UUID. -/
def nilSubjectState : PskState where
  peers := [⟨0, 0, Uuid.ofBytes [1]⟩]
  dos _ := .rfnop
  creds _ :=
    ⟨[⟨0, 1, CredType.psk, .null, .nil, [], [],
      ⟨List.replicate 16 7, .raw⟩, .empty, none, [], false⟩], .nil, 1⟩
  doxm _ := ⟨0, 0, true, .nil, .nil, .nil⟩
  pin := []

/-- An identity of seventeen bytes is taken for the UUID it starts with. -/
theorem not_matchesExactly_longIdentity :
    ¬∀ env state ssl identity, MatchesExactly env state ssl identity := by
  intro every
  have matched := every ⟨fun _ => true, fun _ _ => none⟩ nilSubjectState 0
    (List.replicate 17 0)
  have given : (getPskCb ⟨fun _ => true, fun _ _ => none⟩ nilSubjectState
      (Mem.ofBytes (List.replicate 17 0)) 0 0 17).key =
      some (List.replicate 16 7) := by
    decide
  have reason := matched.justified _ 0 ⟨0, 0, Uuid.ofBytes [1]⟩ _
    (Mem.holds_ofBytes _) rfl given
  rcases reason with ⟨cred, -, -, subject, -⟩ | ⟨otm, -⟩
  · have length := congrArg List.length subject
    rw [cred.subjectuuid.length_id] at length
    exact absurd length (by decide)
  · exact absurd otm (by decide)

end IotivityLite
