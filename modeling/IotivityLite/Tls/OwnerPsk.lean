import IotivityLite.Foundation.PHash
import IotivityLite.Oscore.KeyDerivation
import IotivityLite.Tls.PeerConfig

/-!
# The owner's pre-shared key

`oc_tls_prf` and `oc_sec_derive_owner_psk` of `oc_tls.c`.  The key is expanded
from the key block of the session, which is expanded from its master secret.
-/

namespace IotivityLite

/-- A `size_t` as an `int`. -/
def sizeAsInt (size : Nat) : Int := (BitVec.ofNat 32 size).toInt

/-- `mbedtls_md_context_t` of HMAC-SHA256 -/
structure HmacContext where
  secret : Bytes
  data : Bytes

namespace HmacContext

def starts (secret : Bytes) : HmacContext := ⟨secret, []⟩

def update (context : HmacContext) (message : Bytes) : HmacContext :=
  ⟨context.secret, context.data ++ message⟩

def finish (hash : HmacSha256) (context : HmacContext) : Bytes :=
  hash.mac context.secret context.data

end HmacContext

section Model

variable (hash : HmacSha256) (fails : Nat → Bool) (secret : Bytes)
  (fragments : List Bytes) (outputLen : Nat)

/-- The rounds of `oc_tls_prf`.  `fails` tells which of the HMAC computations
report an error; `call` is the number of the next one. -/
def tlsPrfLoop (call genOutput : Nat) (a : Bytes) (output : Mem) : Int × Mem :=
  if genOutput < outputLen then
    if fails call then (-1, output)
    else
      let buf := (fragments.foldl HmacContext.update
        ((HmacContext.starts secret).update a)).finish hash
      let copyLen := min (outputLen - genOutput) hmacSha256Hashlen
      let output := output.write genOutput (buf.take copyLen)
      if copyLen = hmacSha256Hashlen then
        if fails (call + 1) then (-1, output)
        else
          tlsPrfLoop (call + 2) (genOutput + copyLen)
            (((HmacContext.starts secret).update a).finish hash) output
      else tlsPrfLoop (call + 2) (genOutput + copyLen) a output
  else (sizeAsInt genOutput, output)
termination_by outputLen - genOutput
decreasing_by
  all_goals
    simp only [hmacSha256Hashlen]
    omega

/-- `oc_tls_prf`; the first computation includes the setup of the contexts. -/
def ocTlsPrf (output : Mem) : Int × Mem :=
  if fails 0 then (-1, output)
  else
    tlsPrfLoop hash fails secret fragments outputLen 1 0
      ((fragments.foldl HmacContext.update
        (HmacContext.starts secret)).finish hash) output

end Model

/-- The size of `key_block`. -/
def keyBlockSize : Nat := 184

/-- `label`: the text "key expansion" -/
def keyExpansionLabel : Bytes :=
  [0x6b, 0x65, 0x79, 0x20, 0x65, 0x78, 0x70, 0x61, 0x6e, 0x73, 0x69, 0x6f,
    0x6e]

/-- `mac_key_len`, `iv_size` and `key_size`, which are 0 for a ciphersuite
without a branch. -/
def keyBlockParts : Ciphersuite → Nat × Nat × Nat
  | .ecdhAnonWithAes128CbcSha256 => (32, 0, 16)
  | .ecdhePskWithAes128CbcSha256 => (32, 0, 16)
  | .ecdheEcdsaWithAes128CbcSha256 => (32, 0, 16)
  | .ecdheEcdsaWithAes128Ccm => (0, 4, 16)
  | .ecdheEcdsaWithAes128Ccm8 => (0, 4, 16)
  | .ecdheEcdsaWithAes256Ccm => (0, 4, 32)
  | .ecdheEcdsaWithAes256Ccm8 => (0, 4, 32)
  | .ecdheEcdsaWithAes128GcmSha256 => (32, 12, 16)
  | .ecdheEcdsaWithAes256GcmSha384 => (0, 0, 0)
  | .ecdheEcdsaWithAes256CbcSha384 => (0, 0, 0)
  | .ecdheRsaWithAes128GcmSha256 => (0, 0, 0)
  | .ecdheRsaWithAes256GcmSha384 => (0, 0, 0)

def keyBlockLen (suite : Ciphersuite) : Nat :=
  let (macKeyLen, ivSize, keySize) := keyBlockParts suite
  2 * (macKeyLen + keySize + ivSize)

/-- The part of `oc_tls_peer_t` that the derivation reads: the ciphersuite of
the session, and what `oc_tls_export_keys` stored. -/
structure OwnerPskPeer where
  session : Option Ciphersuite
  masterSecret : Bytes
  clientServerRandom : Bytes
  secretSize : masterSecret.length = 48
  randomSize : clientServerRandom.length = 64

def OwnerPskPeer.clientRandom (peer : OwnerPskPeer) : Bytes :=
  peer.clientServerRandom.take 32

def OwnerPskPeer.serverRandom (peer : OwnerPskPeer) : Bytes :=
  peer.clientServerRandom.drop 32

/-- `oc_sec_derive_owner_psk`; `peer` is what `oc_tls_get_peer` finds, and the
local `keyBlock` holds arbitrary bytes at the beginning. -/
def ocSecDeriveOwnerPsk (hash : HmacSha256) (fails failsLater : Nat → Bool)
    (keyBlock : Mem) (peer : Option OwnerPskPeer)
    (oxm serverUuid obtUuid : Bytes) (key : Mem) (keyLen : Nat) :
    Bool × Mem :=
  match peer with
  | none => (false, key)
  | some peer =>
      match peer.session with
      | none => (false, key)
      | some suite =>
          if peer.masterSecret.all (· = 0) then (false, key)
          else if peer.clientServerRandom.all (· = 0) then (false, key)
          else
            let first := ocTlsPrf hash fails peer.masterSecret
              [keyExpansionLabel, peer.serverRandom, peer.clientRandom]
              (keyBlockLen suite) keyBlock
            if first.1 ≠ (keyBlockLen suite : Int) then (false, key)
            else
              let second := ocTlsPrf hash failsLater
                (first.2.read 0 (keyBlockLen suite))
                [oxm, obtUuid, serverUuid] keyLen key
              if second.1 ≠ sizeAsInt keyLen then (false, second.2)
              else (true, second.2)

/-- The lengths of the key blocks: as the comments of the source have them, and
for every ciphersuite not 0 and within the buffer. -/
structure KeyBlockLengths where
  length : Ciphersuite → Nat
  cbc : ∀ suite ∈ [Ciphersuite.ecdhAnonWithAes128CbcSha256,
    .ecdhePskWithAes128CbcSha256, .ecdheEcdsaWithAes128CbcSha256],
      length suite = 96
  ccm128 : ∀ suite ∈ [Ciphersuite.ecdheEcdsaWithAes128Ccm,
    .ecdheEcdsaWithAes128Ccm8], length suite = 40
  ccm256 : ∀ suite ∈ [Ciphersuite.ecdheEcdsaWithAes256Ccm,
    .ecdheEcdsaWithAes256Ccm8], length suite = 72
  gcm128 : length .ecdheEcdsaWithAes128GcmSha256 = 120
  positive : ∀ suite, 0 < length suite
  within : ∀ suite, length suite ≤ keyBlockSize

/-- The ciphersuites without a branch. -/
def suitesWithoutBranch : List Ciphersuite :=
  [.ecdheEcdsaWithAes256GcmSha384, .ecdheEcdsaWithAes256CbcSha384,
    .ecdheRsaWithAes128GcmSha256, .ecdheRsaWithAes256GcmSha384]

/-- The first `keyLen` bytes of `P_SHA256(K, oxm | obt_uuid | server_uuid)`, `K`
being as many bytes of the session's key block. -/
def ownerPsk (hash : HmacSha256) (count : Nat) (peer : OwnerPskPeer)
    (oxm serverUuid obtUuid : Bytes) (keyLen : Nat) : Bytes :=
  PHash.expand hash
    (PHash.expand hash peer.masterSecret
      (keyExpansionLabel ++ peer.serverRandom ++ peer.clientRandom) count)
    (oxm ++ obtUuid ++ serverUuid) keyLen

/-- A key that was derived is the one expected. -/
def DerivesOwnerPsk (lengths : KeyBlockLengths) (suite : Ciphersuite)
    (keyLen : Nat) : Prop :=
  ∀ hash fails failsLater keyBlock peer oxm serverUuid obtUuid key derived,
    peer.session = some suite →
    ocSecDeriveOwnerPsk hash fails failsLater keyBlock (some peer) oxm
      serverUuid obtUuid key keyLen = (true, derived) →
    derived.read 0 keyLen =
      ownerPsk hash (lengths.length suite) peer oxm serverUuid obtUuid keyLen

section Expansion

variable {hash : HmacSha256} {fails : Nat → Bool} {secret : Bytes}
  {fragments : List Bytes} {outputLen : Nat}

theorem finish_foldl_update (context : HmacContext) :
    (fragments.foldl HmacContext.update context).finish hash =
      hash.mac context.secret (context.data ++ fragments.flatten) := by
  induction fragments generalizing context with
  | nil => rw [List.flatten_nil, List.append_nil]; rfl
  | cons fragment fragments ih =>
      rw [List.foldl_cons, ih, List.flatten_cons, ← List.append_assoc]
      rfl

/-- Either a computation failed, or the output is the expansion. -/
def Expands (hash : HmacSha256) (fails : Nat → Bool) (secret seed : Bytes)
    (outputLen : Nat) (result : Int × Mem) : Prop :=
  (result.1 = -1 ∧ ∃ call, fails call = true) ∨
    result.1 = sizeAsInt outputLen ∧
      result.2.Holds 0 (PHash.expand hash secret seed outputLen)

theorem tlsPrfLoop_done (call : Nat) (a : Bytes) (output : Mem) :
    tlsPrfLoop hash fails secret fragments outputLen call outputLen a output =
      (sizeAsInt outputLen, output) := by
  rw [tlsPrfLoop, if_neg (Nat.lt_irrefl _)]

theorem digest_eq_block (i : Nat) :
    (fragments.foldl HmacContext.update ((HmacContext.starts secret).update
      (PHash.link hash secret fragments.flatten (i + 1)))).finish hash =
        PHash.block hash secret fragments.flatten i :=
  finish_foldl_update _

theorem holds_write_block {i : Nat} {output : Mem}
    (held : output.Holds 0 (PHash.blocks hash secret fragments.flatten i))
    (count : Nat) :
    (output.write (i * hmacSha256Hashlen)
      ((PHash.block hash secret fragments.flatten i).take count)).Holds 0
        (PHash.blocks hash secret fragments.flatten i ++
          (PHash.block hash secret fragments.flatten i).take count) := by
  have filled := PHash.length_blocks hash secret fragments.flatten i
  rw [Mem.holds_append, filled, Nat.zero_add]
  refine ⟨held.write (.inl (Nat.le_of_eq ?_)), Mem.holds_write _ _ _⟩
  rw [filled, Nat.zero_add]

theorem tlsPrfLoop_expands (rounds i call : Nat) (output : Mem)
    (enough : outputLen ≤ (i + rounds) * hmacSha256Hashlen)
    (within : i * hmacSha256Hashlen ≤ outputLen)
    (held : output.Holds 0 (PHash.blocks hash secret fragments.flatten i)) :
    Expands hash fails secret fragments.flatten outputLen
      (tlsPrfLoop hash fails secret fragments outputLen call
        (i * hmacSha256Hashlen)
        (PHash.link hash secret fragments.flatten (i + 1)) output) := by
  induction rounds generalizing i call output with
  | zero =>
      have same : outputLen = i * hmacSha256Hashlen :=
        Nat.le_antisymm enough within
      rw [← same, tlsPrfLoop_done, same]
      refine .inr ⟨rfl, ?_⟩
      rw [PHash.expand_mul hash secret fragments.flatten (by decide)]
      exact held
  | succ rounds ih =>
      by_cases last : outputLen ≤ i * hmacSha256Hashlen
      · refine ih i call output (last.trans ?_) within held
        exact Nat.mul_le_mul_right _ (Nat.le_add_right _ _)
      have open_ : i * hmacSha256Hashlen < outputLen := Nat.not_le.mp last
      rw [tlsPrfLoop, if_pos open_]
      by_cases failed : fails call = true
      · rw [if_pos failed]
        exact .inl ⟨rfl, call, failed⟩
      rw [if_neg failed]
      simp only
      rw [digest_eq_block]
      have written := holds_write_block held
        (min (outputLen - i * hmacSha256Hashlen) hmacSha256Hashlen)
      by_cases full : hmacSha256Hashlen ≤ outputLen - i * hmacSha256Hashlen
      · rw [Nat.min_eq_right full] at written ⊢
        rw [if_pos rfl]
        by_cases failed : fails (call + 1) = true
        · rw [if_pos failed]
          exact .inl ⟨rfl, call + 1, failed⟩
        · rw [if_neg failed]
          have next : (i + 1) * hmacSha256Hashlen =
              i * hmacSha256Hashlen + hmacSha256Hashlen := Nat.succ_mul _ _
          rw [← next]
          refine ih (i + 1) (call + 2) _ ?_ ?_ ?_
          · rw [Nat.add_right_comm]
            exact enough
          · omega
          · rw [List.take_of_length_le (Nat.le_of_eq
              (PHash.length_block hash secret fragments.flatten i))]
              at written ⊢
            exact written
      · have short : outputLen - i * hmacSha256Hashlen < hmacSha256Hashlen :=
          Nat.not_le.mp full
        rw [Nat.min_eq_left short.le] at written ⊢
        rw [if_neg short.ne, Nat.add_sub_of_le within, tlsPrfLoop_done]
        refine .inr ⟨rfl, ?_⟩
        have split := PHash.expand_mul_add hash secret fragments.flatten i
          (Nat.sub_pos_of_lt open_) short.le
        rw [Nat.add_sub_of_le within] at split
        rw [split]
        exact written

theorem ocTlsPrf_expands (output : Mem) :
    Expands hash fails secret fragments.flatten outputLen
      (ocTlsPrf hash fails secret fragments outputLen output) := by
  rw [ocTlsPrf]
  split_ifs with failed
  · exact .inl ⟨rfl, 0, failed⟩
  · rw [finish_foldl_update]
    have run := @tlsPrfLoop_expands hash fails secret fragments outputLen
      outputLen 0 1 output
      (by
        rw [Nat.zero_add]
        exact Nat.le_mul_of_pos_right _ (by decide))
      (by
        rw [Nat.zero_mul]
        exact Nat.zero_le _)
      (Mem.holds_nil _ _)
    rw [Nat.zero_mul] at run
    exact run

theorem Expands.read {seed : Bytes} {result : Int × Mem}
    (expands : Expands hash fails secret seed outputLen result)
    (reported : result.1 ≠ -1) :
    result.2.read 0 outputLen = PHash.expand hash secret seed outputLen := by
  rcases expands with ⟨failed, -⟩ | ⟨-, held⟩
  · exact absurd failed reported
  · rw [Mem.Holds, PHash.length_expand hash secret seed (by decide)] at held
    exact held

theorem Expands.reports {seed : Bytes} {result : Int × Mem}
    (expands : Expands hash fails secret seed outputLen result)
    (works : ∀ call, fails call = false) :
    result.1 = sizeAsInt outputLen ∧
      result.2.read 0 outputLen = PHash.expand hash secret seed outputLen := by
  rcases expands with ⟨-, call, failed⟩ | ⟨reported, held⟩
  · rw [works call] at failed
    cases failed
  · rw [Mem.Holds, PHash.length_expand hash secret seed (by decide)] at held
    exact ⟨reported, held⟩

end Expansion

section Derivation

variable {hash : HmacSha256} {fails failsLater : Nat → Bool} {keyBlock : Mem}
  {peer : OwnerPskPeer} {oxm serverUuid obtUuid : Bytes} {key derived : Mem}
  {keyLen : Nat} {suite : Ciphersuite}

theorem sizeAsInt_keyBlockLen (suite : Ciphersuite) :
    sizeAsInt (keyBlockLen suite) = keyBlockLen suite := by
  cases suite
  all_goals rfl

theorem ocSecDeriveOwnerPsk_true (session : peer.session = some suite)
    (success : ocSecDeriveOwnerPsk hash fails failsLater keyBlock (some peer)
      oxm serverUuid obtUuid key keyLen = (true, derived)) :
    ∃ first : Int × Mem,
      first = ocTlsPrf hash fails peer.masterSecret
        [keyExpansionLabel, peer.serverRandom, peer.clientRandom]
        (keyBlockLen suite) keyBlock ∧
      first.1 = keyBlockLen suite ∧
      ocTlsPrf hash failsLater (first.2.read 0 (keyBlockLen suite))
        [oxm, obtUuid, serverUuid] keyLen key =
          (sizeAsInt keyLen, derived) := by
  simp only [ocSecDeriveOwnerPsk, session] at success
  split_ifs at success with noSecret noRandom failed failedLater
  all_goals try cases success
  refine ⟨_, rfl, not_not.mp failed, Prod.ext (not_not.mp failedLater) rfl⟩

theorem derivesOwnerPsk_of_branch (lengths : KeyBlockLengths)
    (branch : suite ∉ suitesWithoutBranch)
    (reported : sizeAsInt keyLen ≠ -1) :
    DerivesOwnerPsk lengths suite keyLen := by
  intro hash fails failsLater keyBlock peer oxm serverUuid obtUuid key derived
    session success
  obtain ⟨first, expanded, whole, second⟩ :=
    ocSecDeriveOwnerPsk_true session success
  have length : keyBlockLen suite = lengths.length suite := by
    cases suite
    case ecdhAnonWithAes128CbcSha256 => exact (lengths.cbc _ (by decide)).symm
    case ecdhePskWithAes128CbcSha256 => exact (lengths.cbc _ (by decide)).symm
    case ecdheEcdsaWithAes128CbcSha256 =>
      exact (lengths.cbc _ (by decide)).symm
    case ecdheEcdsaWithAes128Ccm => exact (lengths.ccm128 _ (by decide)).symm
    case ecdheEcdsaWithAes128Ccm8 => exact (lengths.ccm128 _ (by decide)).symm
    case ecdheEcdsaWithAes256Ccm => exact (lengths.ccm256 _ (by decide)).symm
    case ecdheEcdsaWithAes256Ccm8 => exact (lengths.ccm256 _ (by decide)).symm
    case ecdheEcdsaWithAes128GcmSha256 => exact lengths.gcm128.symm
    all_goals exact absurd (by decide) branch
  have block : Expands hash fails peer.masterSecret _ _ first :=
    expanded ▸ ocTlsPrf_expands keyBlock
  have later := @ocTlsPrf_expands hash failsLater
    (first.2.read 0 (keyBlockLen suite)) [oxm, obtUuid, serverUuid] keyLen key
  rw [second] at later
  have read := later.read reported
  rw [block.read (by omega), length] at read
  simpa [ownerPsk] using read

end Derivation

section Failing

/-- A keyed hash whose digests only depend on the key. -/
def constantHash (digit : Bytes → UInt8) : HmacSha256 where
  mac key _ := List.replicate hmacSha256Hashlen (digit key)
  length_mac _ _ := List.length_replicate

variable (digit : Bytes → UInt8)

theorem expand_constantHash (secret seed : Bytes) (length : Nat) :
    PHash.expand (constantHash digit) secret seed length =
      List.replicate length (digit secret) := by
  have blocks : ∀ n, PHash.blocks (constantHash digit) secret seed n =
      List.replicate (n * hmacSha256Hashlen) (digit secret) := by
    intro n
    induction n with
    | zero => simp [PHash.blocks]
    | succ n ih =>
        rw [PHash.blocks, ih, Nat.succ_mul, List.replicate_add]
        rfl
  have enough := PHash.length_expand (constantHash digit) secret seed
    (by decide) length
  rw [PHash.expand, blocks, List.length_take, List.length_replicate] at enough
  rw [PHash.expand, blocks, List.take_replicate, enough]

def samplePeer (suite : Ciphersuite) : OwnerPskPeer where
  session := some suite
  masterSecret := List.replicate 48 1
  clientServerRandom := List.replicate 64 1
  secretSize := rfl
  randomSize := rfl

theorem samplePeer_masterSecret (suite : Ciphersuite) :
    ¬(samplePeer suite).masterSecret.all (· = 0) = true := by
  simp [samplePeer]

theorem samplePeer_clientServerRandom (suite : Ciphersuite) :
    ¬(samplePeer suite).clientServerRandom.all (· = 0) = true := by
  simp [samplePeer]

theorem ocSecDeriveOwnerPsk_samplePeer (failsLater : Nat → Bool)
    (suite : Ciphersuite) (key : Mem) (keyLen : Nat)
    (reports : ∀ secret, (ocTlsPrf (constantHash digit) failsLater secret
      [[], [], []] keyLen key).1 = sizeAsInt keyLen) :
    ∃ keyBlock : Mem, ocSecDeriveOwnerPsk (constantHash digit)
      (fun _ => false) failsLater (fun _ => 0) (some (samplePeer suite)) [] []
      [] key keyLen =
        (true, (ocTlsPrf (constantHash digit) failsLater
          (keyBlock.read 0 (keyBlockLen suite)) [[], [], []] keyLen key).2) := by
  have first := (@ocTlsPrf_expands (constantHash digit) (fun _ => false)
    (samplePeer suite).masterSecret [keyExpansionLabel,
      (samplePeer suite).serverRandom, (samplePeer suite).clientRandom]
    (keyBlockLen suite) (fun _ => 0)).reports fun _ => rfl
  replace first := first.1
  rw [sizeAsInt_keyBlockLen] at first
  refine ⟨(ocTlsPrf (constantHash digit) (fun _ => false)
    (samplePeer suite).masterSecret [keyExpansionLabel,
      (samplePeer suite).serverRandom, (samplePeer suite).clientRandom]
    (keyBlockLen suite) fun _ => 0).2, ?_⟩
  have session : (samplePeer suite).session = some suite := rfl
  simp only [ocSecDeriveOwnerPsk, session]
  rw [if_neg (samplePeer_masterSecret suite),
    if_neg (samplePeer_clientServerRandom suite),
    if_neg (not_not.mpr first), if_neg (not_not.mpr (reports _))]

section

variable {lengths : KeyBlockLengths} {suite : Ciphersuite} {keyLen : Nat}
  (derives : DerivesOwnerPsk lengths suite keyLen)

include derives

theorem DerivesOwnerPsk.sample (failsLater : Nat → Bool) (key : Mem)
    (reports : ∀ secret, (ocTlsPrf (constantHash digit) failsLater secret
      [[], [], []] keyLen key).1 = sizeAsInt keyLen) :
    ∃ (keyBlock : Mem) (expanded : Bytes), expanded ≠ [] ∧
      (ocTlsPrf (constantHash digit) failsLater
        (keyBlock.read 0 (keyBlockLen suite)) [[], [], []] keyLen key).2.read 0
          keyLen = List.replicate keyLen (digit expanded) := by
  obtain ⟨keyBlock, success⟩ := ocSecDeriveOwnerPsk_samplePeer digit failsLater
    suite key keyLen reports
  have same := derives _ _ _ _ _ _ _ _ _ _ rfl success
  rw [ownerPsk, expand_constantHash] at same
  refine ⟨keyBlock, _, ?_, same⟩
  intro none
  have length := congrArg List.length none
  rw [PHash.length_expand _ _ _ (by decide)] at length
  exact absurd length (lengths.positive suite).ne'

theorem DerivesOwnerPsk.branch (some : 0 < keyLen) :
    suite ∉ suitesWithoutBranch := by
  intro without
  have none : keyBlockLen suite = 0 := by
    simp only [suitesWithoutBranch, List.mem_cons, List.not_mem_nil,
      or_false] at without
    rcases without with rfl | rfl | rfl | rfl
    all_goals rfl
  have expands := fun secret => (@ocTlsPrf_expands
    (constantHash fun key => if key = [] then 0 else 1) (fun _ => false) secret
    [[], [], []] keyLen fun _ => 0).reports fun _ => rfl
  obtain ⟨keyBlock, expanded, kept, same⟩ := derives.sample _ _ _
    fun secret => (expands secret).1
  rw [none, Mem.read_zero, (expands []).2, expand_constantHash,
    if_pos rfl, if_neg kept] at same
  exact absurd (List.replicate_right_injective some.ne' same) (by decide)

theorem DerivesOwnerPsk.reported (some : 0 < keyLen) :
    sizeAsInt keyLen ≠ -1 := by
  intro minusOne
  have failed : ∀ secret, ocTlsPrf (constantHash fun _ => 0) (fun _ => true)
      secret [[], [], []] keyLen (fun _ => 1) = (-1, fun _ => 1) :=
    fun _ => rfl
  obtain ⟨keyBlock, expanded, -, same⟩ := derives.sample (fun _ => 0)
    (fun _ => true) (fun _ => 1) fun secret => by rw [failed, minusOne]
  rw [failed] at same
  obtain ⟨rest, rfl⟩ := Nat.exists_eq_succ_of_ne_zero some.ne'
  exact absurd (List.cons.inj same).1 (by decide)

end

/-- A derived key is the one expected exactly for the ciphersuites with a
branch, and with a length that is not mistaken for an error. -/
theorem owner_psk_derivation (lengths : KeyBlockLengths) (suite : Ciphersuite)
    (keyLen : Nat) :
    DerivesOwnerPsk lengths suite keyLen ↔
      keyLen = 0 ∨ suite ∉ suitesWithoutBranch ∧ sizeAsInt keyLen ≠ -1 := by
  constructor
  · intro derives
    rcases Nat.eq_zero_or_pos keyLen with zero | some
    · exact .inl zero
    · exact .inr ⟨derives.branch some, derives.reported some⟩
  · rintro (rfl | ⟨branch, reported⟩)
    · intro hash fails failsLater keyBlock peer oxm serverUuid obtUuid key
        derived _ _
      rw [ownerPsk, PHash.expand, List.take_zero, Mem.read_zero]
    · exact derivesOwnerPsk_of_branch lengths branch reported

/-- The lengths the missing branches would have with the MAC keys of their
hashes. -/
def sampleLengths : KeyBlockLengths where
  length
    | .ecdheEcdsaWithAes256GcmSha384 => 184
    | .ecdheEcdsaWithAes256CbcSha384 => 160
    | .ecdheRsaWithAes128GcmSha256 => 120
    | .ecdheRsaWithAes256GcmSha384 => 184
    | suite => keyBlockLen suite
  cbc := by decide
  ccm128 := by decide
  ccm256 := by decide
  gcm128 := rfl
  positive suite := by
    cases suite
    all_goals decide
  within suite := by
    cases suite
    all_goals decide

/-- With a ciphersuite of the cloud's list, a key of 16 bytes does not depend
on the master secret. -/
theorem not_derivesOwnerPsk_cloud :
    ¬∀ (lengths : KeyBlockLengths) (priority : CipherPriority),
      ∀ suite ∈ priority.suites, ∀ keyLen,
        DerivesOwnerPsk lengths suite keyLen := by
  intro every
  have derives := every sampleLengths .cloud .ecdheRsaWithAes128GcmSha256
    (by decide) 16
  exact derives.branch (by decide) (by decide)

end Failing

end IotivityLite
