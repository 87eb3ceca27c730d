import IotivityLite.Foundation.Keyed
import IotivityLite.Tls.TrustAnchors

/-!
# Trust anchors and credentials agree

The chain of the TLS library should hold the certificates of the tracked
credentials, and those should be credentials of the devices.  It does as long
as every credential with the usage of a trust anchor is a certificate and
there is memory to track it.
-/

namespace IotivityLite

/-- The chain has the certificates of the tracked credentials, an entry points
into the chain, and what is trusted comes from a credential that has not been
removed. -/
structure TrustConsistent (env : TrustEnv) (state : TrustState) : Prop where
  exact : ∀ cert, (∃ node ∈ state.trustAnchors.nodes, node.cert = cert) ↔
    ∃ entry ∈ state.caCerts, cert ∈ env.certsOf entry.cred
  pointers : ∀ entry ∈ state.caCerts,
    ∃ node ∈ state.trustAnchors.nodes, node.name = entry.node
  present : ∀ node ∈ state.trustAnchors.nodes,
    ∃ device, ∃ cred ∈ state.creds device,
      cred.credusage.isTrustAnchor = true ∧ node.cert ∈ env.certsOf cred

/-- A trust anchor that is added is a certificate, and there is memory for
another entry. -/
def Trackable (env : TrustEnv) (state : TrustState) : TrustEvent → Prop
  | .add _ cred _ _ fails =>
      fails = false → cred.credusage.isTrustAnchor = true →
        cred.credtype = CredType.cert ∧
          ∀ entries : List CaEntry, entries.length ≤ state.caCerts.length →
            env.allocCaCert entries = true
  | _ => True

namespace TrustChain

variable {chain : TrustChain} {certs : List Bytes} {node : TrustNode}

theorem certs_appendAll (chain : TrustChain) (certs : List Bytes) :
    (chain.appendAll certs).nodes.map (·.cert) =
      chain.nodes.map (·.cert) ++ certs := by
  induction certs generalizing chain with
  | nil => exact (List.append_nil _).symm
  | cons cert certs ih =>
      change ((chain.append cert).appendAll certs).nodes.map _ = _
      rw [ih, append, List.map_append, List.append_assoc]
      rfl

theorem mem_appendAll (certs : List Bytes) (member : node ∈ chain.nodes) :
    node ∈ (chain.appendAll certs).nodes := by
  induction certs generalizing chain with
  | nil => exact member
  | cons cert certs ih => exact ih (List.mem_append_left _ member)

theorem exists_last (nonempty : chain.nodes ≠ []) :
    ∃ node ∈ chain.nodes, node.name = chain.last := by
  refine ⟨chain.nodes.getLast nonempty, List.getLast_mem nonempty, ?_⟩
  unfold last
  rw [List.getLast?_eq_some_getLast nonempty]

theorem appendAll_ne_nil (nonempty : certs ≠ []) :
    (chain.appendAll certs).nodes ≠ [] := by
  intro empty
  have same := certs_appendAll chain certs
  rw [empty, List.map_nil] at same
  exact nonempty (List.append_eq_nil_iff.mp same.symm).2

end TrustChain

section Reload

variable {env : TrustEnv} {entries : List CaEntry} {chain : TrustChain}

/-- An entry with another node. -/
def CaEntry.Moved (before after : CaEntry) : Prop :=
  after.device = before.device ∧ after.cred = before.cred

theorem TrustEnv.certsOf_ne_nil {cred : Cred}
    (parses : env.parses cred = true) : env.certsOf cred ≠ [] :=
  env.parse_ne_nil _ (by simpa [TrustEnv.parses] using parses)

theorem reloadTrustAnchors_nodes (entries : List CaEntry)
    (chain : TrustChain)
    {node : TrustNode} (member : node ∈ chain.nodes) :
    node ∈ (TrustState.reloadTrustAnchors env entries chain).2.nodes := by
  induction entries generalizing chain with
  | nil => exact member
  | cons entry entries ih =>
      have kept := TrustChain.mem_appendAll (env.certsOf entry.cred) member
      unfold TrustState.reloadTrustAnchors
      dsimp only
      split_ifs
      · exact kept
      · exact ih _ kept

theorem reloadTrustAnchors_spec (entries : List CaEntry) (chain : TrustChain)
    (parses : ∀ entry ∈ entries, env.parses entry.cred = true) :
    (TrustState.reloadTrustAnchors env entries chain).2.nodes.map (·.cert) =
        chain.nodes.map (·.cert) ++
          entries.flatMap (fun entry => env.certsOf entry.cred) ∧
      List.Forall₂ CaEntry.Moved entries
        (TrustState.reloadTrustAnchors env entries chain).1 ∧
      ∀ entry ∈ (TrustState.reloadTrustAnchors env entries chain).1,
        ∃ node ∈ (TrustState.reloadTrustAnchors env entries chain).2.nodes,
          node.name = entry.node := by
  induction entries generalizing chain with
  | nil => exact ⟨(List.append_nil _).symm, .nil, fun _ member => nomatch member⟩
  | cons entry entries ih =>
      rw [List.forall_mem_cons] at parses
      obtain ⟨certs, moved, pointers⟩ :=
        ih (chain.appendAll (env.certsOf entry.cred)) parses.2
      unfold TrustState.reloadTrustAnchors
      simp only [parses.1, Bool.not_true, Bool.false_eq_true, if_false]
      refine ⟨?_, ?_, ?_⟩
      · rw [certs, TrustChain.certs_appendAll, List.flatMap_cons,
          List.append_assoc]
      · exact .cons ⟨rfl, rfl⟩ moved
      · intro reloaded member
        rcases List.mem_cons.mp member with rfl | later
        · obtain ⟨node, nodeMember, named⟩ := TrustChain.exists_last
            (@TrustChain.appendAll_ne_nil chain _
              (TrustEnv.certsOf_ne_nil parses.1))
          exact ⟨node, reloadTrustAnchors_nodes _ _ nodeMember, named⟩
        · exact pointers reloaded later

end Reload

namespace TrustState

/-- A credential is in one list, once; a loose one is in none. -/
structure Listed (env : TrustEnv) (loose : Option Cred)
    (creds : Nat → List Cred) : Prop where
  addresses : ∀ device, ((creds device).map (·.address)).Nodup
  apart : ∀ device other, ∀ cred ∈ creds device,
    ∀ second ∈ creds other, cred.address = second.address →
      device = other
  outside : ∀ device, env.devices ≤ device → creds device = []
  looseApart : ∀ cred, loose = some cred → ∀ device,
    ∀ other ∈ creds device, other.address ≠ cred.address

/-- The containers agree, but for one credential that may be out of the list
of its device and still tracked. -/
structure Agrees (env : TrustEnv) (loose : Option Cred) (state : TrustState) :
    Prop extends Listed env loose state.creds where
  entries : (state.caCerts.map (·.cred.address)).Nodup
  tracked : ∀ device, ∀ cred ∈ state.creds device,
    cred.credusage.isTrustAnchor = true →
      ∃ entry ∈ state.caCerts, entry.cred = cred
  live : ∀ entry ∈ state.caCerts,
    entry.cred ∈ state.creds entry.device ∨ loose = some entry.cred
  certs : ∀ entry ∈ state.caCerts,
    entry.cred.credusage.isTrustAnchor = true ∧
      entry.cred.credtype = CredType.cert ∧ env.parses entry.cred = true
  chain : state.trustAnchors.nodes.map (·.cert) =
    state.caCerts.flatMap fun entry => env.certsOf entry.cred
  pointers : ∀ entry ∈ state.caCerts,
    ∃ node ∈ state.trustAnchors.nodes, node.name = entry.node
  looseCert : ∀ cred, loose = some cred →
    cred.credusage.isTrustAnchor = true → cred.credtype = CredType.cert

variable {env : TrustEnv} {state : TrustState} {loose : Option Cred}
  {cred : Cred} {device : Nat}

theorem Agrees.consistent (agrees : state.Agrees env none) :
    TrustConsistent env state := by
  have exactly : ∀ cert,
      (∃ node ∈ state.trustAnchors.nodes, node.cert = cert) ↔
        ∃ entry ∈ state.caCerts, cert ∈ env.certsOf entry.cred := by
    intro cert
    rw [← List.mem_map, agrees.chain, List.mem_flatMap]
  refine ⟨exactly, agrees.pointers, ?_⟩
  intro node member
  obtain ⟨entry, tracked, held⟩ := (exactly node.cert).mp ⟨node, member, rfl⟩
  rcases agrees.live entry tracked with present | impossible
  · exact ⟨entry.device, entry.cred, present, (agrees.certs entry tracked).1,
      held⟩
  · cases impossible

theorem agrees_initial : initial.Agrees env none where
  addresses := fun _ => List.nodup_nil
  apart := fun _ _ _ member => nomatch member
  outside := fun _ _ => rfl
  looseApart := fun _ impossible => nomatch impossible
  entries := List.nodup_nil
  tracked := fun _ _ member => nomatch member
  live := fun _ member => nomatch member
  certs := fun _ member => nomatch member
  chain := rfl
  pointers := fun _ member => nomatch member
  looseCert := fun _ impossible => nomatch impossible

theorem mem_credRemoveFromDevice_iff (agrees : state.Agrees env loose)
    {other : Nat} {second : Cred} :
    second ∈ (state.credRemoveFromDevice device cred).creds other ↔
      second ∈ state.creds other ∧
        (other = device → second.address ≠ cred.address) := by
  change second ∈ Function.update state.creds device _ other ↔ _
  by_cases here : other = device
  · subst other
    rw [Function.update_self, mem_eraseP_key_iff (agrees.addresses device)]
    simp
  · rw [Function.update_of_ne here]
    simp [here]

theorem Agrees.credRemoveFromDevice (agrees : state.Agrees env none)
    (member : cred ∈ state.creds device) :
    (state.credRemoveFromDevice device cred).Agrees env (some cred) where
  addresses := by
    intro other
    change ((Function.update state.creds device _ other).map _).Nodup
    by_cases here : other = device
    · subst other
      rw [Function.update_self]
      exact nodup_map_eraseP (agrees.addresses device)
    · rw [Function.update_of_ne here]
      exact agrees.addresses other
  apart := by
    intro first second one oneMember two twoMember same
    exact agrees.apart first second one
      ((mem_credRemoveFromDevice_iff agrees).mp oneMember).1 two
      ((mem_credRemoveFromDevice_iff agrees).mp twoMember).1 same
  outside := by
    intro other out
    rw [List.eq_nil_iff_forall_not_mem]
    intro second secondMember
    have old := ((mem_credRemoveFromDevice_iff agrees).mp secondMember).1
    rw [agrees.outside other out] at old
    cases old
  looseApart := by
    intro gone same other second secondMember equal
    obtain rfl := Option.some.inj same
    obtain ⟨old, different⟩ :=
      (mem_credRemoveFromDevice_iff agrees).mp secondMember
    exact different (agrees.apart _ _ _ old _ member equal) equal
  entries := agrees.entries
  tracked := by
    intro other second secondMember
    exact agrees.tracked other second
      ((mem_credRemoveFromDevice_iff agrees).mp secondMember).1
  live := by
    intro entry tracked
    have present := (agrees.live entry tracked).resolve_right (by simp)
    by_cases gone : entry.device = device ∧
        entry.cred.address = cred.address
    · right
      have equal : entry.cred = cred := by
        rw [gone.1] at present
        exact List.inj_on_of_nodup_map (agrees.addresses device) present
          member gone.2
      rw [equal]
    · left
      apply (mem_credRemoveFromDevice_iff agrees).mpr
      exact ⟨present, fun here same => gone ⟨here, same⟩⟩
  certs := agrees.certs
  chain := agrees.chain
  pointers := agrees.pointers
  looseCert := by
    intro gone same anchor
    obtain rfl := Option.some.inj same
    obtain ⟨entry, tracked, equal⟩ :=
      agrees.tracked device cred member anchor
    rw [← equal]
    exact (agrees.certs entry tracked).2.1

theorem isKnownTrustAnchor_iff :
    state.isKnownTrustAnchor cred = true ↔
      ∃ entry ∈ state.caCerts, entry.cred.address = cred.address := by
  simp [isKnownTrustAnchor]

private theorem mem_of_moved {before after : List CaEntry}
    (moved : List.Forall₂ CaEntry.Moved before after) :
    (∀ entry ∈ after, ∃ old ∈ before, old.Moved entry) ∧
      (∀ old ∈ before, ∃ entry ∈ after, old.Moved entry) := by
  induction moved with
  | nil => simp
  | cons here _ ih =>
      refine ⟨?_, ?_⟩
      · intro entry member
        rcases List.mem_cons.mp member with rfl | later
        · exact ⟨_, List.mem_cons_self, here⟩
        · obtain ⟨old, oldMember, same⟩ := ih.1 entry later
          exact ⟨old, List.mem_cons_of_mem _ oldMember, same⟩
      · intro old member
        rcases List.mem_cons.mp member with rfl | later
        · exact ⟨_, List.mem_cons_self, here⟩
        · obtain ⟨entry, entryMember, same⟩ := ih.2 old later
          exact ⟨entry, List.mem_cons_of_mem _ entryMember, same⟩

private theorem map_of_moved {β : Type} {before after : List CaEntry}
    (moved : List.Forall₂ CaEntry.Moved before after) (read : Cred → β) :
    after.map (fun entry => read entry.cred) =
      before.map fun entry => read entry.cred := by
  induction moved with
  | nil => rfl
  | cons here _ ih => rw [List.map_cons, List.map_cons, ih, here.2]

theorem ocTlsRemoveTrustAnchor_spec (agrees : state.Agrees env loose)
    (known : state.isKnownTrustAnchor cred = true) :
    ∃ left, left = state.caCerts.eraseP (·.cred.address == cred.address) ∧
      (state.ocTlsRemoveTrustAnchor env cred).creds = state.creds ∧
      List.Forall₂ CaEntry.Moved left
        (state.ocTlsRemoveTrustAnchor env cred).caCerts ∧
      (state.ocTlsRemoveTrustAnchor env cred).trustAnchors.nodes.map
          (·.cert) = left.flatMap (fun entry => env.certsOf entry.cred) ∧
      ∀ entry ∈ (state.ocTlsRemoveTrustAnchor env cred).caCerts,
        ∃ node ∈
            (state.ocTlsRemoveTrustAnchor env cred).trustAnchors.nodes,
          node.name = entry.node := by
  refine ⟨_, rfl, ?_⟩
  have parses : ∀ entry ∈
      state.caCerts.eraseP (·.cred.address == cred.address),
      env.parses entry.cred = true := fun entry member =>
    (agrees.certs entry (List.mem_of_mem_eraseP member)).2.2
  obtain ⟨certs, moved, pointers⟩ :=
    reloadTrustAnchors_spec _ state.trustAnchors.cleared parses
  unfold ocTlsRemoveTrustAnchor
  rw [if_pos known]
  exact ⟨rfl, moved, certs, pointers⟩

theorem Agrees.ocTlsRemoveTrustAnchor
    (agrees : state.Agrees env (some cred)) :
    (state.ocTlsRemoveTrustAnchor env cred).Agrees env (some cred) ∧
      ∀ entry ∈ (state.ocTlsRemoveTrustAnchor env cred).caCerts,
        entry.cred.address ≠ cred.address := by
  by_cases known : state.isKnownTrustAnchor cred = true
  · obtain ⟨left, leftEq, creds, moved, chain, pointers⟩ :=
      ocTlsRemoveTrustAnchor_spec agrees known
    have leftIff : ∀ entry, entry ∈ left ↔
        entry ∈ state.caCerts ∧ entry.cred.address ≠ cred.address := by
      intro entry
      rw [leftEq]
      exact mem_eraseP_key_iff agrees.entries
    obtain ⟨back, forth⟩ := mem_of_moved moved
    refine ⟨⟨?_, ?_, ?_, ?_, ?_, ?_, pointers, ?_⟩, ?_⟩
    · rw [creds]
      exact agrees.toListed
    · rw [map_of_moved moved Cred.address, leftEq]
      exact nodup_map_eraseP agrees.entries
    · rw [creds]
      intro device second member anchor
      obtain ⟨entry, tracked, rfl⟩ :=
        agrees.tracked device second member anchor
      have remains := (leftIff entry).mpr
        ⟨tracked, agrees.looseApart cred rfl device _ member⟩
      obtain ⟨moved, movedMember, same⟩ := forth entry remains
      exact ⟨moved, movedMember, same.2⟩
    · rw [creds]
      intro entry member
      obtain ⟨old, oldMember, same⟩ := back entry member
      rw [same.1, same.2]
      exact agrees.live old ((leftIff old).mp oldMember).1
    · intro entry member
      obtain ⟨old, oldMember, same⟩ := back entry member
      rw [same.2]
      exact agrees.certs old ((leftIff old).mp oldMember).1
    · rw [chain, List.flatMap_def, List.flatMap_def,
        map_of_moved moved env.certsOf]
    · exact agrees.looseCert
    · intro entry member
      obtain ⟨old, oldMember, same⟩ := back entry member
      rw [same.2]
      exact ((leftIff old).mp oldMember).2
  · have unchanged : state.ocTlsRemoveTrustAnchor env cred = state := by
      unfold TrustState.ocTlsRemoveTrustAnchor
      rw [if_neg known]
    rw [unchanged]
    refine ⟨agrees, ?_⟩
    intro entry member same
    exact known (isKnownTrustAnchor_iff.mpr ⟨entry, member, same⟩)

theorem Agrees.settled (agrees : state.Agrees env (some cred))
    (untracked : ∀ entry ∈ state.caCerts, entry.cred ≠ cred) :
    state.Agrees env none where
  toListed := { agrees.toListed with
    looseApart := fun _ impossible => nomatch impossible }
  entries := agrees.entries
  tracked := agrees.tracked
  live := by
    intro entry member
    rcases agrees.live entry member with present | gone
    · exact .inl present
    · exact absurd (Option.some.inj gone).symm (untracked entry member)
  certs := agrees.certs
  chain := agrees.chain
  pointers := agrees.pointers
  looseCert := fun _ impossible => nomatch impossible

theorem Agrees.ocSecCredFree (agrees : state.Agrees env (some cred)) :
    (state.ocSecCredFree env cred).Agrees env none := by
  unfold TrustState.ocSecCredFree
  split_ifs with anchor
  · obtain ⟨removed, untracked⟩ := agrees.ocTlsRemoveTrustAnchor
    apply removed.settled
    intro entry member same
    exact untracked entry member (by rw [same])
  · apply agrees.settled
    rintro entry member rfl
    obtain ⟨usage, credtype, -⟩ := agrees.certs entry member
    exact anchor ⟨credtype, usage⟩

theorem Agrees.ocSecRemoveCred (agrees : state.Agrees env none)
    (member : cred ∈ state.creds device) :
    (state.ocSecRemoveCred env device cred).Agrees env none :=
  (agrees.credRemoveFromDevice member).ocSecCredFree

theorem addNewCerts_of_known {creds : List Cred}
    (known : ∀ cred ∈ creds, cred.credusage.isTrustAnchor = true →
      state.isKnownTrustAnchor cred = true) :
    state.addNewCerts env device creds = state := by
  induction creds with
  | nil => rfl
  | cons cred creds ih =>
      rw [List.forall_mem_cons] at known
      have skipped : (!cred.credusage.isTrustAnchor ||
          state.isKnownTrustAnchor cred) = true := by
        cases usage : cred.credusage.isTrustAnchor with
        | false => rfl
        | true => exact known.1 usage
      rw [addNewCerts, if_pos skipped]
      exact ih known.2

theorem addNewCerts_append (first second : List Cred) :
    state.addNewCerts env device (first ++ second) =
      (state.addNewCerts env device first).addNewCerts env device
        second := by
  induction first generalizing state with
  | nil => rfl
  | cons cred creds ih =>
      rw [List.cons_append, addNewCerts, addNewCerts]
      split_ifs
      · exact ih
      · exact ih

theorem foldl_addNewCerts_of_known (devices : List Nat)
    {creds : Nat → List Cred}
    (known : ∀ device, ∀ cred ∈ creds device,
      cred.credusage.isTrustAnchor = true → device ∈ devices →
        state.isKnownTrustAnchor cred = true) :
    devices.foldl (fun left device =>
      left.addNewCerts env device (creds device)) state = state := by
  induction devices with
  | nil => rfl
  | cons device devices ih =>
      rw [List.foldl_cons, addNewCerts_of_known]
      · apply ih
        intro other cred member usage later
        exact known other cred member usage
          (List.mem_cons_of_mem device later)
      · intro cred member usage
        exact known device cred member usage List.mem_cons_self

/-- The state with the new credential in the list and not yet tracked. -/
def withCred (state : TrustState) (device : Nat) (cred : Cred) :
    TrustState :=
  { state with
    creds := Function.update state.creds device
      (state.creds device ++ [cred]) }

theorem mem_withCred_iff {other : Nat} {second : Cred} :
    second ∈ (state.withCred device cred).creds other ↔
      second ∈ state.creds other ∨ other = device ∧ second = cred := by
  change second ∈ Function.update state.creds device _ other ↔ _
  by_cases here : other = device
  · subst other
    rw [Function.update_self, List.mem_append, List.mem_singleton]
    simp
  · rw [Function.update_of_ne here]
    simp [here]

theorem ocTlsResolveNewTrustAnchors_withCred
    (agrees : state.Agrees env loose) (inside : device < env.devices)
    (usage : cred.credusage.isTrustAnchor = true)
    (parses : env.parses cred = true)
    (alloc : env.allocCaCert state.caCerts = true)
    (fresh : ∀ entry ∈ state.caCerts, entry.cred.address ≠ cred.address) :
    (state.withCred device cred).ocTlsResolveNewTrustAnchors env =
      (state.withCred device cred).addNewTrustAnchor env cred device := by
  have old : ∀ other, ∀ second ∈ state.creds other,
      second.credusage.isTrustAnchor = true →
        (state.withCred device cred).isKnownTrustAnchor second = true := by
    intro other second member anchor
    obtain ⟨entry, tracked, rfl⟩ :=
      agrees.tracked other second member anchor
    exact isKnownTrustAnchor_iff.mpr ⟨entry, tracked, rfl⟩
  have entries : ((state.withCred device cred).addNewTrustAnchor env cred
      device).caCerts = state.caCerts ++ [⟨device, cred,
        (state.trustAnchors.appendAll (env.certsOf cred)).last⟩] := by
    simp [addNewTrustAnchor, withCred, parses, alloc]
  obtain ⟨before, after, split, notBefore⟩ :=
    List.eq_append_cons_of_mem (List.mem_range.mpr inside)
  unfold ocTlsResolveNewTrustAnchors
  rw [split, List.foldl_append, List.foldl_cons,
    foldl_addNewCerts_of_known before]
  · -- the device itself: what was there is known, the new one is not
    have here : (state.withCred device cred).creds device =
        state.creds device ++ [cred] := Function.update_self ..
    rw [here, addNewCerts_append, addNewCerts_of_known (old device)]
    have unknown : (state.withCred device cred).isKnownTrustAnchor cred =
        false := by
      rw [Bool.eq_false_iff, ne_eq, isKnownTrustAnchor_iff]
      rintro ⟨entry, member, same⟩
      exact fresh entry member same
    rw [addNewCerts, if_neg (by simp [usage, unknown]), addNewCerts,
      foldl_addNewCerts_of_known]
    intro other second member anchor _
    rw [isKnownTrustAnchor_iff, entries]
    rcases mem_withCred_iff.mp member with earlier | ⟨-, rfl⟩
    · obtain ⟨entry, tracked, rfl⟩ :=
        agrees.tracked other second earlier anchor
      exact ⟨entry, List.mem_append_left _ tracked, rfl⟩
    · exact ⟨_, List.mem_append_right _ (List.mem_singleton_self _), rfl⟩
  · intro other second member anchor earlier
    rcases mem_withCred_iff.mp member with present | ⟨rfl, -⟩
    · exact old other second present anchor
    · exact absurd earlier notBefore

theorem unused_iff (listed : Listed env loose state.creds) {address : Nat} :
    state.unused env address = true ↔
      ∀ device, ∀ cred ∈ state.creds device, cred.address ≠ address := by
  simp only [unused, List.all_eq_true, List.mem_range, bne_iff_ne]
  constructor
  · intro every device cred member
    by_cases inside : device < env.devices
    · exact every device inside cred member
    · rw [listed.outside device (Nat.le_of_not_lt inside)] at member
      cases member
  · intro every device _
    exact every device

section

variable (agrees : state.Agrees env loose)

include agrees

theorem Agrees.fresh (unused : state.unused env cred.address = true)
    (notLoose : ∀ gone, loose = some gone → gone.address ≠ cred.address) :
    ∀ entry ∈ state.caCerts, entry.cred.address ≠ cred.address := by
  intro entry member
  rcases agrees.live entry member with present | gone
  · exact (unused_iff agrees.toListed).mp unused entry.device _ present
  · exact notLoose entry.cred gone

section

variable (inside : device < env.devices)

include inside

section

variable (unused : state.unused env cred.address = true)
  (notLoose : ∀ gone, loose = some gone → gone.address ≠ cred.address)

include unused notLoose

theorem Agrees.listed_withCred :
    Listed env loose (state.withCred device cred).creds := by
  have fresh := (unused_iff agrees.toListed).mp unused
  refine ⟨?_, ?_, ?_, ?_⟩
  · intro other
    change ((Function.update state.creds device _ other).map _).Nodup
    by_cases here : other = device
    · subst other
      rw [Function.update_self, List.map_append, List.nodup_append]
      refine ⟨agrees.addresses device, List.nodup_singleton _, ?_⟩
      intro address member second secondMember
      obtain ⟨old, oldMember, rfl⟩ := List.mem_map.mp member
      rw [List.map_singleton, List.mem_singleton] at secondMember
      rw [secondMember]
      exact fresh device old oldMember
    · rw [Function.update_of_ne here]
      exact agrees.addresses other
  · intro first second one oneMember two twoMember same
    rcases mem_withCred_iff.mp oneMember with oneOld | ⟨oneHere, rfl⟩
    · rcases mem_withCred_iff.mp twoMember with twoOld | ⟨-, rfl⟩
      · exact agrees.apart first second one oneOld two twoOld same
      · exact absurd same (fresh first one oneOld)
    · rcases mem_withCred_iff.mp twoMember with twoOld | ⟨twoHere, -⟩
      · exact absurd same.symm (fresh second two twoOld)
      · rw [oneHere, twoHere]
  · intro other out
    have different : other ≠ device := by omega
    change Function.update state.creds device _ other = []
    rw [Function.update_of_ne different]
    exact agrees.outside other out
  · intro gone loosely other second member
    rcases mem_withCred_iff.mp member with old | ⟨-, rfl⟩
    · exact agrees.looseApart gone loosely other second old
    · exact (notLoose gone loosely).symm

theorem Agrees.withCred (usage : cred.credusage.isTrustAnchor = false) :
    (state.withCred device cred).Agrees env loose where
  toListed := agrees.listed_withCred inside unused notLoose
  entries := agrees.entries
  tracked := by
    intro other second member anchor
    rcases mem_withCred_iff.mp member with old | ⟨-, rfl⟩
    · exact agrees.tracked other second old anchor
    · rw [usage] at anchor
      cases anchor
  live := by
    intro entry member
    rcases agrees.live entry member with present | gone
    · exact .inl (mem_withCred_iff.mpr (.inl present))
    · exact .inr gone
  certs := agrees.certs
  chain := agrees.chain
  pointers := agrees.pointers
  looseCert := agrees.looseCert

theorem Agrees.addNewTrustAnchor (usage : cred.credusage.isTrustAnchor = true)
    (credtype : cred.credtype = CredType.cert) (parses : env.parses cred = true)
    (alloc : env.allocCaCert state.caCerts = true) :
    ((state.withCred device cred).addNewTrustAnchor env cred device).Agrees
      env loose := by
  have added : (state.withCred device cred).addNewTrustAnchor env cred
      device = ⟨(state.withCred device cred).creds,
        state.caCerts ++ [⟨device, cred,
          (state.trustAnchors.appendAll (env.certsOf cred)).last⟩],
        state.trustAnchors.appendAll (env.certsOf cred)⟩ := by
    simp [TrustState.addNewTrustAnchor, TrustState.withCred, parses, alloc]
  rw [added]
  refine ⟨agrees.listed_withCred inside unused notLoose, ?_, ?_, ?_, ?_, ?_,
    ?_, agrees.looseCert⟩
  · rw [List.map_append, List.nodup_append]
    refine ⟨agrees.entries, List.nodup_singleton _, ?_⟩
    intro address member second secondMember
    obtain ⟨old, oldMember, rfl⟩ := List.mem_map.mp member
    rw [List.map_singleton, List.mem_singleton] at secondMember
    rw [secondMember]
    exact agrees.fresh unused notLoose old oldMember
  · intro other second member anchor
    rcases mem_withCred_iff.mp member with old | ⟨-, rfl⟩
    · obtain ⟨entry, tracked, same⟩ :=
        agrees.tracked other second old anchor
      exact ⟨entry, List.mem_append_left _ tracked, same⟩
    · exact ⟨_, List.mem_append_right _ (List.mem_singleton_self _), rfl⟩
  · intro entry member
    rcases List.mem_append.mp member with old | new
    · rcases agrees.live entry old with present | gone
      · exact .inl (mem_withCred_iff.mpr (.inl present))
      · exact .inr gone
    · rw [List.mem_singleton.mp new]
      exact .inl (mem_withCred_iff.mpr (.inr ⟨rfl, rfl⟩))
  · intro entry member
    rcases List.mem_append.mp member with old | new
    · exact agrees.certs entry old
    · rw [List.mem_singleton.mp new]
      exact ⟨usage, credtype, parses⟩
  · rw [TrustChain.certs_appendAll, agrees.chain, List.flatMap_append,
      List.flatMap_singleton]
  · intro entry member
    rcases List.mem_append.mp member with old | new
    · obtain ⟨node, nodeMember, named⟩ := agrees.pointers entry old
      exact ⟨node, TrustChain.mem_appendAll _ nodeMember, named⟩
    · rw [List.mem_singleton.mp new]
      exact TrustChain.exists_last
        (TrustChain.appendAll_ne_nil (TrustEnv.certsOf_ne_nil parses))

end

theorem Agrees.addOrFail {fails : Bool}
    (notLoose : fails = false →
      ∀ gone, loose = some gone → gone.address ≠ cred.address)
    (parses : cred.credtype = CredType.cert → env.parses cred = true)
    (trackable : fails = false → cred.credusage.isTrustAnchor = true →
      cred.credtype = CredType.cert ∧ env.allocCaCert state.caCerts = true) :
    (state.addOrFail env device cred fails).Agrees env loose := by
  unfold TrustState.addOrFail
  split_ifs with refused
  · exact agrees
  · rw [not_or, Bool.not_eq_true, Bool.not_eq_false] at refused
    obtain ⟨created, unused⟩ := refused
    have apart := notLoose created
    change TrustState.Agrees env loose
      (if cred.credtype = CredType.cert ∧ cred.credusage.isTrustAnchor then
        (state.withCred device cred).ocTlsResolveNewTrustAnchors env
      else state.withCred device cred)
    cases usage : cred.credusage.isTrustAnchor with
    | false =>
        rw [if_neg (by simp)]
        exact agrees.withCred inside unused apart usage
    | true =>
        obtain ⟨credtype, alloc⟩ := trackable created usage
        rw [if_pos ⟨credtype, rfl⟩, ocTlsResolveNewTrustAnchors_withCred
          agrees inside usage (parses credtype) alloc
          (agrees.fresh unused apart)]
        exact agrees.addNewTrustAnchor inside unused apart usage credtype
          (parses credtype) alloc

end

theorem Agrees.length_ocSecCredFree :
    (state.ocSecCredFree env cred).caCerts.length ≤
      state.caCerts.length := by
  unfold TrustState.ocSecCredFree
  split_ifs
  · by_cases known : state.isKnownTrustAnchor cred = true
    · obtain ⟨left, leftEq, -, moved, -, -⟩ :=
        ocTlsRemoveTrustAnchor_spec agrees known
      rw [← moved.length_eq, leftEq]
      exact List.length_eraseP_le
    · unfold TrustState.ocTlsRemoveTrustAnchor
      exact Nat.le_of_eq (by rw [if_neg known])
  · exact Nat.le_refl _

end

theorem creds_ocSecCredFree :
    (state.ocSecCredFree env cred).creds = state.creds := by
  unfold ocSecCredFree ocTlsRemoveTrustAnchor
  split_ifs <;> rfl

theorem Agrees.ocSecCredClear {creds : List Cred} {filter : Cred → Bool}
    (agrees : state.Agrees env none)
    (members : ∀ cred ∈ creds, cred ∈ state.creds device)
    (distinct : (creds.map (·.address)).Nodup) :
    (ocSecCredClear env device filter creds state).Agrees env none := by
  induction creds generalizing state with
  | nil => exact agrees
  | cons cred creds ih =>
      rw [List.forall_mem_cons] at members
      rw [List.map_cons, List.nodup_cons] at distinct
      unfold TrustState.ocSecCredClear
      split_ifs
      · refine ih (agrees.ocSecRemoveCred members.1) ?_ distinct.2
        intro other later
        have different : other.address ≠ cred.address := by
          intro same
          exact distinct.1 (List.mem_map.mpr ⟨other, later, same⟩)
        rw [TrustState.ocSecRemoveCred, creds_ocSecCredFree]
        exact (mem_credRemoveFromDevice_iff agrees).mpr
          ⟨members.2 other later, fun _ => different⟩
      · exact ih agrees members.2 distinct.2

theorem find_some {address : Nat}
    (found : state.find device address = some cred) :
    cred ∈ state.creds device :=
  List.mem_of_find?_eq_some found

theorem Agrees.ocSecAddNewCred (agrees : state.Agrees env none)
    (inside : device < env.devices) {replaced : Option Nat}
    {deferred fails : Bool}
    (trackable :
      Trackable env state (.add device cred replaced deferred fails)) :
    (state.ocSecAddNewCred env device cred replaced deferred fails).Agrees
      env none := by
  have alloc : ∀ entries : List CaEntry,
      entries.length ≤ state.caCerts.length → fails = false →
        cred.credusage.isTrustAnchor = true →
          cred.credtype = CredType.cert ∧ env.allocCaCert entries = true :=
    fun entries short created usage =>
      ⟨(trackable created usage).1, (trackable created usage).2 entries short⟩
  unfold TrustState.ocSecAddNewCred
  by_cases refused : cred.credtype = CredType.cert ∧ env.parses cred = false
  · rw [if_pos refused]
    exact agrees
  · rw [if_neg refused]
    have parses : cred.credtype = CredType.cert →
        env.parses cred = true := by
      intro credtype
      by_contra failed
      exact refused ⟨credtype, by simpa using failed⟩
    rcases found : replaced.bind (state.find device) with - | old
    · exact agrees.addOrFail inside (fun _ _ impossible => nomatch impossible)
        parses (alloc _ (Nat.le_refl _))
    · obtain ⟨address, -, lookup⟩ := Option.bind_eq_some_iff.mp found
      have member := find_some lookup
      have removed := agrees.credRemoveFromDevice member
      by_cases later : deferred = true
      · dsimp only
        rw [if_pos later]
        refine (removed.addOrFail inside ?_ parses ?_).ocSecCredFree
        · intro created gone same
          obtain rfl := Option.some.inj same
          rw [Bool.or_eq_false_iff, beq_eq_false_iff_ne] at created
          exact created.2.symm
        · intro created usage
          rw [Bool.or_eq_false_iff] at created
          exact alloc _ (Nat.le_refl _) created.1 usage
      · dsimp only
        rw [if_neg later]
        exact removed.ocSecCredFree.addOrFail inside
          (fun _ _ impossible => nomatch impossible) parses
          (alloc _ removed.length_ocSecCredFree)

/-- A trackable event keeps anchors and credentials in agreement. -/
theorem Agrees.step (agrees : state.Agrees env none) (event : TrustEvent)
    (trackable : Trackable env state event) :
    (state.step env event).Agrees env none := by
  cases event with
  | add device cred replaced deferred fails =>
      simp only [TrustState.step]
      split_ifs with inside
      · exact agrees.ocSecAddNewCred inside trackable
      · exact agrees
  | remove device address =>
      simp only [TrustState.step]
      rcases found : state.find device address with - | cred
      · exact agrees
      · exact agrees.ocSecRemoveCred (find_some found)
  | clear device filter =>
      exact agrees.ocSecCredClear (fun _ member => member)
        (agrees.addresses device)

end TrustState

/-- After any additions, replacements, failures, removals and clears of
credentials the containers agree, if all trust anchors can be tracked. -/
theorem trustConsistent_of_trackable (env : TrustEnv)
    (events : List TrustEvent)
    (trackable : Along (TrustState.step env) (Trackable env)
      TrustState.initial events) :
    TrustConsistent env
      (runFrom (TrustState.step env) TrustState.initial events) := by
  have agrees := trackable.invariant TrustState.agrees_initial
    fun before event invariant condition =>
      TrustState.Agrees.step invariant event condition
  exact agrees.consistent

namespace TrustAnchorRemoval

/-- One device; a certificate stands for itself, and anything that does not
start like one cannot be parsed. -/
def env : TrustEnv where
  devices := 1
  parse := fun data => if data.head? = some 48 then ([data], 0) else ([], 1)
  allocCaCert := fun _ => true
  parse_ne_nil := by
    intro data parsed
    split_ifs at parsed ⊢
    · exact List.cons_ne_nil data []

def anchor (address : Nat) (credtype : Int) (data : Bytes) : Cred where
  address := address
  credid := address
  credtype := credtype
  credusage := .trustca
  subjectuuid := Uuid.ofBytes [42]
  role := []
  authority := []
  privatedata := EncodedData.empty
  publicdata := ⟨data, .pem⟩
  oscore := none
  tag := []
  ownerCred := false

end TrustAnchorRemoval

open TrustAnchorRemoval in
/-- A credential of another type with the usage of a trust anchor is tracked
with the next certificate that is added, and stays so when it is removed. -/
theorem not_trustConsistent :
    ¬ TrustConsistent env (runFrom (TrustState.step env) TrustState.initial
      [.add 0 (anchor 1 CredType.psk [48, 1]) none false false,
        .add 0 (anchor 2 CredType.cert [48, 2]) none false false,
        .remove 0 1]) := by
  rintro ⟨-, -, present⟩
  obtain ⟨device, cred, member, -, held⟩ :=
    present ⟨0, [48, 1]⟩ (by decide +kernel)
  cases device with
  | zero =>
      have others : ∀ left ∈ (runFrom (TrustState.step env)
          TrustState.initial
          [.add 0 (anchor 1 CredType.psk [48, 1]) none false false,
            .add 0 (anchor 2 CredType.cert [48, 2]) none false false,
            .remove 0 1]).creds 0, [48, 1] ∉ env.certsOf left := by
        decide +kernel
      exact others cred member held
  | succ device => cases member

open TrustAnchorRemoval in
theorem trustConsistent_after_replacement :
    TrustConsistent env (runFrom (TrustState.step env) TrustState.initial
      [.add 0 (anchor 1 CredType.cert [48, 1]) none false false,
        .add 0 (anchor 2 CredType.cert [48, 2]) (some 1) true false,
        .add 0 (anchor 3 CredType.cert [7]) none false false,
        .remove 0 2]) := by
  apply trustConsistent_of_trackable
  exact ⟨fun _ _ => ⟨rfl, fun _ _ => rfl⟩, fun _ _ => ⟨rfl, fun _ _ => rfl⟩,
    fun _ _ => ⟨rfl, fun _ _ => rfl⟩, trivial, trivial⟩

end IotivityLite
