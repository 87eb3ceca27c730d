import IotivityLite.Foundation.Keyed
import IotivityLite.Tls.Roles

/-!
# Isolation of roles

Access control takes into account for a session the roles that were asserted
in it, and nothing else.  A peer that an outgoing connection replaces is freed
without its roles, and the next peer in its record would inherit them; but it
is replaced in its handshake, when it has not asserted any.
-/

namespace IotivityLite

namespace RoleState

/-- Each session has the roles asserted in it, and every client is a peer. -/
structure RolesIsolated (state : RoleState) : Prop where
  own : ∀ peer ∈ state.peers,
    state.accessRoles peer.endpoint = peer.asserted
  live : ∀ entry ∈ state.clients,
    ∃ peer ∈ state.peers, peer.address = entry.client

end RoleState

section Clients

variable {clients : List RolesEntry} {client other device : Nat}
  {change : List RoleCred → List RoleCred} {entry : RolesEntry}

theorem ocSecRolesGet_of_mem (distinct : (clients.map (·.client)).Nodup)
    (member : entry ∈ clients) :
    ocSecRolesGet clients entry.client = entry.roles := by
  have found : rolesGetForClient clients entry.client = some entry :=
    (find?_key_some_iff distinct).mpr ⟨member, rfl⟩
  unfold ocSecRolesGet
  rw [found]

theorem ocSecRolesGet_of_none
    (missing : rolesGetForClient clients client = none) :
    ocSecRolesGet clients client = [] := by
  unfold ocSecRolesGet
  rw [missing]

theorem rolesGetForClient_none_iff :
    rolesGetForClient clients client = none ↔
      ∀ entry ∈ clients, entry.client ≠ client :=
  find?_key_none_iff

theorem map_client_updateRoles (client : Nat)
    (change : List RoleCred → List RoleCred) (clients : List RolesEntry) :
    (updateRoles client change clients).map (·.client) =
      clients.map (·.client) := by
  unfold updateRoles
  rw [List.map_map]
  apply List.map_congr_left
  intro entry _
  rw [Function.comp_apply]
  split_ifs <;> rfl

theorem rolesGetForClient_updateRoles (client other : Nat)
    (change : List RoleCred → List RoleCred) (clients : List RolesEntry) :
    rolesGetForClient (updateRoles client change clients) other =
      (rolesGetForClient clients other).map fun entry =>
        if entry.client = client then
          { entry with roles := change entry.roles }
        else entry := by
  unfold rolesGetForClient updateRoles
  rw [List.find?_map]
  congr 1
  apply congrArg (fun condition => clients.find? condition)
  funext entry
  rw [Function.comp_apply]
  split_ifs <;> rfl

theorem ocSecRolesGet_updateRoles_self
    (present : (rolesGetForClient clients client).isSome) :
    ocSecRolesGet (updateRoles client change clients) client =
      change (ocSecRolesGet clients client) := by
  obtain ⟨entry, found⟩ := Option.isSome_iff_exists.mp present
  have same : entry.client = client := by
    simpa using List.find?_some found
  unfold ocSecRolesGet
  rw [rolesGetForClient_updateRoles, found]
  simp [same]

theorem ocSecRolesGet_updateRoles_other (different : other ≠ client) :
    ocSecRolesGet (updateRoles client change clients) other =
      ocSecRolesGet clients other := by
  unfold ocSecRolesGet
  rw [rolesGetForClient_updateRoles]
  cases found : rolesGetForClient clients other with
  | none => rfl
  | some entry =>
      have same : entry.client = other := by
        simpa using List.find?_some found
      rw [Option.map_some, if_neg (by rw [same]; exact different)]

theorem ocSecRolesGet_freeRoles_self
    (distinct : (clients.map (·.client)).Nodup) :
    ocSecRolesGet (ocSecFreeRoles clients client) client = [] :=
  ocSecRolesGet_of_none (find?_eraseP_key_self distinct)

theorem ocSecRolesGet_freeRoles_other (different : other ≠ client) :
    ocSecRolesGet (ocSecFreeRoles clients client) other =
      ocSecRolesGet clients other := by
  have same : rolesGetForClient (ocSecFreeRoles clients client) other =
      rolesGetForClient clients other :=
    find?_eraseP_key_other different clients
  unfold ocSecRolesGet
  rw [same]

theorem ocSecRolesGet_rolesWithClient (client other device : Nat) :
    ocSecRolesGet (rolesWithClient clients client device) other =
      ocSecRolesGet clients other := by
  unfold rolesWithClient
  cases missing : rolesGetForClient clients client with
  | some entry => rfl
  | none =>
      unfold ocSecRolesGet rolesGetForClient
      rw [List.find?_append]
      cases found : clients.find? (·.client == other) with
      | some entry => rfl
      | none => 
          by_cases same : client = other
          · simp [same]
          · simp [same]

theorem mem_ocSecFreeRoles_iff (distinct : (clients.map (·.client)).Nodup) :
    entry ∈ ocSecFreeRoles clients client ↔
      entry ∈ clients ∧ entry.client ≠ client :=
  mem_eraseP_key_iff distinct

theorem nodup_ocSecFreeRoles (distinct : (clients.map (·.client)).Nodup) :
    ((ocSecFreeRoles clients client).map (·.client)).Nodup :=
  nodup_map_eraseP distinct

theorem mem_freeRolesLoop (loop : List RolesEntry)
    (distinct : (clients.map (·.client)).Nodup) :
    let left := loop.foldl (fun left entry =>
      if entry.device = device then ocSecFreeRoles left entry.client
      else left) clients
    (left.map (·.client)).Nodup ∧
      ∀ entry, entry ∈ left ↔ entry ∈ clients ∧
        ∀ freed ∈ loop, freed.device = device →
          entry.client ≠ freed.client := by
  induction loop generalizing clients with
  | nil => simp [distinct]
  | cons first rest ih =>
      rw [List.foldl_cons]
      by_cases owned : first.device = device
      · simp only [owned, if_true]
        obtain ⟨keys, members⟩ := ih (nodup_ocSecFreeRoles distinct)
        refine ⟨keys, ?_⟩
        intro entry
        rw [members, mem_ocSecFreeRoles_iff distinct, List.forall_mem_cons,
          and_assoc]
        simp [owned]
      · simp only [owned, if_false]
        obtain ⟨keys, members⟩ := ih distinct
        refine ⟨keys, ?_⟩
        intro entry
        rw [members, List.forall_mem_cons]
        simp [owned]

theorem nodup_ocSecFreeRolesForDevice
    (distinct : (clients.map (·.client)).Nodup) :
    ((RoleClients.ocSecFreeRolesForDevice clients device).map
      (·.client)).Nodup :=
  (mem_freeRolesLoop clients distinct).1

theorem mem_ocSecFreeRolesForDevice_iff
    (distinct : (clients.map (·.client)).Nodup) :
    entry ∈ RoleClients.ocSecFreeRolesForDevice clients device ↔
      entry ∈ clients ∧ entry.device ≠ device := by
  refine ((mem_freeRolesLoop clients distinct).2 entry).trans ?_
  constructor
  · rintro ⟨member, kept⟩
    exact ⟨member, fun owned => kept entry member owned rfl⟩
  · rintro ⟨member, foreign⟩
    refine ⟨member, ?_⟩
    intro freed alsoMember owned same
    have equal : freed = entry :=
      List.inj_on_of_nodup_map distinct alsoMember member same.symm
    rw [equal] at owned
    exact foreign owned

end Clients

/-- What a request of the peer does to the clients: its own roles grow, those
of the others stay, and the only new entry is its own. -/
structure RolesGrown (peer : RolePeer) (before after : List RolesEntry)
    (added : List RoleCred) : Prop where
  distinct : (after.map (·.client)).Nodup
  entries : ∀ entry ∈ after,
    (∃ old ∈ before, old.client = entry.client ∧
      old.device = entry.device) ∨
    (entry.client = peer.address ∧ entry.device = peer.endpoint.device)
  own : ocSecRolesGet after peer.address =
    ocSecRolesGet before peer.address ++ added
  others : ∀ other, other ≠ peer.address →
    ocSecRolesGet after other = ocSecRolesGet before other

namespace RolesGrown

variable {peer : RolePeer} {clients before between after : List RolesEntry}
  {first second : List RoleCred}

theorem refl (distinct : (clients.map (·.client)).Nodup) :
    RolesGrown peer clients clients [] where
  distinct := distinct
  entries := fun entry member => .inl ⟨entry, member, rfl, rfl⟩
  own := (List.append_nil _).symm
  others := fun _ _ => rfl

theorem trans (one : RolesGrown peer before between first)
    (two : RolesGrown peer between after second) :
    RolesGrown peer before after (first ++ second) where
  distinct := two.distinct
  entries := by
    intro entry member
    rcases two.entries entry member with ⟨old, oldMember, same⟩ | new
    · rcases one.entries old oldMember with ⟨older, olderMember, earlier⟩ | new
      · exact .inl ⟨older, olderMember, earlier.1.trans same.1,
          earlier.2.trans same.2⟩
      · exact .inr ⟨same.1.symm.trans new.1, same.2.symm.trans new.2⟩
    · exact .inr new
  own := by rw [two.own, one.own, List.append_assoc]
  others := by
    intro other different
    rw [two.others other different, one.others other different]

theorem withClient (distinct : (clients.map (·.client)).Nodup) :
    RolesGrown peer clients
      (rolesWithClient clients peer.address peer.endpoint.device) [] where
  distinct := by
    unfold rolesWithClient
    cases missing : rolesGetForClient clients peer.address with
    | some entry => exact distinct
    | none =>
        rw [rolesGetForClient_none_iff] at missing
        rw [List.map_append, List.nodup_append]
        refine ⟨distinct, by simp, ?_⟩
        intro key member other single
        obtain ⟨entry, present, rfl⟩ := List.mem_map.mp member
        obtain rfl := List.mem_singleton.mp single
        exact missing entry present
  entries := by
    intro entry member
    unfold rolesWithClient at member
    cases missing : rolesGetForClient clients peer.address with
    | some found =>
        rw [missing] at member
        exact .inl ⟨entry, member, rfl, rfl⟩
    | none =>
        rw [missing] at member
        rcases List.mem_append.mp member with old | new
        · exact .inl ⟨entry, old, rfl, rfl⟩
        · obtain rfl := List.mem_singleton.mp new
          exact .inr ⟨rfl, rfl⟩
  own := by rw [ocSecRolesGet_rolesWithClient, List.append_nil]
  others := fun other _ => ocSecRolesGet_rolesWithClient _ other _

theorem rolesWithClient_isSome (client device : Nat) :
    (rolesGetForClient (rolesWithClient clients client device)
      client).isSome := by
  unfold rolesWithClient
  cases missing : rolesGetForClient clients client with
  | some entry => rw [missing]; rfl
  | none =>
      unfold rolesGetForClient at missing ⊢
      rw [List.find?_append, missing]
      simp

theorem append (distinct : (clients.map (·.client)).Nodup)
    (present : (rolesGetForClient clients peer.address).isSome)
    (cred : RoleCred) :
    RolesGrown peer clients
      (updateRoles peer.address (· ++ [cred]) clients) [cred] where
  distinct := by
    rw [map_client_updateRoles]
    exact distinct
  entries := by
    intro entry member
    obtain ⟨old, oldMember, rfl⟩ := List.mem_map.mp member
    refine .inl ⟨old, oldMember, ?_⟩
    split_ifs <;> exact ⟨rfl, rfl⟩
  own := ocSecRolesGet_updateRoles_self present
  others := fun _ different => ocSecRolesGet_updateRoles_other different

end RolesGrown

variable {clients : List RolesEntry}

theorem addRole_grown (env : RoleEnv) (peer : RolePeer) (item : CredDecode)
    (distinct : (clients.map (·.client)).Nodup) :
    RolesGrown peer clients (addRole env peer item clients).1
      (addRole env peer item clients).2.1.toList := by
  have entered := @RolesGrown.withClient peer clients distinct
  unfold addRole
  dsimp only
  split_ifs
  · exact .refl distinct
  · exact .refl distinct
  · exact .refl distinct
  · exact entered
  · cases env.parseRoleCertificate item.publicdata.data with
    | none => exact entered
    | some parsed =>
        dsimp only
        split_ifs
        · exact entered
        · exact entered.trans (RolesGrown.append entered.distinct
            (RolesGrown.rolesWithClient_isSome _ _) _)

theorem rolesResourcePost_grown (env : RoleEnv) (peer : RolePeer)
    (items : List CredDecode) (distinct : (clients.map (·.client)).Nodup) :
    RolesGrown peer clients (rolesResourcePost env peer items clients).1
      (rolesResourcePost env peer items clients).2 := by
  induction items generalizing clients with
  | nil => exact .refl distinct
  | cons item items ih =>
      have here := addRole_grown env peer item distinct
      unfold rolesResourcePost
      rcases result : addRole env peer item clients with ⟨after, added, ok⟩
      rw [result] at here
      cases ok with
      | false => exact here
      | true => exact here.trans (ih here.distinct)

theorem ocEndpointCompare_refl (endpoint : OcEndpoint) :
    ocEndpointCompare endpoint endpoint = true := by
  simp [ocEndpointCompare]

theorem ocEndpointCompare_of_named {first second : OcEndpoint} {session : Nat}
    (matching : ocEndpointCompare first { second with
      session := if second.session = 0 then session else second.session } =
        true) : ocEndpointCompare first second = true := by
  by_cases unnamed : second.session = 0
  · simp only [ocEndpointCompare, unnamed, if_true, Bool.and_eq_true]
      at matching ⊢
    exact ⟨matching.1, by simp⟩
  · simpa [unnamed] using matching

namespace RoleState

/-- Peers have addresses and endpoints of their own, clients are connected
peers, and each has the roles of its session. -/
structure Invariant (state : RoleState) : Prop where
  addresses : (state.peers.map (·.address)).Nodup
  endpoints : (state.peers.map (·.endpoint)).Pairwise fun first second =>
    ocEndpointCompare first second = false
  clients : (state.clients.map (·.client)).Nodup
  live : ∀ entry ∈ state.clients, ∃ peer ∈ state.peers,
    peer.address = entry.client ∧ peer.endpoint.device = entry.device ∧
      peer.connected = true
  own : ∀ peer ∈ state.peers,
    ocSecRolesGet state.clients peer.address = peer.asserted

variable {state : RoleState} {peer : RolePeer} {address : Nat}

theorem Invariant.ocTlsGetPeer_eq (invariant : state.Invariant)
    (member : peer ∈ state.peers) :
    state.ocTlsGetPeer peer.endpoint = some peer :=
  find?_self_of_pairwise (fun first second : RolePeer =>
      ocEndpointCompare first.endpoint second.endpoint)
    (fun other => ocEndpointCompare_refl other.endpoint)
    (List.pairwise_map.mp invariant.endpoints) member

theorem mem_of_session (found : state.session address = some peer) :
    peer ∈ state.peers ∧ peer.address = address :=
  ⟨List.mem_of_find?_eq_some found, by simpa using List.find?_some found⟩

theorem Invariant.isolated (invariant : state.Invariant) :
    state.RolesIsolated where
  own := by
    intro peer member
    unfold accessRoles
    rw [invariant.ocTlsGetPeer_eq member]
    exact invariant.own peer member
  live := by
    intro entry member
    obtain ⟨peer, peerMember, same, _⟩ := invariant.live entry member
    exact ⟨peer, peerMember, same⟩

theorem invariant_initial : initial.Invariant where
  addresses := List.nodup_nil
  endpoints := List.Pairwise.nil
  clients := List.nodup_nil
  live := fun _ member => nomatch member
  own := fun _ member => nomatch member

theorem Invariant.origin_eq (invariant : state.Invariant)
    {session client : RolePeer}
    (handled : state.origin address = some (session, client)) :
    session ∈ state.peers ∧ session.connected = true ∧ client = session := by
  obtain ⟨found, sessionFound, mapped⟩ := Option.bind_eq_some_iff.mp handled
  obtain ⟨sessionFound, connected⟩ :=
    Option.filter_eq_some_iff.mp sessionFound
  obtain ⟨member, _⟩ := mem_of_session sessionFound
  rw [invariant.ocTlsGetPeer_eq member, Option.map_some]
    at mapped
  obtain ⟨rfl, rfl⟩ := Prod.mk.inj (Option.some.inj mapped)
  exact ⟨member, connected, rfl⟩

/-- A peer in its handshake has no entry. -/
theorem Invariant.rolesGetForClient_none (invariant : state.Invariant)
    (member : peer ∈ state.peers) (unconnected : peer.connected = false) :
    rolesGetForClient state.clients peer.address = none := by
  rw [rolesGetForClient_none_iff]
  intro entry present same
  obtain ⟨found, foundMember, sameAddress, _, connected⟩ :=
    invariant.live entry present
  have equal : found = peer := List.inj_on_of_nodup_map
    invariant.addresses foundMember member (sameAddress.trans same)
  rw [equal, unconnected] at connected
  cases connected

/-- A peer is freed with its roles. -/
theorem Invariant.ocTlsFreePeer (invariant : state.Invariant)
    (freed : RolePeer) : (state.ocTlsFreePeer freed).Invariant where
  addresses := nodup_map_eraseP invariant.addresses
  endpoints := invariant.endpoints.sublist (List.eraseP_sublist.map _)
  clients := nodup_ocSecFreeRoles invariant.clients
  live := by
    intro entry member
    obtain ⟨old, different⟩ :=
      (mem_ocSecFreeRoles_iff invariant.clients).mp member
    obtain ⟨peer, peerMember, same, device⟩ := invariant.live entry old
    refine ⟨peer, ?_, same, device⟩
    apply (mem_eraseP_key_iff invariant.addresses).mpr
    exact ⟨peerMember, by rw [same]; exact different⟩
  own := by
    intro peer member
    obtain ⟨old, different⟩ :=
      (mem_eraseP_key_iff invariant.addresses).mp member
    rw [← invariant.own peer old]
    exact ocSecRolesGet_freeRoles_other different

theorem mem_reset {device : Nat} (member : peer ∈ (state.reset device).peers) :
    ∃ old ∈ state.peers, peer.address = old.address ∧
      peer.endpoint = old.endpoint ∧
      peer.asserted =
        if old.endpoint.device = device then [] else old.asserted := by
  obtain ⟨old, oldMember, rfl⟩ := List.mem_map.mp member
  refine ⟨old, oldMember, ?_⟩
  split_ifs <;> exact ⟨rfl, rfl, rfl⟩

private theorem map_changed_peers {change : RolePeer → RolePeer} {β : Type}
    {read : RolePeer → β} (unread : ∀ peer, read (change peer) = read peer)
    (peers : List RolePeer) : (peers.map change).map read = peers.map read := by
  rw [List.map_map]
  apply List.map_congr_left
  intro peer _
  exact unread peer

theorem Invariant.reset (invariant : state.Invariant) (device : Nat) :
    (state.reset device).Invariant where
  addresses := by
    have same : (state.reset device).peers.map (·.address) =
        state.peers.map (·.address) :=
      map_changed_peers (fun peer => by split_ifs <;> rfl) _
    rw [same]
    exact invariant.addresses
  endpoints := by
    have same : (state.reset device).peers.map (·.endpoint) =
        state.peers.map (·.endpoint) :=
      map_changed_peers (fun peer => by split_ifs <;> rfl) _
    rw [same]
    exact invariant.endpoints
  clients := nodup_ocSecFreeRolesForDevice invariant.clients
  live := by
    intro entry member
    obtain ⟨old, foreign⟩ :=
      (mem_ocSecFreeRolesForDevice_iff invariant.clients).mp member
    obtain ⟨peer, peerMember, same, sameDevice⟩ := invariant.live entry old
    refine ⟨peer, ?_, same, sameDevice⟩
    refine List.mem_map.mpr ⟨peer, peerMember, ?_⟩
    rw [if_neg (by rw [sameDevice.1]; exact foreign)]
  own := by
    intro peer member
    obtain ⟨old, oldMember, sameAddress, _, asserted⟩ := mem_reset member
    rw [sameAddress, asserted]
    have kept : ∀ entry,
        entry ∈ RoleClients.ocSecFreeRolesForDevice state.clients device ↔
          entry ∈ state.clients ∧ entry.device ≠ device :=
      fun entry => mem_ocSecFreeRolesForDevice_iff invariant.clients
    -- an entry of the peer has the peer's device, as addresses are distinct
    have ownDevice : ∀ entry ∈ state.clients, entry.client = old.address →
        entry.device = old.endpoint.device := by
      intro entry entryMember same
      obtain ⟨found, foundMember, foundSame, foundDevice, _⟩ :=
        invariant.live entry entryMember
      have equal : found = old := List.inj_on_of_nodup_map
        invariant.addresses foundMember oldMember (foundSame.trans same)
      rw [← foundDevice, equal]
    split_ifs with owned
    · apply ocSecRolesGet_of_none
      rw [rolesGetForClient_none_iff]
      intro entry entryMember same
      obtain ⟨present, foreign⟩ := (kept entry).mp entryMember
      exact foreign ((ownDevice entry present same).trans owned)
    · rw [← invariant.own old oldMember]
      cases found : rolesGetForClient state.clients old.address with
      | none =>
          rw [ocSecRolesGet_of_none found]
          apply ocSecRolesGet_of_none
          rw [rolesGetForClient_none_iff] at found ⊢
          intro entry entryMember
          exact found entry ((kept entry).mp entryMember).1
      | some entry =>
          obtain ⟨present, same⟩ :=
            (find?_key_some_iff invariant.clients).mp found
          have still : entry ∈
              RoleClients.ocSecFreeRolesForDevice state.clients device :=
            (kept entry).mpr ⟨present, by
              rw [ownDevice entry present same]
              exact owned⟩
          rw [← same, ocSecRolesGet_of_mem invariant.clients present]
          exact ocSecRolesGet_of_mem
            (nodup_ocSecFreeRolesForDevice invariant.clients) still

theorem mem_note {change : List RoleCred → List RoleCred}
    (member : peer ∈ state.note address change) :
    ∃ old ∈ state.peers, peer.address = old.address ∧
      peer.asserted =
        if old.address = address then change old.asserted
        else old.asserted := by
  obtain ⟨old, oldMember, rfl⟩ := List.mem_map.mp member
  refine ⟨old, oldMember, ?_⟩
  split_ifs <;> exact ⟨rfl, rfl⟩

theorem Invariant.noted (invariant : state.Invariant)
    {change : List RoleCred → List RoleCred} (member : peer ∈ state.peers)
    (connected : peer.connected = true)
    (distinct : (clients.map (·.client)).Nodup)
    (entries : ∀ entry ∈ clients,
      (∃ old ∈ state.clients, old.client = entry.client ∧
        old.device = entry.device) ∨
      (entry.client = peer.address ∧ entry.device = peer.endpoint.device))
    (own : ocSecRolesGet clients peer.address =
      change (ocSecRolesGet state.clients peer.address))
    (others : ∀ other, other ≠ peer.address →
      ocSecRolesGet clients other = ocSecRolesGet state.clients other) :
    Invariant ⟨state.note peer.address change, clients⟩ where
  addresses := by
    have same : (state.note peer.address change).map (·.address) =
        state.peers.map (·.address) :=
      map_changed_peers (fun peer => by split_ifs <;> rfl) _
    rw [same]
    exact invariant.addresses
  endpoints := by
    have same : (state.note peer.address change).map (·.endpoint) =
        state.peers.map (·.endpoint) :=
      map_changed_peers (fun peer => by split_ifs <;> rfl) _
    rw [same]
    exact invariant.endpoints
  clients := distinct
  live := by
    have noted : ∀ old ∈ state.peers, ∃ new ∈ state.note peer.address change,
        new.address = old.address ∧ new.endpoint = old.endpoint ∧
          new.connected = old.connected := by
      intro old oldMember
      refine ⟨_, List.mem_map.mpr ⟨old, oldMember, rfl⟩, ?_⟩
      split_ifs <;> exact ⟨rfl, rfl, rfl⟩
    intro entry entryMember
    rcases entries entry entryMember with ⟨old, oldMember, same⟩ | same
    · obtain ⟨found, foundMember, sameAddress, sameDevice, past⟩ :=
        invariant.live old oldMember
      obtain ⟨new, newMember, newAddress, newEndpoint, newConnected⟩ :=
        noted found foundMember
      refine ⟨new, newMember, ?_, ?_, newConnected.trans past⟩
      · rw [newAddress, sameAddress, same.1]
      · rw [newEndpoint, sameDevice, same.2]
    · obtain ⟨new, newMember, newAddress, newEndpoint, newConnected⟩ :=
        noted peer member
      refine ⟨new, newMember, ?_, ?_, newConnected.trans connected⟩
      · rw [newAddress, same.1]
      · rw [newEndpoint, same.2]
  own := by
    intro new newMember
    obtain ⟨old, oldMember, sameAddress, asserted⟩ := mem_note newMember
    rw [sameAddress, asserted, ← invariant.own old oldMember]
    split_ifs with here
    · rw [here]
      exact own
    · exact others _ here

theorem Invariant.post (invariant : state.Invariant) (env : RoleEnv)
    (address : Nat) (items : List CredDecode) :
    (state.post env address items).Invariant := by
  unfold RoleState.post
  cases handled : state.origin address with
  | none => exact invariant
  | some pair =>
      obtain ⟨session, client⟩ := pair
      obtain ⟨member, connected, rfl⟩ := invariant.origin_eq handled
      have grown := rolesResourcePost_grown env client items
        invariant.clients
      exact invariant.noted member connected grown.distinct grown.entries
        grown.own grown.others

theorem Invariant.updated (invariant : state.Invariant)
    {change : List RoleCred → List RoleCred} (onNil : change [] = [])
    (member : peer ∈ state.peers) (connected : peer.connected = true) :
    Invariant ⟨state.note peer.address change,
      updateRoles peer.address change state.clients⟩ := by
  apply invariant.noted member connected
  · rw [map_client_updateRoles]
    exact invariant.clients
  · intro entry entryMember
    obtain ⟨old, oldMember, rfl⟩ := List.mem_map.mp entryMember
    refine .inl ⟨old, oldMember, ?_⟩
    split_ifs <;> exact ⟨rfl, rfl⟩
  · cases found : rolesGetForClient state.clients peer.address with
    | none =>
        rw [ocSecRolesGet_of_none found, onNil]
        apply ocSecRolesGet_of_none
        rw [rolesGetForClient_updateRoles, found, Option.map_none]
    | some entry =>
        apply ocSecRolesGet_updateRoles_self
        rw [found, Option.isSome_some]
  · intro other different
    exact ocSecRolesGet_updateRoles_other different

section

variable (invariant : state.Invariant)

include invariant

theorem Invariant.delete (address : Nat) (credid : Option Int) :
    (state.delete address credid).Invariant := by
  unfold RoleState.delete
  cases handled : state.origin address with
  | none => exact invariant
  | some pair =>
      obtain ⟨session, client⟩ := pair
      obtain ⟨member, connected, rfl⟩ := invariant.origin_eq handled
      cases credid with
      | some credid => exact invariant.updated rfl member connected
      | none =>
          apply invariant.noted member connected
          · exact nodup_ocSecFreeRoles invariant.clients
          · intro entry entryMember
            obtain ⟨old, _⟩ :=
              (mem_ocSecFreeRoles_iff invariant.clients).mp entryMember
            exact .inl ⟨entry, old, rfl, rfl⟩
          · exact ocSecRolesGet_freeRoles_self invariant.clients
          · intro other different
            exact ocSecRolesGet_freeRoles_other different

theorem Invariant.access (address : Nat) (invalid : RoleCred → Bool) :
    (state.access address invalid).Invariant := by
  unfold RoleState.access
  cases handled : state.origin address with
  | none => exact invariant
  | some pair =>
      obtain ⟨session, client⟩ := pair
      obtain ⟨member, connected, rfl⟩ := invariant.origin_eq handled
      exact invariant.updated rfl member connected

theorem Invariant.ocTlsAddOrGetPeer (role : TlsRole) (endpoint : OcEndpoint)
    (address : Nat) (outcome : CreateOutcome) :
    (state.ocTlsAddOrGetPeer role endpoint address outcome).Invariant := by
  unfold RoleState.ocTlsAddOrGetPeer
  by_cases taken : (state.ocTlsGetPeer endpoint).isSome = true ∨
    (state.session address).isSome = true
  · rw [if_pos taken]
    exact invariant
  rw [if_neg taken]
  rw [not_or, Option.not_isSome_iff_eq_none, Option.not_isSome_iff_eq_none]
    at taken
  obtain ⟨unmatched, unused⟩ := taken
  cases outcome with
  | refused => exact invariant
  | initFailed => exact invariant.ocTlsFreePeer _
  | created session =>
      have newAddress : ∀ peer ∈ state.peers, peer.address ≠ address :=
        find?_key_none_iff.mp unused
      have newEndpoint : ∀ peer ∈ state.peers,
          ¬ ocEndpointCompare peer.endpoint endpoint = true :=
        List.find?_eq_none.mp unmatched
      refine ⟨?_, ?_, invariant.clients, ?_, ?_⟩
      · rw [List.map_append, List.nodup_append]
        refine ⟨invariant.addresses, by simp, ?_⟩
        intro first member second single
        obtain ⟨peer, present, rfl⟩ := List.mem_map.mp member
        obtain rfl := List.mem_singleton.mp single
        exact newAddress peer present
      · rw [List.map_append, List.pairwise_append]
        refine ⟨invariant.endpoints, by simp, ?_⟩
        intro first member second single
        obtain ⟨peer, present, rfl⟩ := List.mem_map.mp member
        obtain rfl := List.mem_singleton.mp single
        rw [Bool.eq_false_iff]
        intro matching
        exact newEndpoint peer present (ocEndpointCompare_of_named matching)
      · intro entry member
        obtain ⟨peer, present, same⟩ := invariant.live entry member
        exact ⟨peer, List.mem_append_left _ present, same⟩
      · intro peer member
        rcases List.mem_append.mp member with old | new
        · exact invariant.own peer old
        · obtain rfl := List.mem_singleton.mp new
          apply ocSecRolesGet_of_none
          rw [rolesGetForClient_none_iff]
          intro entry present same
          obtain ⟨found, foundMember, sameAddress, _⟩ :=
            invariant.live entry present
          exact newAddress found foundMember (sameAddress.trans same)

/-- A peer without an entry may be freed without its roles. -/
theorem Invariant.ocTlsFreeInvalidPeer
    (released : rolesGetForClient state.clients peer.address = none) :
    (state.ocTlsFreeInvalidPeer peer).Invariant := by
  have nothingFreed : ocSecFreeRoles state.clients peer.address =
      state.clients := by
    apply List.eraseP_of_forall_not
    intro entry member
    simpa using rolesGetForClient_none_iff.mp released entry member
  have same : state.ocTlsFreeInvalidPeer peer = state.ocTlsFreePeer peer := by
    unfold RoleState.ocTlsFreeInvalidPeer RoleState.ocTlsFreePeer remove
    rw [nothingFreed]
  rw [same]
  exact invariant.ocTlsFreePeer peer

/-- A message is sent on an established connection, or replaces a peer in its
handshake, which has no entry. -/
theorem Invariant.ocTlsSendMessage (endpoint : OcEndpoint) (address : Nat)
    (outcome : CreateOutcome) :
    (state.ocTlsSendMessage endpoint address outcome).Invariant := by
  unfold RoleState.ocTlsSendMessage ocTlsConnected ocTlsInitConnection
  cases found : state.ocTlsGetPeer endpoint with
  | none => exact invariant.ocTlsAddOrGetPeer _ _ _ _
  | some peer =>
      dsimp only
      split_ifs with unconnected client
      · exact invariant
      · apply Invariant.ocTlsAddOrGetPeer
        apply invariant.ocTlsFreeInvalidPeer
        exact invariant.rolesGetForClient_none
          (List.mem_of_find?_eq_some found) unconnected
      · exact invariant

/-- The peers in a list stay where they are, and only the handshake of one is
over. -/
theorem Invariant.handshake (address : Nat) :
    (state.handshake address).Invariant where
  addresses := by
    have same : (state.handshake address).peers.map (·.address) =
        state.peers.map (·.address) :=
      map_changed_peers (fun peer => by split_ifs <;> rfl) _
    rw [same]
    exact invariant.addresses
  endpoints := by
    have same : (state.handshake address).peers.map (·.endpoint) =
        state.peers.map (·.endpoint) :=
      map_changed_peers (fun peer => by split_ifs <;> rfl) _
    rw [same]
    exact invariant.endpoints
  clients := invariant.clients
  live := by
    intro entry member
    obtain ⟨peer, peerMember, same, device, connected⟩ :=
      invariant.live entry member
    refine ⟨_, List.mem_map.mpr ⟨peer, peerMember, rfl⟩, ?_⟩
    split_ifs
    · exact ⟨same, device, rfl⟩
    · exact ⟨same, device, connected⟩
  own := by
    intro peer member
    obtain ⟨old, oldMember, rfl⟩ := List.mem_map.mp member
    split_ifs <;> exact invariant.own old oldMember

/-- Every event keeps the invariant of the roles. -/
theorem Invariant.step (env : RoleEnv) (event : RoleEvent) :
    (state.step env event).Invariant := by
  cases event with
  | accept endpoint address outcome =>
      exact invariant.ocTlsAddOrGetPeer .server endpoint address outcome
  | send endpoint address outcome =>
      exact invariant.ocTlsSendMessage endpoint address outcome
  | handshake session => exact invariant.handshake session
  | post session items => exact invariant.post env session items
  | delete session credid => exact invariant.delete session credid
  | access session invalid => exact invariant.access session invalid
  | resetDevice device => exact invariant.reset device
  | close session =>
      simp only [RoleState.step, RoleState.close]
      cases state.session session with
      | none => exact invariant
      | some peer => exact invariant.ocTlsFreePeer peer

end

end RoleState

end IotivityLite
