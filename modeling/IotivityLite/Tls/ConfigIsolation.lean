import IotivityLite.Tls.PeerConfig

/-!
# Isolation of handshake configurations

What is selected for an outgoing connection should configure that connection
and nothing else.  The specification is a second machine, in which an
incoming connection sees no selection and leaves the pending one alone, and
an outgoing attempt uses up the pending one whatever comes of it.
-/

namespace IotivityLite

namespace TlsConfigState

/-- The machine with one pending selection for the next outgoing attempt. -/
def isolatedStep (state : TlsConfigState) (event : TlsConfigEvent) :
    TlsConfigState :=
  match event with
  | .accept .. =>
      match handleConnection state.peers Selections.cleared event with
      | (_, peers, new) => state.add state.selections peers new
  | .connect .. =>
      match handleConnection state.peers state.selections event with
      | (_, peers, new) => state.add Selections.cleared peers new
  | .select _ | .close _ => state.step event

/-- No peer that connects to a device after ownership transfer may go without
authentication, or be verified like a cloud. -/
def ServersAuthenticate (state : TlsConfigState) : Prop :=
  ∀ peer ∈ state.created, peer.role = .server → peer.dos ≠ .rfotm →
    .ecdhAnonWithAes128CbcSha256 ∉ peer.config.ciphers.suites ∧
      peer.config.verify = .manufacturerOrIdentity

end TlsConfigState

/-- The run configures the peers, and leaves the selections, as the isolated
machine does. -/
structure ConfigIsolated (events : List TlsConfigEvent) : Prop where
  isolated : runFrom TlsConfigState.step TlsConfigState.initial events =
    runFrom TlsConfigState.isolatedStep TlsConfigState.initial events
  serversAuthenticate :
    (runFrom TlsConfigState.step TlsConfigState.initial
      events).ServersAuthenticate

/-- The selections that a server reads and clears too. -/
def Selections.sharedPending (selections : Selections) : Prop :=
  selections.ciphers ≠ none ∨ selections.mfgCred ≠ -1 ∨
    selections.idCred ≠ -1

instance (selections : Selections) : Decidable selections.sharedPending :=
  inferInstanceAs (Decidable (_ ∨ _ ∨ _))

/-- A new peer is allocated and gets as far as its ciphersuites. -/
def reachesCiphersuites (device : DeviceTls) (library : LibraryResults)
    (peers : List ConfiguredPeer) (endpoint : OcEndpoint) : Bool :=
  peerAdmitted device library peers endpoint && library.configDefaults &&
    library.confPsk

/-- An incoming connection that configures a peer finds nothing selected; an
outgoing attempt that configures none finds nothing selected either. -/
def Undisturbed (state : TlsConfigState) : TlsConfigEvent → Prop
  | .accept endpoint device library =>
      (ocTlsFindPeer state.peers endpoint = none ∧
          reachesCiphersuites device library state.peers endpoint) →
        ¬ state.selections.sharedPending
  | .connect via endpoint device library =>
      state.selections = Selections.cleared ∨
        ∃ peers, connectPeers via device state.peers endpoint = some peers ∧
          (via = .application ∨ ocTlsFindPeer peers endpoint = none) ∧
          reachesCiphersuites device library peers endpoint = true
  | .select _ | .close _ => True

section Peer

variable {device : DeviceTls} {library : LibraryResults}
  {peers : List ConfiguredPeer} {endpoint : OcEndpoint}
  {verify : VerifyCallback} {selections : Selections}

theorem eq_of_not_sharedPending (quiet : ¬ selections.sharedPending) :
    selections =
      { Selections.cleared with
        pinObtPskIdentity := selections.pinObtPskIdentity } := by
  obtain ⟨ciphers, mfgCred, idCred, pin⟩ := selections
  simp only [Selections.sharedPending, not_or, not_not] at quiet
  obtain ⟨rfl, rfl, rfl⟩ := quiet
  rfl

theorem ocTlsPeerSslInit_server (pin : Bool) :
    ocTlsPeerSslInit device library .server endpoint verify
        { Selections.cleared with pinObtPskIdentity := pin } =
      ({ Selections.cleared with pinObtPskIdentity := pin },
        (ocTlsPeerSslInit device library .server endpoint verify
          Selections.cleared).2) := by
  unfold ocTlsPeerSslInit ocTlsPopulateSslConfig
  cases library.configDefaults with
  | false => rfl
  | true =>
      cases library.confPsk with
      | false => rfl
      | true =>
          simp only [reduceCtorEq, false_and, if_false, if_true,
            Bool.not_true, Bool.false_eq_true, ocTlsSetCiphersuites]
          split_ifs <;> rfl

theorem ocTlsPeerSslInit_server_of_failed (selections : Selections)
    (failed : (library.configDefaults && library.confPsk) = false) :
    ocTlsPeerSslInit device library .server endpoint verify selections =
      (selections, none) := by
  unfold ocTlsPeerSslInit ocTlsPopulateSslConfig
  cases defaults : library.configDefaults with
  | false => rfl
  | true =>
      rw [defaults, Bool.true_and] at failed
      rw [failed]
      rfl

theorem ocTlsPopulateSslConfig_client
    (defaults : library.configDefaults = true) (selections : Selections) :
    (ocTlsPopulateSslConfig device library .client selections).1 =
      { selections with pinObtPskIdentity := false } := by
  obtain ⟨ciphers, mfgCred, idCred, pin⟩ := selections
  unfold ocTlsPopulateSslConfig
  rw [defaults]
  cases pin with
  | false => rfl
  | true => rfl

theorem ocTlsPeerSslInit_fst (role : TlsRole) (selections : Selections) :
    (ocTlsPeerSslInit device library role endpoint verify selections).1 =
      if (ocTlsPopulateSslConfig device library role selections).2 = none then
        (ocTlsPopulateSslConfig device library role selections).1
      else { (ocTlsPopulateSslConfig device library role selections).1 with
        ciphers := none, mfgCred := -1, idCred := -1 } := by
  unfold ocTlsPeerSslInit
  rcases ocTlsPopulateSslConfig device library role selections with
    ⟨left, _ | psk⟩
  · rfl
  · simp only [ocTlsSetCiphersuites, reduceCtorEq, if_false]
    split_ifs <;> rfl

theorem ocTlsPeerSslInit_client
    (reached : (library.configDefaults && library.confPsk) = true) :
    (ocTlsPeerSslInit device library .client endpoint verify selections).1 =
      Selections.cleared := by
  rw [Bool.and_eq_true] at reached
  have keyed : (ocTlsPopulateSslConfig device library .client
      selections).2 ≠ none := by
    unfold ocTlsPopulateSslConfig
    simp [reached]
  rw [ocTlsPeerSslInit_fst, if_neg keyed,
    ocTlsPopulateSslConfig_client reached.1]
  rfl

theorem ocTlsPeerSslInit_cleared (role : TlsRole) :
    (ocTlsPeerSslInit device library role endpoint verify
      Selections.cleared).1 = Selections.cleared := by
  have populated : (ocTlsPopulateSslConfig device library role
      Selections.cleared).1 = Selections.cleared := by
    unfold ocTlsPopulateSslConfig
    cases library.configDefaults with
    | false => rfl
    | true =>
        cases role with
        | client => rfl
        | server => rfl
  rw [ocTlsPeerSslInit_fst, populated]
  split_ifs <;> rfl

theorem ocTlsAddNewPeer_cleared (role : TlsRole) :
    (ocTlsAddNewPeer device library peers role endpoint verify
      Selections.cleared).1 = Selections.cleared := by
  unfold ocTlsAddNewPeer
  split_ifs with admitted
  · exact ocTlsPeerSslInit_cleared role
  · rfl

theorem ocTlsAddOrGetPeer_cleared (role : TlsRole) :
    (ocTlsAddOrGetPeer device library peers role endpoint
      Selections.cleared).1 = Selections.cleared := by
  unfold ocTlsAddOrGetPeer
  split
  · rfl
  · exact ocTlsAddNewPeer_cleared role

theorem ocTlsAddNewPeer_client
    (reaches : reachesCiphersuites device library peers endpoint = true) :
    (ocTlsAddNewPeer device library peers .client endpoint verify
      selections).1 = Selections.cleared := by
  unfold reachesCiphersuites at reaches
  rw [Bool.and_assoc, Bool.and_eq_true] at reaches
  unfold ocTlsAddNewPeer
  rw [if_pos reaches.1]
  exact ocTlsPeerSslInit_client reaches.2

theorem ocTlsAddNewPeer_server
    (undisturbed : reachesCiphersuites device library peers endpoint = true →
      ¬ selections.sharedPending) :
    ocTlsAddNewPeer device library peers .server endpoint
        (ocTlsPeerPkiDefaultVerificationParams selections) selections =
      (selections,
        (ocTlsAddNewPeer device library peers .server endpoint
          (ocTlsPeerPkiDefaultVerificationParams Selections.cleared)
          Selections.cleared).2) := by
  unfold ocTlsAddNewPeer
  cases admitted : peerAdmitted device library peers endpoint with
  | false => rfl
  | true =>
      simp only [if_true]
      cases keyed : library.configDefaults && library.confPsk with
      | false =>
          rw [ocTlsPeerSslInit_server_of_failed _ keyed,
            ocTlsPeerSslInit_server_of_failed _ keyed]
      | true =>
          have quiet : ¬ selections.sharedPending := by
            apply undisturbed
            unfold reachesCiphersuites
            rw [Bool.and_assoc, admitted, keyed, Bool.and_self]
          rw [eq_of_not_sharedPending quiet, ocTlsPeerSslInit_server]
          rfl

theorem ocTlsAddOrGetPeer_server
    (undisturbed : ocTlsFindPeer peers endpoint = none ∧
        reachesCiphersuites device library peers endpoint = true →
      ¬ selections.sharedPending) :
    ocTlsAddOrGetPeer device library peers .server endpoint selections =
      (selections,
        (ocTlsAddOrGetPeer device library peers .server endpoint
          Selections.cleared).2) := by
  unfold ocTlsAddOrGetPeer
  cases found : ocTlsFindPeer peers endpoint with
  | some peer => rfl
  | none =>
      apply ocTlsAddNewPeer_server
      intro reaches
      exact undisturbed ⟨found, reaches⟩

end Peer

variable {state : TlsConfigState}

theorem step_accept {endpoint : OcEndpoint} {device : DeviceTls}
    {library : LibraryResults}
    (undisturbed : Undisturbed state (.accept endpoint device library)) :
    state.step (.accept endpoint device library) =
      state.isolatedStep (.accept endpoint device library) := by
  have same := @ocTlsAddOrGetPeer_server device library state.peers endpoint
    state.selections undisturbed
  unfold TlsConfigState.step TlsConfigState.isolatedStep handleConnection
  simp only [same]

theorem handleConnection_connect {via : ConnectVia} {endpoint : OcEndpoint}
    {device : DeviceTls} {library : LibraryResults}
    (undisturbed : Undisturbed state (.connect via endpoint device library)) :
    (handleConnection state.peers state.selections
      (.connect via endpoint device library)).1 = Selections.cleared := by
  rcases undisturbed with nothing | ⟨peers, looked, fresh, reaches⟩
  · rw [nothing]
    simp only [handleConnection]
    cases connectPeers via device state.peers endpoint with
    | none => rfl
    | some peers =>
        dsimp only
        split_ifs
        · exact ocTlsAddNewPeer_cleared .client
        · exact ocTlsAddOrGetPeer_cleared .client
  · simp only [handleConnection, looked]
    by_cases application : via = .application
    · simp only [application, if_true]
      exact ocTlsAddNewPeer_client reaches
    · simp only [application, if_false]
      unfold ocTlsAddOrGetPeer
      rw [fresh.resolve_left application]
      exact ocTlsAddNewPeer_client reaches

theorem step_eq_isolatedStep {event : TlsConfigEvent}
    (undisturbed : Undisturbed state event) :
    state.step event = state.isolatedStep event := by
  cases event with
  | select call => rfl
  | close endpoint => rfl
  | accept endpoint device library => exact step_accept undisturbed
  | connect via endpoint device library =>
      have cleared := handleConnection_connect undisturbed
      unfold TlsConfigState.step TlsConfigState.isolatedStep
      simp only
      rw [← cleared]

section Server

variable {device : DeviceTls} {library : LibraryResults}
  {peers : List ConfiguredPeer} {endpoint : OcEndpoint} {role : TlsRole}
  {verify : VerifyCallback} {selections : Selections} {peer : ConfiguredPeer}

theorem ocTlsPopulateSslConfig_ciphers :
    (ocTlsPopulateSslConfig device library role selections).1.ciphers =
      selections.ciphers := by
  unfold ocTlsPopulateSslConfig
  cases library.configDefaults with
  | false => rfl
  | true =>
      by_cases pin : role = .client ∧ selections.pinObtPskIdentity = true
      · simp [pin]
      · simp [pin]

theorem ocTlsPeerSslInit_some {config : PeerConfig}
    (done : (ocTlsPeerSslInit device library role endpoint verify
      selections).2 = some config) :
    config.verify = verify ∧ ∃ loadedChain,
      config.ciphers = selectPriority device role endpoint loadedChain
        selections.ciphers := by
  have sameCiphers := @ocTlsPopulateSslConfig_ciphers device library role
    selections
  unfold ocTlsPeerSslInit at done
  rcases populated : ocTlsPopulateSslConfig device library role
    selections with ⟨left, _ | psk⟩
  · rw [populated] at done
    cases done
  · rw [populated] at done sameCiphers
    simp only [ocTlsSetCiphersuites] at done
    split_ifs at done
    obtain rfl := Option.some.inj done
    rw [← sameCiphers]
    exact ⟨rfl, _, rfl⟩

theorem ocTlsAddNewPeer_some
    (added : (ocTlsAddNewPeer device library peers role endpoint verify
      selections).2 = some peer) :
    peer.role = role ∧ peer.dos = device.dos ∧
      peer.config.verify = verify ∧ ∃ loadedChain,
        peer.config.ciphers = selectPriority device role endpoint loadedChain
          selections.ciphers := by
  unfold ocTlsAddNewPeer at added
  split_ifs at added
  obtain ⟨config, done, rfl⟩ := Option.map_eq_some_iff.mp added
  exact ⟨rfl, rfl, ocTlsPeerSslInit_some done⟩

theorem ocTlsAddOrGetPeer_some
    (added : (ocTlsAddOrGetPeer device library peers role endpoint
      selections).2 = some peer) :
    (ocTlsAddNewPeer device library peers role endpoint
      (ocTlsPeerPkiDefaultVerificationParams selections) selections).2 =
        some peer := by
  unfold ocTlsAddOrGetPeer at added
  split at added
  · cases added
  · exact added

theorem authenticates_of_server
    (added : (ocTlsAddOrGetPeer device library peers .server endpoint
      Selections.cleared).2 = some peer) (owned : peer.dos ≠ .rfotm) :
    .ecdhAnonWithAes128CbcSha256 ∉ peer.config.ciphers.suites ∧
      peer.config.verify = .manufacturerOrIdentity := by
  obtain ⟨_, sameDos, verifies, loadedChain, ciphers⟩ :=
    ocTlsAddNewPeer_some (ocTlsAddOrGetPeer_some added)
  rw [sameDos] at owned
  have defaults : peer.config.ciphers = .default := by
    rw [ciphers]
    unfold selectPriority
    rw [if_neg (fun both => owned both.2)]
    rfl
  refine ⟨?_, verifies⟩
  rw [defaults]
  decide

theorem handleConnection_connect_some {via : ConnectVia}
    (added : (handleConnection peers selections
      (.connect via endpoint device library)).2.2 = some peer) :
    peer.role = .client := by
  simp only [handleConnection] at added
  cases looked : connectPeers via device peers endpoint with
  | none => simp [looked] at added
  | some rest =>
      rw [looked] at added
      dsimp only at added
      split_ifs at added
      · exact (ocTlsAddNewPeer_some added).1
      · exact (ocTlsAddNewPeer_some (ocTlsAddOrGetPeer_some added)).1

end Server

theorem TlsConfigState.serversAuthenticate_add {selections : Selections}
    {peers : List ConfiguredPeer} {new : Option ConfiguredPeer}
    (before : state.ServersAuthenticate)
    (newOk : ∀ peer, new = some peer → peer.role = .server →
      peer.dos ≠ .rfotm →
        .ecdhAnonWithAes128CbcSha256 ∉ peer.config.ciphers.suites ∧
          peer.config.verify = .manufacturerOrIdentity) :
    (state.add selections peers new).ServersAuthenticate := by
  intro peer member
  rcases List.mem_append.mp member with old | fresh
  · exact before peer old
  · exact newOk peer (Option.mem_toList.mp fresh)

theorem TlsConfigState.serversAuthenticate_isolatedStep
    (state : TlsConfigState) (event : TlsConfigEvent)
    (before : state.ServersAuthenticate) :
    (state.isolatedStep event).ServersAuthenticate := by
  cases event with
  | select call =>
      apply TlsConfigState.serversAuthenticate_add before
      intro peer impossible
      cases impossible
  | close endpoint =>
      apply TlsConfigState.serversAuthenticate_add before
      intro peer impossible
      cases impossible
  | accept endpoint device library =>
      apply TlsConfigState.serversAuthenticate_add before
      intro peer added _ owned
      exact authenticates_of_server added owned
  | connect via endpoint device library =>
      apply TlsConfigState.serversAuthenticate_add before
      intro peer added server
      rw [handleConnection_connect_some added] at server
      cases server

/-- In every run of selections and connections whose steps are all
undisturbed, peers are configured in isolation. -/
theorem configIsolated_of_undisturbed (events : List TlsConfigEvent)
    (along : Along TlsConfigState.step Undisturbed TlsConfigState.initial
      events) : ConfigIsolated events := by
  have isolated := Along.runFrom_congr along fun _ _ => step_eq_isolatedStep
  refine ⟨isolated, ?_⟩
  rw [isolated]
  apply invariant_runFrom
  · intro peer member
    cases member
  · exact TlsConfigState.serversAuthenticate_isolatedStep

namespace ConfigIsolation

def stranger : OcEndpoint := ⟨0, true, 1, 0, Uuid.nil⟩

def target : OcEndpoint := ⟨0, true, 2, 0, Uuid.nil⟩

/-- An owned device in normal operation. -/
def device : DeviceTls := ⟨.rfnop, 0, true, [], []⟩

def library : LibraryResults := ⟨true, true, true, fun _ => true, true, true⟩

end ConfigIsolation

open ConfigIsolation in
/-- A stranger that connects first is offered the anonymous ciphersuite, or is
verified like a cloud, and the outgoing connection is configured without its
selection. -/
theorem not_configIsolated :
    ¬ ConfigIsolated [.select .anonCiphersuite,
        .accept stranger device library,
        .connect .message target device library] ∧
      ¬ ConfigIsolated [.select .cloudCiphersuite,
        .accept stranger device library] := by
  constructor
  · rintro ⟨_, servers⟩
    have anonymous := (servers _ List.mem_cons_self (by decide)
      (by decide)).1
    exact anonymous (by decide)
  · rintro ⟨_, servers⟩
    have cloud := (servers _ List.mem_cons_self (by decide) (by decide)).2
    exact absurd cloud (by decide)

open ConfigIsolation in
theorem configIsolated_in_order :
    ConfigIsolated [.select .anonCiphersuite,
      .connect .message target device library,
      .accept stranger device library] := by
  apply configIsolated_of_undisturbed
  refine ⟨trivial, .inr ⟨[], by decide, .inr (by decide), by decide⟩, ?_,
    trivial⟩
  intro _
  decide

end IotivityLite
