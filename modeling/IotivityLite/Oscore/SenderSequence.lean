import IotivityLite.Foundation.Run
import IotivityLite.Oscore.PartialIv

/-!
# Sender sequence numbers over restarts

The sequence number of one sender context through sends, loads, dumps and
restarts: `oc_oscore_send_message` and `oc_oscore_send_multicast_message` of
`oc_oscore_engine.c`, `oc_oscore_add_context` of `oc_oscore_context.c` and the
delayed `dump_cred`.  A restart loses the memory and keeps the storage.
-/

namespace IotivityLite

def oscoreSsnWriteFreqK : Nat := 32
def oscoreSsnPadF : Nat := oscoreSsnWriteFreqK * 4

/-- What `oc_oscore_send_message` looks at before it takes a sequence number:
requests leave the device only in RFNOP and need a client callback, signals
need none, and a response is protected when its request was. -/
inductive Outgoing where
  | request (inRfnop callbackFound : Bool)
  | signal (inRfnop : Bool)
  | response (requestProtected : Bool)
  deriving DecidableEq

inductive SenderEvent where
  | send (message : Outgoing)
  | multicast
  | dump
  | restart
  | load
  deriving DecidableEq

/-- `ssn` is absent while no context is in memory, `stored` while none is in
the storage.  `used` lists the numbers of the protected messages, the latest
first.  `unsaved` counts the numbers taken since the last dump, `reloaded`
tells that the context was loaded since then. -/
structure SenderState where
  ssn : Option Nat
  stored : Option Nat
  dumpScheduled : Bool
  used : List Nat
  unsaved : Nat
  reloaded : Bool
  deriving DecidableEq

namespace SenderState

/-- A context that was just provisioned: the handler of the credential
resource dumps it. -/
def provisioned : SenderState := ⟨some 0, some 0, false, [], 0, false⟩

/-- `ssn++` after the number was read. -/
def takeSsn (state : SenderState) (ssn : Nat) (isProtected : Bool) :
    SenderState :=
  { state with
    ssn := some ((ssn + 1) % 2 ^ 64)
    used := if isProtected then ssn :: state.used else state.used
    unsaved := state.unsaved + 1 }

def scheduleDump (state : SenderState) : SenderState :=
  if state.ssn.any (· % oscoreSsnWriteFreqK == 0) then
    { state with dumpScheduled := true }
  else state

def ocOscoreSendMessage (state : SenderState) (message : Outgoing) :
    SenderState :=
  match state.ssn with
  | none => state
  | some ssn =>
      match message with
      | .request false _ => state
      -- The number is gone although no message leaves the device.
      | .request true false => state.takeSsn ssn false
      | .request true true => (state.takeSsn ssn true).scheduleDump
      | .signal false => state
      | .signal true => (state.takeSsn ssn true).scheduleDump
      | .response false => state
      | .response true => (state.takeSsn ssn true).scheduleDump

def ocOscoreSendMulticastMessage (state : SenderState) : SenderState :=
  match state.ssn with
  | none => state
  | some ssn => state.takeSsn ssn true

/-- `oc_oscore_add_context` with `from_storage`. -/
def resumeSsn (stored : Nat) : Nat :=
  (stored + (oscoreSsnWriteFreqK + oscoreSsnPadF)) % 2 ^ 64

def handle (state : SenderState) : SenderEvent → SenderState
  | .send message => state.ocOscoreSendMessage message
  | .multicast => state.ocOscoreSendMulticastMessage
  | .dump =>
      { state with
        stored := state.ssn, dumpScheduled := false, unsaved := 0,
        reloaded := false }
  | .restart => { state with ssn := none, dumpScheduled := false }
  | .load =>
      match state.stored with
      | none => state
      | some stored =>
          { state with
            ssn := some (resumeSsn stored), dumpScheduled := true,
            reloaded := true }

end SenderState

/-- The event takes a sequence number if a context is there. -/
def SenderEvent.takesSsn : SenderEvent → Bool
  | .send (.request inRfnop _) => inRfnop
  | .send (.signal inRfnop) => inRfnop
  | .send (.response requestProtected) => requestProtected
  | .multicast => true
  | _ => false

namespace SenderState

/-- The condition on one step: no number is taken between a load and the dump
that it schedules, at most 159 are taken between two dumps, and none beyond
the Partial IVs.  A dumped number leaves room for the jump of the next
load. -/
structure SavedInTime (state : SenderState) (event : SenderEvent) : Prop where
  taken : event.takesSsn = true → ∀ ssn ∈ state.ssn,
    state.reloaded = false ∧ state.unsaved < 159 ∧ ssn < 2 ^ 40
  room : event = .dump → ∀ ssn ∈ state.ssn, ssn + 160 < 2 ^ 64

instance (state : SenderState) (event : SenderEvent) :
    Decidable (state.SavedInTime event) :=
  decidable_of_iff
    ((event.takesSsn = true → ∀ ssn ∈ state.ssn,
        state.reloaded = false ∧ state.unsaved < 159 ∧ ssn < 2 ^ 40) ∧
      (event = .dump → ∀ ssn ∈ state.ssn, ssn + 160 < 2 ^ 64))
    ⟨fun both => ⟨both.1, both.2⟩, fun inTime => ⟨inTime.taken, inTime.room⟩⟩

section Event

variable {state : SenderState} {event : SenderEvent} {ssn : Nat}

private theorem scheduleDump_eq (state : SenderState) :
    ∃ scheduled,
      state.scheduleDump = { state with dumpScheduled := scheduled } := by
  unfold scheduleDump
  split_ifs
  · exact ⟨true, rfl⟩
  · exact ⟨state.dumpScheduled, rfl⟩

theorem handle_of_takesSsn (takes : event.takesSsn = true)
    (loaded : state.ssn = some ssn) :
    ∃ isProtected scheduled, state.handle event =
      { state.takeSsn ssn isProtected with dumpScheduled := scheduled } := by
  cases event with
  | send message =>
      simp only [handle, ocOscoreSendMessage, loaded]
      cases message with
      | request inRfnop callbackFound =>
          obtain rfl : inRfnop = true := takes
          cases callbackFound with
          | false => exact ⟨false, state.dumpScheduled, rfl⟩
          | true => exact ⟨true, scheduleDump_eq _⟩
      | signal inRfnop =>
          obtain rfl : inRfnop = true := takes
          exact ⟨true, scheduleDump_eq _⟩
      | response requestProtected =>
          obtain rfl : requestProtected = true := takes
          exact ⟨true, scheduleDump_eq _⟩
  | multicast =>
      simp only [handle, ocOscoreSendMulticastMessage, loaded]
      exact ⟨true, state.dumpScheduled, rfl⟩
  | dump => cases takes
  | restart => cases takes
  | load => cases takes

theorem handle_cases (state : SenderState) (event : SenderEvent) :
    state.handle event = state ∨
    (∃ ssn isProtected scheduled, event.takesSsn = true ∧
      state.ssn = some ssn ∧ state.handle event =
        { state.takeSsn ssn isProtected with dumpScheduled := scheduled }) ∨
    event = .dump ∨ event = .restart ∨
    (∃ stored, event = .load ∧ state.stored = some stored) := by
  by_cases takes : event.takesSsn = true
  · cases loaded : state.ssn with
    | some ssn =>
        obtain ⟨isProtected, scheduled, after⟩ :=
          handle_of_takesSsn takes loaded
        exact .inr (.inl ⟨ssn, isProtected, scheduled, takes, rfl, after⟩)
    | none =>
        left
        cases event with
        | send message => simp [handle, ocOscoreSendMessage, loaded]
        | multicast => simp [handle, ocOscoreSendMulticastMessage, loaded]
        | dump => cases takes
        | restart => cases takes
        | load => cases takes
  · cases event with
    | send message =>
        left
        simp only [handle, ocOscoreSendMessage]
        cases state.ssn with
        | none => rfl
        | some ssn =>
            cases message <;> simp_all [SenderEvent.takesSsn]
    | multicast => exact absurd rfl takes
    | dump => exact .inr (.inr (.inl rfl))
    | restart => exact .inr (.inr (.inr (.inl rfl)))
    | load =>
        cases saved : state.stored with
        | none => exact .inl (by simp [handle, saved])
        | some stored =>
            exact .inr (.inr (.inr (.inr ⟨stored, rfl, rfl⟩)))

end Event

/-- The invariant.  Between a load and its dump the number in memory is the
one a restart would resume from; after the dump it is ahead of the stored one
by the numbers taken since. -/
structure Fresh (state : SenderState) : Prop where
  distinct : state.used.Nodup
  small : ∀ number ∈ state.used, number < 2 ^ 40
  below : ∀ stored ∈ state.stored,
    stored + 160 < 2 ^ 64 ∧ ∀ number ∈ state.used, number < stored + 160
  live : ∀ ssn ∈ state.ssn, (∀ number ∈ state.used, number < ssn) ∧
    ∃ stored ∈ state.stored,
      (state.reloaded = true → ssn = stored + 160) ∧
      (state.reloaded = false →
        ssn = stored + state.unsaved ∧ state.unsaved ≤ 159)

theorem fresh_provisioned : provisioned.Fresh := by
  refine ⟨List.nodup_nil, by simp [provisioned], ?_, ?_⟩
  · simp [provisioned]
  · simp [provisioned]

section Freshness

variable {state : SenderState} {event : SenderEvent} {ssn : Nat}

theorem Fresh.takeSsn {isProtected scheduled : Bool} (fresh : state.Fresh)
    (loaded : state.ssn = some ssn) (dumped : state.reloaded = false)
    (few : state.unsaved < 159) (fits : ssn < 2 ^ 40) :
    Fresh { state.takeSsn ssn isProtected with
      dumpScheduled := scheduled } := by
  obtain ⟨above, stored, saved, -, ahead⟩ := fresh.live ssn loaded
  obtain ⟨here, -⟩ := ahead dumped
  have used : ∀ number ∈ (state.takeSsn ssn isProtected).used,
      number = ssn ∨ number ∈ state.used := by
    intro number member
    cases isProtected with
    | true => simpa [SenderState.takeSsn] using member
    | false => exact .inr (by simpa [SenderState.takeSsn] using member)
  have next : (ssn + 1) % 2 ^ 64 = ssn + 1 := Nat.mod_eq_of_lt (by omega)
  refine ⟨?_, ?_, ?_, ?_⟩
  · cases isProtected with
    | false => exact fresh.distinct
    | true =>
        refine List.nodup_cons.mpr ⟨?_, fresh.distinct⟩
        intro again
        exact absurd (above ssn again) (Nat.lt_irrefl ssn)
  · intro number member
    rcases used number member with rfl | earlier
    · exact fits
    · exact fresh.small number earlier
  · intro other present
    obtain rfl : stored = other := by
      have both := saved.symm.trans present
      exact Option.some.inj both
    refine ⟨(fresh.below stored saved).1, ?_⟩
    intro number member
    rcases used number member with rfl | earlier
    · omega
    · exact (fresh.below stored saved).2 number earlier
  · intro other present
    obtain rfl : (ssn + 1) % 2 ^ 64 = other := Option.some.inj present
    rw [next]
    refine ⟨?_, stored, saved, ?_, ?_⟩
    · intro number member
      rcases used number member with rfl | earlier
      · exact Nat.lt_succ_self number
      · exact Nat.lt_succ_of_lt (above number earlier)
    · intro reloaded
      exact absurd (dumped.symm.trans reloaded) (by decide)
    · intro _
      exact ⟨by simp only [SenderState.takeSsn]; omega,
        by simp only [SenderState.takeSsn]; omega⟩

theorem Fresh.dump (fresh : state.Fresh)
    (room : ∀ ssn ∈ state.ssn, ssn + 160 < 2 ^ 64) :
    (state.handle .dump).Fresh := by
  refine ⟨fresh.distinct, fresh.small, ?_, ?_⟩
  · intro stored saved
    refine ⟨room stored saved, ?_⟩
    intro number member
    have smaller := (fresh.live stored saved).1 number member
    omega
  · intro ssn loaded
    refine ⟨(fresh.live ssn loaded).1, ssn, loaded, ?_, ?_⟩
    · intro reloaded
      cases reloaded
    · intro _
      exact ⟨rfl, Nat.zero_le _⟩

theorem Fresh.restart (fresh : state.Fresh) :
    (state.handle .restart).Fresh := by
  refine ⟨fresh.distinct, fresh.small, fresh.below, ?_⟩
  intro ssn loaded
  cases loaded

theorem resumeSsn_eq {stored : Nat} (room : stored + 160 < 2 ^ 64) :
    resumeSsn stored = stored + 160 :=
  Nat.mod_eq_of_lt room

theorem Fresh.load {stored : Nat} (fresh : state.Fresh)
    (saved : state.stored = some stored) : (state.handle .load).Fresh := by
  obtain ⟨room, above⟩ := fresh.below stored saved
  simp only [handle, saved]
  refine ⟨fresh.distinct, fresh.small, ?_, ?_⟩
  · intro other present
    exact fresh.below other (saved.trans present)
  · intro ssn loaded
    obtain rfl : resumeSsn stored = ssn := Option.some.inj loaded
    rw [resumeSsn_eq room]
    refine ⟨above, stored, rfl, fun _ => rfl, ?_⟩
    intro reloaded
    cases reloaded

theorem Fresh.handle (fresh : state.Fresh)
    (inTime : state.SavedInTime event) : (state.handle event).Fresh := by
  rcases handle_cases state event with
    same | ⟨ssn, isProtected, scheduled, takes, loaded, after⟩ | rfl | rfl |
      ⟨stored, rfl, saved⟩
  · rw [same]
    exact fresh
  · obtain ⟨dumped, few, fits⟩ := inTime.taken takes ssn loaded
    rw [after]
    exact fresh.takeSsn loaded dumped few fits
  · exact fresh.dump (inTime.room rfl)
  · exact fresh.restart
  · exact fresh.load saved

end Freshness

end SenderState

section Runs

open SenderState

variable {events : List SenderEvent} {id civ : Bytes}

theorem fresh_of_savedInTime
    (along : Along handle SavedInTime provisioned events) :
    (runFrom handle provisioned events).Fresh :=
  along.invariant fresh_provisioned fun _ _ fresh inTime =>
    fresh.handle inTime

/-- The number in memory is smaller than the one that a restart would resume
from. -/
def SenderState.Ahead (state : SenderState) : Prop :=
  ∀ stored ∈ state.stored, ∀ ssn ∈ state.ssn, ssn < resumeSsn stored

/-- A context in memory that was loaded has been dumped since. -/
def SenderState.LoadDumped (state : SenderState) : Prop :=
  state.ssn ≠ none → state.reloaded = false

theorem SenderState.Fresh.ahead_iff {state : SenderState}
    (fresh : state.Fresh) : state.Ahead ↔ state.LoadDumped := by
  constructor
  · intro ahead loaded
    obtain ⟨ssn, present⟩ := Option.ne_none_iff_exists'.mp loaded
    obtain ⟨-, stored, saved, resumed, -⟩ := fresh.live ssn present
    have smaller := ahead stored saved ssn present
    rw [resumeSsn_eq (fresh.below stored saved).1] at smaller
    rw [← Bool.not_eq_true]
    intro reloaded
    have here := resumed reloaded
    omega
  · intro dumped stored saved ssn present
    obtain ⟨-, other, there, -, ahead⟩ := fresh.live ssn present
    obtain rfl : stored = other := Option.some.inj (saved.symm.trans there)
    rw [resumeSsn_eq (fresh.below stored saved).1]
    obtain ⟨here, few⟩ := ahead (dumped (by rw [present]; simp))
    omega

/-- In every run that saves in time no two protected messages share a sequence
number or a nonce, and every used number is below the one a restart resumes
from.  The number in memory is below it exactly in the states whose load has
been dumped. -/
theorem used_nodup_of_savedInTime (idShort : id.length ≤ oscoreCtxidLen)
    (civLength : civ.length = oscoreAeadNonceLen)
    (along : Along handle SavedInTime provisioned events) :
    let last := runFrom handle provisioned events
    last.used.Nodup ∧
    (last.used.map fun ssn =>
      ocOscoreAEADNonce id (oscoreStorePiv ssn) civ).Nodup ∧
    (∀ stored ∈ last.stored, ∀ ssn ∈ last.used, ssn < resumeSsn stored) ∧
    (last.Ahead ↔ last.LoadDumped) := by
  intro last
  have fresh : last.Fresh := fresh_of_savedInTime along
  refine ⟨fresh.distinct, ?_, ?_, fresh.ahead_iff⟩
  · refine fresh.distinct.map_on ?_
    intro left leftUsed right rightUsed same
    exact ocOscoreAEADNonce_injective idShort civLength
      (fresh.small left leftUsed) (fresh.small right rightUsed) same
  · intro stored saved
    obtain ⟨room, above⟩ := fresh.below stored saved
    rw [resumeSsn_eq room]
    exact above

/-- A run over a restart that saves in time. -/
theorem used_nodup_restart :
    Along handle SavedInTime provisioned
      [.send (.request true true), .multicast, .restart, .load, .dump,
        .send (.response true)] ∧
    (runFrom handle provisioned
      [.send (.request true true), .multicast, .restart, .load, .dump,
        .send (.response true)]).used = [160, 1, 0] ∧
    ((runFrom handle provisioned
      [.send (.request true true), .multicast, .restart, .load, .dump,
        .send (.response true)]).used.map fun ssn =>
      ocOscoreAEADNonce [1] (oscoreStorePiv ssn)
        (List.replicate 13 7)).Nodup :=
  ⟨by decide +kernel, by decide +kernel,
    (used_nodup_of_savedInTime (by decide) (by decide)
      (by decide +kernel)).2.1⟩

/-- Two restarts without a dump in between resume from the same number, and
multicasts never schedule the dump that the jump relies on. -/
theorem used_again :
    (runFrom handle provisioned
      [.restart, .load, .send (.request true true),
        .restart, .load, .send (.request true true)]).used = [160, 160] ∧
    ¬ (runFrom handle provisioned
      (List.replicate 161 .multicast ++
        [.restart, .load, .multicast])).used.Nodup := by
  refine ⟨by decide +kernel, ?_⟩
  intro distinct
  have twice : (runFrom handle provisioned
      (List.replicate 161 .multicast ++
        [.restart, .load, .multicast])).used.count 160 = 2 := by
    decide +kernel
  have once := List.nodup_iff_count_le_one.mp distinct 160
  omega

end Runs

section Prompt

open SenderState

/-- Unicast messages only, each one answered for and sent when no dump is
outstanding. -/
structure SenderState.Prompt (state : SenderState) (event : SenderEvent) :
    Prop where
  unicast : event ≠ .multicast
  found : event ≠ .send (.request true false)
  idle : event.takesSsn = true → state.dumpScheduled = false
  small : event.takesSsn = true → ∀ ssn ∈ state.ssn, ssn < 2 ^ 40
  room : event = .dump → ∀ ssn ∈ state.ssn, ssn + 160 < 2 ^ 64

/-- While no dump is outstanding no multiple of 32 was reached since the last
one. -/
def SenderState.Settled (state : SenderState) : Prop :=
  ∀ ssn ∈ state.ssn, state.dumpScheduled = false →
    state.reloaded = false ∧ state.unsaved ≤ ssn % 32

variable {state : SenderState} {event : SenderEvent} {ssn : Nat}

private theorem handle_of_prompt (prompt : state.Prompt event)
    (takes : event.takesSsn = true) (loaded : state.ssn = some ssn) :
    state.handle event = (state.takeSsn ssn true).scheduleDump := by
  cases event with
  | send message =>
      simp only [handle, ocOscoreSendMessage, loaded]
      cases message with
      | request inRfnop callbackFound =>
          obtain rfl : inRfnop = true := takes
          cases callbackFound with
          | false => exact absurd rfl prompt.found
          | true => rfl
      | signal inRfnop =>
          obtain rfl : inRfnop = true := takes
          rfl
      | response requestProtected =>
          obtain rfl : requestProtected = true := takes
          rfl
  | multicast => exact absurd rfl prompt.unicast
  | dump => cases takes
  | restart => cases takes
  | load => cases takes

theorem SenderState.Settled.handle (settled : state.Settled)
    (prompt : state.Prompt event) : (state.handle event).Settled := by
  rcases handle_cases state event with
    same | ⟨ssn, isProtected, scheduled, takes, loaded, -⟩ | rfl | rfl |
      ⟨stored, rfl, saved⟩
  · rw [same]
    exact settled
  · have fits := prompt.small takes ssn loaded
    have next : (ssn + 1) % 2 ^ 64 = ssn + 1 := Nat.mod_eq_of_lt (by omega)
    obtain ⟨dumped, few⟩ := settled ssn loaded (prompt.idle takes)
    rw [handle_of_prompt prompt takes loaded]
    intro other present idle
    unfold scheduleDump at present idle ⊢
    simp only [SenderState.takeSsn, Option.any_some, next,
      oscoreSsnWriteFreqK] at present idle ⊢
    split_ifs at present idle ⊢ with multiple
    obtain rfl : ssn + 1 = other := Option.some.inj present
    refine ⟨dumped, ?_⟩
    simp only [beq_iff_eq] at multiple
    show state.unsaved + 1 ≤ (ssn + 1) % 32
    omega
  · intro ssn loaded _
    exact ⟨rfl, Nat.zero_le _⟩
  · intro ssn loaded
    cases loaded
  · simp only [SenderState.handle, saved]
    intro ssn loaded idle
    cases idle

/-- It is enough to wait for a dump that is scheduled before the next message
is sent. -/
theorem used_nodup_of_prompt {events : List SenderEvent}
    (prompt : Along handle Prompt provisioned events) :
    (runFrom handle provisioned events).used.Nodup := by
  have start : provisioned.Settled := by
    intro ssn loaded _
    exact ⟨rfl, Nat.zero_le _⟩
  refine (fresh_of_savedInTime (prompt.imp start ?_ ?_)).distinct
  · intro before event settled here
    exact settled.handle here
  · intro before event settled here
    refine ⟨?_, here.room⟩
    intro takes ssn loaded
    obtain ⟨dumped, few⟩ := settled ssn loaded (here.idle takes)
    exact ⟨dumped, by omega, here.small takes ssn loaded⟩

/-- Two messages, a restart that loses the numbers, and a third message. -/
theorem used_nodup_of_prompt_restart :
    (runFrom handle provisioned [.send (.request true true),
        .send (.response true), .restart, .load, .dump,
        .send (.signal true)]).used = [160, 1, 0] ∧
      [160, 1, 0].Nodup := by
  refine ⟨rfl, @used_nodup_of_prompt [.send (.request true true),
    .send (.response true), .restart, .load, .dump, .send (.signal true)] ?_⟩
  refine ⟨?_, ?_, ?_, ?_, ?_, ?_, trivial⟩
  all_goals exact ⟨by decide, by decide, by decide, by decide, by decide⟩

end Prompt

end IotivityLite
