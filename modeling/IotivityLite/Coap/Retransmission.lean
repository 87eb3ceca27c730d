import IotivityLite.Coap.Engine

/-!
# Retransmission of confirmable messages

`coap_send_transaction` is both the first sending of a message and every later
one.  `coap_check_transactions` counts an expiration of the timer before it
sends again, and the count is compared before the message is sent, so the
expiration that is counted as the last allowed one already ends the
transaction: the message is repeated once less than `COAP_MAX_RETRANSMIT` says.
-/

namespace IotivityLite

/-- `coap_transaction_t`: `firstByte` is the first byte of its message and
`expired` what `oc_etimer_expired` answers; it also does before the timer is
first started. -/
structure CoapTransaction where
  mid : UInt16
  firstByte : UInt8
  peer : Peer
  retransCounter : UInt8
  interval : UInt64
  expired : Bool
  deriving DecidableEq

/-- `CLOCKS_PER_SEC` -/
def ocClockSecond : UInt64 := 1000000

def coapResponseTimeoutTicks : UInt64 := ocClockSecond * 2

/-- The half of the timeout, and one. -/
def coapResponseTimeoutBackoffMask : UInt64 := ocClockSecond + 1

def initialInterval (random : UInt32) : UInt64 :=
  coapResponseTimeoutTicks + random.toUInt64 % coapResponseTimeoutBackoffMask

/-- How `coap_send_transaction` goes on. -/
inductive SendOutcome where
  /-- The stack is not initialized. -/
  | refused
  /-- The message is sent and the transaction cleared. -/
  | unconfirmed
  /-- The message is sent and its timer started. -/
  | kept (transaction : CoapTransaction)
  | timedOut

namespace CoapTransaction

def coapNewTransaction (mid : UInt16) (firstByte : UInt8) (peer : Peer) :
    CoapTransaction :=
  ⟨mid, firstByte, peer, 0, 0, true⟩

def confirmable (transaction : CoapTransaction) : Bool :=
  (transaction.firstByte &&& 0x30) >>> 4 == 0 && !transaction.peer.tcp

def nextInterval (transaction : CoapTransaction) (random : UInt32) : UInt64 :=
  if transaction.retransCounter = 0 then initialInterval random
  else transaction.interval <<< 1

def coapSendTransaction (initialized : Bool) (random : UInt32)
    (transaction : CoapTransaction) : SendOutcome :=
  if !initialized then .refused
  else if !transaction.confirmable then .unconfirmed
  else if transaction.retransCounter.toNat < coapMaxRetransmit then
    .kept { transaction with
      interval := transaction.nextInterval random
      expired := false }
  else .timedOut

/-- `coap_check_transactions` counts before it sends. -/
def counted (transaction : CoapTransaction) : CoapTransaction :=
  { transaction with
    retransCounter := transaction.retransCounter + 1
    expired := true }

end CoapTransaction

/-- What is told of a timeout: `coap_remove_observers_by_client`,
`oc_ri_free_client_cbs_by_mid_v1` and `oc_blockwise_free_all_buffers`. -/
inductive TimeoutNotice where
  | observers
  | clientCbs (mid : UInt16)
  | blockwise
  deriving DecidableEq

def timeoutNotices (mid : UInt16) : List TimeoutNotice :=
  [.observers, .clientCbs mid, .blockwise]

/-- A transaction until it is cleared, with the timeouts that were set with its
transmissions, if any. -/
structure TransactionRun where
  transaction : Option CoapTransaction
  transmissions : List (Option UInt64)
  notices : List TimeoutNotice
  cleared : Nat
  deriving DecidableEq

/-- The timer expires, or a message with the id of the transaction comes in.
`peer` tells if there is a peer for `oc_tls_close_connection`: only then the
transactions of a secured endpoint are cleared. -/
inductive TransactionEvent where
  | expiration (random : UInt32) (peer : Bool)
  | acknowledgement

namespace TransactionRun

def clear (run : TransactionRun) : TransactionRun :=
  { run with transaction := none, cleared := run.cleared + 1 }

def send (run : TransactionRun) (initialized : Bool) (random : UInt32)
    (peer : Bool) (transaction : CoapTransaction) : TransactionRun :=
  match transaction.coapSendTransaction initialized random with
  | .refused => { run with transaction := some transaction }
  | .unconfirmed =>
      clear { run with transmissions := run.transmissions ++ [none] }
  | .kept kept =>
      { run with
        transaction := some kept
        transmissions := run.transmissions ++ [some kept.interval] }
  | .timedOut =>
      let told := { run with
        transaction := some transaction
        notices := run.notices ++ timeoutNotices transaction.mid }
      if transaction.peer.endpoint.secured && !peer then told else told.clear

def step (initialized : Bool) (run : TransactionRun) :
    TransactionEvent → TransactionRun
  | .expiration random peer =>
      match run.transaction with
      | none => run
      | some transaction =>
          run.send initialized random peer transaction.counted
  | .acknowledgement =>
      match run.transaction with
      | none => run
      | some _ => run.clear

/-- A new transaction is sent, and then the events happen. -/
def ofEvents (initialized : Bool) (random : UInt32)
    (transaction : CoapTransaction) (events : List TransactionEvent) :
    TransactionRun :=
  runFrom (step initialized)
    (send ⟨none, [], [], 0⟩ initialized random false transaction) events

end TransactionRun

namespace TransactionEvent

/-- The number of expirations before the acknowledgement. -/
def expirations : List TransactionEvent → Nat
  | [] => 0
  | .acknowledgement :: _ => 0
  | .expiration _ _ :: events => expirations events + 1

def isAcknowledgement : TransactionEvent → Bool
  | .acknowledgement => true
  | .expiration _ _ => false

end TransactionEvent

/-- What should have happened after a number of expirations: the message was
sent once, and again for each of the first `COAP_MAX_RETRANSMIT` expirations,
with a timeout twice the previous one; the next expiration ended it. -/
structure FollowsSchedule (run : TransactionRun) (mid : UInt16)
    (initial : UInt64) (expirations : Nat) (acknowledged : Bool) : Prop where
  transmissions : run.transmissions.map (Option.map UInt64.toNat) =
    (List.range (min expirations coapMaxRetransmit + 1)).map fun attempt =>
      some (initial.toNat * 2 ^ attempt)
  notices : run.notices =
    if coapMaxRetransmit < expirations then timeoutNotices mid else []
  cleared : run.cleared =
    if acknowledged ∨ coapMaxRetransmit < expirations then 1 else 0

variable (random : UInt32)

theorem toNat_initialInterval_le :
    (initialInterval random).toNat ≤ 3000000 := by
  have timeout : coapResponseTimeoutTicks.toNat = 2000000 := rfl
  have mask : coapResponseTimeoutBackoffMask.toNat = 1000001 := rfl
  have small : random.toUInt64.toNat % 1000001 < 1000001 :=
    Nat.mod_lt _ (by decide)
  rw [initialInterval, UInt64.toNat_add, UInt64.toNat_mod, timeout, mask]
  omega

/-- The timeout that is set with an attempt. -/
def attemptInterval (random : UInt32) (attempt : Nat) : UInt64 :=
  UInt64.ofNat ((initialInterval random).toNat * 2 ^ attempt)

theorem attemptInterval_zero :
    attemptInterval random 0 = initialInterval random := by
  simp [attemptInterval]

theorem attemptInterval_succ (attempt : Nat) :
    attemptInterval random (attempt + 1) =
      attemptInterval random attempt <<< 1 := by
  apply UInt64.toNat_inj.mp
  rw [UInt64.toNat_shiftLeft, attemptInterval, attemptInterval,
    UInt64.toNat_ofNat', UInt64.toNat_ofNat', Nat.pow_succ, ← Nat.mul_assoc]
  change _ = ((_ % 2 ^ 64) <<< 1) % 2 ^ 64
  rw [Nat.shiftLeft_eq, pow_one, Nat.mod_mul_mod]

theorem toNat_attemptInterval {attempt : Nat} (few : attempt ≤ 4) :
    (attemptInterval random attempt).toNat =
      (initialInterval random).toNat * 2 ^ attempt := by
  apply UInt64.toNat_ofNat_of_lt'
  calc (initialInterval random).toNat * 2 ^ attempt
      ≤ 3000000 * 2 ^ 4 := by
        apply Nat.mul_le_mul (toNat_initialInterval_le random)
        exact Nat.pow_le_pow_right (by decide) few
    _ < UInt64.size := by decide

namespace CoapTransaction

variable {transaction : CoapTransaction}

theorem send_of_lt (confirmable : transaction.confirmable = true)
    (few : transaction.retransCounter.toNat < coapMaxRetransmit)
    (random : UInt32) :
    transaction.coapSendTransaction true random =
      .kept { transaction with
        interval := transaction.nextInterval random
        expired := false } := by
  rw [coapSendTransaction, confirmable, if_pos few]
  rfl

theorem send_of_le (confirmable : transaction.confirmable = true)
    (many : coapMaxRetransmit ≤ transaction.retransCounter.toNat)
    (random : UInt32) :
    transaction.coapSendTransaction true random = .timedOut := by
  rw [coapSendTransaction, confirmable, if_neg (Nat.not_lt.mpr many)]
  rfl

/-- The transaction with the timer of an attempt. -/
def attempt (transaction : CoapTransaction) (random : UInt32)
    (expirations : Nat) : CoapTransaction :=
  { transaction with
    retransCounter := UInt8.ofNat expirations
    interval := attemptInterval random expirations
    expired := false }

theorem toNat_counted_attempt (transaction : CoapTransaction)
    (random : UInt32) {expirations : Nat}
    (few : expirations < coapMaxRetransmit) :
    (transaction.attempt random expirations).counted.retransCounter.toNat =
      expirations + 1 := by
  have max : coapMaxRetransmit = 4 := rfl
  simp [counted, attempt]
  omega

theorem counted_attempt_next (transaction : CoapTransaction)
    (random again : UInt32) {expirations : Nat}
    (few : expirations < coapMaxRetransmit) :
    { (transaction.attempt random expirations).counted with
      interval := (transaction.attempt random expirations).counted.nextInterval
        again
      expired := false } =
      transaction.attempt random (expirations + 1) := by
  have repeated :
      (transaction.attempt random expirations).counted.retransCounter ≠ 0 := by
    intro zero
    have counter := toNat_counted_attempt transaction random few
    rw [zero] at counter
    simp at counter
  rw [nextInterval, if_neg repeated]
  simp [counted, attempt, attemptInterval_succ]

end CoapTransaction

namespace TransactionRun

variable {random : UInt32} {transaction : CoapTransaction}

/-- The transaction after some expirations, none of them the last. -/
def waiting (random : UInt32) (transaction : CoapTransaction)
    (expirations : Nat) : TransactionRun where
  transaction := some (transaction.attempt random expirations)
  transmissions := (List.range (expirations + 1)).map fun attempt =>
    some (attemptInterval random attempt)
  notices := []
  cleared := 0

theorem send_first (confirmable : transaction.confirmable = true)
    (fresh : transaction.retransCounter = 0) :
    send ⟨none, [], [], 0⟩ true random false transaction =
      waiting random transaction 0 := by
  have sent := CoapTransaction.send_of_lt confirmable
    (by rw [fresh]; decide) random
  simp [send, sent, waiting, CoapTransaction.attempt, fresh,
    CoapTransaction.nextInterval, attemptInterval_zero]

theorem step_waiting (confirmable : transaction.confirmable = true)
    {expirations : Nat} (few : expirations + 1 < coapMaxRetransmit)
    (again : UInt32) (peer : Bool) :
    step true (waiting random transaction expirations)
        (.expiration again peer) =
      waiting random transaction (expirations + 1) := by
  have below : expirations < coapMaxRetransmit := Nat.lt_of_succ_lt few
  have sent := @CoapTransaction.send_of_lt
    (transaction.attempt random expirations).counted confirmable
    (by rwa [CoapTransaction.toNat_counted_attempt transaction random below])
    again
  rw [CoapTransaction.counted_attempt_next transaction random again below]
    at sent
  change send (waiting random transaction expirations) true again peer
    (transaction.attempt random expirations).counted = _
  rw [send, sent, waiting, waiting, List.range_succ (n := expirations + 1)]
  simp [CoapTransaction.attempt]

variable {run : TransactionRun}

theorem runFrom_of_cleared {initialized : Bool} (gone : run.transaction = none)
    (events : List TransactionEvent) :
    runFrom (step initialized) run events = run := by
  induction events with
  | nil => rfl
  | cons event events ih =>
      have unchanged : step initialized run event = run := by
        cases event <;> simp [step, gone]
      rw [runFrom_cons, unchanged, ih]

theorem runFrom_waiting (confirmable : transaction.confirmable = true)
    {expirations : Nat} {events : List TransactionEvent}
    (few : expirations + TransactionEvent.expirations events <
      coapMaxRetransmit) :
    runFrom (step true) (waiting random transaction expirations) events =
      if events.any TransactionEvent.isAcknowledgement then
        (waiting random transaction
          (expirations + TransactionEvent.expirations events)).clear
      else waiting random transaction
        (expirations + TransactionEvent.expirations events) := by
  induction events generalizing expirations with
  | nil => rfl
  | cons event events ih =>
      cases event with
      | expiration again peer =>
          rw [TransactionEvent.expirations] at few
          rw [runFrom_cons, step_waiting confirmable (by omega),
            ih (by omega)]
          simp [TransactionEvent.expirations,
            TransactionEvent.isAcknowledgement, Nat.add_comm 1,
            Nat.add_assoc]
      | acknowledgement =>
          rw [runFrom_cons]
          exact runFrom_of_cleared rfl events

theorem length_notices_send (run : TransactionRun) (initialized : Bool)
    (again : UInt32) (peer : Bool) (sent : CoapTransaction) :
    run.notices.length ≤
      (run.send initialized again peer sent).notices.length := by
  unfold send
  cases sent.coapSendTransaction initialized again with
  | refused => exact Nat.le_refl _
  | unconfirmed => exact Nat.le_refl _
  | kept kept => exact Nat.le_refl _
  | timedOut =>
      dsimp only
      split_ifs <;> simp [clear]

theorem length_notices_step (run : TransactionRun) (initialized : Bool)
    (event : TransactionEvent) :
    run.notices.length ≤ (step initialized run event).notices.length := by
  cases event with
  | acknowledgement =>
      unfold step
      cases run.transaction with
      | none => exact Nat.le_refl _
      | some transaction => exact Nat.le_refl _
  | expiration again peer =>
      unfold step
      cases run.transaction with
      | none => exact Nat.le_refl _
      | some transaction => exact length_notices_send _ _ _ _ _

theorem length_notices_runFrom (run : TransactionRun) (initialized : Bool)
    (events : List TransactionEvent) :
    run.notices.length ≤
      (runFrom (step initialized) run events).notices.length := by
  refine @invariant_runFrom _ _ _ _
    (fun later : TransactionRun =>
      run.notices.length ≤ later.notices.length) events
    (Nat.le_refl _) ?_
  intro before event earlier
  exact earlier.trans (length_notices_step before initialized event)

/-- The transaction was given up before its last attempt, or more than once. -/
def GivenUp (run : TransactionRun) : Prop :=
  (run.transaction = none ∧ run.transmissions.length = coapMaxRetransmit) ∨
    6 ≤ run.notices.length

theorem GivenUp.runFrom {initialized : Bool} (givenUp : run.GivenUp)
    (events : List TransactionEvent) :
    (runFrom (step initialized) run events).GivenUp := by
  rcases givenUp with ⟨gone, sent⟩ | told
  · rw [runFrom_of_cleared gone]
    exact .inl ⟨gone, sent⟩
  · exact .inr (told.trans (length_notices_runFrom run initialized events))

theorem step_waiting_last (confirmable : transaction.confirmable = true)
    (again : UInt32) (peer : Bool) :
    let run := step true (waiting random transaction 3)
      (.expiration again peer)
    run.transmissions.length = coapMaxRetransmit ∧ run.notices.length = 3 ∧
      (run.transaction = none ∨ ∃ left, run.transaction = some left ∧
        left.confirmable = true ∧ left.retransCounter = 4) := by
  have sent := @CoapTransaction.send_of_le
    (transaction.attempt random 3).counted confirmable
    (by rw [CoapTransaction.toNat_counted_attempt transaction random
      (by decide)]; decide) again
  have stepped : step true (waiting random transaction 3)
      (.expiration again peer) =
        send (waiting random transaction 3) true again peer
          (transaction.attempt random 3).counted := rfl
  rw [stepped, send, sent]
  dsimp only
  split_ifs with stays
  · exact ⟨rfl, rfl, .inr ⟨_, rfl, confirmable, rfl⟩⟩
  · exact ⟨rfl, rfl, .inl rfl⟩

theorem step_after_last (sent : run.transmissions.length = coapMaxRetransmit)
    (told : run.notices.length = 3)
    (state : run.transaction = none ∨ ∃ left, run.transaction = some left ∧
      left.confirmable = true ∧ left.retransCounter = 4) (again : UInt32)
    (peer : Bool) : (step true run (.expiration again peer)).GivenUp := by
  rcases state with gone | ⟨left, present, confirmable, counter⟩
  · left
    simp only [step, gone]
    exact ⟨trivial, sent⟩
  · right
    have timedOut := @CoapTransaction.send_of_le left.counted confirmable
      (by simp [CoapTransaction.counted, counter, coapMaxRetransmit]) again
    simp only [step, present, send, timedOut]
    split_ifs <;> simp [clear, timeoutNotices, told]

theorem runFrom_of_many (confirmable : transaction.confirmable = true)
    {expirations : Nat} {events : List TransactionEvent}
    (waits : expirations < coapMaxRetransmit)
    (many : coapMaxRetransmit ≤
      expirations + TransactionEvent.expirations events) :
    3 ≤ (runFrom (step true) (waiting random transaction expirations)
        events).notices.length ∧
      (coapMaxRetransmit <
          expirations + TransactionEvent.expirations events →
        (runFrom (step true) (waiting random transaction expirations)
          events).GivenUp) := by
  induction events generalizing expirations with
  | nil =>
      rw [TransactionEvent.expirations] at many
      omega
  | cons event events ih =>
      cases event with
      | acknowledgement =>
          rw [TransactionEvent.expirations] at many
          omega
      | expiration again peer =>
          rw [TransactionEvent.expirations] at many ⊢
          rw [runFrom_cons]
          by_cases last : expirations + 1 < coapMaxRetransmit
          · rw [step_waiting confirmable last]
            have rest := ih last (by omega)
            rw [Nat.add_right_comm] at rest
            exact rest
          · obtain rfl : expirations = 3 := by
              have : coapMaxRetransmit = 4 := rfl
              omega
            obtain ⟨sent, told, state⟩ :=
              @step_waiting_last random transaction confirmable again peer
            refine ⟨?_, ?_⟩
            · exact told.ge.trans (length_notices_runFrom _ true events)
            · intro more
              cases events with
              | nil => exact absurd more (lt_irrefl _)
              | cons event events =>
                  cases event with
                  | acknowledgement => exact absurd more (lt_irrefl _)
                  | expiration later peer =>
                      rw [runFrom_cons]
                      exact (step_after_last sent told state later
                        peer).runFrom events

theorem step_uninitialized (silent : run.transmissions = [])
    (event : TransactionEvent) : (step false run event).transmissions = [] := by
  unfold step
  cases event <;> cases run.transaction <;> exact silent

theorem transmissions_waiting {expirations : Nat}
    (few : expirations < coapMaxRetransmit) :
    (waiting random transaction expirations).transmissions.map
        (Option.map UInt64.toNat) =
      (List.range (min expirations coapMaxRetransmit + 1)).map fun attempt =>
        some ((initialInterval random).toNat * 2 ^ attempt) := by
  rw [Nat.min_eq_left (Nat.le_of_lt few), waiting, List.map_map]
  apply List.map_congr_left
  intro attempt member
  have below := List.mem_range.mp member
  have small : attempt ≤ 4 := Nat.le_trans (Nat.le_of_lt_succ below)
    (Nat.le_of_lt few)
  simp only [Function.comp_apply, Option.map_some,
    toNat_attemptInterval random small]

theorem followsSchedule_waiting {expirations : Nat} (mid : UInt16)
    (few : expirations < coapMaxRetransmit) :
    FollowsSchedule (waiting random transaction expirations) mid
        (initialInterval random) expirations false ∧
      FollowsSchedule (waiting random transaction expirations).clear mid
        (initialInterval random) expirations true := by
  have noTimeout : ¬coapMaxRetransmit < expirations := Nat.lt_asymm few
  have sent := @transmissions_waiting random transaction expirations few
  refine ⟨⟨sent, ?_, ?_⟩, ⟨sent, ?_, ?_⟩⟩
  · rw [if_neg noTimeout]
    rfl
  · simp [noTimeout, waiting]
  · rw [if_neg noTimeout]
    rfl
  · simp [waiting, clear]

theorem not_followsSchedule {mid : UInt16} {initial : UInt64}
    {expirations : Nat} {acknowledged : Bool}
    (many : coapMaxRetransmit ≤ expirations) (told : 3 ≤ run.notices.length)
    (givenUp : coapMaxRetransmit < expirations → run.GivenUp) :
    ¬FollowsSchedule run mid initial expirations acknowledged := by
  intro follows
  have notices := congrArg List.length follows.notices
  by_cases more : coapMaxRetransmit < expirations
  · rw [if_pos more] at notices
    rcases givenUp more with ⟨-, sent⟩ | again
    · have transmissions := congrArg List.length follows.transmissions
      rw [List.length_map, sent, List.length_map, List.length_range,
        Nat.min_eq_right many] at transmissions
      exact absurd transmissions (Nat.ne_of_lt (Nat.lt_succ_self _))
    · rw [notices] at again
      exact absurd again (by simp [timeoutNotices])
  · rw [if_neg more] at notices
    rw [notices] at told
    exact absurd told (by decide)

end TransactionRun

/-- The schedule is kept exactly as long as the timer has not expired
`COAP_MAX_RETRANSMIT` times. -/
theorem retransmission_schedule_iff (initialized : Bool) (random : UInt32)
    (mid : UInt16) (firstByte : UInt8) (peer : Peer)
    (confirmable : (CoapTransaction.coapNewTransaction mid firstByte
      peer).confirmable = true)
    (events : List TransactionEvent) :
    FollowsSchedule
        (TransactionRun.ofEvents initialized random
          (.coapNewTransaction mid firstByte peer) events)
        mid (initialInterval random) (TransactionEvent.expirations events)
        (events.any TransactionEvent.isAcknowledgement) ↔
      initialized = true ∧
        TransactionEvent.expirations events < coapMaxRetransmit := by
  cases initialized with
  | false =>
      refine iff_of_false ?_ (fun kept => Bool.false_ne_true kept.1)
      intro follows
      have silent : (TransactionRun.ofEvents false random
          (.coapNewTransaction mid firstByte peer)
          events).transmissions = [] :=
        @invariant_runFrom _ _ _ _
          (fun run : TransactionRun => run.transmissions = []) events rfl
          fun before event quiet =>
            TransactionRun.step_uninitialized quiet event
      have transmissions := congrArg List.length follows.transmissions
      rw [silent, List.length_map, List.length_map,
        List.length_range] at transmissions
      exact absurd transmissions (Nat.succ_ne_zero _).symm
  | true =>
      rw [TransactionRun.ofEvents,
        TransactionRun.send_first confirmable rfl]
      by_cases few : TransactionEvent.expirations events < coapMaxRetransmit
      · refine iff_of_true ?_ ⟨rfl, few⟩
        have reached := @TransactionRun.runFrom_waiting random
          (.coapNewTransaction mid firstByte peer) confirmable 0
          events (by rwa [Nat.zero_add])
        rw [Nat.zero_add] at reached
        obtain ⟨waits, cleared⟩ := @TransactionRun.followsSchedule_waiting
          random (.coapNewTransaction mid firstByte peer) _ mid few
        rw [reached]
        cases events.any TransactionEvent.isAcknowledgement with
        | false => exact waits
        | true => exact cleared
      · refine iff_of_false ?_ (fun kept => few kept.2)
        have many := Nat.le_of_not_lt few
        obtain ⟨told, givenUp⟩ := @TransactionRun.runFrom_of_many random
          (.coapNewTransaction mid firstByte peer) confirmable 0
          events (by decide) (by rwa [Nat.zero_add])
        rw [Nat.zero_add] at givenUp
        exact TransactionRun.not_followsSchedule many told givenUp

/-- A peer without (D)TLS. -/
def unsecuredPeer : Peer := ⟨⟨0, false, 1, 0, .nil⟩, false, false⟩

/-- Three expirations and then the acknowledgement. -/
theorem retransmission_schedule_of_three :
    FollowsSchedule
      (TransactionRun.ofEvents true 5
        (.coapNewTransaction 7 0x40 unsecuredPeer)
        [.expiration 0 false, .expiration 0 false, .expiration 0 false,
          .acknowledgement])
      7 (initialInterval 5) 3 true :=
  (retransmission_schedule_iff true 5 7 0x40 unsecuredPeer (by decide)
    _).mpr ⟨rfl, by decide⟩

/-- The fourth expiration ends the transaction, without the fourth
retransmission. -/
theorem fourth_retransmission_missing :
    ¬FollowsSchedule
      (TransactionRun.ofEvents true 0
        (.coapNewTransaction 7 0x40 unsecuredPeer)
        [.expiration 0 false, .expiration 0 false, .expiration 0 false,
          .expiration 0 false])
      7 (initialInterval 0) 4 false := by
  intro follows
  exact absurd follows.notices (by decide)

end IotivityLite
