import IotivityLite.Foundation.LeastOrZero

/-!
# When waiting TCP sessions expire

`tcp_check_expiring_sessions` of the Linux port goes over the sessions that
wait for a connection, tries to connect some of them again, drops others, and
tells for how long the network thread may sleep.
-/

namespace IotivityLite

/-- `tcp_waiting_session_t` -/
structure WaitingSession where
  sessionId : UInt32
  /-- `none` for -1 -/
  sock : Option Nat
  start : UInt64
  count : UInt8
  force : UInt8
  error : Int32
  deriving DecidableEq

/-- `oc_tcp_connect_retry_t`, with the ticks of a second. -/
structure TcpConnectRetry where
  maxCount : UInt8
  timeout : UInt16
  clockSecond : UInt64

/-- `timeout * OC_CLOCK_SECOND` -/
def TcpConnectRetry.ticks (connectRetry : TcpConnectRetry) : UInt64 :=
  connectRetry.timeout.toUInt64 * connectRetry.clockSecond

inductive WaitingSessionCheck where
  | valid (expiresIn : UInt64)
  | retry
  | expired
  | error
  deriving DecidableEq

def tcpWaitingSessionCheck (session : WaitingSession) (nowMt : UInt64)
    (connectRetry : TcpConnectRetry) : WaitingSessionCheck :=
  let elapsed := nowMt - session.start
  if session.error ≠ 0 then .error
  else if session.force = 0 ∧ elapsed < connectRetry.ticks then
    .valid (connectRetry.ticks - elapsed)
  else if connectRetry.maxCount ≤ session.count then .expired
  else .retry

/-- What comes of `oc_tcp_socket_connect`; after a connection a session is
made and the events for the application are sent, which may fail. -/
inductive ConnectAttempt where
  | connected (sessionCreated cleanedUp : Bool)
  | connecting (fd : Nat)
  | failed
  deriving DecidableEq

inductive RetryOutcome where
  | connected
  | connecting (session : WaitingSession)
  | failed
  deriving DecidableEq

def tcpRetryWaitingSession (ws : WaitingSession) (nowMt : UInt64) :
    ConnectAttempt → RetryOutcome
  | .connected sessionCreated cleanedUp =>
      if sessionCreated && cleanedUp then .connected else .failed
  | .connecting fd =>
      .connecting ⟨ws.sessionId, some fd, nowMt, ws.count + 1, 0, ws.error⟩
  | .failed => .failed

/-- The loop over the sessions and what comes of connecting each again, with
`expiresIn` so far: the sessions that still wait and the result. -/
def checkSessions (connectRetry : TcpConnectRetry) (nowMt : UInt64)
    (expiresIn : UInt64) :
    List (WaitingSession × ConnectAttempt) → List WaitingSession × UInt64
  | [] => ([], expiresIn)
  | (ws, attempt) :: rest =>
      match tcpWaitingSessionCheck ws nowMt connectRetry with
      | .retry =>
          match tcpRetryWaitingSession ws nowMt attempt with
          | .connected => checkSessions connectRetry nowMt expiresIn rest
          | .connecting ws =>
              -- whatever the earlier sessions said is gone
              let checked :=
                checkSessions connectRetry nowMt connectRetry.ticks rest
              (ws :: checked.1, checked.2)
          | .failed => checkSessions connectRetry nowMt expiresIn rest
      | .valid left =>
          let expiresIn :=
            if expiresIn = 0 ∨ left < expiresIn then left else expiresIn
          let checked := checkSessions connectRetry nowMt expiresIn rest
          (ws :: checked.1, checked.2)
      | .error => checkSessions connectRetry nowMt expiresIn rest
      | .expired => checkSessions connectRetry nowMt expiresIn rest

def tcpCheckExpiringSessions (connectRetry : TcpConnectRetry)
    (nowMt : UInt64) (sessions : List (WaitingSession × ConnectAttempt)) :
    List WaitingSession × UInt64 :=
  checkSessions connectRetry nowMt 0 sessions

/-- The time until the session is connected again or dropped. -/
def timeLeft (connectRetry : TcpConnectRetry) (nowMt : UInt64)
    (session : WaitingSession) : UInt64 :=
  if nowMt - session.start < connectRetry.ticks then
    connectRetry.ticks - (nowMt - session.start)
  else 0

/-- The session waits for its time to pass. -/
structure Waits (session : WaitingSession) : Prop where
  force : session.force = 0
  error : session.error = 0

variable {connectRetry : TcpConnectRetry} {nowMt : UInt64}
  {session : WaitingSession}

theorem tcpWaitingSessionCheck_valid_iff {left : UInt64} :
    tcpWaitingSessionCheck session nowMt connectRetry = .valid left ↔
      Waits session ∧ nowMt - session.start < connectRetry.ticks ∧
        left = connectRetry.ticks - (nowMt - session.start) := by
  unfold tcpWaitingSessionCheck
  by_cases error : session.error = 0
  · rw [if_neg (not_not_intro error)]
    by_cases waiting :
        session.force = 0 ∧ nowMt - session.start < connectRetry.ticks
    · rw [if_pos waiting, WaitingSessionCheck.valid.injEq]
      constructor
      · rintro rfl
        exact ⟨⟨waiting.1, error⟩, waiting.2, rfl⟩
      · exact fun valid => valid.2.2.symm
    · rw [if_neg waiting]
      refine iff_of_false ?_ fun valid => waiting ⟨valid.1.force, valid.2.1⟩
      split <;> simp
  · rw [if_pos error]
    exact iff_of_false (by simp) fun valid => error valid.1.error

theorem error_of_retry
    (retry : tcpWaitingSessionCheck session nowMt connectRetry = .retry) :
    session.error = 0 := by
  by_contra error
  unfold tcpWaitingSessionCheck at retry
  rw [if_pos error] at retry
  contradiction

theorem toNat_timeLeft :
    (timeLeft connectRetry nowMt session).toNat =
      connectRetry.ticks.toNat - (nowMt - session.start).toNat := by
  unfold timeLeft
  by_cases within : nowMt - session.start < connectRetry.ticks
  · rw [if_pos within]
    refine UInt64.toNat_sub_of_le _ _ ?_
    rw [UInt64.le_iff_toNat_le]
    exact Nat.le_of_lt (UInt64.lt_iff_toNat_lt.mp within)
  · rw [if_neg within]
    have past := UInt64.le_iff_toNat_le.mp (UInt64.not_lt.mp within)
    show 0 = _
    omega

theorem exists_valid_of_lt (waits : Waits session) {later : UInt64}
    (soon : later < timeLeft connectRetry nowMt session) :
    ∃ left, tcpWaitingSessionCheck session (nowMt + later) connectRetry =
      .valid left := by
  have soon := UInt64.lt_iff_toNat_lt.mp soon
  rw [toNat_timeLeft] at soon
  have bound : connectRetry.ticks.toNat < 2 ^ 64 := connectRetry.ticks.toNat_lt
  have passed : nowMt + later - session.start =
      (nowMt - session.start) + later := by
    rw [UInt64.sub_eq_add_neg, UInt64.sub_eq_add_neg, UInt64.add_assoc,
      UInt64.add_comm later, ← UInt64.add_assoc]
  refine ⟨_, tcpWaitingSessionCheck_valid_iff.mpr ⟨waits, ?_, rfl⟩⟩
  rw [passed, UInt64.lt_iff_toNat_lt, UInt64.toNat_add,
    Nat.mod_eq_of_lt (by omega)]
  omega

/-- The session is connected again, and it is not yet known how that ends. -/
def Reconnecting (connectRetry : TcpConnectRetry) (nowMt : UInt64)
    (entry : WaitingSession × ConnectAttempt) : Prop :=
  tcpWaitingSessionCheck entry.1 nowMt connectRetry = .retry ∧
    ∃ fd, entry.2 = .connecting fd

/-- What a session does to the result. -/
def expiryReading (connectRetry : TcpConnectRetry) (nowMt : UInt64)
    (entry : WaitingSession × ConnectAttempt) : Reading :=
  match tcpWaitingSessionCheck entry.1 nowMt connectRetry, entry.2 with
  | .valid left, _ => .lower left.toNat
  | .retry, .connecting _ => .replace connectRetry.ticks.toNat
  | _, _ => .absent

variable {entry : WaitingSession × ConnectAttempt}
  {entries : List (WaitingSession × ConnectAttempt)} {value : Nat}

theorem expiryReading_lower_iff :
    expiryReading connectRetry nowMt entry = .lower value ↔
      ∃ left, tcpWaitingSessionCheck entry.1 nowMt connectRetry =
        .valid left ∧ left.toNat = value := by
  unfold expiryReading
  cases tcpWaitingSessionCheck entry.1 nowMt connectRetry with
  | valid left => simp
  | retry => cases entry.2 <;> simp
  | expired => simp
  | error => simp

theorem expiryReading_replace_iff :
    expiryReading connectRetry nowMt entry = .replace value ↔
      Reconnecting connectRetry nowMt entry ∧
        connectRetry.ticks.toNat = value := by
  unfold expiryReading Reconnecting
  cases tcpWaitingSessionCheck entry.1 nowMt connectRetry with
  | valid left => simp
  | retry => cases entry.2 <;> simp
  | expired => simp
  | error => simp

/-- What the loop leaves: its result, the time left to each session, and that
the sessions wait for that time to pass. -/
structure Checked (connectRetry : TcpConnectRetry) (nowMt : UInt64)
    (expiresIn : UInt64)
    (entries : List (WaitingSession × ConnectAttempt))
    (checked : List WaitingSession × UInt64) : Prop where
  result : checked.2.toNat = leastRead
    (expiryReading connectRetry nowMt) expiresIn.toNat entries
  times : checked.1.map (fun ws => (timeLeft connectRetry nowMt ws).toNat) =
    readValues (expiryReading connectRetry nowMt) entries
  waits : ∀ ws ∈ checked.1, Waits ws

theorem Checked.absent {expiresIn : UInt64}
    {checked : List WaitingSession × UInt64}
    (rest : Checked connectRetry nowMt expiresIn entries checked)
    (read : expiryReading connectRetry nowMt entry = .absent) :
    Checked connectRetry nowMt expiresIn (entry :: entries) checked where
  result := by
    rw [rest.result]
    unfold leastRead
    rw [List.foldl_cons, read]
    rfl
  times := by
    rw [rest.times]
    exact (List.filterMap_cons_none (by rw [read]; rfl)).symm
  waits := rest.waits

theorem Checked.cons {expiresIn next : UInt64} {ws : WaitingSession}
    {checked : List WaitingSession × UInt64}
    (rest : Checked connectRetry nowMt next entries checked)
    (applied : next.toNat =
      (expiryReading connectRetry nowMt entry).apply expiresIn.toNat)
    (value : (expiryReading connectRetry nowMt entry).value? =
      some (timeLeft connectRetry nowMt ws).toNat)
    (waits : Waits ws) :
    Checked connectRetry nowMt expiresIn (entry :: entries)
      (ws :: checked.1, checked.2) where
  result := by
    show checked.2.toNat = _
    rw [rest.result, applied]
    rfl
  times := by
    have values : readValues (expiryReading connectRetry nowMt)
        (entry :: entries) = (timeLeft connectRetry nowMt ws).toNat ::
          readValues (expiryReading connectRetry nowMt) entries :=
      List.filterMap_cons_some value
    rw [values, ← rest.times]
    rfl
  waits := List.forall_mem_cons.mpr ⟨waits, rest.waits⟩

theorem checked_checkSessions (connectRetry : TcpConnectRetry)
    (nowMt expiresIn : UInt64)
    (entries : List (WaitingSession × ConnectAttempt)) :
    Checked connectRetry nowMt expiresIn entries
      (checkSessions connectRetry nowMt expiresIn entries) := by
  induction entries generalizing expiresIn with
  | nil => exact ⟨rfl, rfl, by simp [checkSessions]⟩
  | cons entry entries ih =>
      obtain ⟨ws, attempt⟩ := entry
      have absent (read : expiryReading connectRetry nowMt (ws, attempt) =
          .absent) := (ih expiresIn).absent read
      unfold checkSessions
      cases check : tcpWaitingSessionCheck ws nowMt connectRetry with
      | valid left =>
          have read : expiryReading connectRetry nowMt (ws, attempt) =
              .lower left.toNat :=
            expiryReading_lower_iff.mpr ⟨left, check, rfl⟩
          obtain ⟨waits, within, same⟩ :=
            tcpWaitingSessionCheck_valid_iff.mp check
          refine (ih _).cons ?_ ?_ waits
          · rw [read]
            show (if expiresIn = 0 ∨ left < expiresIn then left
              else expiresIn).toNat = if expiresIn.toNat = 0 ∨
                left.toNat < expiresIn.toNat then left.toNat
                else expiresIn.toNat
            rw [apply_ite UInt64.toNat]
            refine if_congr ?_ rfl rfl
            rw [UInt64.lt_iff_toNat_lt, ← UInt64.toNat_inj]
            rfl
          · rw [read]
            unfold timeLeft
            rw [if_pos within, same]
            rfl
      | expired => exact absent (by simp [expiryReading, check])
      | error => exact absent (by simp [expiryReading, check])
      | retry =>
          cases attempt with
          | failed => exact absent (by simp [expiryReading, check])
          | connected sessionCreated cleanedUp =>
              have read : expiryReading connectRetry nowMt
                  (ws, .connected sessionCreated cleanedUp) = .absent := by
                simp [expiryReading, check]
              cases sessionCreated <;> cases cleanedUp <;> exact absent read
          | connecting fd =>
              have read : expiryReading connectRetry nowMt
                  (ws, .connecting fd) = .replace connectRetry.ticks.toNat :=
                expiryReading_replace_iff.mpr ⟨⟨check, fd, rfl⟩, rfl⟩
              have error : ws.error = 0 := error_of_retry check
              refine (ih connectRetry.ticks).cons ?_ ?_ ⟨rfl, error⟩
              · rw [read]
                rfl
              · rw [read, toNat_timeLeft]
                simp [Reading.value?]

/-- The result is the least time that is left to a waiting session, 0 exactly
without one, and nobody who sleeps for less misses the end of that time. -/
structure ExpiryContract (connectRetry : TcpConnectRetry) (nowMt : UInt64)
    (checked : List WaitingSession × UInt64) : Prop where
  zero_iff : checked.2 = 0 ↔ checked.1 = []
  le : ∀ ws ∈ checked.1, checked.2 ≤ timeLeft connectRetry nowMt ws
  attained : checked.1 ≠ [] →
    ∃ ws ∈ checked.1, checked.2 = timeLeft connectRetry nowMt ws
  noneMissed : ∀ later < checked.2, ∀ ws ∈ checked.1,
    ∃ left, tcpWaitingSessionCheck ws (nowMt + later) connectRetry =
      .valid left

/-- No session that is connected again makes the loop forget an earlier one
that expires first: such an earlier session has as much time as a new attempt,
or a later one has no more than it. -/
def NoneForgotten (connectRetry : TcpConnectRetry) (nowMt : UInt64)
    (entries : List (WaitingSession × ConnectAttempt)) : Prop :=
  ∀ before entry after, entries = before ++ entry :: after →
    Reconnecting connectRetry nowMt entry →
      0 < connectRetry.ticks ∧
      ∀ earlier ∈ before, ∀ left,
        tcpWaitingSessionCheck earlier.1 nowMt connectRetry = .valid left →
          connectRetry.ticks ≤ left ∨
          ∃ later ∈ after, ∃ less,
            tcpWaitingSessionCheck later.1 nowMt connectRetry =
              .valid less ∧ less ≤ left

theorem mem_readValues_iff :
    value ∈ readValues (expiryReading connectRetry nowMt) entries ↔
      (∃ entry ∈ entries, Reconnecting connectRetry nowMt entry ∧
        connectRetry.ticks.toNat = value) ∨
      ∃ entry ∈ entries, ∃ left,
        tcpWaitingSessionCheck entry.1 nowMt connectRetry = .valid left ∧
          left.toNat = value := by
  unfold readValues
  rw [List.mem_filterMap, ← exists_or]
  refine exists_congr fun entry => ?_
  rw [← and_or_left, ← expiryReading_replace_iff, ← expiryReading_lower_iff]
  refine and_congr_right fun _ => ?_
  cases expiryReading connectRetry nowMt entry with
  | absent => simp [Reading.value?]
  | lower value => simp [Reading.value?]
  | replace value => simp [Reading.value?]

theorem losesNothing_iff_noneForgotten :
    LosesNothing (expiryReading connectRetry nowMt) entries ↔
      NoneForgotten connectRetry nowMt entries := by
  unfold LosesNothing NoneForgotten
  refine forall_congr' fun before => forall_congr' fun entry =>
    forall_congr' fun after => imp_congr_right fun _ => ?_
  constructor
  · intro keeps reconnecting
    obtain ⟨positive, kept⟩ := keeps connectRetry.ticks.toNat
      (expiryReading_replace_iff.mpr ⟨reconnecting, rfl⟩)
    refine ⟨UInt64.lt_iff_toNat_lt.mpr positive, ?_⟩
    intro earlier member left valid
    rcases kept left.toNat (mem_readValues_iff.mpr
        (.inr ⟨earlier, member, left, valid, rfl⟩)) with
      larger | ⟨value, later, less⟩
    · exact .inl (UInt64.le_iff_toNat_le.mpr larger)
    · rcases mem_readValues_iff.mp later with
        ⟨_, -, -, rfl⟩ | ⟨other, inside, sooner, check, rfl⟩
      · exact .inl (UInt64.le_iff_toNat_le.mpr less)
      · exact .inr ⟨other, inside, sooner, check,
          UInt64.le_iff_toNat_le.mpr less⟩
  · intro keeps value replaces
    obtain ⟨reconnecting, rfl⟩ := expiryReading_replace_iff.mp replaces
    obtain ⟨positive, kept⟩ := keeps reconnecting
    refine ⟨UInt64.lt_iff_toNat_lt.mp positive, ?_⟩
    intro value member
    rcases mem_readValues_iff.mp member with
      ⟨_, -, -, rfl⟩ | ⟨earlier, inside, left, valid, rfl⟩
    · exact .inl (Nat.le_refl _)
    · rcases kept earlier inside left valid with
        larger | ⟨later, behind, less, check, least⟩
      · exact .inl (UInt64.le_iff_toNat_le.mp larger)
      · exact .inr ⟨less.toNat, mem_readValues_iff.mpr
          (.inr ⟨later, behind, less, check, rfl⟩),
          UInt64.le_iff_toNat_le.mp least⟩

theorem Checked.contract_iff
    {checked : List WaitingSession × UInt64}
    (spec : Checked connectRetry nowMt 0 entries checked) :
    ExpiryContract connectRetry nowMt checked ↔
      LeastOrZero (readValues (expiryReading connectRetry nowMt) entries)
        (leastRead (expiryReading connectRetry nowMt) 0 entries) := by
  have result : leastRead (expiryReading connectRetry nowMt) 0 entries =
      checked.2.toNat := spec.result.symm
  rw [result, ← spec.times]
  constructor
  · intro contract
    refine ⟨?_, ?_, ?_⟩
    · rw [List.map_eq_nil_iff, ← contract.zero_iff, ← UInt64.toNat_inj]
      rfl
    · intro value member
      obtain ⟨ws, waiting, rfl⟩ := List.mem_map.mp member
      exact UInt64.le_iff_toNat_le.mp (contract.le ws waiting)
    · intro some
      obtain ⟨ws, waiting, same⟩ := contract.attained fun none => some (by
        rw [none]
        rfl)
      rw [same]
      exact List.mem_map.mpr ⟨ws, waiting, rfl⟩
  · intro least
    have le (ws : WaitingSession) (waiting : ws ∈ checked.1) :
        checked.2 ≤ timeLeft connectRetry nowMt ws :=
      UInt64.le_iff_toNat_le.mpr
        (least.le _ (List.mem_map.mpr ⟨ws, waiting, rfl⟩))
    refine ⟨?_, le, ?_, ?_⟩
    · have zero := least.zero_iff
      rw [List.map_eq_nil_iff] at zero
      rw [← zero, ← UInt64.toNat_inj]
      rfl
    · intro some
      obtain ⟨ws, waiting, same⟩ := List.mem_map.mp
        (least.mem fun none => some (List.map_eq_nil_iff.mp none))
      exact ⟨ws, waiting, UInt64.toNat_inj.mp same.symm⟩
    · intro later soon ws waiting
      refine exists_valid_of_lt (spec.waits ws waiting) ?_
      exact UInt64.lt_of_lt_of_le soon (le ws waiting)

/-- The result is right exactly if no session is forgotten. -/
theorem waiting_sessions_expiry (connectRetry : TcpConnectRetry)
    (nowMt : UInt64) (entries : List (WaitingSession × ConnectAttempt)) :
    ExpiryContract connectRetry nowMt
        (tcpCheckExpiringSessions connectRetry nowMt entries) ↔
      NoneForgotten connectRetry nowMt entries := by
  refine (checked_checkSessions connectRetry nowMt 0 entries).contract_iff.trans
    ?_
  rw [← losesNothing_iff_noneForgotten]
  refine leastOrZero_leastRead_iff ?_
  intro entry _ value lower
  obtain ⟨left, valid, rfl⟩ := expiryReading_lower_iff.mp lower
  obtain ⟨-, within, rfl⟩ := tcpWaitingSessionCheck_valid_iff.mp valid
  have less := UInt64.lt_iff_toNat_lt.mp within
  rw [UInt64.toNat_sub_of_le _ _ (UInt64.le_iff_toNat_le.mpr
    (Nat.le_of_lt less))]
  omega

/-- One session has a second left, and another one behind it is connected
again with five seconds. -/
theorem not_expiryContract_behind :
    ¬ ExpiryContract ⟨5, 5, 1000⟩ 10000
      (tcpCheckExpiringSessions ⟨5, 5, 1000⟩ 10000
        [(⟨1, some 7, 6000, 1, 0, 0⟩, .failed),
          (⟨2, some 8, 5000, 1, 0, 0⟩, .connecting 9)]) := by
  intro contract
  have least := contract.le ⟨1, some 7, 6000, 1, 0, 0⟩ (by decide)
  revert least
  decide

end IotivityLite
