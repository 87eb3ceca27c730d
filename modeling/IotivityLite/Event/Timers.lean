import IotivityLite.Foundation.Linked
import IotivityLite.Foundation.Run

/-!
# Event timers

`oc_timer.c` and `oc_etimer.c`.  The event timers that are set hang in a
singly linked list, in the timers themselves; the timer process is polled,
posts an event for every timer that expired and takes it out of the list.
`g_next_expiration` keeps the time of the next poll.

There are `n` timers in memory, so that no walk along a list that ends has
more than `n` rounds.  The clock gives the reading of every call of
`oc_clock_time_monotonic`, in the order of the calls.  What is left out is the
request to poll the timer process: it may be polled at any time.
-/

namespace IotivityLite

/-- `struct oc_timer` -/
structure OcTimer where
  start : UInt64
  interval : UInt64
  deriving DecidableEq

namespace OcTimer

/-- `timer_expired` -/
def expired (timer : OcTimer) (now : UInt64) : Bool :=
  if timer.start > now then false
  else
    let diff := (now - timer.start) + 1
    decide (timer.interval < diff)

/-- `oc_timer_until` -/
def untilTime (timer : OcTimer) (time : UInt64) : UInt64 :=
  if timer.expired time then 0
  else timer.start + timer.interval - time

/-- `oc_timer_expiration_time` -/
def expirationTime (timer : OcTimer) : UInt64 :=
  timer.start + timer.interval

end OcTimer

/-- The fields of every `struct oc_etimer`, `g_timerlist` and
`g_next_expiration`; no process stands for `OC_PROCESS_NONE`.  `readings`
counts how often the clock was read. -/
structure EtimerState (n : Nat) where
  timer : Fin n → OcTimer
  next : Fin n → Option (Fin n)
  p : Fin n → Option Nat
  timerlist : Option (Fin n)
  nextExpiration : UInt64
  readings : Nat

/-- The calls of the interface, each with the process that makes it where it
matters, the exit of a process, and a poll of the timer process.  `posts` says
which calls of `oc_process_post` succeed, by the reading of the clock before
them. -/
inductive EtimerCall (n : Nat) where
  | set (current : Nat) (et : Fin n) (interval : UInt64)
  | resetWithNewInterval (current : Nat) (et : Fin n) (interval : UInt64)
  | reset (current : Nat) (et : Fin n)
  | restart (current : Nat) (et : Fin n)
  | adjust (et : Fin n) (timediff : Int32)
  | stop (et : Fin n)
  | exit (p : Nat)
  | poll (posts : Nat → Bool)

namespace EtimerState

variable {n : Nat} (clock : Nat → UInt64)

/-- Static memory, after the timer process was started. -/
def initial : EtimerState n :=
  ⟨fun _ => ⟨0, 0⟩, fun _ => none, fun _ => none, none, 0, 0⟩

/-- The loop of `etimer_update_time`. -/
def closest (state : EtimerState n) (now : UInt64) :
    (rounds : Nat) → (t : Option (Fin n)) → (tdist : UInt64) → UInt64
  | 0, _, tdist => tdist
  | _ + 1, none, tdist => tdist
  | rounds + 1, some t, tdist =>
      let tdist2 := (state.timer t).untilTime now
      closest state now rounds (state.next t)
        (if tdist2 < tdist then tdist2 else tdist)

/-- `etimer_update_time` -/
def etimerUpdateTime (state : EtimerState n) : EtimerState n :=
  match state.timerlist with
  | none => { state with nextExpiration := 0 }
  | some t =>
      let now := clock state.readings
      let tdist := state.closest now n (state.next t)
        ((state.timer t).untilTime now)
      { state with
        nextExpiration := now + tdist
        readings := state.readings + 1 }

/-- The walk of `etimer_process_poll` to the first timer that expired and for
which an event could be posted, with the timer before it, and the number of
clock readings afterwards. -/
def findExpired (posts : Nat → Bool) (state : EtimerState n) :
    (rounds : Nat) → (prev t : Option (Fin n)) → (readings : Nat) →
      Option (Option (Fin n) × Fin n) × Nat
  | 0, _, _, readings => (none, readings)
  | _ + 1, _, none, readings => (none, readings)
  | rounds + 1, prev, some t, readings =>
      if !(state.timer t).expired (clock readings) then
        findExpired posts state rounds (some t) (state.next t) (readings + 1)
      else if !posts readings then
        findExpired posts state rounds (some t) (state.next t) (readings + 1)
      else (some (prev, t), readings + 1)

/-- The links after `t` was taken out behind `prev`. -/
def takeOut (prev : Option (Fin n)) (t : Fin n) (state : EtimerState n) :
    EtimerState n :=
  let state := { state with p := Function.update state.p t none }
  let state :=
    match prev with
    | some prev =>
        { state with
          next := Function.update state.next prev (state.next t) }
    | none => { state with timerlist := state.next t }
  { state with next := Function.update state.next t none }

/-- `etimer_process_poll` -/
def etimerProcessPoll (posts : Nat → Bool) (state : EtimerState n) :
    Bool × EtimerState n :=
  match state.findExpired clock posts n none state.timerlist
      state.readings with
  | (none, readings) => (false, { state with readings })
  | (some (prev, t), readings) =>
      (true,
        etimerUpdateTime clock ({ state with readings }.takeOut prev t))

/-- The timer process keeps polling while a timer was handled. -/
def keepPolling (posts : Nat → Bool) :
    (rounds : Nat) → EtimerState n → EtimerState n
  | 0, state => state
  | rounds + 1, state =>
      match state.etimerProcessPoll clock posts with
      | (true, state) => keepPolling posts rounds state
      | (false, state) => state

/-- The first loop of `etimer_remove_process_pending_timers`. -/
def dropFirst (p : Nat) (state : EtimerState n) :
    (rounds : Nat) → (head : Option (Fin n)) → Option (Fin n)
  | 0, head => head
  | _ + 1, none => none
  | rounds + 1, some t =>
      if state.p t = some p then dropFirst p state rounds (state.next t)
      else some t

/-- The second loop of `etimer_remove_process_pending_timers`. -/
def dropLater (p : Nat) (owner : Fin n → Option Nat) :
    (rounds : Nat) → (t : Fin n) → (next : Fin n → Option (Fin n)) →
      Fin n → Option (Fin n)
  | 0, _, next => next
  | rounds + 1, t, next =>
      match next t with
      | none => next
      | some later =>
          if owner later = some p then
            dropLater p owner rounds t
              (Function.update next t (next later))
          else dropLater p owner rounds later next

/-- `etimer_remove_process_pending_timers` -/
def etimerRemoveProcessPendingTimers (p : Nat) (state : EtimerState n) :
    EtimerState n :=
  match state.dropFirst p n state.timerlist with
  | none => { state with timerlist := none }
  | some t =>
      { state with
        timerlist := some t
        next := dropLater p state.p n t state.next }

/-- The search of `etimer_add_timer`. -/
def isInList (timer : Fin n) (state : EtimerState n) :
    (rounds : Nat) → (t : Option (Fin n)) → Bool
  | 0, _ => false
  | _ + 1, none => false
  | rounds + 1, some t =>
      if t = timer then true else isInList timer state rounds (state.next t)

/-- `etimer_add_timer` -/
def etimerAddTimer (current : Nat) (timer : Fin n) (state : EtimerState n) :
    EtimerState n :=
  let isInList :=
    (state.p timer).isSome && state.isInList timer n state.timerlist
  let state :=
    if !isInList then
      { state with
        next := Function.update state.next timer state.timerlist
        timerlist := some timer }
    else state
  etimerUpdateTime clock
    { state with p := Function.update state.p timer (some current) }

/-- The timer with the start and the interval of `changed`. -/
def setTimer (et : Fin n) (changed : OcTimer) (state : EtimerState n) :
    EtimerState n :=
  { state with timer := Function.update state.timer et changed }

/-- `oc_etimer_set` -/
def ocEtimerSet (current : Nat) (et : Fin n) (interval : UInt64)
    (state : EtimerState n) : EtimerState n :=
  etimerAddTimer clock current et
    { state.setTimer et ⟨clock state.readings, interval⟩ with
      readings := state.readings + 1 }

/-- `oc_etimer_reset_with_new_interval` -/
def ocEtimerResetWithNewInterval (current : Nat) (et : Fin n)
    (interval : UInt64) (state : EtimerState n) : EtimerState n :=
  let timer := state.timer et
  etimerAddTimer clock current et
    (state.setTimer et ⟨timer.start + timer.interval, interval⟩)

/-- `oc_etimer_reset` -/
def ocEtimerReset (current : Nat) (et : Fin n) (state : EtimerState n) :
    EtimerState n :=
  let timer := state.timer et
  etimerAddTimer clock current et
    (state.setTimer et ⟨timer.start + timer.interval, timer.interval⟩)

/-- `oc_etimer_restart` -/
def ocEtimerRestart (current : Nat) (et : Fin n) (state : EtimerState n) :
    EtimerState n :=
  etimerAddTimer clock current et
    { state.setTimer et ⟨clock state.readings, (state.timer et).interval⟩ with
      readings := state.readings + 1 }

/-- `oc_etimer_adjust` -/
def ocEtimerAdjust (et : Fin n) (timediff : Int32) (state : EtimerState n) :
    EtimerState n :=
  let timer := state.timer et
  etimerUpdateTime clock
    (state.setTimer et
      ⟨timer.start + timediff.toInt64.toUInt64, timer.interval⟩)

/-- The search of `oc_etimer_stop` for the timer before `et`. -/
def findBefore (et : Fin n) (state : EtimerState n) :
    (rounds : Nat) → (t : Option (Fin n)) → Option (Fin n)
  | 0, _ => none
  | _ + 1, none => none
  | rounds + 1, some t =>
      if state.next t ≠ some et then
        findBefore et state rounds (state.next t)
      else some t

/-- `oc_etimer_stop` -/
def ocEtimerStop (et : Fin n) (state : EtimerState n) : EtimerState n :=
  let state :=
    if state.timerlist = some et then
      etimerUpdateTime clock { state with timerlist := state.next et }
    else
      match state.findBefore et n state.timerlist with
      | none => state
      | some t =>
          etimerUpdateTime clock
            { state with
              next := Function.update state.next t (state.next et) }
  { state with
    next := Function.update state.next et none
    p := Function.update state.p et none }

/-- One call. -/
def call (state : EtimerState n) : EtimerCall n → EtimerState n
  | .set current et interval => ocEtimerSet clock current et interval state
  | .resetWithNewInterval current et interval =>
      ocEtimerResetWithNewInterval clock current et interval state
  | .reset current et => ocEtimerReset clock current et state
  | .restart current et => ocEtimerRestart clock current et state
  | .adjust et timediff => ocEtimerAdjust clock et timediff state
  | .stop et => ocEtimerStop clock et state
  | .exit p => state.etimerRemoveProcessPendingTimers p
  | .poll posts => keepPolling clock posts (n + 1) state

end EtimerState

/-- `abandoned` are the timers that the exit of a process took out of the list
and that were not added to it since. -/
structure EtimerRun (n : Nat) where
  state : EtimerState n
  abandoned : Fin n → Bool

namespace EtimerRun

variable {n : Nat}

def initial : EtimerRun n := ⟨.initial, fun _ => false⟩

/-- What a call means for the abandoned timers. -/
def mark (run : EtimerRun n) : EtimerCall n → Fin n → Bool
  | .set _ et _ | .resetWithNewInterval _ et _ | .reset _ et
  | .restart _ et => Function.update run.abandoned et false
  | .adjust _ _ | .stop _ | .poll _ => run.abandoned
  | .exit p => fun et =>
      run.abandoned et || run.state.p et == some p

def step (clock : Nat → UInt64) (run : EtimerRun n) (call : EtimerCall n) :
    EtimerRun n :=
  ⟨run.state.call clock call, run.mark call⟩

end EtimerRun

end IotivityLite
