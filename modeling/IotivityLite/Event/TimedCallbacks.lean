import IotivityLite.Foundation.Run

/-!
# Timed callbacks

The two lists of `oc_event_callback.c` and the loop that calls the callbacks
whose timers have expired.  A callback may call every function of the module
while it runs; the record that is being processed is then not freed but marked,
by three global variables.  Beside the state stands a log of what happens to
records, the latest first.
-/

namespace IotivityLite

/-- `oc_event_callback_t`, with a number for its address. -/
structure EventRecord where
  ref : Nat
  callback : Nat
  data : Nat
  deriving DecidableEq

/-- What happens to a record: it is used, its removal is requested with a hook,
a hook is called for it, it is freed. -/
inductive CallbackLog where
  | touch (ref : Nat)
  | request (ref : Nat) (hook : Option Nat)
  | hook (hook ref : Nat)
  | free (ref : Nat)
  deriving DecidableEq

inductive EventList where
  | timed
  | observe
  deriving DecidableEq

/-- `timed` and `observe` are the lists, `current`, `delete` and `onDelete` the
variables `g_currently_processed_…`. -/
structure EventCallbacks where
  timed : List EventRecord
  observe : List EventRecord
  current : Option Nat
  delete : Bool
  onDelete : Option Nat
  next : Nat
  log : List CallbackLog

namespace EventCallbacks

def initial : EventCallbacks := ⟨[], [], none, false, none, 0, []⟩

def note (state : EventCallbacks) (entry : CallbackLog) : EventCallbacks :=
  { state with log := entry :: state.log }

/-- The hook is called if there is one. -/
def callHook (state : EventCallbacks) (hook : Option Nat) (ref : Nat) :
    EventCallbacks :=
  match hook with
  | none => state
  | some hook => state.note (.hook hook ref)

def records (state : EventCallbacks) : EventList → List EventRecord
  | .timed => state.timed
  | .observe => state.observe

def removeFrom (state : EventCallbacks) (list : EventList) (ref : Nat) :
    EventCallbacks :=
  match list with
  | .timed =>
      { state with
        timed := state.timed.filter fun other => other.ref != ref }
  | .observe =>
      { state with
        observe := state.observe.filter fun other => other.ref != ref }

/-- The record is taken out of the list, the hook is called, and it is
freed. -/
def release (state : EventCallbacks) (list : EventList) (hook : Option Nat)
    (ref : Nat) : EventCallbacks :=
  ((state.removeFrom list ref).callHook hook ref).note (.free ref)

end EventCallbacks

/-- `oc_ri_add_timed_event_callback_ticks`; `memory` tells if there is any. -/
def ocRiAddTimedEventCallback (callback data : Nat) (memory : Bool)
    (state : EventCallbacks) : EventCallbacks :=
  if memory then
    { state with
      timed := state.timed ++ [⟨state.next, callback, data⟩]
      next := state.next + 1 }
  else state

/-- The arguments of `oc_ri_remove_timed_event_callback_by_filter`. -/
structure TimedRemoval where
  callback : Nat
  filter : Nat → Bool
  matchAll : Bool
  onDelete : Option Nat

def TimedRemoval.selects (removal : TimedRemoval) (record : EventRecord) :
    Bool :=
  record.callback == removal.callback && removal.filter record.data

/-- The loop over the list; the flag says that the record that is being
processed is to be deleted. -/
def removeTimedFrom (removal : TimedRemoval) :
    List EventRecord → Bool → EventCallbacks → Bool × EventCallbacks
  | [], wanted, state => (wanted, state)
  | record :: rest, wanted, state =>
      let state := state.note (.touch record.ref)
      if removal.selects record then
        let state := state.note (.request record.ref removal.onDelete)
        if state.current = some record.ref then
          if removal.matchAll then removeTimedFrom removal rest true state
          else (true, state)
        else
          let state := state.release .timed removal.onDelete record.ref
          if removal.matchAll then removeTimedFrom removal rest false state
          else (false, state)
      else removeTimedFrom removal rest wanted state

def ocRiRemoveTimedEventCallbackByFilter (removal : TimedRemoval)
    (state : EventCallbacks) : EventCallbacks :=
  match removeTimedFrom removal state.timed false state with
  | (true, state) =>
      { state with delete := true, onDelete := removal.onDelete }
  | (false, state) => state

/-- `oc_ri_remove_timed_event_callback` -/
def identicalRemoval (data callback : Nat) : TimedRemoval :=
  ⟨callback, fun other => other == data, false, none⟩

/-- `oc_periodic_observe_callback_add`; the callback of a periodic record is
always the same. -/
def ocPeriodicCallbackAdd (resource : Nat) (memory : Bool)
    (state : EventCallbacks) : EventCallbacks :=
  if state.observe.any fun record => record.data == resource then state
  else if memory then
    { state with
      observe := state.observe ++ [⟨state.next, 0, resource⟩]
      next := state.next + 1 }
  else state

/-- `oc_periodic_observe_callback_remove`, which does not look at the record
that is being processed. -/
def ocPeriodicCallbackRemove (resource : Nat) (state : EventCallbacks) :
    EventCallbacks :=
  match state.observe.find? fun record => record.data == resource with
  | none => state
  | some record =>
      (state.note (.request record.ref none)).release .observe none record.ref

/-- What user code does with the module. -/
inductive CallbackAction where
  | add (callback data : Nat) (memory : Bool)
  | remove (removal : TimedRemoval)
  | addPeriodic (resource : Nat) (memory : Bool)
  | removePeriodic (resource : Nat)

def callbackAct (state : EventCallbacks) :
    CallbackAction → EventCallbacks
  | .add callback data memory =>
      ocRiAddTimedEventCallback callback data memory state
  | .remove removal => ocRiRemoveTimedEventCallbackByFilter removal state
  | .addPeriodic resource memory =>
      ocPeriodicCallbackAdd resource memory state
  | .removePeriodic resource => ocPeriodicCallbackRemove resource state

/-- The record whose timer is found expired first, what its callback does, and
whether it returns `OC_EVENT_DONE`. -/
structure CallbackTurn where
  ref : Nat
  actions : List CallbackAction
  done : Bool

/-- Before the callback is called. -/
def beginTurn (list : EventList) (ref : Nat) (state : EventCallbacks) :
    EventCallbacks :=
  let scanned := (state.records list).map fun record =>
    CallbackLog.touch record.ref
  { state with
    current := some ref
    delete := false
    onDelete := none
    log := scanned ++ state.log }

/-- After the callback has returned: the record is removed, or its timer is
started again. -/
def endTurn (list : EventList) (ref : Nat) (done : Bool)
    (state : EventCallbacks) : EventCallbacks :=
  let state := state.note (.touch ref)
  if done || state.delete then
    state.release list state.onDelete ref
  else state

/-- One pass of the loop, from the head of the list to an expired timer. -/
def pollTurn (list : EventList) (state : EventCallbacks)
    (turn : CallbackTurn) : EventCallbacks :=
  if (state.records list).any fun record => record.ref == turn.ref then
    endTurn list turn.ref turn.done
      (runFrom callbackAct (beginTurn list turn.ref state) turn.actions)
  else state

def eventCallbacksPollTimers (list : EventList) (turns : List CallbackTurn)
    (state : EventCallbacks) : EventCallbacks :=
  { runFrom (pollTurn list) state turns with
    current := none
    delete := false
    onDelete := none }

/-- User code runs outside of callbacks, or timers are checked. -/
inductive EventStep where
  | act (action : CallbackAction)
  | check (observe timed : List CallbackTurn)

def eventStep (state : EventCallbacks) : EventStep → EventCallbacks
  | .act action => callbackAct state action
  | .check observe timed =>
      eventCallbacksPollTimers .timed timed
        (eventCallbacksPollTimers .observe observe state)

end IotivityLite
