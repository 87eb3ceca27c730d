import IotivityLite.Foundation.Circular
import IotivityLite.Foundation.Run

/-!
# The queue of process events

`oc_process.c`: events are posted to a circular array, taken from its front
and handed to their processes one by one, and dropped by a predicate.  With
dynamic allocation the array doubles when it is full, without it a post is
refused.  Beside the queue runs a plain list: what was posted is numbered,
appended, taken from the front and filtered.
-/

namespace IotivityLite

/-- `struct event_data`; no process stands for `OC_PROCESS_BROADCAST`. -/
structure EventData where
  ev : UInt8
  data : Nat
  p : Option Nat
  deriving DecidableEq

/-- The event in cleared memory. -/
def EventData.zero : EventData := ⟨0, 0, none⟩

/-- `g_events`, `g_fevent`, `g_nevents` and `OC_PROCESS_NUMEVENTS`. -/
abbrev EventQueue := Circular EventData

inductive ProcessError where
  | ok
  | full
  deriving DecidableEq

namespace EventQueue

/-- `oc_process_init` -/
def initial : EventQueue := ⟨fun _ => .zero, 0, 0, 10⟩

/-- The loop of `oc_process_post` after the array was enlarged to `capacity`:
`tail` events stand at the end of the old array.  The fuel is the number of
rounds. -/
def moveTail (capacity nevents tail : Nat) :
    (rounds i j : Nat) → (Nat → EventData) → Nat → EventData
  | 0, _, _, events => events
  | rounds + 1, i, j, events =>
      if i < nevents then
        moveTail capacity nevents tail rounds (i + 1) (j + 1)
          (storeSlot (storeSlot events (capacity - tail + j) (events i)) i
            .zero)
      else
        moveTail capacity nevents tail rounds (i + 1) j
          (storeSlot events i .zero)

/-- `realloc` keeps the old array; what follows it is not known. -/
def grow (queue : EventQueue) (fresh : Nat → EventData) : EventQueue :=
  let capacity := queue.capacity <<< 1
  let events := fun index =>
    if index < queue.capacity then queue.slots index else fresh index
  let tail := queue.count - queue.first
  { slots := moveTail capacity queue.count tail
      (capacity - tail - queue.first) queue.first 0 events
    first := capacity - tail
    count := queue.count
    capacity }

/-- The loop of `oc_process_drop`.  Every round looks at another event or drops
one, so that there are at most as many rounds as events. -/
def dropFrom (drops : EventData → Bool) :
    (rounds i : Nat) → EventQueue → EventQueue × Nat
  | 0, _, queue => (queue, 0)
  | rounds + 1, i, queue =>
      if i < queue.count then
        if drops (queue.slots (queue.index i)) then
          let (queue, dropped) := dropFrom drops rounds i (queue.closeGap i)
          (queue, dropped + 1)
        else dropFrom drops rounds (i + 1) queue
      else (queue, 0)

/-- `oc_process_drop` for a process and a predicate. -/
def ocProcessDrop (p : Nat) (dropEvent : UInt8 → Nat → Bool)
    (queue : EventQueue) : EventQueue × Nat :=
  dropFrom (fun event => event.p == some p && dropEvent event.ev event.data)
    queue.count 0 queue

end EventQueue

/-- `aborted` is set by `oc_abort`. -/
structure ProcessState where
  queue : EventQueue
  delivered : List EventData
  aborted : Bool

/-- What `realloc` does: it fails, or there is something behind the array. -/
abbrev ReallocResult := Option (Nat → EventData)

inductive ProcessCall where
  | post (event : EventData) (realloc : ReallocResult)
  | run
  | drop (p : Option Nat) (dropEvent : Option (UInt8 → Nat → Bool))

namespace ProcessState

def initial : ProcessState := ⟨.initial, [], false⟩

/-- `oc_process_post` -/
def ocProcessPost (dynamic : Bool) (event : EventData)
    (realloc : ReallocResult) (state : ProcessState) :
    ProcessState × ProcessError :=
  if state.queue.count = state.queue.capacity then
    if dynamic then
      match realloc with
      | none => ({ state with aborted := true }, .full)
      | some fresh =>
          ({ state with
              queue := (EventQueue.grow state.queue fresh).push event }, .ok)
    else (state, .full)
  else ({ state with queue := state.queue.push event }, .ok)

/-- `do_event`: the front of the queue is handed to its process. -/
def doEvent (state : ProcessState) : ProcessState :=
  if state.queue.count = 0 then state
  else
    { state with
      queue := state.queue.pop
      delivered := state.delivered ++ [state.queue.slots state.queue.first] }

/-- `oc_process_drop` -/
def ocProcessDrop (p : Option Nat)
    (dropEvent : Option (UInt8 → Nat → Bool)) (state : ProcessState) :
    ProcessState × Nat :=
  match p, dropEvent with
  | some p, some dropEvent =>
      let (queue, dropped) := EventQueue.ocProcessDrop p dropEvent state.queue
      ({ state with queue }, dropped)
  | _, _ => (state, 0)

/-- The state after a call, and what the call returns. -/
def call (dynamic : Bool) (state : ProcessState) :
    ProcessCall → ProcessState × ProcessError
  | .post event realloc => state.ocProcessPost dynamic event realloc
  | .run => (state.doEvent, .ok)
  | .drop p dropEvent => ((state.ocProcessDrop p dropEvent).1, .ok)

end ProcessState

/-- An event with the number of its post. -/
abbrev NumberedEvent := Nat × EventData

/-- `posted` are the events that were accepted, in the order of the posts;
they are pending, were delivered or were dropped. -/
structure PostedEvents where
  posted : List NumberedEvent
  pending : List NumberedEvent
  delivered : List NumberedEvent
  dropped : List Nat

namespace PostedEvents

def initial : PostedEvents := ⟨[], [], [], []⟩

def post (event : EventData) (list : PostedEvents) : PostedEvents :=
  { list with
    posted := list.posted ++ [(list.posted.length, event)]
    pending := list.pending ++ [(list.posted.length, event)] }

def deliver (list : PostedEvents) : PostedEvents :=
  match list.pending with
  | [] => list
  | event :: rest =>
      { list with pending := rest, delivered := list.delivered ++ [event] }

/-- The numbers of the pending events that are dropped. -/
def doomed (drops : EventData → Bool) (list : PostedEvents) : List Nat :=
  (list.pending.filter fun event => drops event.2).map (·.1)

def drop (drops : EventData → Bool) (list : PostedEvents) : PostedEvents :=
  { list with
    pending := list.pending.filter fun event => !drops event.2
    dropped := list.dropped ++ list.doomed drops }

/-- What a call and its return value mean for the list. -/
def call (list : PostedEvents) : ProcessCall → ProcessError → PostedEvents
  | .post event _, .ok => list.post event
  | .post _ _, .full => list
  | .run, _ => list.deliver
  | .drop (some p) (some dropEvent), _ =>
      list.drop fun event => event.p == some p && dropEvent event.ev event.data
  | .drop _ _, _ => list

end PostedEvents

/-- The program and the list beside it. -/
structure ProcessRun where
  state : ProcessState
  list : PostedEvents

namespace ProcessRun

def initial : ProcessRun := ⟨.initial, .initial⟩

/-- Nothing happens once the program was aborted. -/
def step (dynamic : Bool) (run : ProcessRun) (call : ProcessCall) :
    ProcessRun :=
  if run.state.aborted then run
  else
    ⟨(run.state.call dynamic call).1,
      run.list.call call (run.state.call dynamic call).2⟩

end ProcessRun

end IotivityLite
