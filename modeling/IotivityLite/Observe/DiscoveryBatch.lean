import IotivityLite.Security.AccessCheck

/-!
# The queue of the batch observers of `/oic/res`

Changes of resources are queued for every observer of the batch interface of
the discovery resource, in `observe.c`, and sent by
`coap_process_discovery_batch_observers`.  The entries of an observer leave the
queue while their representations are written into the buffer, all but the
first one, which leaves it in the end.

Beside the queue stands what is owed: the entries that have been recorded and
not yet been part of a notification that was handed over.  An entry without a
representation is not part of any.
-/

namespace IotivityLite

/-- `discovery` is set for `/oic/res` itself. -/
structure DiscoveredResource where
  ref : Nat
  uri : Bytes
  discovery : Bool

/-- A changed resource stands with its address, a removed one with its
path. -/
inductive BatchItem where
  | changed (resource : Nat)
  | removed (uri : Bytes)
  deriving DecidableEq

/-- `coap_batch_observer_t` -/
structure BatchEntry where
  observer : Nat
  item : BatchItem
  deriving DecidableEq

structure BatchQueue where
  queue : List BatchEntry
  owed : List BatchEntry

def BatchQueue.initial : BatchQueue := ⟨[], []⟩

/-- An observer of the list: `batch` says that it observes the batch interface
of the discovery resource, `permitted` that it may read the resource. -/
structure BatchObserver where
  ref : Nat
  batch : Bool
  permitted : Bool

def cmpAddBatchObserverResource (entry : BatchEntry) (observer : Nat)
    (resource : DiscoveredResource) (removed : Bool) : Bool :=
  entry.observer == observer &&
    (entry.item == .changed resource.ref ||
      removed && entry.item == .removed resource.uri)

def DiscoveredResource.item (resource : DiscoveredResource) (removed : Bool) :
    BatchItem :=
  if removed then .removed resource.uri else .changed resource.ref

/-- The observers that `coap_add_discovery_batch_observer` does not skip. -/
def BatchObserver.concerns (observer : BatchObserver)
    (resource : DiscoveredResource) (removed : Bool) : Bool :=
  observer.batch && !(removed && resource.uri == []) && observer.permitted

/-- The queue after a call, the entries that it recorded or found, and if it
reports that it has added one. -/
structure BatchAdded where
  queue : List BatchEntry
  recorded : List BatchEntry
  added : Bool

/-- The loop over the observers, which ends without memory. -/
def addBatchEntries (resource : DiscoveredResource) (removed : Bool)
    (memory : Nat → Bool) : List BatchObserver → BatchAdded → BatchAdded
  | [], state => state
  | observer :: rest, state =>
      if observer.concerns resource removed then
        match state.queue.find? fun entry =>
            cmpAddBatchObserverResource entry observer.ref resource removed with
        | some found =>
            addBatchEntries resource removed memory rest
              { state with recorded := found :: state.recorded }
        | none =>
            if memory observer.ref then
              let entry : BatchEntry :=
                ⟨observer.ref, resource.item removed⟩
              addBatchEntries resource removed memory rest
                ⟨state.queue ++ [entry], entry :: state.recorded, true⟩
            else { state with added := false }
      else addBatchEntries resource removed memory rest state

def coapAddDiscoveryBatchObserver (resource : DiscoveredResource)
    (removed : Bool) (observers : List BatchObserver) (memory : Nat → Bool)
    (queue : List BatchEntry) : BatchAdded :=
  if resource.discovery then ⟨queue, [], false⟩
  else addBatchEntries resource removed memory observers ⟨queue, [], false⟩

def coapRemoveDiscoveryBatchObservers (resource : DiscoveredResource)
    (queue : List BatchEntry) : List BatchEntry :=
  queue.filter fun entry => entry.item != .changed resource.ref

/-- What is owed for a resource is, after it was removed, the news that it
was. -/
def BatchEntry.supersede (resource : DiscoveredResource)
    (entry : BatchEntry) : BatchEntry :=
  if entry.item = .changed resource.ref then
    { entry with item := .removed resource.uri }
  else entry

/-- `failed` stands for a negative result of `notify_batch_observer`; with
`unsent` the message could not be serialised and the result is positive. -/
inductive NotifyOutcome where
  | failed
  | unsent
  | sent
  deriving DecidableEq

/-- What a dispatch finds: `busy` are the observers with a transfer in
progress, `represented` the entries with a representation for their observer,
`encoded` tells for which observers the payload could be written. -/
structure BatchDispatch where
  buffer : Bool
  busy : Nat → Bool
  represented : BatchEntry → Bool
  encoded : Nat → Bool
  notify : Nat → NotifyOutcome

/-- The entry with the later ones of its observer. -/
def BatchEntry.included (entry : BatchEntry) (rest : List BatchEntry) :
    List BatchEntry :=
  entry :: rest.filter fun other => other.observer == entry.observer

/-- The later entries of other observers. -/
def BatchEntry.others (entry : BatchEntry) (rest : List BatchEntry) :
    List BatchEntry :=
  rest.filter fun other => other.observer != entry.observer

theorem length_skipped_lt {queue others rest : List BatchEntry}
    {entry : BatchEntry} {busy : BatchEntry → Bool}
    (found : queue.dropWhile busy = entry :: rest)
    (shorter : others.length ≤ rest.length) :
    (queue.takeWhile busy ++ others).length < queue.length := by
  have whole := congrArg List.length
    (@List.takeWhile_append_dropWhile _ busy queue)
  rw [found, List.length_append, List.length_cons] at whole
  rw [List.length_append]
  omega

/-- The loop of `coap_process_discovery_batch_observers`.  It begins again at
the head of the list after every observer. -/
def processBatchObservers (env : BatchDispatch) (state : BatchQueue) :
    BatchQueue :=
  match _ : state.queue.dropWhile fun entry => env.busy entry.observer with
  | [] => state
  | entry :: rest =>
      let skipped := state.queue.takeWhile fun entry => env.busy entry.observer
      let left := skipped ++ entry.others rest
      let told := state.owed.filter fun other =>
        !((entry.included rest).contains other && env.represented other)
      if (entry.included rest).any env.represented then
        if env.encoded entry.observer then
          match env.notify entry.observer with
          | .failed => ⟨skipped ++ entry :: entry.others rest, state.owed⟩
          | .unsent => processBatchObservers env ⟨left, state.owed⟩
          | .sent => processBatchObservers env ⟨left, told⟩
        else processBatchObservers env ⟨left, state.owed⟩
      else processBatchObservers env ⟨left, state.owed⟩
termination_by state.queue.length
decreasing_by
  all_goals exact length_skipped_lt ‹_› (List.length_filter_le _ _)

def coapProcessDiscoveryBatchObservers (env : BatchDispatch)
    (state : BatchQueue) : BatchQueue :=
  if env.buffer then processBatchObservers env state else state

/-- A resource changes or is removed, an observer is gone, the queue is
dispatched.  `oc_notify_resource_removed` takes the entries of the resource
out before it records the removal. -/
inductive BatchEvent where
  | changed (resource : DiscoveredResource) (observers : List BatchObserver)
      (memory : Nat → Bool)
  | removed (resource : DiscoveredResource) (observers : List BatchObserver)
      (memory : Nat → Bool)
  | gone (observer : Nat)
  | dispatch (env : BatchDispatch)

def batchStep (state : BatchQueue) : BatchEvent → BatchQueue
  | .changed resource observers memory =>
      let result := coapAddDiscoveryBatchObserver resource false observers
        memory state.queue
      ⟨result.queue, result.recorded ++ state.owed⟩
  | .removed resource observers memory =>
      let result := coapAddDiscoveryBatchObserver resource true observers
        memory (coapRemoveDiscoveryBatchObservers resource state.queue)
      ⟨result.queue,
        result.recorded ++ state.owed.map (·.supersede resource)⟩
  | .gone observer =>
      ⟨state.queue.filter fun entry => entry.observer != observer,
        state.owed.filter fun entry => entry.observer != observer⟩
  | .dispatch env => coapProcessDiscoveryBatchObservers env state

end IotivityLite
