import IotivityLite.Foundation.Ring
import IotivityLite.Foundation.Run

/-!
# The request history

`oc_coap_check_if_duplicate`: the message ids and device indices of the last 25
non-confirmable requests, in two arrays that are cleared to zero.  A request
with the id zero for the first device is therefore taken for a duplicate until
25 others have been recorded.  The arrays have 32 bits for an index that has
64.
-/

namespace IotivityLite

def ocRequestHistorySize : Nat := 25

/-- `mid` and `endpoint->device` -/
structure NonConfirmableRequest where
  mid : UInt16
  device : UInt64
  deriving DecidableEq

/-- `g_history`, `g_history_dev` and `g_idx`; the index is reduced modulo the
size whenever it is written. -/
structure RequestHistory where
  history : Fin 25 → UInt16
  historyDev : Fin 25 → UInt32
  idx : Fin 25

namespace RequestHistory

def ocRequestHistoryInit : RequestHistory :=
  ⟨fun _ => 0, fun _ => 0, 0⟩

def ocCoapCheckIfDuplicate (history : RequestHistory)
    (request : NonConfirmableRequest) : Bool :=
  (List.finRange 25).any fun i =>
    history.history i == request.mid &&
      history.historyDev i == request.device.toUInt32

def record (history : RequestHistory) (request : NonConfirmableRequest) :
    RequestHistory where
  history := Function.update history.history history.idx request.mid
  historyDev :=
    Function.update history.historyDev history.idx request.device.toUInt32
  idx := history.idx + 1

end RequestHistory

/-- The history after the requests that were recorded, the latest first. -/
structure HistoryState where
  history : RequestHistory
  recorded : List NonConfirmableRequest

namespace HistoryState

def initial : HistoryState := ⟨.ocRequestHistoryInit, []⟩

def drops (state : HistoryState) (request : NonConfirmableRequest) : Bool :=
  state.history.ocCoapCheckIfDuplicate request

/-- `coap_receive_init_response` for a non-confirmable request. -/
def receive (state : HistoryState) (request : NonConfirmableRequest) :
    HistoryState :=
  if state.drops request then state
  else ⟨state.history.record request, request :: state.recorded⟩

/-- The state after the requests of a run. -/
def after (requests : List NonConfirmableRequest) : HistoryState :=
  runFrom receive initial requests

/-- The requests that the history should still know. -/
def recent (state : HistoryState) : List NonConfirmableRequest :=
  state.recorded.take ocRequestHistorySize

end HistoryState

/-- The device index as it is stored. -/
def NonConfirmableRequest.key (request : NonConfirmableRequest) :
    UInt16 × UInt32 :=
  (request.mid, request.device.toUInt32)

/-- A request that is not known is told from all that are, and from the zeros
of a history that is not full. -/
structure HistoryState.TellsApart (state : HistoryState)
    (request : NonConfirmableRequest) : Prop where
  device : ∀ other ∈ state.recent, other.key ≠ request.key
  zero : state.recorded.length < ocRequestHistorySize →
    request.key ≠ (0, 0)

namespace RequestHistory

/-- The slot written last is the one before `g_idx`. -/
def ring (history : RequestHistory) : Ring 25 (UInt16 × UInt32) :=
  ⟨fun slot => (history.history slot, history.historyDev slot),
    history.idx - 1⟩

theorem ring_record (history : RequestHistory)
    (request : NonConfirmableRequest) :
    (history.record request).ring = history.ring.push request.key := by
  have next : history.idx - 1 + 1 = history.idx := by abel
  have index : history.idx + 1 - 1 = history.idx := by abel
  unfold ring Ring.push
  congr 1
  · funext slot
    rw [next]
    by_cases same : slot = history.idx
    · subst same
      simp [record, NonConfirmableRequest.key]
    · simp [record, Function.update_of_ne same]
  · rw [next]
    exact index

theorem check_iff (history : RequestHistory)
    (request : NonConfirmableRequest) :
    history.ocCoapCheckIfDuplicate request = true ↔
      ∃ slot, history.ring.slots slot = request.key := by
  simp [ocCoapCheckIfDuplicate, ring, NonConfirmableRequest.key]

end RequestHistory

namespace HistoryState

/-- The arrays mirror what was recorded. -/
def Faithful (state : HistoryState) : Prop :=
  state.history.ring.Mirrors (state.recorded.map NonConfirmableRequest.key)

theorem faithful_initial : initial.Faithful :=
  Ring.mirrors_nil fun _ => rfl

theorem Faithful.receive {state : HistoryState} (faithful : state.Faithful)
    (request : NonConfirmableRequest) : (state.receive request).Faithful := by
  unfold HistoryState.receive
  split_ifs
  · exact faithful
  · unfold Faithful
    rw [RequestHistory.ring_record, List.map_cons]
    exact Ring.Mirrors.push faithful request.key

theorem faithful_after (requests : List NonConfirmableRequest) :
    (after requests).Faithful := by
  apply invariant_runFrom requests faithful_initial
  intro before request faithful
  exact faithful.receive request

theorem Faithful.drops_iff {state : HistoryState} (faithful : state.Faithful)
    (request : NonConfirmableRequest) :
    state.drops request = true ↔
      (∃ other ∈ state.recent, other.key = request.key) ∨
        state.recorded.length < ocRequestHistorySize ∧
          request.key = (0, 0) := by
  rw [drops, RequestHistory.check_iff, faithful.exists_slot_iff_mem,
    ← List.map_take, List.mem_map, List.length_map]
  exact Iff.rfl

end HistoryState

/-- After every run of requests, a request is dropped exactly if it is among
the last ones recorded, as long as one that is not among them can be told from
them and from the zeros. -/
theorem duplicate_iff_recent_iff (requests : List NonConfirmableRequest)
    (request : NonConfirmableRequest) :
    ((HistoryState.after requests).drops request = true ↔
        request ∈ (HistoryState.after requests).recent) ↔
      (request ∉ (HistoryState.after requests).recent →
        (HistoryState.after requests).TellsApart request) := by
  have faithful := HistoryState.faithful_after requests
  generalize HistoryState.after requests = state at faithful
  rw [faithful.drops_iff]
  by_cases known : request ∈ state.recent
  · refine iff_of_true ⟨fun _ => known, fun _ => ?_⟩ fun new => ?_
    · exact .inl ⟨request, known, rfl⟩
    · exact absurd known new
  · constructor
    · intro exactly _
      have accepted := exactly.not.mpr known
      refine ⟨?_, ?_⟩
      · intro other recent same
        exact accepted (.inl ⟨other, recent, same⟩)
      · intro few zero
        exact accepted (.inr ⟨few, zero⟩)
    · intro apart
      refine iff_of_false ?_ known
      rintro (⟨other, recent, same⟩ | ⟨few, zero⟩)
      · exact (apart known).device other recent same
      · exact (apart known).zero few zero

/-- The first request of all is dropped if it has the id zero and is for the
first device. -/
theorem first_request_dropped :
    ¬((HistoryState.after []).drops ⟨0, 0⟩ = true ↔
      ⟨0, 0⟩ ∈ (HistoryState.after []).recent) := by
  decide

end IotivityLite
