import IotivityLite.Foundation.Ring
import IotivityLite.Foundation.Run

/-!
# The OSCORE replay window

`check_if_replayed_request` of `oc_oscore_engine.c`: a circular array of the
Partial IVs of accepted requests, zero when the context is created.  The
machine below handles a sequence of requests against one recipient context
and records which Partial IVs were accepted.
-/

namespace IotivityLite

def oscoreReplayWindowSize : Nat := 32

instance neZero_replayWindowSize : NeZero 32 := ⟨by decide⟩

/-- `rwin` and `rwin_idx`; the index is reduced modulo the size whenever it
is written. -/
abbrev ReplayWindow := Ring 32 UInt64

/-- The slots the check for a Partial IV of zero looks at are both unused, or
hold a zero. -/
def ReplayWindow.zeroAtEnds (window : ReplayWindow) : Bool :=
  window.slots 0 == 0 && window.slots 31 == 0

/-- `true` for a replayed request.  A fresh one is stored at once. -/
def checkIfReplayedRequest (window : ReplayWindow) (piv : UInt64) :
    Bool × ReplayWindow :=
  if piv = 0 ∧ window.zeroAtEnds then (false, window.push piv)
  else if (List.finRange 32).any fun i => window.slots i == piv then
    (true, window)
  else (false, window.push piv)

/-- A context that has accepted the listed Partial IVs, the latest first. -/
structure ReplayState where
  window : ReplayWindow
  accepted : List UInt64

namespace ReplayState

def initial : ReplayState := ⟨Ring.initial, []⟩

def handle (state : ReplayState) (piv : UInt64) : ReplayState :=
  match checkIfReplayedRequest state.window piv with
  | (true, window) => ⟨window, state.accepted⟩
  | (false, window) => ⟨window, piv :: state.accepted⟩

/-- The Partial IV is new, or the window still has it and looks at it: it is
one of the last 32 accepted ones, and not a zero while the slots at both ends
hold zeros. -/
def Remembers (state : ReplayState) (piv : UInt64) : Prop :=
  piv ∈ state.accepted →
    piv ∈ state.accepted.take oscoreReplayWindowSize ∧
      ¬ (piv = 0 ∧ state.window.zeroAtEnds)

end ReplayState

section Request

variable {state : ReplayState} {piv : UInt64}

private theorem any_slot_iff (window : ReplayWindow) (piv : UInt64) :
    ((List.finRange 32).any fun i => window.slots i == piv) = true ↔
      ∃ slot, window.slots slot = piv := by
  simp [List.any_eq_true]

theorem checkIfReplayedRequest_eq_true_iff (window : ReplayWindow)
    (piv : UInt64) :
    (checkIfReplayedRequest window piv).1 = true ↔
      (∃ slot, window.slots slot = piv) ∧
        ¬ (piv = 0 ∧ window.zeroAtEnds) := by
  unfold checkIfReplayedRequest
  split_ifs with zero found
  · simp [zero]
  · rw [any_slot_iff] at found
    simp [found, zero]
  · rw [any_slot_iff] at found
    simp [found]

theorem checkIfReplayedRequest_snd (window : ReplayWindow) (piv : UInt64) :
    (checkIfReplayedRequest window piv).2 =
      if (checkIfReplayedRequest window piv).1 then window
      else window.push piv := by
  unfold checkIfReplayedRequest
  split_ifs <;> simp_all

theorem ReplayState.handle_eq (state : ReplayState) (piv : UInt64) :
    state.handle piv =
      if (checkIfReplayedRequest state.window piv).1 then state
      else ⟨state.window.push piv, piv :: state.accepted⟩ := by
  have stored := checkIfReplayedRequest_snd state.window piv
  unfold ReplayState.handle
  rcases result : checkIfReplayedRequest state.window piv with ⟨replayed, next⟩
  rw [result] at stored
  cases replayed with
  | true =>
      obtain rfl : next = state.window := stored
      rfl
  | false =>
      obtain rfl : next = state.window.push piv := stored
      rfl

/-- The window mirrors the accepted Partial IVs. -/
def ReplayState.Faithful (state : ReplayState) : Prop :=
  state.window.Mirrors state.accepted

theorem ReplayState.faithful_initial : ReplayState.initial.Faithful :=
  Ring.mirrors_initial

theorem ReplayState.Faithful.handle (faithful : state.Faithful)
    (piv : UInt64) : (state.handle piv).Faithful := by
  rw [ReplayState.handle_eq]
  split_ifs with replayed
  · exact faithful
  · exact Ring.Mirrors.push faithful piv

theorem ReplayState.Faithful.accepts_again_iff (faithful : state.Faithful)
    (earlier : piv ∈ state.accepted) :
    (checkIfReplayedRequest state.window piv).1 = false ↔
      ¬ state.Remembers piv := by
  have dropped := checkIfReplayedRequest_eq_true_iff state.window piv
  have inWindow : (∃ slot, state.window.slots slot = piv) ↔
      piv ∈ state.accepted.take oscoreReplayWindowSize := by
    constructor
    · intro found
      by_cases filled : oscoreReplayWindowSize ≤ state.accepted.length
      · exact Ring.Mirrors.mem_of_slot faithful filled found
      · rw [List.take_of_length_le (by omega)]
        exact earlier
    · intro recent
      exact Ring.Mirrors.exists_slot_of_mem faithful recent
  rw [← Bool.not_eq_true, dropped, inWindow]
  unfold ReplayState.Remembers
  constructor
  · intro accepted remembers
    exact accepted (remembers earlier)
  · intro forgotten remembered
    exact forgotten fun _ => remembered

end Request

section Runs

open ReplayState

variable {state : ReplayState}

theorem handle_nodup {piv : UInt64} (faithful : state.Faithful)
    (distinct : state.accepted.Nodup) (remembers : state.Remembers piv) :
    (state.handle piv).accepted.Nodup := by
  rw [handle_eq]
  by_cases replayed : (checkIfReplayedRequest state.window piv).1 = true
  · rw [if_pos replayed]
    exact distinct
  · rw [if_neg replayed]
    refine List.nodup_cons.mpr ⟨?_, distinct⟩
    intro earlier
    have again := (faithful.accepts_again_iff earlier).mp
      (Bool.not_eq_true _ ▸ replayed)
    exact again remembers

theorem handle_not_nodup {piv : UInt64} (faithful : state.Faithful)
    (forgets : ¬ state.Remembers piv) :
    ¬ (state.handle piv).accepted.Nodup := by
  have earlier : piv ∈ state.accepted := by
    by_contra fresh
    exact forgets fun present => absurd present fresh
  have accepted := (faithful.accepts_again_iff earlier).mpr forgets
  rw [handle_eq, if_neg (by simp [accepted])]
  intro distinct
  exact (List.nodup_cons.mp distinct).1 earlier

theorem accepted_suffix_runFrom (state : ReplayState)
    (pivs : List UInt64) :
    state.accepted <:+ (runFrom handle state pivs).accepted := by
  induction pivs generalizing state with
  | nil => exact List.suffix_refl _
  | cons piv pivs ih =>
      have step : state.accepted <:+ (state.handle piv).accepted := by
        rw [handle_eq]
        split_ifs
        · exact List.suffix_refl _
        · exact List.suffix_cons piv state.accepted
      exact step.trans (ih (state.handle piv))

theorem accepted_nodup_iff_along (pivs : List UInt64)
    (faithful : state.Faithful) (distinct : state.accepted.Nodup) :
    (runFrom handle state pivs).accepted.Nodup ↔
      Along handle Remembers state pivs := by
  induction pivs generalizing state with
  | nil => simpa [Along] using distinct
  | cons piv pivs ih =>
      rw [runFrom_cons, Along]
      by_cases remembers : state.Remembers piv
      · rw [ih (faithful.handle piv)
          (handle_nodup faithful distinct remembers)]
        exact (and_iff_right remembers).symm
      · have repeated := handle_not_nodup faithful remembers
        constructor
        · intro later
          have suffix := accepted_suffix_runFrom (state.handle piv) pivs
          exact absurd (later.sublist suffix.sublist) repeated
        · intro along
          exact absurd along.1 remembers

/-- Over every run of requests against a fresh context, no Partial IV is
accepted twice if and only if every request meets the window while it
remembers. -/
theorem accepted_nodup_iff (pivs : List UInt64) :
    (runFrom handle initial pivs).accepted.Nodup ↔
      Along handle Remembers initial pivs :=
  accepted_nodup_iff_along pivs faithful_initial List.nodup_nil

/-- Zero is accepted twice in a row, and any Partial IV again after 32
others. -/
theorem accepted_again :
    (runFrom handle initial [0, 0]).accepted = [0, 0] ∧
      ¬ (runFrom handle initial
        ((List.range' 1 33).map UInt64.ofNat ++ [1])).accepted.Nodup := by
  decide +kernel

end Runs

end IotivityLite
