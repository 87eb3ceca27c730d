import Mathlib.Algebra.Group.Int.Defs
import Mathlib.Algebra.Group.Nat.Defs
import Mathlib.Data.List.Basic

/-!
# Runs of a deterministic machine

A machine is a step function on states and inputs, a run a list of inputs.
`Along` says that every step of a run meets a condition on the state before
the step and the input.  The invariant rule turns a step lemma under such a
condition into a statement about whole runs.
-/

namespace IotivityLite

variable {State Input : Type}

/-- The state after a run. -/
def runFrom (step : State → Input → State) (state : State)
    (inputs : List Input) : State :=
  inputs.foldl step state

/-- Every step of the run meets the condition. -/
def Along (step : State → Input → State) (condition : State → Input → Prop) :
    State → List Input → Prop
  | _, [] => True
  | state, input :: inputs =>
      condition state input ∧ Along step condition (step state input) inputs

/-- What the steps of a run put out. -/
def runOutputs {Output : Type} (step : State → Input → State)
    (output : State → Input → Option Output) :
    State → List Input → List Output
  | _, [] => []
  | state, input :: inputs =>
      (output state input).toList ++
        runOutputs step output (step state input) inputs

instance Along.decidable (step : State → Input → State)
    (condition : State → Input → Prop)
    [∀ state input, Decidable (condition state input)] :
    ∀ state inputs, Decidable (Along step condition state inputs)
  | _, [] => isTrue trivial
  | state, input :: inputs =>
      have := Along.decidable step condition (step state input) inputs
      inferInstanceAs (Decidable (condition state input ∧
        Along step condition (step state input) inputs))

section Rules

variable {step : State → Input → State} {condition : State → Input → Prop}
  {state : State}

@[simp] theorem runFrom_nil : runFrom step state [] = state := rfl

variable {inputs : List Input}

@[simp] theorem runFrom_cons {input : Input} :
    runFrom step state (input :: inputs) =
      runFrom step (step state input) inputs := rfl

theorem along_cons {input : Input} :
    Along step condition state (input :: inputs) ↔
      condition state input ∧
        Along step condition (step state input) inputs := Iff.rfl

theorem runFrom_append (first second : List Input) :
    runFrom step state (first ++ second) =
      runFrom step (runFrom step state first) second :=
  List.foldl_append

theorem along_append {first second : List Input} :
    Along step condition state (first ++ second) ↔
      Along step condition state first ∧
        Along step condition (runFrom step state first) second := by
  induction first generalizing state with
  | nil => exact (true_and _).to_iff.symm
  | cons input inputs ih =>
      rw [List.cons_append, along_cons, ih, runFrom_cons, along_cons,
        and_assoc]

theorem along_iff_forall_append :
    Along step condition state inputs ↔
      ∀ first input rest, first ++ input :: rest = inputs →
        condition (runFrom step state first) input := by
  constructor
  · rintro along first input rest rfl
    exact (along_append.mp along).2.1
  · intro every
    induction inputs generalizing state with
    | nil => trivial
    | cons input inputs ih =>
        refine ⟨every [] input inputs rfl, ih ?_⟩
        intro first later rest same
        exact every (input :: first) later rest (congrArg _ same)

theorem Along.invariant {invariant : State → Prop} {inputs : List Input}
    (along : Along step condition state inputs)
    (start : invariant state)
    (preserved : ∀ before input, invariant before → condition before input →
      invariant (step before input)) :
    invariant (runFrom step state inputs) := by
  induction inputs generalizing state with
  | nil => exact start
  | cons input inputs ih =>
      obtain ⟨here, later⟩ := along
      exact ih later (preserved state input start here)

theorem Along.and_forall {holds : Input → Prop}
    (along : Along step condition state inputs)
    (every : ∀ input ∈ inputs, holds input) :
    Along step (fun before input => condition before input ∧ holds input)
      state inputs := by
  induction inputs generalizing state with
  | nil => trivial
  | cons input inputs ih =>
      obtain ⟨here, later⟩ := along
      rw [List.forall_mem_cons] at every
      exact ⟨⟨here, every.1⟩, ih later every.2⟩

theorem Along.imp {stronger : State → Input → Prop} {invariant : State → Prop}
    {inputs : List Input} (along : Along step stronger state inputs)
    (start : invariant state)
    (preserved : ∀ before input, invariant before → stronger before input →
      invariant (step before input))
    (implied : ∀ before input, invariant before → stronger before input →
      condition before input) : Along step condition state inputs := by
  induction inputs generalizing state with
  | nil => trivial
  | cons input inputs ih =>
      obtain ⟨here, later⟩ := along
      exact ⟨implied state input start here,
        ih later (preserved state input start here)⟩

theorem Along.runFrom_congr {other : State → Input → State}
    (along : Along step condition state inputs)
    (same : ∀ before input, condition before input →
      step before input = other before input) :
    runFrom step state inputs = runFrom other state inputs := by
  induction inputs generalizing state with
  | nil => rfl
  | cons input inputs ih =>
      obtain ⟨here, later⟩ := along
      rw [runFrom_cons, runFrom_cons, ← same state input here]
      exact ih later

theorem runOutputs_cons {Output : Type} {output : State → Input → Option Output}
    {input : Input} :
    runOutputs step output state (input :: inputs) =
      (output state input).toList ++
        runOutputs step output (step state input) inputs := rfl

theorem forall_mem_runOutputs_iff {Output : Type}
    {output : State → Input → Option Output} {good : Output → Prop} :
    (∀ result ∈ runOutputs step output state inputs, good result) ↔
      Along step (fun before input =>
        ∀ result, output before input = some result → good result)
        state inputs := by
  induction inputs generalizing state with
  | nil => exact iff_of_true (fun _ member => by cases member) trivial
  | cons input inputs ih =>
      rw [along_cons, ← ih, runOutputs_cons, List.forall_mem_append]
      simp only [Option.mem_toList]

theorem Along.congr_iff {other : State → Input → Prop}
    (same : ∀ before input, condition before input ↔ other before input) :
    Along step condition state inputs ↔ Along step other state inputs := by
  induction inputs generalizing state with
  | nil => exact Iff.rfl
  | cons input inputs ih => rw [along_cons, along_cons, same, ih]

theorem Along.congr_iff_of_invariant {other : State → Input → Prop}
    {invariant : State → Prop} {inputs : List Input}
    (start : invariant state)
    (same : ∀ before input, invariant before →
      (condition before input ↔ other before input))
    (preserved : ∀ before input, invariant before → other before input →
      invariant (step before input)) :
    Along step condition state inputs ↔ Along step other state inputs := by
  induction inputs generalizing state with
  | nil => exact Iff.rfl
  | cons input inputs ih =>
      rw [along_cons, along_cons, same state input start]
      apply and_congr_right
      intro here
      exact ih (preserved state input start here)

theorem invariant_runFrom {invariant : State → Prop}
    (inputs : List Input) (start : invariant state)
    (preserved : ∀ before input, invariant before →
      invariant (step before input)) :
    invariant (runFrom step state inputs) := by
  induction inputs generalizing state with
  | nil => exact start
  | cons input inputs ih => exact ih (preserved state input start)

theorem invariant_runFrom_of_mem {invariant : State → Prop}
    {inputs : List Input} (start : invariant state)
    (preserved : ∀ before, ∀ input ∈ inputs, invariant before →
      invariant (step before input)) :
    invariant (runFrom step state inputs) := by
  induction inputs generalizing state with
  | nil => exact start
  | cons input inputs ih =>
      refine ih (preserved state input List.mem_cons_self start) ?_
      intro before other member
      exact preserved before other (List.mem_cons_of_mem input member)

end Rules

end IotivityLite
