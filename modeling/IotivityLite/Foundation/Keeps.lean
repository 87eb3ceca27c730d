import Mathlib.Logic.Basic

/-!
# Invariants of state-passing programs

A program that reads and writes a state keeps an invariant if it leads from
states that satisfy the invariant to such states again.  Programs are put
together from smaller ones by `>>=` and by tests, and so are the proofs.
-/

namespace IotivityLite

variable {State Result Next : Type} {invariant : State → Prop}

/-- The state after a program. -/
def finalState (program : StateM State Result) (state : State) : State :=
  (Id.run (StateT.run program state)).2

/-- The result of a program. -/
def finalResult (program : StateM State Result) (state : State) : Result :=
  (Id.run (StateT.run program state)).1

def Keeps (invariant : State → Prop) (program : StateM State Result) : Prop :=
  ∀ state, invariant state → invariant (finalState program state)

/-- A program without a result that runs under a condition. -/
def onlyIf (condition : Bool) (program : StateM State PUnit) :
    StateM State PUnit :=
  if condition then program else pure ⟨⟩

@[simp] theorem finalState_pure (result : Result) (state : State) :
    finalState (pure result) state = state := rfl

@[simp] theorem finalState_modify (change : State → State) (state : State) :
    finalState (modify change) state = change state := rfl

@[simp] theorem finalState_bind (program : StateM State Result)
    (next : Result → StateM State Next) (state : State) :
    finalState (program >>= next) state =
      finalState (next (finalResult program state))
        (finalState program state) := rfl

@[simp] theorem finalState_get (state : State) :
    finalState get state = state := rfl

@[simp] theorem finalResult_get (state : State) :
    finalResult get state = state := rfl

theorem keeps_pure (result : Result) :
    Keeps invariant (pure result : StateM State Result) := by
  intro state holds
  exact holds

theorem keeps_get : Keeps invariant (get : StateM State State) := by
  intro state holds
  exact holds

theorem keeps_modify {change : State → State}
    (keeps : ∀ state, invariant state → invariant (change state)) :
    Keeps invariant (modify change : StateM State PUnit) := keeps

theorem keeps_bind {program : StateM State Result}
    {next : Result → StateM State Next}
    (first : Keeps invariant program)
    (second : ∀ result, Keeps invariant (next result)) :
    Keeps invariant (program >>= next) := by
  intro state holds
  exact second _ _ (first state holds)

theorem keeps_ite {condition : Prop} [Decidable condition]
    {yes no : StateM State Result}
    (left : Keeps invariant yes) (right : Keeps invariant no) :
    Keeps invariant (if condition then yes else no) := by
  split
  · exact left
  · exact right

theorem keeps_onlyIf {condition : Bool} {program : StateM State PUnit}
    (keeps : Keeps invariant program) :
    Keeps invariant (onlyIf condition program) :=
  keeps_ite keeps (keeps_pure _)

end IotivityLite
