import TrainingLoop.Error
/-!
# Stateful computations

A computation that may fail, and that reads and changes a state. The changes made before a
failure stay.
-/

namespace TrainingLoop

/-- A computation with state that survives failures. -/
abbrev Stateful (S : Type) (α : Type) : Type := ExceptT Error (StateM S) α

namespace Stateful

variable {S T α : Type}

/-- The result of a computation and the state after it. -/
def runOn (action : Stateful S α) (state : S) : Except Error α × S := action.run.run state

/-- The computation with a given result and state after it. -/
def of (f : S → Except Error α × S) : Stateful S α := ExceptT.mk fun state => f state

/-- A computation on a part of the state. -/
def onPart (get : S → T) (put : T → S → S) (action : Stateful T α) : Stateful S α :=
  of fun state =>
    let (result, part) := action.runOn (get state)
    (result, put part state)

/-- A computation whose failure is part of its result. -/
def attempt (action : Stateful S α) : Stateful S (Except Error α) :=
  of fun state =>
    let (result, state) := action.runOn state
    (.ok result, state)

/-- A computation whose failure is told in other words. -/
def mapError (f : Error → Error) (action : Stateful S α) : Stateful S α :=
  of fun state =>
    let (result, state) := action.runOn state
    (result.mapError f, state)

/-- A computation whose failure is noted in the state. -/
def noteFailure (note : Error → S → S) (action : Stateful S α) : Stateful S α :=
  of fun state =>
    match action.runOn state with
    | (.ok a, state) => (.ok a, state)
    | (.error e, state) => (.error e, note e state)

@[simp] theorem runOn_of (f : S → Except Error α × S) (state : S) : (of f).runOn state = f state :=
  rfl

end Stateful

end TrainingLoop
