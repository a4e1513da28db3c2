import StateSpace.Program.State
import StateSpace.Routine

/-!
# Assignments

An assignment gives new values to several variables at once. A program state is never changed: the
assignment makes another one. A dictionary in place of a program state is changed where it is, and the
assignment then gives nothing.
-/

namespace StateSpace

variable {m : Type → Type} [MonadCells m]

/-- The program state on which an operation is asked for. -/
def stateFor (operation : String) (target : Value) : m ProgramState :=
  match ProgramState.ofValue? target with
  | some state => pure state
  | none => MonadCells.fail (.withoutOperation target.kind operation)

/-- Succeeds on the values in which variables can be rebound together. -/
def requireUpdatable (target : Value) : m Unit :=
  match target with
  | .dict _ | .cell _ => pure ()
  | _ => do let _ ← stateFor "update" target

/-- Rebind variables in a value. -/
def updateIn (target : Value) (changes : Table Value) : m Value :=
  match target with
  | .dict _ => pure .null
  | .cell number => do
      MonadCells.change number fun entries => entries.merge changes
      pure .null
  | _ => do
      let state ← stateFor "update" target
      pure (← MonadCells.ofResult (state.update changes)).toValue

/-- Rebind the variables that another value describes. -/
def updateFromIn (target changes : Value) : m Value := do
  let changes ← MonadCells.inspectItems changes
  match target with
  | .dict _ => pure .null
  | .cell number => do
      let added ← MonadCells.ofResult (changes.mergeInto [])
      MonadCells.change number fun entries => entries.merge added
      pure .null
  | _ => do
      let state ← stateFor "update" target
      pure (← MonadCells.ofResult (state.updateFrom changes)).toValue

/-- What a simultaneous assignment gives a variable: a constant, or a function of the program state
before the assignment. -/
inductive Update (m : Type → Type) where
  | constant (value : Value)
  | computed (function : Value → m Value)

namespace Update

/-- The value that an update gives in a program state. -/
def evaluate : Update m → Value → m Value
  | .constant value, _ => pure value
  | .computed function, state => function state

end Update

namespace Routine

/-- The values of several updates in one program state, in order. -/
def evaluateUpdates (state : Value) : Table (Update m) → m (Table Value)
  | [] => pure []
  | (name, update) :: updates => do
      let value ← update.evaluate state
      pure ((name, value) :: (← evaluateUpdates state updates))

/-- Assign updates in a program state: all of them are evaluated before any variable is rebound. -/
def assignIn (updates : Table (Update m)) (state : Value) : m Value := do
  updateIn state (← evaluateUpdates state updates)

/-- The effect of a simultaneous assignment to named variables. -/
def assign (identity : Identity) (updates : List (String × Update m)) : Routine m :=
  let table : Table (Update m) :=
    Table.merge [] (updates.map fun (name, update) => (.str name, update))
  { identity
    name? := some ("assign(" ++ ", ".intercalate (table.keys.map Value.display) ++ ")")
    text := "<function assign>"
    run := assignIn table }

end Routine

end StateSpace
