import StateSpace.Program.Assignment

/-!
# Program graphs

A program graph has locations joined by guarded transitions, and an effect on the program state for
each action. A transition is enabled where its guard holds, and taking it applies the effect of its
action. Guards and effects see the program state before the transition.
-/

namespace StateSpace

/-- A transition that is enabled where its guard holds. -/
structure GuardedTransition (m : Type → Type) where
  guard : Routine m
  action : Value
  target : Value

namespace GuardedTransition

variable {m : Type → Type}

/-- The printed form of a guarded transition. -/
def text (transition : GuardedTransition m) : String :=
  "-[" ++ transition.guard.title ++ "] " ++ transition.action.display ++ "--> " ++
    transition.target.literal

/-- Equality of guarded transitions. Guards are equal only if they are the same routine. -/
instance : BEq (GuardedTransition m) :=
  ⟨fun left right =>
    left.guard == right.guard && left.action == right.action && left.target == right.target⟩

/-- The transitions of a list whose guards hold in a program state. Every guard is asked. -/
def enabledIn [MonadCells m] (state : Value) :
    List (GuardedTransition m) → m (List (GuardedTransition m))
  | [] => pure []
  | transition :: transitions => do
      let enabled ← transition.guard.holds state
      let rest ← enabledIn state transitions
      pure (if enabled then transition :: rest else rest)

end GuardedTransition

/-- A program graph. -/
structure ProgramGraph (m : Type → Type) where
  initialLocations : List Value
  initialState : ProgramState
  transitions : Value → Result (List (GuardedTransition m))
  effect : Value → Result (Routine m)

namespace ProgramGraph

variable {m : Type → Type}

/-- The transitions of a location that are enabled in a program state. -/
def enabled [MonadCells m] (graph : ProgramGraph m) (location state : Value) :
    m (List (GuardedTransition m)) := do
  GuardedTransition.enabledIn state (← MonadCells.ofResult (graph.transitions location))

/-- The program state after an action. -/
def apply [MonadCells m] (graph : ProgramGraph m) (action state : Value) : m Value := do
  (← MonadCells.ofResult (graph.effect action)).run state

/-- The program graph given by tables of transitions and of effects. A location that is missing from
the table has no transitions, and an action that is missing has no effect. -/
def ofTable (initialLocations : List Value) (initialState : ProgramState)
    (table : Table (List (GuardedTransition m))) (effects : Table (Routine m)) : ProgramGraph m where
  initialLocations := initialLocations
  initialState := initialState
  transitions location := do pure ((← table.lookup location).getD [])
  effect action := do
    match ← effects.lookup action with
    | some effect => pure effect
    | none => throw (.undefinedEffect action)

end ProgramGraph

namespace Routine

variable {m : Type → Type} [MonadCells m]

/-- The guard that always holds. -/
def always : Routine m :=
  .builtin "always" fun _ => .ok (.bool true)

/-- The effect that changes nothing. -/
def unchanged : Routine m where
  identity := .builtin "identity"
  name? := some "identity"
  text := "<function identity>"
  run := pure

end Routine

end StateSpace
