import StateSpace.Notice
import StateSpace.Program.Graph
import StateSpace.TransitionSystem

/-!
# Compiled program graphs

A program graph unfolds into a transition system whose states are pairs of a location and a program
state. All guards at a location are asked before any effect is applied, and each enabled transition
leads from the same program state.
-/

namespace StateSpace

namespace ProgramGraph

variable {m : Type → Type} [MonadCells m]

/-- The state into which a guarded transition leads from a program state, with its action. -/
def successor (graph : ProgramGraph m) (state : Value) (transition : GuardedTransition m) :
    m Value := do
  let after ← graph.apply transition.action state
  pure (.pair transition.action (.pair transition.target after))

/-- The location and the program state of a state of the compiled system. -/
def configurationOf (configuration : Value) : m (Value × Value) := do
  MonadCells.ofResult (← MonadCells.inspect configuration).asPair

/-- The transitions that leave a pair of a location and a program state. -/
def successors (graph : ProgramGraph m) (configuration : Value) : m (List Value) := do
  let (location, state) ← configurationOf configuration
  let enabled ← graph.enabled location state
  enabled.mapM (graph.successor state)

/-- The transition system of a program graph. -/
def compile (graph : ProgramGraph m) : TransitionSystem m where
  initialStates := graph.initialLocations.map fun location =>
    .pair location graph.initialState.toValue
  label configuration := do
    let (location, state) ← configurationOf configuration
    pure (.program location state)
  transitions configuration := .atOnce (graph.successors configuration)

/-- What compiling a program graph reports. -/
def compileNotice {m : Type → Type} (graph : ProgramGraph m) : Notice :=
  .compiled graph.initialLocations.length

end ProgramGraph

end StateSpace
