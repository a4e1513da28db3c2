import StateSpace.Label
import StateSpace.Path

/-!
# Transition systems

A transition system has initial states, a label for each state, and for each state the pairs of an
action and a state that leave it. Labels and transitions are functions that may fail. The order of
initial states and of transitions fixes the order of exploration and nothing else.
-/

namespace StateSpace

/-- The transitions that leave a state, in order, as they are produced. Each stage gives some of them,
and whoever needs no more than those never runs the stages after it. -/
structure Successors (m : Type → Type) where
  stages : List (m (List Value))

namespace Successors

variable {m : Type → Type} [MonadCells m]

/-- Transitions that are produced together. -/
def atOnce (items : m (List Value)) : Successors m where
  stages := [items]

/-- What several stages give together. -/
def collect : List (m (List Value)) → m (List Value)
  | [] => pure []
  | stage :: stages => do
      let items ← stage
      pure (items ++ (← collect stages))

/-- All transitions. -/
def toList (successors : Successors m) : m (List Value) :=
  collect successors.stages

/-- Whether a pair is among what several stages give. The search stops at the first match. -/
def searchStages (pair : Value) : List (m (List Value)) → m Bool
  | [] => pure false
  | stage :: stages => do
      let items ← stage
      if ← MonadCells.among pair items then pure true else searchStages pair stages

/-- Whether a pair is among the transitions. -/
def has (successors : Successors m) (pair : Value) : m Bool :=
  searchStages pair successors.stages

end Successors

/-- A transition system. -/
structure TransitionSystem (m : Type → Type) where
  initialStates : List Value
  label : Value → m Label
  transitions : Value → Successors m

namespace TransitionSystem

variable {m : Type → Type} [MonadCells m]

/-- The system given by tables of labels and of transitions. A state that is missing from a table has
an empty label, or no transitions. -/
def ofTable (initialStates : List Value) (labels edges : Table (List Value)) :
    Result (TransitionSystem m) := do
  let labelTable ← labels.mapM fun entry => do pure (entry.1, ← Label.ofSet entry.2)
  pure {
    initialStates
    label := fun state => do
      pure ((← MonadCells.ofResult (Table.lookup labelTable state)).getD (.set []))
    transitions := fun state => .atOnce do
      pure ((← MonadCells.ofResult (edges.lookup state)).getD []) }

/-- A transition rule: where the guard holds, the action leads into the target. -/
structure Rule (m : Type → Type) where
  guard : Value → m Value
  action : Value
  target : Value → m Value

/-- The transitions that a rule gives a state: one if its guard holds there, and otherwise none. -/
def Rule.fire (rule : Rule m) (state : Value) : m (List Value) := do
  if ← MonadCells.truth (← rule.guard state) then
    pure [.pair rule.action (← rule.target state)]
  else
    pure []

/-- The propositions whose conditions are true of a state. -/
def trueOf (state : Value) : List (Value × (Value → m Value)) → m (List Value)
  | [] => pure []
  | (proposition, condition) :: rest => do
      let holds ← MonadCells.truth (← condition state)
      let others ← trueOf state rest
      pure (if holds then proposition :: others else others)

/-- The system given by conditions for its propositions and rules for its transitions. Labels are
sets or lists. A lazy system fires its rules one after the other, and any other system all at once. -/
def ofRules (initialStates : List Value) (conditions : List (Value × (Value → m Value)))
    (rules : List (Rule m)) (listLabels lazy : Bool) : TransitionSystem m where
  initialStates := initialStates
  label := fun state => do
    let members ← trueOf state conditions
    if listLabels then pure (.list members) else MonadCells.ofResult (Label.ofSet members)
  transitions := fun state =>
    let fired : Successors m := ⟨rules.map fun rule => rule.fire state⟩
    if lazy then fired else .atOnce fired.toList

end TransitionSystem

namespace Path

variable {m : Type → Type} [MonadCells m]

/-- Whether each step of a list is a transition from the state before it. -/
def followsFrom (system : TransitionSystem m) (current : Value) : List Step → m Bool
  | [] => pure true
  | step :: steps => do
      if ← (system.transitions current).has step.toPair then
        followsFrom system step.state steps
      else
        pure false

/-- Whether a path starts in an initial state and follows the transitions of a system. -/
def isValidIn (path : Path) (system : TransitionSystem m) : m Bool := do
  if ← MonadCells.among path.head system.initialStates then
    followsFrom system path.head path.steps
  else
    pure false

end Path

end StateSpace
