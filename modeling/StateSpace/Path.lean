import StateSpace.Value.Access
import StateSpace.Value.Printable

/-!
# Paths

A path is a head state followed by steps, each an action with the state it leads into. Paths are
persistent: extending one refers to it instead of copying it, so that a search that keeps a path for
every state it has found shares their common beginnings. `Path.steps` is the view that forgets how a
path was built.
-/

namespace StateSpace

/-- One step of a path: an action and the state it leads into. -/
structure Step where
  action : Value
  state : Value
  deriving Inhabited, Repr

namespace Step

/-- The printed form of a step. -/
def text (step : Step) : String :=
  "--" ++ step.action.display ++ "--> " ++ step.state.literal

/-- The printed form of a step, if its parts can be printed. -/
def printed (step : Step) : Result String := do
  Value.requirePrintable [step.action, step.state]
  pure step.text

instance : BEq Step := ⟨fun left right => left.action == right.action && left.state == right.state⟩

/-- The step that a pair of an action and a state describes. -/
def ofPair (pair : Value) : Result Step := do
  let (action, state) ← pair.asPair
  pure ⟨action, state⟩

/-- A step as a pair. -/
def toPair (step : Step) : Value :=
  .pair step.action step.state

/-- A step with its parts changed, the action first. -/
def mapM {m : Type → Type} [Monad m] (change : Value → m Value) (step : Step) : m Step := do
  let action ← change step.action
  pure ⟨action, ← change step.state⟩

/-- The kind of the first part of a step that keeps it from being a key. -/
def unhashable? (step : Step) : Option String :=
  step.action.unhashable?.or step.state.unhashable?

end Step

/-- A finite path. -/
inductive Path where
  /-- A path whose steps are listed. -/
  | listed (head : Value) (steps : List Step)
  /-- A path that continues another by one step. -/
  | extended (parent : Path) (step : Step)
  deriving Inhabited, Repr

namespace Path

/-- The path that consists of one state. -/
def single (state : Value) : Path :=
  .listed state []

/-- The path with one more step. -/
def extend (path : Path) (action state : Value) : Path :=
  .extended path ⟨action, state⟩

/-- The first state. -/
def head : Path → Value
  | .listed head _ => head
  | .extended parent _ => parent.head

/-- The steps of a path followed by further steps. -/
def stepsThen : Path → List Step → List Step
  | .listed _ steps, further => steps ++ further
  | .extended parent step, further => parent.stepsThen (step :: further)

/-- The steps in order. -/
def steps (path : Path) : List Step :=
  path.stepsThen []

/-- The number of steps. -/
def length : Path → Nat
  | .listed _ steps => steps.length
  | .extended parent _ => parent.length + 1

/-- The final state. -/
def last : Path → Value
  | .listed head steps =>
      match steps.getLast? with
      | some step => step.state
      | none => head
  | .extended _ step => step.state

/-- The states in order, the head first. -/
def states (path : Path) : List Value :=
  path.head :: path.steps.map Step.state

/-- The actions in order. -/
def actions (path : Path) : List Value :=
  path.steps.map Step.action

/-- The path from a head along pairs of an action and a state. -/
def ofPairs (head : Value) (pairs : List Value) : Result Path := do
  pure (.listed head (← pairs.mapM Step.ofPair))

/-- A path with its states and actions changed, from the first to the last. -/
def mapM {m : Type → Type} [Monad m] (change : Value → m Value) (path : Path) : m Path := do
  let head ← change path.head
  pure (.listed head (← path.steps.mapM (Step.mapM change)))

/-- The steps of a path followed by those of another. -/
def join (path other : Path) : Path :=
  .listed path.head (path.steps ++ other.steps)

/-- Two paths joined where the second starts in the last state of the first. -/
def concat (path other : Path) : Result Path :=
  if other.head == path.last then
    .ok (path.join other)
  else
    .error (.disconnected path.last other.head)

/-- The path walked backwards. Each action keeps its place between two states, so it leads into the
state that it used to leave. -/
def reversed (path : Path) : Path :=
  .listed path.last
    ((path.actions.zip path.states).reverse.map fun (action, state) => ⟨action, state⟩)

/-- Equality of paths: equal heads and equal steps. -/
def beq (path other : Path) : Bool :=
  path.length == other.length && path.head == other.head && path.steps == other.steps

instance : BEq Path := ⟨beq⟩

/-- Succeeds on the paths that may be members of a set. -/
def requireHashable (path : Path) : Result Unit :=
  match path.head.unhashable?.or (path.steps.findSome? Step.unhashable?) with
  | some kind => .error (.unhashable kind)
  | none => .ok ()

/-- The printed form of a path. -/
def text (path : Path) : String :=
  " ".intercalate (path.head.literal :: path.steps.map Step.text)

/-- The printed form of a path, if its states and actions can be printed. -/
def printed (path : Path) : Result String := do
  Value.requirePrintable (path.states ++ path.actions)
  pure path.text

theorem stepsThen_eq (path : Path) (further : List Step) :
    path.stepsThen further = path.steps ++ further := by
  induction path generalizing further with
  | listed head listedSteps => simp [Path.steps, stepsThen]
  | extended parent step ih =>
      change parent.stepsThen (step :: further) = parent.stepsThen [step] ++ further
      rw [ih, ih]
      simp

@[simp]
theorem steps_listed (head : Value) (steps : List Step) : (listed head steps).steps = steps := by
  simp [Path.steps, stepsThen]

@[simp]
theorem steps_extended (parent : Path) (step : Step) :
    (extended parent step).steps = parent.steps ++ [step] :=
  stepsThen_eq parent [step]

theorem length_eq (path : Path) : path.length = path.steps.length := by
  induction path with
  | listed head steps => simp [length]
  | extended parent step ih => simp [length, ih]

theorem last_eq (path : Path) :
    path.last = (path.steps.getLast?.map Step.state).getD path.head := by
  cases path with
  | listed head steps =>
      simp only [last, steps_listed, Path.head]
      cases steps.getLast? <;> rfl
  | extended parent step => simp [last]

end Path

end StateSpace
