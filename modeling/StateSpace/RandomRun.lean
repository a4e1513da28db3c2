import StateSpace.TransitionSystem

/-!
# Random runs

A random run starts in an initial state and follows transitions, both picked by a chooser that is
given from outside. A run asks for the transitions of a state only when it tries to leave it, and it
ends in a state without transitions.
-/

namespace StateSpace

/-- A source of choices. It has a state, which decides with each choice which item is picked, by its
position, and which changes from one choice to the next. What it picks may depend on the items it is
offered and on all choices made before. -/
structure Chooser where
  State : Type
  initial : State
  choose : State → (first : Value) → (others : List Value) → Fin (others.length + 1) × State

namespace Chooser

/-- The chooser that goes through a script over and over. An empty script always picks the first. -/
def ofScript (script : List Int) : Chooser where
  State := Nat
  initial := 0
  choose call _ others :=
    (Fin.ofNat _ ((script.getD (call % script.length) 0).fmod (others.length + 1 : Nat)).toNat, call + 1)

/-- Pick one of several items. -/
def pick (chooser : Chooser) (state : chooser.State) (first : Value) (others : List Value) :
    Value × chooser.State :=
  let (position, next) := chooser.choose state first others
  ((first :: others).get position, next)

end Chooser

/-- The beginning of a random run: its steps, of which the first leads into the initial state and has
no action, the number of items in each choice that was made, and the fault that broke the run off. -/
structure RandomRun where
  steps : List Step := []
  sizes : List Nat := []
  fault? : Option Fault := none
  deriving Inhabited, Repr

namespace RandomRun

variable {m : Type → Type} [MonadCells m]

/-- At most a number of further steps from a state, with the chooser in the given state. -/
def walk (system : TransitionSystem m) (chooser : Chooser) : Nat → chooser.State → Value → m RandomRun
  | 0, _, _ => pure {}
  | count + 1, choice, state => do
      match ← MonadCells.attempt (system.transitions state).toList with
      | .error fault => pure { fault? := some fault }
      | .ok [] => pure {}
      | .ok (first :: others) => do
          let size := others.length + 1
          let (item, choice) := chooser.pick choice first others
          match (← MonadCells.inspect item).asPair with
          | .error fault => pure { sizes := [size], fault? := some fault }
          | .ok (action, target) => do
              let rest ← walk system chooser count choice target
              pure { rest with
                steps := ⟨action, target⟩ :: rest.steps
                sizes := size :: rest.sizes }

/-- The first steps of a run. -/
def take (system : TransitionSystem m) (chooser : Chooser) : Nat → m RandomRun
  | 0 => pure {}
  | count + 1 =>
      match system.initialStates with
      | [] => pure { fault? := some .noInitialStates }
      | first :: others => do
          let (state, choice) := chooser.pick chooser.initial first others
          let rest ← walk system chooser count choice state
          pure { rest with
            steps := ⟨.null, state⟩ :: rest.steps
            sizes := (others.length + 1) :: rest.sizes }

/-- The number of steps of a random path where none is given. -/
def standardSteps : Int := 100

/-- The largest number of steps that can be asked for. -/
def maxSteps : Int := Int.pow 2 63 - 1

/-- How many items a value says to take. -/
def countOf (value : Value) : Result Nat :=
  match value.asInt? with
  | some count => if count < 0 ∨ maxSteps < count then .error .tooManySteps else .ok count.toNat
  | none => .error .tooManySteps

/-- The run behind a random path: an initial state and at most a number of steps. The initial state is
chosen before a number that is too large is refused. -/
def forPath (system : TransitionSystem m) (chooser : Chooser) (count : Int) : m RandomRun := do
  if count < 0 then
    pure { fault? := some (.negativeSteps count) }
  else if maxSteps < count then
    let start ← take system chooser 1
    pure { start with fault? := start.fault?.or (some .tooManySteps) }
  else
    take system chooser (count.toNat + 1)

/-- The run behind a random path whose number of steps is given by a value, which must count as a
number. -/
def forPathWithin (system : TransitionSystem m) (chooser : Chooser) (count : Value) :
    m RandomRun := do
  match count.asInt? with
  | some count => forPath system chooser count
  | none => pure { fault? := some (.notOrdered "<" count.kind "int") }

/-- The steps of a run as a path. -/
def toPath (run : RandomRun) : Result Path :=
  match run.fault?, run.steps with
  | some fault, _ => .error fault
  | none, first :: steps => .ok (.listed first.state steps)
  | none, [] => .error .noInitialStates

end RandomRun

/-- A random path of at most a number of steps. -/
def randomPath {m : Type → Type} [MonadCells m] (system : TransitionSystem m) (chooser : Chooser)
    (count : Int := RandomRun.standardSteps) : m Path := do
  MonadCells.ofResult (← RandomRun.forPath system chooser count).toPath

end StateSpace
