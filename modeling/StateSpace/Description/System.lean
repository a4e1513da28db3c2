import StateSpace.Description.Routine
import StateSpace.Model.TrafficLight

/-!
# Descriptions of systems

A transition system is described by tables, by rules, as a compiled program graph, or as one of the
models of the library.
-/

namespace StateSpace.Description

variable {m : Type → Type} [MonadCells m]

/-- The guarded transition that plain data describes. -/
def guarded (vocabulary : Vocabulary m) (depth : Nat) (data : Value) :
    Build m (GuardedTransition m) := do
  let (guard, action, target) ← threeOf data
  let guard ← routine vocabulary depth guard
  let action ← value vocabulary action
  pure { guard, action, target := ← value vocabulary target }

/-- The program state of a list of variables and values that functions may change. -/
def programState (vocabulary : Vocabulary m) (data : Value) : Build m ProgramState := do
  let state ← StateT.lift (MonadCells.share (.state (← mapping vocabulary data)))
  pure ((ProgramState.ofValue? state).getD ⟨[]⟩)

/-- The program graph that plain data describes. -/
def program (vocabulary : Vocabulary m) (depth : Nat) (data : Value) : Build m (ProgramGraph m) := do
  let initial ← values vocabulary (← field data "initial")
  let state ← programState vocabulary (← field data "state")
  let table ← tableOf vocabulary (fun rows => do
    (← items rows).mapM (guarded vocabulary depth)) (← field data "table")
  let effects ← tableOf vocabulary (routine vocabulary depth) (← field data "effects")
  pure (.ofTable initial state table effects)

/-- The soda machine with the capacities that plain data lists. -/
def sodaMachine (vocabulary : Vocabulary m) (data : Value) : Result (ProgramGraph m) := do
  match ← values vocabulary data with
  | [] => SodaMachine.graph
  | [sodas] => SodaMachine.graph sodas
  | [sodas, beers] => SodaMachine.graph sodas beers
  | _ => throw (.unknown "capacity")

/-- The transition rule that plain data describes. -/
def rule (vocabulary : Vocabulary m) (data : Value) : Build m (TransitionSystem.Rule m) := do
  let (guard, action, target) ← threeOf data
  let guard ← function vocabulary guard
  let action ← value vocabulary action
  pure { guard, action, target := ← function vocabulary target }

/-- The system that tables describe. -/
def tableSystem (vocabulary : Vocabulary m) (data : Value) : Build m (TransitionSystem m) := do
  let rows (data : Value) : Build m (List Value) := values vocabulary data
  let initial ← values vocabulary (← field data "initial")
  let labels ← tableOf vocabulary rows (← field data "labels")
  let edges ← tableOf vocabulary rows (← field data "edges")
  TransitionSystem.ofTable initial labels edges

/-- The system that rules describe. -/
def ruleSystem (vocabulary : Vocabulary m) (data : Value) : Build m (TransitionSystem m) := do
  let initial ← (← listField data "initial").mapM (shared vocabulary)
  let conditions ← (← listField data "labels").mapM fun entry => do
    let (proposition, condition) ← twoOf entry
    let proposition ← value vocabulary proposition
    pure (proposition, ← function vocabulary condition)
  let rules ← (← listField data "succ").mapM (rule vocabulary)
  pure (.ofRules initial conditions rules (flag data "label_list") (flag data "lazy"))

/-- The system that plain data describes, with what building it reports. -/
def system (vocabulary : Vocabulary m) (depth : Nat) (data : Value) :
    Build m (TransitionSystem m × List Notice) := do
  if let some tables := field? data "table" then
    pure (← tableSystem vocabulary tables, [])
  else if (field? data "model").isSome then
    pure (TrafficLight.system, [])
  else if let some capacities := field? data "soda" then
    let graph ← sodaMachine vocabulary capacities
    pure (graph.compile, [graph.compileNotice])
  else if let some body := field? data "program" then
    let graph ← program vocabulary depth body
    pure (graph.compile, [graph.compileNotice])
  else
    pure (← ruleSystem vocabulary (← field data "func"), [])

end StateSpace.Description
