import StateSpace.Search

/-!
# Reachability graphs

The explicit graph of the part of a system that a search has explored. A bound on the number of
states makes the exploration end even if infinitely many states are reachable, and the graph then says
that it was cut off.
-/

namespace StateSpace

/-- A transition of an explored graph. -/
structure Edge where
  source : Value
  action : Value
  target : Value
  deriving Inhabited, Repr

namespace Edge

/-- The printed form of an edge. -/
def text (edge : Edge) : String :=
  edge.source.literal ++ " --" ++ edge.action.display ++ "--> " ++ edge.target.literal

/-- The printed form of an edge, if its parts can be printed. -/
def printed (edge : Edge) : Result String := do
  Value.requirePrintable [edge.source, edge.action, edge.target]
  pure edge.text

end Edge

/-- The explored part of a transition system. -/
structure ReachabilityGraph where
  initialStates : List Value := []
  /-- The explored states in the order in which the search reported them. -/
  states : List Value := []
  edges : List Edge := []
  /-- Whether the exploration stopped at its bound. -/
  truncated : Bool := false
  deriving Inhabited, Repr

/-- A bound on the number of states of a graph, with the form in which it was given. -/
structure Bound where
  count : Int
  text : String
  deriving Inhabited, Repr

namespace Bound

/-- The bound given by a number. -/
def ofInt (count : Int) : Bound :=
  ⟨count, toString count⟩

/-- The bound given by a value, which must count as a number. -/
def ofValue (value : Value) : Result Bound :=
  match value.asInt? with
  | some count => .ok ⟨count, value.literal⟩
  | none => .error (.notOrdered "<=" value.kind "int")

/-- The bound used where none is given. -/
def standard : Bound :=
  .ofInt 10000

end Bound

namespace ReachabilityGraph

/-- The pairs of an action and a target that leave a state. -/
def successors (graph : ReachabilityGraph) (state : Value) : List (Value × Value) :=
  (graph.edges.filter fun edge => edge.source == state).map fun edge => (edge.action, edge.target)

/-- The pairs of an action and a source that enter a state. -/
def predecessors (graph : ReachabilityGraph) (state : Value) : List (Value × Value) :=
  (graph.edges.filter fun edge => edge.target == state).map fun edge => (edge.action, edge.source)

/-- The number of explored states. -/
def numStates (graph : ReachabilityGraph) : Nat :=
  graph.states.length

/-- The number of transitions that leave explored states. -/
def numTransitions (graph : ReachabilityGraph) : Nat :=
  graph.edges.length

/-- The explored states that no transition leaves. -/
def terminalStates (graph : ReachabilityGraph) : Result (List Value) := do
  let sources := graph.edges.map Edge.source
  sources.forM Value.requireHashable
  let sourceSet := ValueSet.ofList sources
  graph.states.filterMapM fun state => do
    state.requireHashable
    pure (if sourceSet.has state then none else some state)

/-- The printed form of a graph. -/
def text (graph : ReachabilityGraph) : String :=
  "ReachabilityGraph(initial_states=" ++ (Value.tuple graph.initialStates).literal ++
    ", states=" ++ (Value.list graph.states).literal ++
    ", edges=[" ++ ", ".intercalate (graph.edges.map Edge.text) ++
    "], truncated=" ++ (Value.bool graph.truncated).literal ++ ")"

/-- The printed form of a graph, if its states and actions can be printed. -/
def printed (graph : ReachabilityGraph) : Result String := do
  Value.requirePrintable (graph.initialStates ++ graph.states)
  let _ ← graph.edges.mapM Edge.printed
  pure graph.text

/-- The edge that a pair of an action and a target describes. -/
def edgeOf (state pair : Value) : Result Edge := do
  let (action, target) ← pair.asPair
  pure ⟨state, action, target⟩

/-- The edges that leave a state. The transitions of a stage are taken apart before the next stage is
run. -/
def edgesFrom (state : Value) : List (Result (List Value)) → Result (List Edge)
  | [] => .ok []
  | stage :: stages => do
      let edges ← (← stage).mapM (edgeOf state)
      pure (edges ++ (← edgesFrom state stages))

/-- Explore the states that a search has still to report, up to a number of states. -/
def exploreFrom (transitions : Value → Successors Result) : Nat → Search → Result ReachabilityGraph
  | 0, search =>
      match search.next transitions with
      | .exhausted _ => .ok {}
      | .failed fault _ => .error fault
      | .reported _ _ => .ok { truncated := true }
  | room + 1, search =>
      match search.next transitions with
      | .exhausted _ => .ok {}
      | .failed fault _ => .error fault
      | .reported record search => do
          let edges ← edgesFrom record.state (transitions record.state).stages
          let rest ← exploreFrom transitions room search
          pure { rest with
            states := record.state :: rest.states
            edges := edges ++ rest.edges }

/-- The graph of a system with at most a number of states. -/
def build (system : TransitionSystem Result) (bound : Bound) : Result ReachabilityGraph := do
  if bound.count ≤ 0 then
    throw (.nonPositiveBound bound.text)
  let graph ← exploreFrom system.transitions bound.count.toNat system.search
  pure { graph with initialStates := system.initialStates }

/-- The notices of building a graph. -/
def notices (graph : ReachabilityGraph) (bound : Bound) : List Notice :=
  if graph.truncated then [.truncated bound.text] else [.exhausted graph.numStates]

end ReachabilityGraph

end StateSpace
