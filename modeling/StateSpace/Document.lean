import StateSpace.Invariant
import StateSpace.Json.Reader
import StateSpace.Json.Writer
import StateSpace.ReachabilityGraph
import StateSpace.Value.Tagged

/-!
# Documents

Paths, counterexamples and reachability graphs as plain data, for storage and exchange. States and
actions can be any values, so each function takes an encoder that turns them into plain data, or a
decoder that turns plain data back into them.
-/

namespace StateSpace

/-- Turns values into plain data. -/
abbrev Encoder := Value → Result Value

/-- Turns plain data into values. -/
abbrev Decoder := Value → Result Value

namespace Encoder

/-- A value by its literal. -/
def literal : Encoder :=
  fun value => do
    Value.requirePrintable [value]
    pure (.str value.literal)

/-- A value by its displayed form. -/
def display : Encoder :=
  fun value => do
    Value.requirePrintable [value]
    pure (.str value.display)

/-- A value as it is. -/
def unchanged : Encoder :=
  fun value => .ok value

/-- A value in tagged notation. -/
def tagged : Encoder :=
  fun value => .ok (Tagged.write value)

end Encoder

namespace Value

mutual

/-- A value with its lists made tuples, down to the dictionaries in it. -/
def freezeLists : Value → Value
  | .list items => .tuple (freezeItems items)
  | .tuple items => .tuple items
  | .null => .null
  | .bool flag => .bool flag
  | .int number => .int number
  | .str text => .str text
  | .symbol constant => .symbol constant
  | .dict entries => .dict entries
  | .state entries => .state entries
  | .atLocation location => .atLocation location
  | .set members => .set members
  | .programLabel location assignment => .programLabel location assignment
  | .cell number => .cell number
termination_by structural value => value

/-- Each item of a list with its lists made tuples. -/
def freezeItems : List Value → List Value
  | [] => []
  | item :: items => freezeLists item :: freezeItems items
termination_by structural items => items

end

end Value

namespace Decoder

/-- Plain data as it is. -/
def unchanged : Decoder :=
  fun data => .ok data

/-- Plain data with its lists made tuples. -/
def tuples : Decoder :=
  fun data => .ok data.freezeLists

/-- Plain data by its displayed form. -/
def display : Decoder :=
  fun data => do
    Value.requirePrintable [data]
    pure (.str data.display)

/-- Plain data in tagged notation. -/
def tagged (symbols : List Symbol) : Decoder :=
  Tagged.read symbols

end Decoder

/-- An object with the given members. -/
def object (members : List (String × Value)) : Value :=
  .dict (members.map fun (name, value) => (.str name, value))

namespace Step

/-- A step as plain data. -/
def toDocument (encode : Encoder) (step : Step) : Result Value := do
  let action ← encode step.action
  let state ← encode step.state
  pure (object [("action", action), ("state", state)])

/-- The step that plain data describes. -/
def ofDocument (decode : Decoder) (data : Value) : Result Step := do
  let action ← decode (← data.item (.str "action"))
  let state ← decode (← data.item (.str "state"))
  pure ⟨action, state⟩

end Step

namespace Path

/-- A path as plain data. -/
def toDocument (encode : Encoder) (path : Path) : Result Value := do
  let head ← encode path.head
  let steps ← path.steps.mapM (Step.toDocument encode)
  pure (object [("head", head), ("steps", .list steps)])

/-- The path that plain data describes. -/
def ofDocument (decode : Decoder) (data : Value) : Result Path := do
  let head ← decode (← data.item (.str "head"))
  let steps ← (← data.item (.str "steps")).elements
  pure (.listed head (← steps.mapM (Step.ofDocument decode)))

end Path

namespace Counterexample

/-- A counterexample as plain data. -/
def toDocument (encode : Encoder) (counterexample : Counterexample) : Result Value := do
  let state ← encode counterexample.state
  let path ← counterexample.path.toDocument encode
  pure (object
    [("state", state), ("path", path), ("length", .int counterexample.path.length)])

/-- The counterexample that plain data describes. -/
def ofDocument (decode : Decoder) (data : Value) : Result Counterexample := do
  let state ← decode (← data.item (.str "state"))
  let path ← Path.ofDocument decode (← data.item (.str "path"))
  pure ⟨state, path⟩

/-- A counterexample as a JSON text. -/
def toJson (encode : Encoder) (counterexample : Counterexample) (indent? : Option Int) :
    Result String := do
  Json.write (← counterexample.toDocument encode) (.ofIndent indent?)

/-- The counterexample that a JSON text describes, in which an integer may have at most so many
digits. -/
def ofJson (decode : Decoder) (text : String) (maxDigits? : Option Nat := none) :
    Result Counterexample := do
  ofDocument decode (← Json.read text maxDigits?)

end Counterexample

namespace Edge

/-- An edge as plain data. -/
def toDocument (encode : Encoder) (edge : Edge) : Result Value := do
  let source ← encode edge.source
  let action ← encode edge.action
  let target ← encode edge.target
  pure (object [("source", source), ("action", action), ("target", target)])

end Edge

namespace ReachabilityGraph

/-- A reachability graph as plain data. -/
def toDocument (encode : Encoder) (graph : ReachabilityGraph) : Result Value := do
  let initialStates ← graph.initialStates.mapM encode
  let states ← graph.states.mapM encode
  let edges ← graph.edges.mapM (Edge.toDocument encode)
  pure (object
    [("initial_states", .list initialStates), ("states", .list states),
     ("edges", .list edges), ("truncated", .bool graph.truncated)])

end ReachabilityGraph

end StateSpace
