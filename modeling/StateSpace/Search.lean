import StateSpace.Notice
import StateSpace.TransitionSystem
import StateSpace.ValueSet

/-!
# Depth-first search

A search holds the states it has visited and a stack of states found but not yet visited, each with
the path on which it was found. A state is marked when it is taken from the stack, so the stack may
hold a state several times and all but the first are dropped. The successors of a state enter the
stack in order, the first on top.

A search is advanced one state at a time. It reports a state before it asks for its successors, so
whoever stops at a state never meets a fault of its transitions. `Search.run` advances a search by a
bounded number of states.

A state must be able to be a key before it is visited, and no such state holds a dictionary that could
be changed. The systems searched are therefore those whose functions run without cells.
-/

namespace StateSpace

/-- A state with the path on which the search found it. -/
structure Record where
  state : Value
  path : Path
  deriving Inhabited, Repr

/-- A search in progress. -/
structure Search where
  visited : ValueSet := .empty
  /-- The states found, the top first. -/
  stack : List Record := []
  /-- The state last reported, whose successors have not been asked for. -/
  awaiting : Option Record := none
  /-- How many records were taken from the stack. -/
  popped : Nat := 0
  deriving Inhabited

namespace Search

/-- The search from a list of initial states. -/
def start (initialStates : List Value) : Search where
  stack := initialStates.map fun state => ⟨state, .single state⟩

/-- The states whose successors were asked for, in order. -/
def expanded (search : Search) : List Value :=
  match search.awaiting with
  | none => search.visited.members.reverse
  | some _ => search.visited.members.tail.reverse

/-- What happens when a search is advanced. -/
inductive Advance where
  | reported (record : Record) (search : Search)
  | exhausted (search : Search)
  | failed (fault : Fault) (search : Search)
  deriving Inhabited

/-- The components of all pairs of a list. The pairs are taken apart from the last to the first. -/
def unpack : List Value → Result (List (Value × Value))
  | [] => .ok []
  | pair :: pairs => do
      let rest ← unpack pairs
      let first ← pair.asPair
      pure (first :: rest)

/-- The records of the successors of a state, in order. -/
def expand (transitions : Value → Successors Result) (record : Record) : Result (List Record) := do
  let pairs ← unpack (← (transitions record.state).toList)
  pure (pairs.map fun (action, target) => ⟨target, record.path.extend action target⟩)

/-- Take records from the stack up to the first whose state was not visited. -/
def pop (visited : ValueSet) (popped : Nat) : List Record → Advance
  | [] => .exhausted { visited, popped }
  | record :: stack =>
      match record.state.requireHashable with
      | .error fault => .failed fault { visited, stack, popped := popped + 1 }
      | .ok () =>
          if visited.has record.state then
            pop visited (popped + 1) stack
          else
            .reported record
              { visited := visited.insert record.state
                stack
                awaiting := some record
                popped := popped + 1 }

/-- Advance a search to the next state. -/
def next (transitions : Value → Successors Result) (search : Search) : Advance :=
  match search.awaiting with
  | none => pop search.visited search.popped search.stack
  | some record =>
      match expand transitions record with
      | .error fault => .failed fault { search with awaiting := none }
      | .ok records => pop search.visited search.popped (records ++ search.stack)

/-- How a run of a search ended. -/
inductive Ending where
  | exhausted
  | failed (fault : Fault)
  /-- The bound was reached. -/
  | cut
  deriving Inhabited, Repr

/-- A run of a search: what was reported, how it ended and where it left the search. -/
structure Trace where
  records : List Record := []
  ending : Ending
  search : Search
  deriving Inhabited

namespace Trace

/-- The states reported. -/
def states (trace : Trace) : List Value :=
  trace.records.map Record.state

/-- The notices of a run. -/
def notices (trace : Trace) : List Notice :=
  match trace.ending with
  | .exhausted => [.exhausted trace.search.visited.members.length]
  | _ => []

/-- Whether the states were expanded in the order in which they were reported. -/
def inOrder (trace : Trace) : Bool :=
  let expanded := trace.search.expanded
  trace.states.take expanded.length == expanded

end Trace

/-- Advance a search by at most a number of states. -/
def run (transitions : Value → Successors Result) : Nat → Search → Trace
  | 0, search => { ending := .cut, search }
  | bound + 1, search =>
      match search.next transitions with
      | .reported record search =>
          let rest := run transitions bound search
          { rest with records := record :: rest.records }
      | .exhausted search => { ending := .exhausted, search }
      | .failed fault search => { ending := .failed fault, search }

end Search

namespace TransitionSystem

/-- The search from the initial states of a system. -/
def search (system : TransitionSystem Result) : Search :=
  .start system.initialStates

/-- The first states of a system that the search reports. -/
def explore (system : TransitionSystem Result) (bound : Nat) : Search.Trace :=
  system.search.run system.transitions bound

/-- The reachable states of a system, if the search ends within a bound. -/
def reachableStates? (system : TransitionSystem Result) (bound : Nat) : Result (Option (List Value)) :=
  let trace := system.explore bound
  match trace.ending with
  | .exhausted => .ok (some trace.states)
  | .failed fault => .error fault
  | .cut => .ok none

end TransitionSystem

end StateSpace
