import StateSpace.Proofs.ReachabilityGraph

/-!
# Adjacency in graphs of explorations

A graph keeps its edges in one list, and the transitions that leave or enter a state are found by going
through that list. Edges are compared with the state by equality, so they are those of all states of the
graph that equal it. The states of a graph are pairwise unequal: at most one of them equals a given state,
and what leaves a state in the graph is what leaves it in the system. This holds for every state of the
graph, also for the last one before the exploration was cut off, as the edges of a state are collected
before the next one is searched for.
-/

namespace StateSpace

namespace ReachabilityGraph

/-- A transition is found as often among those that leave its source as among those that enter its
target. -/
theorem countP_successors (graph : ReachabilityGraph) (action source target : Value) :
    (graph.successors source).countP (fun pair => pair.1 == action && pair.2 == target) =
      (graph.predecessors target).countP (fun pair => pair.1 == action && pair.2 == source) := by
  simp only [successors, predecessors, List.countP_map, List.countP_filter]
  congr 1
  funext edge
  simp only [Function.comp_apply]
  ac_rfl

end ReachabilityGraph

namespace TransitionSystem

variable {system : TransitionSystem Result}

/-- What leaves a state in a graph leaves the states of the graph that equal it in the system. -/
theorem successors_graphUpTo (count : Nat) (state : Value) :
    (system.graphUpTo count).successors state =
      ((system.graphUpTo count).states.filter fun source => source == state).flatMap system.pairs := by
  change (((system.graphUpTo count).states.flatMap system.edges).filter _).map _ = _
  induction (system.graphUpTo count).states with
  | nil => rfl
  | cons source states ih =>
      rw [List.flatMap_cons, List.filter_append, List.map_append, ih]
      cases equal : source == state <;>
        simp [edges, equal, List.filter_map, Function.comp_def]

theorem successors_graphUpTo_of_beq (wellFormed : system.WellFormed) {count : Nat} {source state : Value}
    (source_mem : source ∈ (system.graphUpTo count).states) (equal : (source == state) = true) :
    (system.graphUpTo count).successors state = system.pairs source := by
  have found := (distinct_states_graphUpTo wellFormed count).filter_beq source_mem equal
  rw [successors_graphUpTo, found, List.flatMap_singleton]

theorem successors_graphUpTo_of_absent {count : Nat} {state : Value}
    (absent : state.isIn (system.graphUpTo count).states = false) :
    (system.graphUpTo count).successors state = [] := by
  have none : (system.graphUpTo count).states.filter (fun source => source == state) = [] := by
    refine List.filter_eq_nil_iff.mpr fun source source_mem equal => ?_
    rw [Value.isIn_iff.mpr ⟨source, source_mem, equal⟩] at absent
    cases absent
  rw [successors_graphUpTo, none, List.flatMap_nil]

/-- What enters a state in a graph are the transitions into it from the states of the graph, in order. -/
theorem predecessors_graphUpTo (count : Nat) (target : Value) :
    (system.graphUpTo count).predecessors target =
      (system.graphUpTo count).states.flatMap fun source =>
        ((system.pairs source).filter fun pair => pair.2 == target).map fun pair => (pair.1, source) := by
  change (((system.graphUpTo count).states.flatMap system.edges).filter _).map _ = _
  simp only [List.filter_flatMap, List.map_flatMap, edges, List.filter_map, List.map_map]
  rfl

end TransitionSystem

namespace ReachabilityGraph

variable {system : TransitionSystem Result}

/-- Adjacency in a graph is exact, whether the graph was cut off or not. A state of the graph, or one that
equals it, is left by the transitions that leave it in the system, and any other state by none. A state is
entered by the transitions into it from the states of the graph, one after the other. Both count a
transition equally often, and the terminal states are those that nothing leaves in the system. -/
theorem build_adjacency (wellFormed : system.WellFormed) (bound : Bound) :
    ((∃ graph, build system bound = .ok graph) ↔ 0 < bound.count) ∧
    ∀ graph, build system bound = .ok graph →
      (∀ state ∈ graph.states, system.Lists state (system.pairs state) ∧
        graph.successors state = system.pairs state) ∧
      (∀ state : Value, state.isIn graph.states = true →
        ∃ items, (system.transitions state).toList = .ok items ∧
          (Value.list ((graph.successors state).map fun pair => .pair pair.1 pair.2) ==
            .list items) = true) ∧
      (∀ state : Value, state.isIn graph.states = false → graph.successors state = []) ∧
      (∀ target, graph.predecessors target = graph.states.flatMap fun source =>
        ((system.pairs source).filter fun pair => pair.2 == target).map fun pair => (pair.1, source)) ∧
      (∀ action source target,
        (graph.successors source).countP (fun pair => pair.1 == action && pair.2 == target) =
          (graph.predecessors target).countP (fun pair => pair.1 == action && pair.2 == source)) ∧
      graph.terminalStates = .ok (graph.states.filter fun state => (system.pairs state).isEmpty) := by
  constructor
  · constructor
    · rintro ⟨graph, built⟩
      exact ((build_eq_ok_iff wellFormed).mp built).1
    · exact fun positive => ⟨_, build_eq wellFormed positive⟩
  intro graph built
  rcases (build_eq_ok_iff wellFormed).mp built with ⟨_, rfl⟩
  refine ⟨?_, ?_, fun state => TransitionSystem.successors_graphUpTo_of_absent,
    TransitionSystem.predecessors_graphUpTo _, countP_successors _,
    TransitionSystem.terminalStates_graphUpTo wellFormed _⟩
  · intro state state_mem
    exact ⟨wellFormed.lists_pairs (TransitionSystem.hasState_of_mem_graphUpTo wellFormed state_mem),
      TransitionSystem.successors_graphUpTo_of_beq wellFormed state_mem BEq.rfl⟩
  · intro state found
    rcases Value.isIn_iff.mp found with ⟨source, source_mem, equal⟩
    have hasSource := TransitionSystem.hasState_of_mem_graphUpTo wellFormed source_mem
    have listed := wellFormed.lists_pairs hasSource
    have listed' := wellFormed.lists_pairs (hasSource.congr equal)
    rw [TransitionSystem.successors_graphUpTo_of_beq wellFormed source_mem equal]
    exact ⟨_, listed', wellFormed.congruent hasSource equal listed listed'⟩

/-- A merging system is cut off after two states. The second of them still has all its transitions. The
state that was cut off has none in the graph, but it is entered from both, and neither is terminal. -/
theorem build_adjacency_merging :
    TransitionSystem.merging.WellFormed ∧
      ∃ graph, build TransitionSystem.merging (.ofInt 2) = .ok graph ∧ graph.truncated = true ∧
        graph.successors (.int 1) = [(.str "reset", .bool false), (.str "up", .int 2)] ∧
        graph.successors (.int 2) = [] ∧
        graph.predecessors (.int 2) = [(.str "jump", .int 0), (.str "up", .int 1)] ∧
        graph.terminalStates = .ok [] := by
  have wellFormed := TransitionSystem.merging_wellLabelled.toWellFormed
  rcases build_adjacency wellFormed (.ofInt 2) with ⟨built_iff, adjacency⟩
  rcases built_iff.mpr (by decide) with ⟨graph, built⟩
  rcases adjacency graph built with ⟨member, _, absent, entered, _, terminal⟩
  have computed : (build TransitionSystem.merging (.ofInt 2)).map (fun graph =>
      (graph.states, graph.truncated)) = .ok ([.int 0, .int 1], true) := rfl
  have explored : graph.states = [.int 0, .int 1] ∧ graph.truncated = true := by
    simpa [built, Except.map] using computed
  rw [explored.1] at member absent entered terminal
  exact ⟨wellFormed, graph, built, explored.2, (member (.int 1) (by simp)).2, absent (.int 2) rfl,
    entered (.int 2), terminal⟩

end ReachabilityGraph

end StateSpace
