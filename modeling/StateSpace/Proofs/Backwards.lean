import StateSpace.Proofs.Adjacency
import StateSpace.Proofs.Composition

/-!
# Valid paths walked backwards

A graph that was not cut off has every transition of the system, so it can be followed backwards from any
state. A path walked backwards does this: each of its steps enters a predecessor of the state before it.
A step backwards is a step of the path with its two states exchanged. It is found again in the path by
induction on the steps, from the head on (`Path.exists_step_of_reversed`).
-/

namespace StateSpace

namespace Path

/-- A step of a path walked backwards leads from the target of a step of the path into the state before
that step. -/
theorem exists_step_of_reversed {path : Path} {position : Nat} {step : Step}
    (found : path.reversed.steps[position]? = some step) :
    ∃ before earlier later, path.reversed.states[position]? = some before ∧
      path.steps = earlier ++ ⟨step.action, before⟩ :: later ∧
      (listed path.head earlier).last = step.state := by
  rw [states_reversed, states]
  rw [← reversed_listed] at found
  generalize path.head = head, path.steps = steps at found ⊢
  induction steps generalizing head with
  | nil => simp [reversed, actions] at found
  | cons first steps ih =>
      rw [steps_reversed_cons] at found
      have count : (listed first.state steps).reversed.steps.length = steps.length := by
        simp [reversed, actions, states]
      by_cases inside : position < steps.length
      · rw [List.getElem?_append_left (by omega)] at found
        rcases ih first.state found with ⟨before, earlier, later, before_found, steps_eq, last_eq⟩
        refine ⟨before, first :: earlier, later, ?_, ?_, ?_⟩
        · rw [List.reverse_cons, List.getElem?_append_left (by simp; omega)]
          exact before_found
        · rw [steps_eq, List.cons_append]
        · rw [last_listed_cons, last_eq]
      · -- the last step backwards is the first of the path
        rw [List.getElem?_append_right (by omega), List.getElem?_singleton] at found
        split at found
        · cases found
          refine ⟨first.state, [], steps, ?_, rfl, rfl⟩
          have position_eq : position = steps.length := by omega
          rw [position_eq, List.getElem?_reverse (by simp)]
          simp
        · cases found

end Path

namespace TransitionSystem

variable {system : TransitionSystem Result}

/-- In a graph that was not cut off, a transition of a state of the system is found from its target. -/
theorem exists_mem_predecessors (wellFormed : system.WellFormed) {count : Nat}
    (complete : (system.graphUpTo count).truncated = false) {source action target : Value}
    (hasState : system.HasState source)
    (has : (system.transitions source).has (.pair action target) = .ok true) :
    ∃ pair ∈ (system.graphUpTo count).predecessors target,
      (pair.1 == action) = true ∧ (pair.2 == source) = true := by
  rcases Value.isIn_iff.mp (isIn_states_graphUpTo wellFormed complete hasState) with
    ⟨explored, explored_mem, equal⟩
  have hasExplored := hasState_of_mem_graphUpTo wellFormed explored_mem
  have hasThere : (system.transitions explored).has (Step.mk action target).toPair = .ok true :=
    wellFormed.has_congr hasState (BEq.symm equal) BEq.rfl has
  rcases (wellFormed.has_iff hasExplored).mp hasThere with
    ⟨pairs, listed, pair, pair_mem, toAction, toTarget⟩
  refine ⟨(pair.1, explored), ?_, toAction, equal⟩
  rw [predecessors_graphUpTo, List.mem_flatMap]
  refine ⟨explored, explored_mem, List.mem_map.mpr ⟨pair, ?_, rfl⟩⟩
  rw [listed.pairs_eq]
  exact List.mem_filter.mpr ⟨pair_mem, toTarget⟩

end TransitionSystem

namespace ReachabilityGraph

variable {system : TransitionSystem Result}

/-- Some bound gives a graph that is not cut off exactly if the system has finitely many states. -/
theorem exists_complete_iff (wellFormed : system.WellFormed) :
    (∃ bound graph, build system bound = .ok graph ∧ graph.truncated = false) ↔
      system.FinitelyReachable := by
  constructor
  · rintro ⟨bound, graph, built, complete⟩
    rcases (build_eq_ok_iff wellFormed).mp built with ⟨_, rfl⟩
    refine ⟨(system.graphUpTo bound.count.toNat).states, fun state reachable => ?_⟩
    exact TransitionSystem.isIn_states_graphUpTo wellFormed complete reachable.hasState
  · rintro ⟨cover, covered⟩
    have few : system.stateCount ≤ cover.length :=
      TransitionSystem.stateCount_le fun states distinct reachable =>
        distinct.length_le cover fun state state_mem => covered state (reachable state state_mem)
    have positive : 0 < (Bound.ofInt (cover.length + 1)).count := Int.natCast_succ_pos cover.length
    refine ⟨_, _, build_eq wellFormed positive, Bool.eq_false_iff.mpr fun cut => ?_⟩
    rw [TransitionSystem.truncated_graphUpTo_iff wellFormed] at cut
    have more : ((cover.length + 1 : ℕ) : ℕ∞) < cover.length := lt_of_lt_of_le cut few
    rw [ENat.natCast_lt_natCast] at more
    omega

/-- A valid path walked backwards follows the predecessors in every graph that was not cut off, and there
is such a graph exactly if the system has finitely many states. The path ends where it began, with its
states and its actions in reverse, and each of its steps equals one of the transitions that enter the
state before it. -/
theorem build_reversed (wellFormed : system.WellFormed) :
    ((∃ bound graph, build system bound = .ok graph ∧ graph.truncated = false) ↔
      system.FinitelyReachable) ∧
    ∀ bound graph, build system bound = .ok graph → graph.truncated = false →
      ∀ path : Path, path.isValidIn system = .ok true →
        path.reversed.head = path.last ∧ path.reversed.last = path.head ∧
        path.reversed.states = path.states.reverse ∧ path.reversed.actions = path.actions.reverse ∧
        ∀ (position : Nat) (step : Step), path.reversed.steps[position]? = some step →
          ∃ before, path.reversed.states[position]? = some before ∧
            ∃ pair ∈ graph.predecessors before,
              (pair.1 == step.action) = true ∧ (pair.2 == step.state) = true := by
  refine ⟨exists_complete_iff wellFormed, ?_⟩
  intro bound graph built complete path valid
  rcases (build_eq_ok_iff wellFormed).mp built with ⟨_, rfl⟩
  refine ⟨path.head_reversed, path.last_reversed, path.states_reversed, path.actions_reversed, ?_⟩
  intro position step found
  rcases Path.exists_step_of_reversed found with
    ⟨before, earlier, later, before_found, steps_eq, last_eq⟩
  refine ⟨before, before_found, ?_⟩
  -- the beginning of the path up to this step ends in a state of the system, which the step leaves
  rcases Path.isValidIn_iff.mp valid with ⟨initial, follows⟩
  rw [steps_eq, Path.followsFrom_append_iff, Path.followsFrom_cons_iff, last_eq] at follows
  have hasState : system.HasState step.state := by
    rw [← last_eq]
    apply wellFormed.hasState_last
    rw [Path.isValidIn_iff, Path.steps_listed]
    exact ⟨initial, follows.1⟩
  exact TransitionSystem.exists_mem_predecessors wellFormed complete hasState follows.2.1

/-- In the complete graph of a merging system, a path that names a number is followed backwards, though
the transition into that number leads into the truth value that equals it. -/
theorem build_reversed_merging :
    TransitionSystem.merging.WellFormed ∧
      ∃ graph, build TransitionSystem.merging (.ofInt 3) = .ok graph ∧ graph.truncated = false ∧
        (Path.listed (.int 0) [⟨.str "set", .int 1⟩, ⟨.str "up", .int 2⟩]).isValidIn
          TransitionSystem.merging = .ok true ∧
        ∃ pair ∈ graph.predecessors (.int 1),
          (pair.1 == .str "set") = true ∧ (pair.2 == .int 0) = true := by
  have wellFormed := TransitionSystem.merging_wellLabelled.toWellFormed
  have built := build_eq wellFormed (show 0 < (Bound.ofInt 3).count by decide)
  rcases build_reversed wellFormed with ⟨_, follows⟩
  rcases follows _ _ built rfl (Path.listed (.int 0) [⟨.str "set", .int 1⟩, ⟨.str "up", .int 2⟩]) rfl with
    ⟨_, _, _, _, enters⟩
  rcases enters 1 ⟨.str "set", .int 0⟩ rfl with ⟨before, before_found, entered⟩
  cases before_found
  exact ⟨wellFormed, _, built, rfl, rfl, entered⟩

end ReachabilityGraph

end StateSpace
