import Mathlib.Algebra.GroupWithZero.Nat
import Mathlib.Tactic.Ring
import StateSpace.Proofs.Model.SodaMachine
import StateSpace.Proofs.RegularGraph

/-!
# The size of the soda machine

The reachable states are two for each stock of sodas and beers: the machine waits for a coin or has just been
given one. A transition leaves each of them, so no graph of the machine has terminal states. Where it waits,
there are two transitions, and after a coin there is one for each drink in stock and one to return the coin if
there is none. These are counted row by row: with no sodas left every state after a coin has one transition,
and otherwise it has one more where there are beers.
-/

namespace StateSpace.SodaMachine

variable {maxSodas maxBeers : Nat}

theorem distinct_configurations : Value.Distinct (configurations maxSodas maxBeers) := by
  -- the rows differ in the sodas, the columns of a row in the beers, and the two states of a stock in the place
  apply List.pairwise_flatMap.mpr
  constructor
  · intro sodas _
    apply List.pairwise_flatMap.mpr
    constructor
    · intro beers _
      simp [beq_configuration_eq_false, start_ne_select]
    · apply List.pairwise_lt_range.imp
      intro beers beers' lt
      simp only [List.mem_cons, List.not_mem_nil, or_false, forall_eq_or_imp, forall_eq]
      refine ⟨⟨?_, ?_⟩, ?_, ?_⟩ <;> exact beq_configuration_eq_false (by omega)
  · apply List.pairwise_lt_range.imp
    intro sodas sodas' lt state state_mem state' state_mem'
    simp only [List.mem_flatMap, List.mem_cons, List.not_mem_nil, or_false] at state_mem state_mem'
    rcases state_mem with ⟨beers, _, rfl | rfl⟩ <;> rcases state_mem' with ⟨beers', _, rfl | rfl⟩ <;>
      exact beq_configuration_eq_false (by omega)

theorem length_configurations :
    (configurations maxSodas maxBeers).length = 2 * (maxSodas + 1) * (maxBeers + 1) := by
  simp [configurations, List.length_flatMap]
  ring

theorem enumerates_configurations :
    (machine maxSodas maxBeers).compile.Enumerates (configurations maxSodas maxBeers) where
  distinct := distinct_configurations
  mem_iff _ := mem_configurations_iff.trans reachable_iff.symm

theorem length_pairs_start {coins sodas beers : Int} :
    ((machine maxSodas maxBeers).compile.pairs (configuration start coins sodas beers)).length = 2 := by
  rw [lists_start.pairs_eq]
  rfl

/-- How many transitions there are after a coin. -/
def choices (sodas beers : Nat) : Nat :=
  (if 0 < sodas then 1 else 0) + (if 0 < beers then 1 else 0) + if sodas = 0 ∧ beers = 0 then 1 else 0

theorem length_pairs_select {coins : Int} {sodas beers : Nat} :
    ((machine maxSodas maxBeers).compile.pairs (configuration select coins sodas beers)).length =
      choices sodas beers := by
  rw [lists_select.pairs_eq, choices]
  simp only [List.length_append, apply_ite List.length, List.length_singleton, List.length_nil,
    Int.natCast_pos, Int.natCast_eq_zero]

theorem choices_pos (sodas beers : Nat) : 0 < choices sodas beers := by
  unfold choices
  split <;> split <;> split <;> omega

/-- The transitions of all states with so many sodas. -/
theorem sum_row (sodas maxBeers : Nat) :
    ((List.range (maxBeers + 1)).map fun beers => 2 + choices sodas beers).sum =
      (if sodas = 0 then 3 else 4) * maxBeers + 3 := by
  cases sodas with
  | zero =>
      simp [List.range_succ_eq_map, choices, Function.comp_def]
      omega
  | succ sodas =>
      simp [List.range_succ_eq_map, choices, Function.comp_def]
      omega

theorem length_pairs_configurations :
    ((configurations maxSodas maxBeers).flatMap (machine maxSodas maxBeers).compile.pairs).length =
      2 * (maxSodas + 1) * (maxBeers + 1) + maxSodas * (maxBeers + 1) + maxBeers * (maxSodas + 1) + 1 := by
  calc ((configurations maxSodas maxBeers).flatMap (machine maxSodas maxBeers).compile.pairs).length
    _ = ((List.range (maxSodas + 1)).map fun sodas =>
          ((List.range (maxBeers + 1)).map fun beers => 2 + choices sodas beers).sum).sum := by
      simp [configurations, List.flatMap_assoc, List.length_flatMap, length_pairs_start, length_pairs_select]
    _ = 3 * maxBeers + 3 + maxSodas * (4 * maxBeers + 3) := by
      simp only [sum_row]
      simp [List.range_succ_eq_map, Function.comp_def]
    _ = 2 * (maxSodas + 1) * (maxBeers + 1) + maxSodas * (maxBeers + 1) + maxBeers * (maxSodas + 1) + 1 := by
      ring

theorem pairs_ne_nil {state : Value} (reachable : (machine maxSodas maxBeers).compile.Reachable state) :
    (machine maxSodas maxBeers).compile.pairs state ≠ [] := by
  apply List.ne_nil_of_length_pos
  rcases balanced_of_reachable reachable with ⟨sodas, beers, _, _, rfl | rfl⟩
  · rw [length_pairs_start]
    decide
  · rw [length_pairs_select]
    exact choices_pos sodas beers

/-- The graphs of the machine, for all capacities and bounds. A graph is cut off if its bound is less than
the number of states, and in no case has it terminal states. A graph that was not cut off has the states and
transitions that the capacities say. -/
theorem build_machine (maxSodas maxBeers : Nat) {bound : Bound} (positive : 0 < bound.count) :
    ∃ machine : ProgramGraph Result, graph (.int maxSodas) (.int maxBeers) = .ok machine ∧
      ∃ explored, ReachabilityGraph.build machine.compile bound = .ok explored ∧
        (explored.truncated = true ↔ bound.count < 2 * (maxSodas + 1) * (maxBeers + 1)) ∧
        explored.terminalStates = .ok [] ∧
        (explored.truncated = false →
          explored.numStates = 2 * (maxSodas + 1) * (maxBeers + 1) ∧
          explored.numTransitions = 2 * (maxSodas + 1) * (maxBeers + 1) + maxSodas * (maxBeers + 1) +
            maxBeers * (maxSodas + 1) + 1) := by
  have enumerates := @enumerates_configurations maxSodas maxBeers
  have regular := @machine_regular maxSodas maxBeers
  refine ⟨machine maxSodas maxBeers, graph_eq maxSodas maxBeers, _, regular.build_eq positive, ?_, ?_, ?_⟩
  · rw [enumerates.truncated_graphUpTo_iff regular, length_configurations, Int.toNat_lt positive.le]
    norm_cast
  · exact regular.terminalStates_graphUpTo (fun _ => pairs_ne_nil) _
  · intro complete
    constructor
    · rw [← length_configurations]
      exact (enumerates.states_graphUpTo_perm regular complete).length_eq
    · rw [← length_pairs_configurations]
      exact enumerates.numTransitions_graphUpTo regular complete

/-- With one soda and two beers there are twelve states and twenty transitions. One state less is cut off. -/
theorem build_machine_one_two :
    0 < (Bound.ofInt 11).count ∧ 0 < (Bound.ofInt 12).count ∧
      ∃ machine : ProgramGraph Result, graph (.int 1) (.int 2) = .ok machine ∧
        (∃ cut, ReachabilityGraph.build machine.compile (.ofInt 11) = .ok cut ∧ cut.truncated = true) ∧
        ∃ complete, ReachabilityGraph.build machine.compile (.ofInt 12) = .ok complete ∧
          complete.truncated = false ∧ complete.terminalStates = .ok [] ∧
          complete.numStates = 12 ∧ complete.numTransitions = 20 := by
  have eleven : 0 < (Bound.ofInt 11).count := by decide
  have twelve : 0 < (Bound.ofInt 12).count := by decide
  rcases build_machine 1 2 eleven with ⟨machine, machine_eq, cut, cut_built, cut_iff, _⟩
  rcases build_machine 1 2 twelve with
    ⟨same, same_eq, complete, complete_built, complete_iff, terminal, sizes⟩
  cases machine_eq.symm.trans same_eq
  have whole : complete.truncated = false := Bool.eq_false_iff.mpr (complete_iff.not.mpr (by decide))
  refine ⟨eleven, twelve, machine, machine_eq, ⟨cut, cut_built, cut_iff.mpr (by decide)⟩, ?_⟩
  exact ⟨complete, complete_built, whole, terminal, sizes whole⟩

end StateSpace.SodaMachine
