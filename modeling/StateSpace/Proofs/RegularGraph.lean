import StateSpace.Proofs.ReachabilityGraph
import StateSpace.Proofs.Search.Restriction

/-!
# Graphs of enumerated systems

A regular system has the graphs of its restriction, which is well formed. Where the reachable states are
known, each listed once, this gives the size of every graph: it is cut off if its bound is less than the
length of the list, and otherwise its states are the list in another order. Its transitions may then be
counted along the list.
-/

namespace StateSpace

namespace TransitionSystem

variable {system : TransitionSystem Result}

namespace Regular

theorem reachable_of_record (regular : system.Regular) {count : Nat} {record : Record}
    (record_mem : record ∈ (system.explore count).records) : system.Reachable record.state := by
  rw [← regular.explore_restricted] at record_mem
  apply reachable_restricted_iff.mp
  exact TransitionSystem.reachable_of_record regular.restricted_wellFormed record_mem

theorem build_eq (regular : system.Regular) {bound : Bound} (positive : 0 < bound.count) :
    ReachabilityGraph.build system bound = .ok (system.graphUpTo bound.count.toNat) := by
  apply ReachabilityGraph.build_eq_of_listed positive
  · intro record record_mem
    exact regular.listed (regular.reachable_of_record record_mem)
  · rw [← regular.explore_restricted]
    exact ReachabilityGraph.ending_ne_failed regular.restricted_wellFormed _

theorem pairs_restricted {state : Value} (reachable : system.Reachable state) :
    system.restricted.pairs state = system.pairs state := by
  simp [pairs, restricted, representative_of_reachable reachable]

theorem graphUpTo_restricted (regular : system.Regular) (count : Nat) :
    system.restricted.graphUpTo count = system.graphUpTo count := by
  have edges_eq : (system.explore count).states.flatMap system.restricted.edges =
      (system.explore count).states.flatMap system.edges := by
    apply List.flatMap_congr
    intro state state_mem
    rcases List.mem_map.mp state_mem with ⟨record, record_mem, rfl⟩
    rw [edges, edges, pairs_restricted (regular.reachable_of_record record_mem)]
  simp only [graphUpTo, regular.explore_restricted, edges_eq]
  rfl

theorem reachable_of_mem_graphUpTo (regular : system.Regular) {count : Nat} {state : Value}
    (state_mem : state ∈ (system.graphUpTo count).states) : system.Reachable state := by
  rcases List.mem_map.mp state_mem with ⟨record, record_mem, rfl⟩
  exact regular.reachable_of_record record_mem

/-- A graph has no terminal states if every reachable state has transitions, also where it was cut off. -/
theorem terminalStates_graphUpTo (regular : system.Regular)
    (live : ∀ state, system.Reachable state → system.pairs state ≠ []) (count : Nat) :
    (system.graphUpTo count).terminalStates = .ok [] := by
  rw [← regular.graphUpTo_restricted,
    TransitionSystem.terminalStates_graphUpTo regular.restricted_wellFormed, regular.graphUpTo_restricted]
  congr 1
  apply List.filter_eq_nil_iff.mpr
  intro state state_mem
  have reachable := regular.reachable_of_mem_graphUpTo state_mem
  rw [pairs_restricted reachable, List.isEmpty_iff]
  exact live state reachable

end Regular

/-- The states are the reachable ones, each listed once. -/
structure Enumerates (system : TransitionSystem Result) (states : List Value) : Prop where
  distinct : Value.Distinct states
  mem_iff : ∀ state, state ∈ states ↔ system.Reachable state

namespace Enumerates

variable {states : List Value}

theorem eq_of_beq (enumerates : system.Enumerates states) {state other : Value}
    (reachable : system.Reachable state) (reachable' : system.Reachable other)
    (equal : (state == other) = true) : state = other := by
  have distinct := enumerates.distinct
  rw [← List.map_id states] at distinct
  exact distinct.eq_of_beq ((enumerates.mem_iff state).mpr reachable)
    ((enumerates.mem_iff other).mpr reachable') equal

theorem stateCount_restricted (enumerates : system.Enumerates states) :
    system.restricted.stateCount = states.length := by
  apply stateCount_eq_length enumerates.distinct
  · intro state state_mem
    exact reachable_restricted_iff.mpr ((enumerates.mem_iff state).mp state_mem)
  · intro state reachable
    exact Value.isIn_of_mem ((enumerates.mem_iff state).mpr (reachable_restricted_iff.mp reachable))

theorem truncated_graphUpTo_iff (enumerates : system.Enumerates states) (regular : system.Regular)
    (count : Nat) : (system.graphUpTo count).truncated = true ↔ count < states.length := by
  rw [← regular.graphUpTo_restricted, TransitionSystem.truncated_graphUpTo_iff regular.restricted_wellFormed,
    enumerates.stateCount_restricted, ENat.natCast_lt_natCast]

/-- What lists each reachable state once, up to equality, is the enumeration in another order. -/
theorem perm_of_covers (enumerates : system.Enumerates states) {found : List Value}
    (distinct : Value.Distinct found) (reachable : ∀ state ∈ found, system.Reachable state)
    (covers : ∀ state, system.Reachable state → state.isIn found = true) : found.Perm states := by
  apply (List.perm_ext_iff_of_nodup distinct.nodup enumerates.distinct.nodup).mpr
  intro state
  rw [enumerates.mem_iff]
  constructor
  · exact reachable state
  · intro state_reachable
    rcases Value.isIn_iff.mp (covers state state_reachable) with ⟨item, item_mem, equal⟩
    rwa [← enumerates.eq_of_beq (reachable item item_mem) state_reachable equal]

/-- A graph that was not cut off has the reachable states, in the order of the search. -/
theorem states_graphUpTo_perm (enumerates : system.Enumerates states) (regular : system.Regular)
    {count : Nat} (complete : (system.graphUpTo count).truncated = false) :
    (system.graphUpTo count).states.Perm states := by
  have wellFormed := regular.restricted_wellFormed
  have distinct := distinct_states_graphUpTo wellFormed count
  rw [regular.graphUpTo_restricted] at distinct
  apply enumerates.perm_of_covers distinct fun _ => regular.reachable_of_mem_graphUpTo
  intro state reachable
  rw [← regular.graphUpTo_restricted] at complete ⊢
  exact isIn_states_graphUpTo wellFormed complete (reachable_restricted_iff.mpr reachable).hasState

/-- A search ends with the reachable states, in some order. -/
theorem exists_explore_perm (enumerates : system.Enumerates states) (regular : system.Regular) :
    ∃ bound records,
      (∀ more, (system.explore (bound + more)).records = records ∧
        (system.explore (bound + more)).ending = .exhausted) ∧
      (records.map Record.state).Perm states := by
  have finite : system.FinitelyReachable :=
    ⟨states, fun state reachable => Value.isIn_of_mem ((enumerates.mem_iff state).mpr reachable)⟩
  rcases regular.explore_exhausted finite with ⟨bound, records, ends, distinct, reachable, found⟩
  exact ⟨bound, records, ends, enumerates.perm_of_covers distinct (List.forall_mem_map.mpr reachable) found⟩

/-- A graph that was not cut off has the transitions of all reachable states. -/
theorem numTransitions_graphUpTo (enumerates : system.Enumerates states) (regular : system.Regular)
    {count : Nat} (complete : (system.graphUpTo count).truncated = false) :
    (system.graphUpTo count).numTransitions = (states.flatMap system.pairs).length := by
  have perm := enumerates.states_graphUpTo_perm regular complete
  calc (system.graphUpTo count).numTransitions
    _ = ((system.graphUpTo count).states.flatMap system.edges).length := rfl
    _ = (states.flatMap system.edges).length := (perm.flatMap_right system.edges).length_eq
    _ = (states.flatMap system.pairs).length := by simp [List.length_flatMap, edges]

end Enumerates

end TransitionSystem

end StateSpace
