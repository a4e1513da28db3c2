import StateSpace.Proofs.Search.Exploration
import StateSpace.Proofs.TableSystem

/-!
# Exactness of the search

The search of a well-formed system reports no state twice, and every state with a valid path to it. If
the reachable states are finitely many, the search ends and has reported all of them. The bound is the
number of values that cover the reachable states: so many rounds cannot all report unequal states.
-/

namespace StateSpace

namespace TransitionSystem

variable {system : TransitionSystem Result}

/-- A bounded exploration is an exploration of the system that was cut at its bound, or one with nothing
left to report. -/
theorem explore_stage (wellFormed : system.WellFormed) (bound : Nat) :
    ∃ last reported pending, reported.map Placed.toRecord = (system.explore bound).records ∧
      Search.Stage system last reported pending ∧
      Search.Reports system.transitions system.search (system.explore bound).records last ∧
      ((system.explore bound).ending = .cut ∧ (system.explore bound).records.length = bound ∨
        (system.explore bound).ending = .exhausted ∧
          (∃ ended, last.next system.transitions = .exhausted ended) ∧
          ∀ placed ∈ pending, placed.state.isIn (Placed.states reported) = true) := by
  rcases Search.run_reports system.transitions bound system.search with
    ⟨last, reports, ends⟩
  rcases Search.stage_of_reports wellFormed reports with ⟨reported, pending, records_eq, stage⟩
  refine ⟨last, reported, pending, records_eq, stage, reports, ?_⟩
  rcases ends with cut | ⟨ended, next_eq, ending⟩ | ⟨fault, stopped, next_eq, ending⟩
  · exact .inl cut
  · rcases Search.next_of_stage wellFormed stage with ⟨seen, _⟩ | ⟨placed, following, _, reported_eq, _⟩
    · exact .inr ⟨ending, ⟨ended, next_eq⟩, seen⟩
    · rw [next_eq] at reported_eq
      cases reported_eq
  · rcases Search.next_of_stage wellFormed stage with ⟨_, ended, next_eq'⟩ | ⟨_, _, _, next_eq', _⟩
    · rw [next_eq] at next_eq'
      cases next_eq'
    · rw [next_eq] at next_eq'
      cases next_eq'

theorem exists_placed (wellFormed : system.WellFormed) {bound : Nat} {record : Record}
    (record_mem : record ∈ (system.explore bound).records) :
    ∃ reported pending placed, system.Explores reported pending ∧ placed ∈ reported ∧
      placed.toRecord = record := by
  rcases explore_stage wellFormed bound with ⟨_, reported, pending, records_eq, stage, _⟩
  rw [← records_eq] at record_mem
  rcases List.mem_map.mp record_mem with ⟨placed, placed_mem, placed_eq⟩
  exact ⟨reported, pending, placed, stage.explores, placed_mem, placed_eq⟩

/-- The path of every reported state is valid and ends in the state. -/
theorem explore_witness (wellFormed : system.WellFormed) {bound : Nat} {record : Record}
    (record_mem : record ∈ (system.explore bound).records) :
    record.path.last = record.state ∧ record.path.isValidIn system = .ok true := by
  rcases exists_placed wellFormed record_mem with ⟨reported, pending, placed, explores, placed_mem, rfl⟩
  exact explores.witness (List.mem_append_left _ placed_mem)

theorem states_explore {bound : Nat} {reported : List Placed}
    (records_eq : reported.map Placed.toRecord = (system.explore bound).records) :
    (system.explore bound).states = Placed.states reported := by
  rw [Search.Trace.states, ← records_eq, Placed.map_state_toRecord]

/-- A system with finitely many reachable states is explored to the end, whatever bound beyond some
number is given. -/
theorem explore_exhausted (wellFormed : system.WellFormed) (finite : system.FinitelyReachable) :
    ∃ bound reported pending, system.Explores reported pending ∧
      (∀ placed ∈ pending, placed.state.isIn (Placed.states reported) = true) ∧
      ∀ more, (system.explore (bound + more)).records = reported.map Placed.toRecord ∧
        (system.explore (bound + more)).ending = .exhausted := by
  rcases finite with ⟨cover, covered⟩
  rcases explore_stage wellFormed (cover.length + 1) with
    ⟨last, reported, pending, records_eq, stage, reports, ⟨_, count⟩ | ⟨_, ⟨ended, next_eq⟩, seen⟩⟩
  · -- a run that was cut has reported more unequal states than the cover has room for
    have few := stage.explores.distinct.length_le cover (by
      intro state state_mem
      rcases List.mem_map.mp state_mem with ⟨placed, placed_mem, rfl⟩
      rcases stage.explores.hasState wellFormed (List.mem_append_left _ placed_mem) with
        ⟨reached, reachable, equal⟩
      rw [← Value.isIn_congr equal]
      exact covered reached reachable)
    rw [← records_eq, List.length_map] at count
    simp only [Placed.states, List.length_map] at few
    omega
  · refine ⟨(system.explore (cover.length + 1)).records.length + 1, reported, pending, stage.explores,
      seen, ?_⟩
    intro more
    have run_eq := Search.run_of_reports reports (1 + more)
    have last_run : last.run system.transitions (1 + more) = { ending := .exhausted, search := ended } := by
      rw [Nat.add_comm]
      simp [Search.run, next_eq]
    rw [last_run] at run_eq
    rw [explore, Nat.add_assoc, run_eq, records_eq]
    simp

/-- The search is exact. Reported states are pairwise unequal and come with valid paths that end in
them. Where the reachable states are finitely many, the search ends with exactly those, and these are
the last states of the valid paths. -/
theorem explore_exact (wellFormed : system.WellFormed) :
    (∀ bound,
      Value.Distinct (system.explore bound).states ∧
      (∀ record ∈ (system.explore bound).records,
        (record.path.last == record.state) = true ∧ record.path.isValidIn system = .ok true) ∧
      ((system.explore bound).ending = .exhausted ∨
        (system.explore bound).ending = .cut ∧ (system.explore bound).records.length = bound)) ∧
    (system.FinitelyReachable →
      ∃ bound states, (∀ more, system.reachableStates? (bound + more) = .ok (some states)) ∧
        ∀ state : Value,
          (state.isIn states = true ↔
            ∃ reached, system.Reachable reached ∧ (reached == state) = true) ∧
          (state.isIn states = true ↔
            ∃ path : Path, path.isValidIn system = .ok true ∧ (path.last == state) = true)) := by
  constructor
  · intro bound
    rcases explore_stage wellFormed bound with ⟨last, reported, pending, records_eq, stage, _, ends⟩
    refine ⟨?_, ?_, ?_⟩
    · rw [states_explore records_eq]
      exact stage.explores.distinct
    · intro record record_mem
      rcases explore_witness wellFormed record_mem with ⟨last_eq, valid⟩
      refine ⟨?_, valid⟩
      rw [last_eq]
      exact BEq.rfl
    · rcases ends with cut | ⟨ending, _⟩
      · exact .inr cut
      · exact .inl ending
  · intro finite
    rcases explore_exhausted wellFormed finite with ⟨bound, reported, pending, explores, seen, ended⟩
    refine ⟨bound, Placed.states reported, ?_, ?_⟩
    · intro more
      rcases ended more with ⟨records_eq, ending⟩
      simp [reachableStates?, ending, states_explore records_eq.symm]
    · intro state
      have found_iff := explores.isIn_reported_iff wellFormed seen state
      exact ⟨found_iff, found_iff.trans wellFormed.hasState_iff_exists_path⟩

/-- In a merging system a truth value is found among the reported states, which equal it but are numbers. -/
theorem explore_exact_merging :
    merging.WellFormed ∧ merging.FinitelyReachable ∧
      (∀ bound, Value.Distinct (merging.explore bound).states) ∧
      ∃ bound states, (∀ more, merging.reachableStates? (bound + more) = .ok (some states)) ∧
        Value.isIn (.bool true) states = true := by
  refine ⟨merging_wellLabelled.toWellFormed, merging_finitelyReachable, ?_, ?_⟩
  · exact fun bound => ((explore_exact merging_wellLabelled.toWellFormed).1 bound).1
  · rcases (explore_exact merging_wellLabelled.toWellFormed).2 merging_finitelyReachable with
      ⟨bound, states, ended, exact⟩
    refine ⟨bound, states, ended, (exact (.bool true)).1.mpr ⟨.int 1, ?_, rfl⟩⟩
    exact .initial (by simp [merging])

end TransitionSystem

end StateSpace
