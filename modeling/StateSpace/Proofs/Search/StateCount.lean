import Mathlib.Data.ENat.Lattice
import Mathlib.Order.CompletePartialOrder
import StateSpace.Proofs.Search.Exactness

/-!
# The number of reachable states

Equal states count once, so the number of reachable states is the largest number of pairwise unequal
values among them, and it is infinite if there is no largest one. A bounded search reports as many records
as its bound allows and the system has states.
-/

namespace StateSpace

namespace Search

variable {transitions : Value → Successors Result}

theorem length_records_of_exhausted {bound : Nat} {search : Search}
    (ended : (search.run transitions bound).ending = .exhausted) :
    (search.run transitions bound).records.length < bound := by
  induction bound generalizing search with
  | zero => cases ended
  | succ bound ih =>
      cases advances : search.next transitions with
      | exhausted stopped => simp [run, advances]
      | failed fault stopped => simp [run, advances] at ended
      | reported record following =>
          rw [run_of_reported advances] at ended ⊢
          simpa using ih ended

end Search

namespace TransitionSystem

/-- The number of reachable states, equal ones counted once. -/
noncomputable def stateCount (system : TransitionSystem Result) : ℕ∞ :=
  ⨆ states : { states : List Value // Value.Distinct states ∧ ∀ state ∈ states, system.Reachable state },
    (states.1.length : ℕ∞)

variable {system : TransitionSystem Result}

theorem length_le_stateCount {states : List Value} (distinct : Value.Distinct states)
    (reachable : ∀ state ∈ states, system.Reachable state) :
    (states.length : ℕ∞) ≤ system.stateCount :=
  le_iSup (fun states : { states : List Value // Value.Distinct states ∧
    ∀ state ∈ states, system.Reachable state } => (states.1.length : ℕ∞)) ⟨states, distinct, reachable⟩

theorem stateCount_le {count : ℕ} (bounded : ∀ states : List Value, Value.Distinct states →
      (∀ state ∈ states, system.Reachable state) → states.length ≤ count) :
    system.stateCount ≤ count := by
  refine iSup_le fun states => ?_
  exact_mod_cast bounded states.1 states.2.1 states.2.2

/-- Pairwise unequal reachable states that every reachable state equals one of are as many as there are. -/
theorem stateCount_eq_length {states : List Value} (distinct : Value.Distinct states)
    (reachable : ∀ state ∈ states, system.Reachable state)
    (found : ∀ state, system.Reachable state → state.isIn states = true) :
    system.stateCount = states.length := by
  refine le_antisymm (stateCount_le fun others others_distinct others_reachable => ?_)
    (length_le_stateCount distinct reachable)
  exact others_distinct.length_le states fun state state_mem => found state (others_reachable state state_mem)

namespace Explores

theorem reachable {reported pending : List Placed} (explores : system.Explores reported pending)
    {placed : Placed} (placed_mem : placed ∈ reported ++ pending) : system.Reachable placed.state := by
  refine explores.forall_record (fun placed => system.Reachable placed.state) ?_ ?_ placed_mem
  · intro placed start_mem
    rcases mem_starts_iff.mp start_mem with ⟨position, state, found, rfl⟩
    exact .initial (List.mem_of_getElem? found)
  · intro source pairs source_reachable listed successor successor_mem
    rcases Placed.mem_successors_iff.mp successor_mem with ⟨position, pair, found, rfl⟩
    exact source_reachable.step listed (List.mem_of_getElem? found)

theorem reachable_states {reported pending : List Placed} (explores : system.Explores reported pending) :
    ∀ state ∈ Placed.states reported, system.Reachable state := by
  intro state state_mem
  rcases List.mem_map.mp state_mem with ⟨placed, placed_mem, rfl⟩
  exact explores.reachable (List.mem_append_left _ placed_mem)

theorem length_le_stateCount {reported pending : List Placed}
    (explores : system.Explores reported pending) : (reported.length : ℕ∞) ≤ system.stateCount := by
  have counted := TransitionSystem.length_le_stateCount explores.distinct explores.reachable_states
  simpa [Placed.states] using counted

theorem stateCount_eq (wellFormed : system.WellFormed) {reported pending : List Placed}
    (explores : system.Explores reported pending)
    (pending_seen : ∀ placed ∈ pending, placed.state.isIn (Placed.states reported) = true) :
    system.stateCount = reported.length := by
  have counted := stateCount_eq_length explores.distinct explores.reachable_states fun state reachable =>
    explores.isIn_reported wellFormed pending_seen reachable.hasState
  simpa [Placed.states] using counted

end Explores

theorem reachable_of_record (wellFormed : system.WellFormed) {bound : Nat} {record : Record}
    (record_mem : record ∈ (system.explore bound).records) : system.Reachable record.state := by
  rcases exists_placed wellFormed record_mem with ⟨reported, pending, placed, explores, placed_mem, rfl⟩
  exact explores.reachable (List.mem_append_left _ placed_mem)

/-- A bounded search reports as many records as its bound allows and the system has states. -/
theorem length_explore (wellFormed : system.WellFormed) (bound : ℕ) :
    ((system.explore bound).records.length : ℕ∞) = min (bound : ℕ∞) system.stateCount := by
  rcases explore_stage wellFormed bound with
    ⟨_, reported, pending, records_eq, stage, _, ⟨_, full⟩ | ⟨ended, _, seen⟩⟩
  · have enough := stage.explores.length_le_stateCount
    rw [← List.length_map Placed.toRecord, records_eq, full] at enough
    rw [full, min_eq_left enough]
  · have few := Search.length_records_of_exhausted ended
    have counted := stage.explores.stateCount_eq wellFormed seen
    rw [← List.length_map Placed.toRecord, records_eq] at counted
    rw [counted, min_eq_right]
    exact_mod_cast few.le

end TransitionSystem

end StateSpace
