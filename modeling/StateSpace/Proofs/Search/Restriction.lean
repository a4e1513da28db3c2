import StateSpace.Proofs.Search.StateCount
import StateSpace.Proofs.Search.Work

/-!
# Systems that are regular in their reachable states

Well-formedness asks something of every value that equals a reachable state. A search never sees most of
these values: it asks for the transitions of states that it has reported, and those are reachable
themselves. So it is enough that the conditions hold in the reachable states, as they do in many systems
that read a state more closely than equality does.

`TransitionSystem.restricted` takes the transitions of any value that equals a reachable state from such a
state. It is well formed if the system is regular, and both are searched alike.
-/

namespace StateSpace

namespace Search

/-- A run asks for the transitions of the awaited state and of states that it reports, and of no others. -/
theorem mem_of_mem_asked {transitions : Value → Successors Result} {bound : Nat} {search : Search}
    {state : Value} (mem : state ∈ asked transitions bound search) :
    state ∈ (search.awaiting.map Record.state).toList ∨
      state ∈ (search.run transitions bound).states := by
  induction bound generalizing search with
  | zero => simp [asked] at mem
  | succ bound ih =>
      rw [asked, List.mem_append] at mem
      rcases mem with awaited | later
      · exact .inl awaited
      · cases advances : search.next transitions with
        | exhausted ended => simp [advances] at later
        | failed fault stopped => simp [advances] at later
        | reported record following =>
            simp only [advances] at later
            right
            rw [run_of_reported advances]
            simp only [Trace.states, Trace.after, List.map_append, List.mem_append]
            rcases ih later with awaited | reported
            · rw [awaiting_of_reported advances] at awaited
              exact .inl (by simpa using awaited)
            · exact .inr reported

end Search

namespace TransitionSystem

/-- A system whose reachable states may be keys and have transitions that can be listed as pairs, equal
ones having equal transitions. -/
structure Regular (system : TransitionSystem Result) : Prop where
  hashable : ∀ {state : Value}, system.Reachable state → state.IsHashable
  listed : ∀ {state : Value}, system.Reachable state → ∃ pairs, system.Lists state pairs
  congruent : ∀ {state other : Value} {pairs others : List (Value × Value)},
    system.Reachable state → system.Reachable other → (state == other) = true →
      system.Lists state pairs → system.Lists other others →
        (Value.list (pairs.map fun pair => .pair pair.1 pair.2) ==
          .list (others.map fun pair => .pair pair.1 pair.2)) = true

open Classical in
/-- A reachable state that equals a value, if there is one. A reachable state stands for itself. -/
noncomputable def representative (system : TransitionSystem Result) (state : Value) : Value :=
  if system.Reachable state then state
  else if found : system.HasState state then found.choose
  else state

/-- The system in which a value that equals a reachable state has the transitions of such a state. -/
noncomputable def restricted (system : TransitionSystem Result) : TransitionSystem Result :=
  { system with transitions := fun state => system.transitions (system.representative state) }

variable {system : TransitionSystem Result}

theorem representative_of_reachable {state : Value} (reachable : system.Reachable state) :
    system.representative state = state := by
  simp [representative, reachable]

theorem reachable_representative {state : Value} (hasState : system.HasState state) :
    system.Reachable (system.representative state) ∧
      (system.representative state == state) = true := by
  by_cases reachable : system.Reachable state
  · rw [representative_of_reachable reachable]
    exact ⟨reachable, BEq.rfl⟩
  · have chosen : system.representative state = hasState.choose := by
      rw [representative, if_neg reachable, dif_pos hasState]
    rw [chosen]
    exact hasState.choose_spec

theorem lists_restricted_iff {state : Value} (reachable : system.Reachable state)
    {pairs : List (Value × Value)} : system.restricted.Lists state pairs ↔ system.Lists state pairs := by
  simp [Lists, restricted, representative_of_reachable reachable]

theorem reachable_restricted_iff {state : Value} :
    system.restricted.Reachable state ↔ system.Reachable state := by
  constructor
  · intro reachable
    induction reachable with
    | initial mem => exact .initial mem
    | step _ listed mem ih => exact ih.step ((lists_restricted_iff ih).mp listed) mem
  · intro reachable
    induction reachable with
    | initial mem => exact .initial mem
    | step source listed mem ih => exact ih.step ((lists_restricted_iff source).mpr listed) mem

theorem hasState_restricted_iff {state : Value} :
    system.restricted.HasState state ↔ system.HasState state := by
  simp only [HasState, reachable_restricted_iff]

/-- Where equal reachable states are the same, they have the same transitions. -/
theorem regular_of_eq (hashable : ∀ {state : Value}, system.Reachable state → state.IsHashable)
    (listed : ∀ {state : Value}, system.Reachable state → ∃ pairs, system.Lists state pairs)
    (same : ∀ {state other : Value}, system.Reachable state → system.Reachable other →
      (state == other) = true → state = other) : system.Regular where
  hashable := hashable
  listed := listed
  congruent reachable reachable' equal pairs_listed others_listed := by
    cases same reachable reachable' equal
    rw [pairs_listed.unique others_listed]
    exact BEq.rfl

theorem WellFormed.regular (wellFormed : system.WellFormed) : system.Regular where
  hashable reachable := wellFormed.hashable reachable.hasState
  listed reachable := wellFormed.listed reachable.hasState
  congruent reachable _ equal listed listed' := wellFormed.congruent reachable.hasState equal listed listed'

namespace Regular

theorem restricted_wellFormed (regular : system.Regular) : system.restricted.WellFormed where
  hashable hasState := by
    rcases hasState_restricted_iff.mp hasState with ⟨reached, reachable, equal⟩
    exact (regular.hashable reachable).of_beq equal
  listed hasState :=
    regular.listed (reachable_representative (hasState_restricted_iff.mp hasState)).1
  congruent {state other items others} hasState equal listed listed' := by
    rw [hasState_restricted_iff] at hasState
    rcases reachable_representative hasState with ⟨reachable, same⟩
    rcases reachable_representative (hasState.congr equal) with ⟨reachable', same'⟩
    rcases regular.listed reachable with ⟨pairs, pairs_listed⟩
    rcases regular.listed reachable' with ⟨pairs', pairs_listed'⟩
    have congruent := regular.congruent reachable reachable'
      (BEq.trans (BEq.trans same equal) (BEq.symm same')) pairs_listed pairs_listed'
    simp only [restricted] at listed listed'
    rw [pairs_listed, Except.ok.injEq] at listed
    rw [pairs_listed', Except.ok.injEq] at listed'
    rw [← listed, ← listed']
    exact congruent

/-- A search of a regular system asks for nothing but what its restriction says. -/
theorem explore_restricted (regular : system.Regular) (bound : Nat) :
    system.restricted.explore bound = system.explore bound := by
  rcases explore_stage regular.restricted_wellFormed bound with ⟨_, reported, pending, records_eq, stage, _⟩
  refine Search.run_congr_asked fun state state_mem => ?_
  rcases Search.mem_of_mem_asked state_mem with awaited | run_mem
  · simp [search, Search.start] at awaited
  · -- what the restriction reports is reachable, and a reachable state stands for itself
    have state_reported : state ∈ (system.restricted.explore bound).states := run_mem
    rw [states_explore records_eq] at state_reported
    rcases List.mem_map.mp state_reported with ⟨placed, placed_mem, rfl⟩
    have reachable := stage.explores.reachable (List.mem_append_left _ placed_mem)
    simp [restricted, representative_of_reachable (reachable_restricted_iff.mp reachable)]

/-- A regular system with finitely many reachable states is searched to the end. The search has then
reported reachable states, no two of which are equal, and every reachable state equals one of them. -/
theorem explore_exhausted (regular : system.Regular) (finite : system.FinitelyReachable) :
    ∃ bound records,
      (∀ more, (system.explore (bound + more)).records = records ∧
        (system.explore (bound + more)).ending = .exhausted) ∧
      Value.Distinct (records.map Record.state) ∧
      (∀ record ∈ records, system.Reachable record.state) ∧
      ∀ state, system.Reachable state → state.isIn (records.map Record.state) = true := by
  have wellFormed := regular.restricted_wellFormed
  have finite' : system.restricted.FinitelyReachable := by
    rcases finite with ⟨cover, covered⟩
    exact ⟨cover, fun state reachable => covered state (reachable_restricted_iff.mp reachable)⟩
  rcases TransitionSystem.explore_exhausted wellFormed finite' with
    ⟨bound, reported, pending, explores, seen, ended⟩
  simp only [regular.explore_restricted] at ended
  refine ⟨bound, reported.map Placed.toRecord, ended, ?_, ?_, ?_⟩
  · rw [Placed.map_state_toRecord]
    exact explores.distinct
  · rintro record record_mem
    rcases List.mem_map.mp record_mem with ⟨placed, placed_mem, rfl⟩
    exact reachable_restricted_iff.mp (explores.reachable (List.mem_append_left _ placed_mem))
  · intro state reachable
    rw [Placed.map_state_toRecord]
    exact explores.isIn_reported wellFormed seen (reachable_restricted_iff.mpr reachable).hasState

/-- Where equal reachable states are the same, a search that ends has found exactly the reachable states. -/
theorem exists_reachableStates (regular : system.Regular) (finite : system.FinitelyReachable)
    (same : ∀ {state other : Value}, system.Reachable state → system.Reachable other →
      (state == other) = true → state = other) :
    ∃ bound states, (∀ more, system.reachableStates? (bound + more) = .ok (some states)) ∧
      Value.Distinct states ∧ ∀ state, state ∈ states ↔ system.Reachable state := by
  rcases regular.explore_exhausted finite with ⟨bound, records, ended, distinct, reachable, found⟩
  have states_reachable : ∀ state ∈ records.map Record.state, system.Reachable state := by
    rw [List.forall_mem_map]
    exact reachable
  refine ⟨bound, records.map Record.state, ?_, distinct, ?_⟩
  · intro more
    simp [reachableStates?, Search.Trace.states, ended more]
  · intro state
    refine ⟨states_reachable state, fun state_reachable => ?_⟩
    rcases Value.isIn_iff.mp (found state state_reachable) with ⟨value, value_mem, equal⟩
    rw [← same (states_reachable value value_mem) state_reachable equal]
    exact value_mem

end Regular

end TransitionSystem

end StateSpace
