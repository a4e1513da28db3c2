import StateSpace.ReachabilityGraph
import StateSpace.Proofs.Search.StateCount

/-!
# Graphs of bounded explorations

Building a graph advances a search and collects the transitions of each state on the way. The bound is
tested when one more state has been reported, after the search was resumed for it.
`ReachabilityGraph.exploreFrom_eq` reads the result off two bounded runs of the search: the states and the
transitions are those of the run with the same bound, and the graph is cut off exactly if a run with one
more round reports one more record. With the number of reachable states this says all about the graph of
a well-formed system, whether that number is finite or not.
-/

namespace StateSpace

namespace TransitionSystem

/-- The transitions that leave a state, if they can be listed as pairs. -/
def pairs (system : TransitionSystem Result) (state : Value) : List (Value × Value) :=
  match (system.transitions state).toList >>= Search.unpack with
  | .ok pairs => pairs
  | .error _ => []

/-- The edges of a graph that leave a state. -/
def edges (system : TransitionSystem Result) (state : Value) : List Edge :=
  (system.pairs state).map fun pair => ⟨state, pair.1, pair.2⟩

variable {system : TransitionSystem Result}

theorem Lists.pairs_eq {state : Value} {pairs : List (Value × Value)}
    (listed : system.Lists state pairs) : system.pairs state = pairs := by
  unfold Lists at listed
  simp [TransitionSystem.pairs, listed, Search.unpack_pairs]

theorem WellFormed.lists_pairs (wellFormed : system.WellFormed) {state : Value}
    (hasState : system.HasState state) : system.Lists state (system.pairs state) := by
  rcases wellFormed.listed hasState with ⟨pairs, listed⟩
  rwa [listed.pairs_eq]

theorem WellFormed.hasState_of_record (wellFormed : system.WellFormed) {bound : Nat} {record : Record}
    (record_mem : record ∈ (system.explore bound).records) : system.HasState record.state := by
  rcases explore_witness wellFormed record_mem with ⟨last_eq, valid⟩
  rw [← last_eq]
  exact wellFormed.hasState_last valid

/-- The graph of the first states that the search of a system reports. -/
def graphUpTo (system : TransitionSystem Result) (count : Nat) : ReachabilityGraph where
  initialStates := system.initialStates
  states := (system.explore count).states
  edges := (system.explore count).states.flatMap system.edges
  truncated := decide (count < (system.explore (count + 1)).records.length)

end TransitionSystem

namespace ReachabilityGraph

variable {system : TransitionSystem Result}

theorem mapM_edgeOf (state : Value) (pairs : List (Value × Value)) :
    (pairs.map fun pair => Value.pair pair.1 pair.2).mapM (edgeOf state) =
      .ok (pairs.map fun pair => ⟨state, pair.1, pair.2⟩) := by
  induction pairs with
  | nil => rfl
  | cons pair pairs ih =>
      have first : edgeOf state (.pair pair.1 pair.2) = .ok ⟨state, pair.1, pair.2⟩ := rfl
      simp [List.mapM_cons, first, ih]

/-- Where the transitions of all stages can be listed as pairs, the edges are those of the list. -/
theorem edgesFrom_of_collect {state : Value} {stages : List (Result (List Value))}
    {pairs : List (Value × Value)}
    (listed : Successors.collect stages = .ok (pairs.map fun pair => .pair pair.1 pair.2)) :
    edgesFrom state stages = .ok (pairs.map fun pair => ⟨state, pair.1, pair.2⟩) := by
  induction stages generalizing pairs with
  | nil =>
      cases pairs with
      | nil => rfl
      | cons pair pairs => cases listed
  | cons stage stages ih =>
      simp only [Successors.collect, Result.bind_eq_ok_iff, Result.pure_eq_ok, Except.ok.injEq] at listed
      rcases listed with ⟨items, rfl, others, others_eq, together⟩
      rcases List.map_eq_append_iff.mp together.symm with ⟨first, rest, rfl, rfl, rfl⟩
      simp only [edgesFrom, Result.ok_bind, mapM_edgeOf, ih others_eq, Result.pure_eq_ok, List.map_append]

theorem edgesFrom_of_lists {state : Value} {pairs : List (Value × Value)}
    (listed : system.Lists state pairs) :
    edgesFrom state (system.transitions state).stages = .ok (system.edges state) := by
  rw [TransitionSystem.edges, listed.pairs_eq]
  exact edgesFrom_of_collect listed

/-- A graph is read off a run with the same bound, unless the search fails. It is cut off if one more
round reports one more record. -/
theorem exploreFrom_eq (room : Nat) {search : Search}
    (listed : ∀ record ∈ (search.run system.transitions room).records,
      ∃ pairs, system.Lists record.state pairs)
    (sound : ∀ fault, (search.run system.transitions (room + 1)).ending ≠ .failed fault) :
    exploreFrom system.transitions room search =
      .ok { states := (search.run system.transitions room).states
            edges := (search.run system.transitions room).states.flatMap system.edges
            truncated := decide (room < (search.run system.transitions (room + 1)).records.length) } := by
  induction room generalizing search with
  | zero =>
      cases advances : search.next system.transitions with
      | exhausted ended => simp [exploreFrom, Search.run, Search.Trace.states, advances]
      | failed fault stopped => exact absurd (by simp [Search.run, advances]) (sound fault)
      | reported record following => simp [exploreFrom, Search.run, Search.Trace.states, advances]
  | succ room ih =>
      cases advances : search.next system.transitions with
      | exhausted ended => simp [exploreFrom, Search.run, Search.Trace.states, advances]
      | failed fault stopped => exact absurd (by simp [Search.run, advances]) (sound fault)
      | reported record following =>
          rw [Search.run_of_reported advances] at listed sound ⊢
          rw [Search.run_of_reported advances]
          simp only [Search.Trace.records_after, List.forall_mem_append, List.forall_mem_singleton]
            at listed
          rcases listed with ⟨⟨pairs, recordListed⟩, restListed⟩
          have rest := ih restListed sound
          simp [exploreFrom, advances, edgesFrom_of_lists recordListed, rest, Search.Trace.states]

/-- A graph has the states of a search that does not fail and only reports states whose transitions can be
listed. -/
theorem build_eq_of_listed {bound : Bound} (positive : 0 < bound.count)
    (listed : ∀ record ∈ (system.explore bound.count.toNat).records,
      ∃ pairs, system.Lists record.state pairs)
    (sound : ∀ fault, (system.explore (bound.count.toNat + 1)).ending ≠ .failed fault) :
    build system bound = .ok (system.graphUpTo bound.count.toNat) := by
  have explored := exploreFrom_eq bound.count.toNat listed sound
  simp only [build, not_le.mpr positive, if_false, explored, Result.ok_bind, Result.pure_eq_ok]
  rfl

theorem ending_ne_failed (wellFormed : system.WellFormed) (count : Nat) (fault : Fault) :
    (system.explore count).ending ≠ .failed fault := by
  intro failed
  rcases TransitionSystem.explore_stage wellFormed count with
    ⟨_, _, _, _, _, _, ⟨cut, _⟩ | ⟨ended, _⟩⟩
  · rw [failed] at cut
    cases cut
  · rw [failed] at ended
    cases ended

theorem build_eq (wellFormed : system.WellFormed) {bound : Bound} (positive : 0 < bound.count) :
    build system bound = .ok (system.graphUpTo bound.count.toNat) := by
  apply build_eq_of_listed positive
  · intro record record_mem
    exact wellFormed.listed (wellFormed.hasState_of_record record_mem)
  · exact ending_ne_failed wellFormed _

theorem build_eq_ok_iff (wellFormed : system.WellFormed) {bound : Bound} {graph : ReachabilityGraph} :
    build system bound = .ok graph ↔
      0 < bound.count ∧ system.graphUpTo bound.count.toNat = graph := by
  by_cases positive : 0 < bound.count
  · simp [build_eq wellFormed positive, positive]
  · simp [build, not_lt.mp positive, positive, throw, throwThe, MonadExceptOf.throw]

end ReachabilityGraph

namespace TransitionSystem

variable {system : TransitionSystem Result}

theorem states_graphUpTo (count more : Nat) :
    (system.graphUpTo count).states = (system.explore (count + more)).states.take count := by
  have first := Search.run_records_take system.transitions system.search count more
  simp only [graphUpTo, Search.Trace.states, explore, first, List.map_take]

theorem length_states_graphUpTo (wellFormed : system.WellFormed) (count : ℕ) :
    ((system.graphUpTo count).states.length : ℕ∞) = min (count : ℕ∞) system.stateCount := by
  rw [← length_explore wellFormed]
  simp [graphUpTo, Search.Trace.states]

theorem truncated_graphUpTo_iff (wellFormed : system.WellFormed) (count : ℕ) :
    (system.graphUpTo count).truncated = true ↔ (count : ℕ∞) < system.stateCount := by
  have longer : (count : ℕ∞) < ((count + 1 : ℕ) : ℕ∞) := by exact_mod_cast Nat.lt_succ_self count
  rw [graphUpTo, decide_eq_true_iff, ← ENat.natCast_lt_natCast, length_explore wellFormed, lt_min_iff]
  exact and_iff_right longer

/-- A graph that was not cut off has the records of a search that has ended. -/
theorem explore_of_complete (wellFormed : system.WellFormed) {count : Nat}
    (complete : (system.graphUpTo count).truncated = false) :
    (system.explore (count + 1)).ending = .exhausted ∧
      (system.explore (count + 1)).states = (system.graphUpTo count).states := by
  have few : (system.explore (count + 1)).records.length ≤ count := by
    simpa [graphUpTo] using complete
  constructor
  · rcases explore_stage wellFormed (count + 1) with ⟨_, _, _, _, _, _, ⟨_, full⟩ | ⟨ended, _⟩⟩
    · omega
    · exact ended
  · rw [states_graphUpTo count 1, List.take_of_length_le]
    simpa [Search.Trace.states] using few

/-- A graph that was not cut off has all states of the system. -/
theorem isIn_states_graphUpTo (wellFormed : system.WellFormed) {count : ℕ}
    (complete : (system.graphUpTo count).truncated = false) {state : Value}
    (hasState : system.HasState state) : state.isIn (system.graphUpTo count).states = true := by
  rcases explore_of_complete wellFormed complete with ⟨ended, states_eq⟩
  rcases explore_stage wellFormed (count + 1) with
    ⟨_, reported, pending, records_eq, stage, _, ⟨cut, _⟩ | ⟨_, _, seen⟩⟩
  · rw [ended] at cut
    cases cut
  · rw [← states_eq, states_explore records_eq]
    exact stage.explores.isIn_reported wellFormed seen hasState

theorem states_graphUpTo_prefix {count larger : Nat} (le : count ≤ larger) :
    (system.graphUpTo count).states <+: (system.graphUpTo larger).states := by
  rcases Nat.exists_eq_add_of_le le with ⟨more, rfl⟩
  rw [states_graphUpTo count more]
  exact List.take_prefix _ _

theorem hasState_of_mem_graphUpTo (wellFormed : system.WellFormed) {count : Nat} {state : Value}
    (state_mem : state ∈ (system.graphUpTo count).states) : system.HasState state := by
  rcases List.mem_map.mp state_mem with ⟨record, record_mem, rfl⟩
  exact wellFormed.hasState_of_record record_mem

theorem distinct_states_graphUpTo (wellFormed : system.WellFormed) (count : Nat) :
    Value.Distinct (system.graphUpTo count).states := by
  rcases explore_stage wellFormed count with ⟨_, reported, pending, records_eq, stage, _⟩
  rw [graphUpTo, states_explore records_eq]
  exact stage.explores.distinct

end TransitionSystem

namespace ReachabilityGraph

theorem forM_requireHashable {values : List Value} (hashable : ∀ value ∈ values, value.IsHashable) :
    values.forM Value.requireHashable = .ok () := by
  induction values with
  | nil => rfl
  | cons value values ih =>
      rw [List.forall_mem_cons] at hashable
      have first := Value.requireHashable_eq_ok_iff.mpr hashable.1
      change (value.requireHashable >>= fun _ => values.forM Value.requireHashable) = .ok ()
      rw [first, Result.ok_bind, ih hashable.2]

theorem filterMapM_requireHashable (isDropped : Value → Bool) {values : List Value}
    (hashable : ∀ value ∈ values, value.IsHashable) :
    (values.filterMapM fun value => do
      value.requireHashable
      pure (if isDropped value then none else some value) : Result (List Value)) =
        .ok (values.filter fun value => !isDropped value) := by
  induction values with
  | nil => rfl
  | cons value values ih =>
      rw [List.forall_mem_cons] at hashable
      rw [List.filterMapM_cons, Value.requireHashable_eq_ok_iff.mpr hashable.1, ih hashable.2]
      cases dropped : isDropped value <;> simp [dropped]

/-- Where all states of a graph may be keys, the terminal ones are those that are the source of no edge. -/
theorem terminalStates_eq {graph : ReachabilityGraph}
    (sources_hashable : ∀ edge ∈ graph.edges, edge.source.IsHashable)
    (states_hashable : ∀ state ∈ graph.states, state.IsHashable) :
    graph.terminalStates =
      .ok (graph.states.filter fun state => !state.isIn (graph.edges.map Edge.source)) := by
  rw [terminalStates, forM_requireHashable (List.forall_mem_map.mpr sources_hashable), Result.ok_bind,
    filterMapM_requireHashable _ states_hashable]
  simp only [ValueSet.has_eq, ValueSet.members_ofList, Value.isIn, List.any_reverse]

end ReachabilityGraph

namespace TransitionSystem

variable {system : TransitionSystem Result}

/-- A state of a graph is the source of an edge if it has transitions. -/
theorem isIn_sources_graphUpTo (wellFormed : system.WellFormed) {count : Nat} {state : Value}
    (state_mem : state ∈ (system.graphUpTo count).states) :
    state.isIn ((system.graphUpTo count).edges.map Edge.source) = !(system.pairs state).isEmpty := by
  rw [Bool.eq_iff_iff, Value.isIn_iff, Bool.not_eq_true', List.isEmpty_eq_false_iff_exists_mem]
  constructor
  · rintro ⟨source, source_mem, equal⟩
    rcases List.mem_map.mp source_mem with ⟨edge, edge_mem, rfl⟩
    rcases List.mem_flatMap.mp edge_mem with ⟨origin, origin_mem, edge_of⟩
    rcases List.mem_map.mp edge_of with ⟨pair, pair_mem, rfl⟩
    -- no two states of the graph are equal
    have distinct := distinct_states_graphUpTo wellFormed count
    rw [← List.map_id (system.graphUpTo count).states] at distinct
    rw [← distinct.eq_of_beq origin_mem state_mem equal]
    exact ⟨pair, pair_mem⟩
  · rintro ⟨pair, pair_mem⟩
    refine ⟨state, List.mem_map.mpr ⟨⟨state, pair.1, pair.2⟩, ?_, rfl⟩, BEq.rfl⟩
    exact List.mem_flatMap.mpr ⟨state, state_mem, List.mem_map_of_mem pair_mem⟩

/-- The terminal states of a graph are those without transitions, also if the graph was cut off. -/
theorem terminalStates_graphUpTo (wellFormed : system.WellFormed) (count : Nat) :
    (system.graphUpTo count).terminalStates =
      .ok ((system.graphUpTo count).states.filter fun state => (system.pairs state).isEmpty) := by
  have states_hashable : ∀ state ∈ (system.graphUpTo count).states, state.IsHashable := by
    intro state state_mem
    exact wellFormed.hashable (hasState_of_mem_graphUpTo wellFormed state_mem)
  rw [ReachabilityGraph.terminalStates_eq ?_ states_hashable]
  · congr 1
    apply List.filter_congr
    intro state state_mem
    rw [isIn_sources_graphUpTo wellFormed state_mem, Bool.not_not]
  · intro edge edge_mem
    rcases List.mem_flatMap.mp edge_mem with ⟨state, state_mem, edge_of⟩
    rcases List.mem_map.mp edge_of with ⟨pair, _, rfl⟩
    exact states_hashable state state_mem

end TransitionSystem

namespace ReachabilityGraph

variable {system : TransitionSystem Result}

/-- Building a graph always ends, and what it gives is the beginning of the search. The graph has the
states that are reported first, as many as the bound allows and the system has, with their transitions in
order. It is cut off exactly if the system has more states than the bound, and otherwise no edge leads out
of it. A larger bound only adds states and edges at the end. -/
theorem build_exact (wellFormed : system.WellFormed) {bound : Bound} (positive : 0 < bound.count) :
    ∃ graph, build system bound = .ok graph ∧ graph.initialStates = system.initialStates ∧
      (∀ more, graph.states =
        (system.explore (bound.count.toNat + more)).states.take bound.count.toNat) ∧
      (graph.states.length : ℕ∞) = min (bound.count.toNat : ℕ∞) system.stateCount ∧
      (∀ state ∈ graph.states, system.Lists state (system.pairs state)) ∧
      graph.edges = graph.states.flatMap (fun state =>
        (system.pairs state).map fun pair => ⟨state, pair.1, pair.2⟩) ∧
      (graph.truncated = true ↔ (bound.count.toNat : ℕ∞) < system.stateCount) ∧
      (graph.truncated = false → ∀ edge ∈ graph.edges, edge.target.isIn graph.states = true) ∧
      ∀ larger : Bound, bound.count ≤ larger.count → ∃ graph', build system larger = .ok graph' ∧
        graph.states <+: graph'.states ∧ graph.edges <+: graph'.edges := by
  refine ⟨_, build_eq wellFormed positive, rfl, TransitionSystem.states_graphUpTo _,
    TransitionSystem.length_states_graphUpTo wellFormed _, ?_, rfl,
    TransitionSystem.truncated_graphUpTo_iff wellFormed _, ?_, ?_⟩
  · intro state state_mem
    exact wellFormed.lists_pairs (TransitionSystem.hasState_of_mem_graphUpTo wellFormed state_mem)
  · intro complete edge edge_mem
    rcases List.mem_flatMap.mp edge_mem with ⟨state, state_mem, edge_of⟩
    rcases List.mem_map.mp edge_of with ⟨pair, pair_mem, rfl⟩
    have hasState := TransitionSystem.hasState_of_mem_graphUpTo wellFormed state_mem
    exact TransitionSystem.isIn_states_graphUpTo wellFormed complete
      (wellFormed.hasState_target hasState (wellFormed.lists_pairs hasState) pair_mem)
  · intro larger le
    have states_prefix := @TransitionSystem.states_graphUpTo_prefix system _ _ (Int.toNat_le_toNat le)
    exact ⟨_, build_eq wellFormed (lt_of_lt_of_le positive le), states_prefix,
      states_prefix.flatMap _⟩

/-- A merging system has three states: a graph with room for three is complete, and one with room for two
is cut off. -/
theorem build_exact_merging :
    TransitionSystem.merging.WellFormed ∧ 0 < (Bound.ofInt 3).count ∧ 0 < (Bound.ofInt 2).count ∧
      TransitionSystem.merging.stateCount = 3 := by
  have wellFormed := TransitionSystem.merging_wellLabelled.toWellFormed
  have three : 0 < (Bound.ofInt 3).count := by decide
  have two : 0 < (Bound.ofInt 2).count := by decide
  refine ⟨wellFormed, three, two, ?_⟩
  rcases build_exact wellFormed three with ⟨complete, complete_eq, _, _, _, _, _, complete_iff, _⟩
  rcases build_exact wellFormed two with ⟨cut, cut_eq, _, _, _, _, _, cut_iff, _⟩
  have complete_flag : complete.truncated = false := by
    have computed : (build TransitionSystem.merging (.ofInt 3)).map truncated = .ok false := rfl
    simpa [complete_eq, Except.map] using computed
  have cut_flag : cut.truncated = true := by
    have computed : (build TransitionSystem.merging (.ofInt 2)).map truncated = .ok true := rfl
    simpa [cut_eq, Except.map] using computed
  refine le_antisymm (not_lt.mp fun more => ?_) (Order.add_one_le_of_lt (cut_iff.mp cut_flag))
  rw [complete_iff.mpr more] at complete_flag
  cases complete_flag

end ReachabilityGraph

end StateSpace
