import Mathlib.Data.List.Perm.Basic
import StateSpace.Proofs.Check
import StateSpace.Proofs.ReachabilityGraph
import StateSpace.Proofs.Search.Work

/-!
# Independence of the order

The order in which a system lists its initial states and the transitions of a state decides which path the
search takes, and nothing else. Two systems that differ in this order are explored in unrelated ways, so
nothing relates the rounds of one search to those of the other. What relates them is that each is known to
find exactly the states that are reachable, and those do not depend on the order. The verdict of a check, the
number of states and of transitions of a graph and its terminal states are all read off the reachable
states.
-/

namespace StateSpace

namespace Value

/-- Two lists hold equal values equally often, in any order. -/
def Rearranged (items others : List Value) : Prop :=
  ∃ arranged, others.Perm arranged ∧ (Value.list items == .list arranged) = true

theorem beq_set_of_isIn {members others : List Value} (within : ∀ member ∈ members, member.isIn others = true)
    (covered : ∀ other ∈ others, other.isIn members = true) :
    (Value.set members == .set others) = true := by
  refine (beq_set_iff members _).mpr ⟨others, rfl, ?_, ?_⟩
  · intro member member_mem
    rcases isIn_iff.mp (within member member_mem) with ⟨other, other_mem, equal⟩
    exact ⟨other, other_mem, BEq.symm equal⟩
  · intro other other_mem
    exact isIn_iff.mp (covered other other_mem)

namespace Rearranged

variable {items others : List Value}

theorem of_perm (perm : items.Perm others) : Rearranged items others :=
  ⟨items, perm.symm, BEq.rfl⟩

theorem symm (rearranged : Rearranged items others) : Rearranged others items := by
  rcases rearranged with ⟨arranged, perm, same⟩
  have backwards : List.Forall₂ (fun item other => (item == other) = true) arranged items :=
    beq_list_iff_forall₂.mp (BEq.symm same)
  rcases List.perm_comp_forall₂ perm backwards with ⟨matched, same', perm'⟩
  exact ⟨matched, perm'.symm, beq_list_iff_forall₂.mpr same'⟩

theorem length_eq (rearranged : Rearranged items others) : items.length = others.length := by
  rcases rearranged with ⟨arranged, perm, same⟩
  rw [length_eq_of_beq_list same, perm.length_eq]

/-- Each value of the first list equals one of the second. -/
theorem exists_mem (rearranged : Rearranged items others) {item : Value} (mem : item ∈ items) :
    ∃ other ∈ others, (item == other) = true := by
  rcases rearranged with ⟨arranged, perm, same⟩
  rcases List.mem_iff_getElem?.mp mem with ⟨position, found⟩
  rcases getElem?_of_beq_list same found with ⟨other, found', equal⟩
  exact ⟨other, perm.mem_iff.mpr (List.mem_of_getElem? found'), equal⟩

end Rearranged

end Value

/-- A property that has a truth value in certain labels, the same in equal ones. -/
structure Property.DecidedIn (property : Property Result) (labels : Label → Prop) : Prop where
  decided : ∀ {label : Label}, labels label → ∃ truth, property.holds label = .ok truth
  congruent : ∀ {label label' : Label}, labels label → labels label' →
    (label.toValue == label'.toValue) = true → property.holds label = property.holds label'

/-- A label of some state of a system. -/
def TransitionSystem.HasLabel (system : TransitionSystem Result) (label : Label) : Prop :=
  ∃ state, system.HasState state ∧ system.label state = .ok label

theorem Property.DecidedIn.decides {property : Property Result} {labels : Label → Prop}
    (decided : property.DecidedIn labels) (system : TransitionSystem Result)
    (covered : ∀ label, system.HasLabel label → labels label) : system.Decides property where
  decided hasState labelled := decided.decided (covered _ ⟨_, hasState, labelled⟩)
  congruent hasState hasOther labelled labelled' same :=
    decided.congruent (covered _ ⟨_, hasState, labelled⟩) (covered _ ⟨_, hasOther, labelled'⟩) same

namespace TransitionSystem

/-- Two systems with equal labels that list their initial states, and the transitions of each of their
states, in different orders. -/
structure Reorders (system other : TransitionSystem Result) : Prop where
  initialStates : Value.Rearranged system.initialStates other.initialStates
  transitions : ∀ {state : Value} {items others : List Value},
    system.HasState state ∨ other.HasState state → (system.transitions state).toList = .ok items →
      (other.transitions state).toList = .ok others → Value.Rearranged items others
  labels : ∀ {state : Value} {label label' : Label}, system.HasState state ∨ other.HasState state →
    system.label state = .ok label → other.label state = .ok label' →
      (label.toValue == label'.toValue) = true

variable {system other : TransitionSystem Result}

namespace Reorders

theorem symm (reorders : system.Reorders other) : other.Reorders system where
  initialStates := reorders.initialStates.symm
  transitions hasState listed listed' := (reorders.transitions hasState.symm listed' listed).symm
  labels hasState labelled labelled' := BEq.symm (reorders.labels hasState.symm labelled' labelled)

/-- What is reachable in a system is a state of any that lists the same in another order. -/
theorem hasState_of_reachable (reorders : system.Reorders other) (wellFormed' : other.WellFormed)
    {state : Value} (reachable : system.Reachable state) : other.HasState state := by
  induction reachable with
  | initial mem =>
      rcases reorders.initialStates.exists_mem mem with ⟨initial, initial_mem, equal⟩
      exact ⟨initial, .initial initial_mem, BEq.symm equal⟩
  | @step state action target pairs source listed mem ih =>
      rcases wellFormed'.listed ih with ⟨pairs', listed'⟩
      have rearranged := reorders.transitions (.inl source.hasState) listed listed'
      rcases rearranged.exists_mem (List.mem_map_of_mem mem) with ⟨item, item_mem, equal⟩
      rcases List.mem_map.mp item_mem with ⟨pair', pair_mem, rfl⟩
      have same := Value.beq_pair_iff.mp equal
      exact (wellFormed'.hasState_target ih listed' pair_mem).congr (BEq.symm same.2)

theorem hasState (reorders : system.Reorders other) (wellFormed' : other.WellFormed) {state : Value}
    (hasState : system.HasState state) : other.HasState state := by
  rcases hasState with ⟨reached, reachable, equal⟩
  exact (reorders.hasState_of_reachable wellFormed' reachable).congr equal

theorem hasState_iff (reorders : system.Reorders other) (wellFormed : system.WellFormed)
    (wellFormed' : other.WellFormed) {state : Value} : system.HasState state ↔ other.HasState state :=
  ⟨reorders.hasState wellFormed', reorders.symm.hasState wellFormed⟩

theorem finitelyReachable (reorders : system.Reorders other) (wellFormed : system.WellFormed)
    (finite : system.FinitelyReachable) : other.FinitelyReachable := by
  rcases finite with ⟨cover, covered⟩
  refine ⟨cover, fun state reachable => ?_⟩
  rcases reorders.symm.hasState_of_reachable wellFormed reachable with ⟨reached, reachable', equal⟩
  rw [← Value.isIn_congr equal]
  exact covered reached reachable'

theorem stateCount_le (reorders : system.Reorders other) (wellFormed' : other.WellFormed)
    (finite' : other.FinitelyReachable) : system.stateCount ≤ other.stateCount := by
  rcases explore_exhausted wellFormed' finite' with ⟨_, reported, pending, explores, seen, _⟩
  rw [explores.stateCount_eq wellFormed' seen]
  apply TransitionSystem.stateCount_le
  intro states distinct reachable
  have few := distinct.length_le (Placed.states reported) (by
    intro state state_mem
    exact explores.isIn_reported wellFormed' seen
      (reorders.hasState_of_reachable wellFormed' (reachable state state_mem)))
  simpa [Placed.states] using few

theorem holdsAt_eq (reorders : system.Reorders other) (wellLabelled : system.WellLabelled)
    (wellLabelled' : other.WellLabelled) {property : Property Result}
    (decided : property.DecidedIn fun label => system.HasLabel label ∨ other.HasLabel label)
    {state : Value} (hasState : system.HasState state) :
    system.holdsAt property state = other.holdsAt property state := by
  have hasState' := reorders.hasState wellLabelled'.toWellFormed hasState
  rcases wellLabelled.labelled hasState with ⟨label, labelled⟩
  rcases wellLabelled'.labelled hasState' with ⟨label', labelled'⟩
  have same := reorders.labels (.inl hasState) labelled labelled'
  simp only [holdsAt, labelled, labelled', Result.ok_bind]
  exact decided.congruent (.inl ⟨state, hasState, labelled⟩) (.inr ⟨state, hasState', labelled'⟩) same

theorem holdsAt_reachable_iff (reorders : system.Reorders other) (wellLabelled : system.WellLabelled)
    (wellLabelled' : other.WellLabelled) {property : Property Result}
    (decided : property.DecidedIn fun label => system.HasLabel label ∨ other.HasLabel label) :
    (∀ state, system.Reachable state → system.holdsAt property state = .ok true) ↔
      ∀ state, other.Reachable state → other.holdsAt property state = .ok true := by
  constructor
  · intro holds state reachable
    -- the state need not be reachable in the other system, but it equals one that is
    rcases reorders.symm.hasState_of_reachable wellLabelled.toWellFormed reachable with
      ⟨reached, reachable', equal⟩
    have decides := decided.decides system fun _ => .inl
    rw [← reorders.holdsAt_eq wellLabelled wellLabelled' decided ⟨reached, reachable', equal⟩,
      ← wellLabelled.holdsAt_congr decides reachable'.hasState equal]
    exact holds reached reachable'
  · intro holds state reachable
    rcases reorders.hasState_of_reachable wellLabelled'.toWellFormed reachable with
      ⟨reached, reachable', equal⟩
    have decides := decided.decides other fun _ => .inr
    rw [reorders.holdsAt_eq wellLabelled wellLabelled' decided reachable.hasState,
      ← wellLabelled'.holdsAt_congr decides reachable'.hasState equal]
    exact holds reached reachable'

theorem length_pairs_eq (reorders : system.Reorders other) (wellFormed : system.WellFormed)
    (wellFormed' : other.WellFormed) {state : Value} (hasState : system.HasState state) :
    (system.pairs state).length = (other.pairs state).length := by
  have listed := wellFormed.lists_pairs hasState
  have listed' := wellFormed'.lists_pairs (reorders.hasState wellFormed' hasState)
  simpa using (reorders.transitions (.inl hasState) listed listed').length_eq

end Reorders

namespace WellFormed

theorem length_pairs_congr (wellFormed : system.WellFormed) {state state' : Value}
    (hasState : system.HasState state) (equal : (state == state') = true) :
    (system.pairs state).length = (system.pairs state').length := by
  have listed := wellFormed.lists_pairs hasState
  have listed' := wellFormed.lists_pairs (hasState.congr equal)
  simpa using Value.length_eq_of_beq_list (wellFormed.congruent hasState equal listed listed')

end WellFormed

theorem numTransitions_graphUpTo (count : Nat) :
    (system.graphUpTo count).numTransitions =
      ((system.graphUpTo count).states.map fun state => (system.pairs state).length).sum := by
  simp [ReachabilityGraph.numTransitions, graphUpTo, edges, List.length_flatMap]

namespace Reorders

theorem numStates_truncated_eq (reorders : system.Reorders other) (wellFormed : system.WellFormed)
    (wellFormed' : other.WellFormed) (finite : system.FinitelyReachable) (count : ℕ) :
    (system.graphUpTo count).numStates = (other.graphUpTo count).numStates ∧
      (system.graphUpTo count).truncated = (other.graphUpTo count).truncated := by
  have finite' := reorders.finitelyReachable wellFormed finite
  have sameCount : system.stateCount = other.stateCount :=
    le_antisymm (reorders.stateCount_le wellFormed' finite')
      (reorders.symm.stateCount_le wellFormed finite)
  constructor
  · have states := length_states_graphUpTo wellFormed count
    rw [sameCount, ← length_states_graphUpTo wellFormed' count] at states
    exact_mod_cast states
  · rw [Bool.eq_iff_iff, truncated_graphUpTo_iff wellFormed, truncated_graphUpTo_iff wellFormed',
      sameCount]

/-- Graphs that were not cut off have states that equal one another, in some order. -/
theorem states_rearranged (reorders : system.Reorders other) (wellFormed : system.WellFormed)
    (wellFormed' : other.WellFormed) {count : ℕ} (complete : (system.graphUpTo count).truncated = false)
    (complete' : (other.graphUpTo count).truncated = false) :
    Value.Rearranged (system.graphUpTo count).states (other.graphUpTo count).states := by
  apply (distinct_states_graphUpTo wellFormed count).exists_perm
    (distinct_states_graphUpTo wellFormed' count)
  · intro state state_mem
    exact isIn_states_graphUpTo wellFormed' complete'
      (reorders.hasState wellFormed' (hasState_of_mem_graphUpTo wellFormed state_mem))
  · intro state state_mem
    exact isIn_states_graphUpTo wellFormed complete
      (reorders.symm.hasState wellFormed (hasState_of_mem_graphUpTo wellFormed' state_mem))

theorem numTransitions_eq (reorders : system.Reorders other) (wellFormed : system.WellFormed)
    (wellFormed' : other.WellFormed) {count : ℕ} (complete : (system.graphUpTo count).truncated = false)
    (complete' : (other.graphUpTo count).truncated = false) :
    (system.graphUpTo count).numTransitions = (other.graphUpTo count).numTransitions := by
  rcases reorders.states_rearranged wellFormed wellFormed' complete complete' with ⟨arranged, perm, same⟩
  rw [numTransitions_graphUpTo, numTransitions_graphUpTo, (perm.map _).sum_nat]
  have hasStates : ∀ state ∈ (system.graphUpTo count).states, system.HasState state :=
    fun state state_mem => hasState_of_mem_graphUpTo wellFormed state_mem
  rw [Value.beq_list_iff_forall₂] at same
  -- transitions are counted state by state, along the matching of the states
  clear perm
  generalize (system.graphUpTo count).states = states at same hasStates
  induction same with
  | nil => simp
  | @cons state state' states others equal _ ih =>
      rw [List.forall_mem_cons] at hasStates
      have hasState' := hasStates.1.congr equal
      rw [List.map_cons, List.map_cons, List.sum_cons, List.sum_cons, ih hasStates.2,
        wellFormed.length_pairs_congr hasStates.1 equal,
        reorders.length_pairs_eq wellFormed wellFormed' hasState']

/-- A terminal state of one graph equals a terminal state of the other. -/
theorem isIn_terminal (reorders : system.Reorders other) (wellFormed : system.WellFormed)
    (wellFormed' : other.WellFormed) {count : ℕ} (complete' : (other.graphUpTo count).truncated = false)
    {state : Value} (mem : state ∈ (system.graphUpTo count).states.filter fun state =>
      (system.pairs state).isEmpty) :
    state.isIn ((other.graphUpTo count).states.filter fun state => (other.pairs state).isEmpty) = true := by
  rw [List.mem_filter] at mem
  have hasState := hasState_of_mem_graphUpTo wellFormed mem.1
  rcases Value.isIn_iff.mp (isIn_states_graphUpTo wellFormed' complete'
    (reorders.hasState wellFormed' hasState)) with ⟨state', state_mem', equal⟩
  have equal' : (state == state') = true := BEq.symm equal
  refine Value.isIn_iff.mpr ⟨state', List.mem_filter.mpr ⟨state_mem', ?_⟩, equal⟩
  rw [List.isEmpty_iff_length_eq_zero, ← reorders.length_pairs_eq wellFormed wellFormed'
    (hasState.congr equal'), ← wellFormed.length_pairs_congr hasState equal']
  exact List.isEmpty_iff_length_eq_zero.mp mem.2

end Reorders

theorem reachableStates?_settled (wellFormed : system.WellFormed) (finite : system.FinitelyReachable) :
    ∃ bound states, (∀ more, system.reachableStates? (bound + more) = .ok (some states)) ∧
      ∀ state : Value, state.isIn states = true ↔ system.HasState state := by
  rcases explore_exhausted wellFormed finite with ⟨bound, reported, pending, explores, seen, ended⟩
  refine ⟨bound, Placed.states reported, ?_, explores.isIn_reported_iff wellFormed seen⟩
  intro more
  rcases ended more with ⟨records_eq, ending⟩
  simp [reachableStates?, ending, states_explore records_eq.symm]

/-- The order in which initial states and transitions are listed decides neither which states are
reachable, nor whether a property is violated, nor how many states a graph has and whether it is cut off. A
graph that is not cut off has as many transitions, and the same terminal states, in every order. -/
theorem reorders_agree (reorders : system.Reorders other) (wellLabelled : system.WellLabelled)
    (wellLabelled' : other.WellLabelled) (finite : system.FinitelyReachable) :
    (∃ bound states states', (∀ more, system.reachableStates? (bound + more) = .ok (some states)) ∧
      (∀ more, other.reachableStates? (bound + more) = .ok (some states')) ∧
      (Value.set states == .set states') = true) ∧
    (∀ property : Property Result,
      property.DecidedIn (fun label => system.HasLabel label ∨ other.HasLabel label) →
      ∃ bound verdict verdict', (∀ more, system.check property (bound + more) = .ok verdict) ∧
        (∀ more, other.check property (bound + more) = .ok verdict') ∧
        verdict ≠ .undecided ∧ verdict' ≠ .undecided ∧
        (verdict.counterexample? = none ↔ verdict'.counterexample? = none)) ∧
    ∀ bound : Bound,
      (bound.count ≤ 0 → ReachabilityGraph.build system bound = ReachabilityGraph.build other bound) ∧
      (0 < bound.count → ∃ graph graph', ReachabilityGraph.build system bound = .ok graph ∧
        ReachabilityGraph.build other bound = .ok graph' ∧
        graph.numStates = graph'.numStates ∧ graph.truncated = graph'.truncated ∧
        (graph.truncated = false → graph.numTransitions = graph'.numTransitions ∧
          ∃ terminals terminals', graph.terminalStates = .ok terminals ∧
            graph'.terminalStates = .ok terminals' ∧
            (Value.set terminals == .set terminals') = true)) := by
  have wellFormed := wellLabelled.toWellFormed
  have wellFormed' := wellLabelled'.toWellFormed
  have finite' := reorders.finitelyReachable wellFormed finite
  refine ⟨?_, ?_, ?_⟩
  · rcases reachableStates?_settled wellFormed finite with ⟨bound, states, listed, isIn_iff⟩
    rcases reachableStates?_settled wellFormed' finite' with ⟨bound', states', listed', isIn_iff'⟩
    refine ⟨bound + bound', states, states', ?_, ?_, ?_⟩
    · intro more
      rw [Nat.add_assoc]
      exact listed _
    · intro more
      rw [Nat.add_comm bound, Nat.add_assoc]
      exact listed' _
    · have agree : ∀ state : Value, state.isIn states = true ↔ state.isIn states' = true := by
        intro state
        rw [isIn_iff, isIn_iff', reorders.hasState_iff wellFormed wellFormed']
      apply Value.beq_set_of_isIn
      · intro state state_mem
        exact (agree state).mp (Value.isIn_of_mem state_mem)
      · intro state state_mem
        exact (agree state).mpr (Value.isIn_of_mem state_mem)
  · intro property decided
    rcases check_settled wellLabelled (decided.decides system fun _ => .inl) finite with
      ⟨bound, verdict, checked, settled, none_iff⟩
    rcases check_settled wellLabelled' (decided.decides other fun _ => .inr) finite' with
      ⟨bound', verdict', checked', settled', none_iff'⟩
    refine ⟨bound + bound', verdict, verdict', ?_, ?_, settled, settled', ?_⟩
    · intro more
      rw [Nat.add_assoc]
      exact checked _
    · intro more
      rw [Nat.add_comm bound, Nat.add_assoc]
      exact checked' _
    · rw [none_iff, none_iff']
      exact reorders.holdsAt_reachable_iff wellLabelled wellLabelled' decided
  · intro bound
    constructor
    · intro nonPositive
      simp only [ReachabilityGraph.build, nonPositive, ↓reduceIte]
      rfl
    · intro positive
      have sizes := reorders.numStates_truncated_eq wellFormed wellFormed' finite bound.count.toNat
      refine ⟨_, _, ReachabilityGraph.build_eq wellFormed positive,
        ReachabilityGraph.build_eq wellFormed' positive, sizes.1, sizes.2, ?_⟩
      intro complete
      have complete' := sizes.2.symm.trans complete
      refine ⟨reorders.numTransitions_eq wellFormed wellFormed' complete complete', _, _,
        terminalStates_graphUpTo wellFormed _, terminalStates_graphUpTo wellFormed' _, ?_⟩
      exact Value.beq_set_of_isIn
        (fun _ state_mem => reorders.isIn_terminal wellFormed wellFormed' complete' state_mem)
        (fun _ state_mem => reorders.symm.isIn_terminal wellFormed' wellFormed complete state_mem)

/-- The system that lists its initial states and the transitions of each state in the opposite order. -/
def backwards (system : TransitionSystem Result) : TransitionSystem Result :=
  { system with
    initialStates := system.initialStates.reverse
    transitions := fun state => .atOnce ((system.transitions state).toList.map List.reverse) }

section Backwards

theorem toList_backwards {state : Value} {items : List Value} :
    (system.backwards.transitions state).toList = .ok items ↔
      (system.transitions state).toList = .ok items.reverse := by
  rw [backwards, Successors.toList_atOnce]
  cases (system.transitions state).toList with
  | error fault => simp [Except.map]
  | ok items' => simp [Except.map, List.reverse_eq_iff]

theorem lists_backwards {state : Value} {pairs : List (Value × Value)} :
    system.backwards.Lists state pairs ↔ system.Lists state pairs.reverse := by
  rw [Lists, Lists, toList_backwards, List.map_reverse]

theorem reachable_of_backwards {state : Value} (reachable : system.backwards.Reachable state) :
    system.Reachable state := by
  induction reachable with
  | initial mem => exact .initial (List.mem_reverse.mp mem)
  | step source listed mem ih => exact ih.step (lists_backwards.mp listed) (List.mem_reverse.mpr mem)

theorem hasState_of_backwards {state : Value} (hasState : system.backwards.HasState state) :
    system.HasState state := by
  rcases hasState with ⟨reached, reachable, equal⟩
  exact ⟨reached, reachable_of_backwards reachable, equal⟩

theorem WellLabelled.backwards (wellLabelled : system.WellLabelled) : system.backwards.WellLabelled := by
  refine ⟨⟨?_, ?_, ?_⟩, ?_, ?_⟩
  · exact fun hasState => wellLabelled.hashable (hasState_of_backwards hasState)
  · intro state hasState
    rcases wellLabelled.listed (hasState_of_backwards hasState) with ⟨pairs, listed⟩
    exact ⟨pairs.reverse, lists_backwards.mpr (by simpa using listed)⟩
  · intro state other items others hasState equal listed listed'
    have same := wellLabelled.congruent (hasState_of_backwards hasState) equal
      (toList_backwards.mp listed) (toList_backwards.mp listed')
    rw [Value.beq_list_iff_forall₂] at same ⊢
    exact List.forall₂_reverse_iff.mp same
  · exact fun hasState => wellLabelled.labelled (hasState_of_backwards hasState)
  · exact fun hasState => wellLabelled.labels_congruent (hasState_of_backwards hasState)

theorem reorders_backwards (system : TransitionSystem Result) : system.Reorders system.backwards where
  initialStates := .of_perm (List.reverse_perm _).symm
  transitions := by
    intro state items others _ listed listed'
    rw [toList_backwards, listed, Except.ok.injEq] at listed'
    rw [listed']
    exact .of_perm (List.reverse_perm _)
  labels := by
    intro state label label' _ labelled labelled'
    have same : label = label' := Except.ok.inj (labelled.symm.trans labelled')
    rw [same]
    exact BEq.rfl

end Backwards

/-- A merging system that is explored in the opposite order reports its states differently, but as many. -/
theorem reorders_agree_merging :
    merging.Reorders merging.backwards ∧ merging.WellLabelled ∧ merging.backwards.WellLabelled ∧
      merging.FinitelyReachable ∧
      ∃ graph graph', ReachabilityGraph.build merging (.ofInt 3) = .ok graph ∧
        ReachabilityGraph.build merging.backwards (.ofInt 3) = .ok graph' ∧
        graph.states ≠ graph'.states ∧ graph.numStates = graph'.numStates := by
  have reorders := reorders_backwards merging
  refine ⟨reorders, merging_wellLabelled, merging_wellLabelled.backwards, merging_finitelyReachable, ?_⟩
  rcases ((reorders_agree reorders merging_wellLabelled merging_wellLabelled.backwards
    merging_finitelyReachable).2.2 (.ofInt 3)).2 (by decide) with ⟨graph, graph', built, built', same, _⟩
  have reported : (ReachabilityGraph.build merging (.ofInt 3)).map (·.states) =
      .ok [.int 0, .int 1, .int 2] := rfl
  have reported' : (ReachabilityGraph.build merging.backwards (.ofInt 3)).map (·.states) =
      .ok [.int 1, .int 2, .bool false] := rfl
  simp only [built, built', Except.map, Except.ok.injEq] at reported reported'
  refine ⟨graph, graph', built, built', ?_, same⟩
  rw [reported, reported']
  simp

end TransitionSystem

end StateSpace
