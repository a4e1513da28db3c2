import Mathlib.Algebra.GroupWithZero.Nat
import StateSpace.Proofs.Search.Exactness

/-!
# The work of a search

Every record that enters the stack of a search leaves it once, and a state is expanded once. So what a
search has taken from its stack and what is still there add up to the initial states and the transitions
of the states reported, at any time and for any system. For a well-formed system with finitely many
reachable states this gives the exact number of records that are taken from the stack until it is empty.

The calls of the transitions are counted too. `Search.asked` lists the states that a run asks for their
transitions, and `Search.run_congr_asked` says that it depends on nothing else.
-/

namespace StateSpace

namespace Successors

/-- The number of transitions, if they can be listed. -/
def count (successors : Successors Result) : Nat :=
  match successors.toList with
  | .ok items => items.length
  | .error _ => 0

end Successors

namespace Search

variable {transitions : Value → Successors Result}

theorem length_unpack {items : List Value} {pairs : List (Value × Value)}
    (unpacked : unpack items = .ok pairs) : pairs.length = items.length := by
  induction items generalizing pairs with
  | nil =>
      cases unpacked
      rfl
  | cons item items ih =>
      simp only [unpack, Result.bind_eq_ok_iff, Result.pure_eq_ok, Except.ok.injEq] at unpacked
      rcases unpacked with ⟨rest, rest_eq, first, _, rfl⟩
      simp [ih rest_eq]

theorem length_expand {record : Record} {records : List Record}
    (expanded : expand transitions record = .ok records) :
    records.length = (transitions record.state).count := by
  simp only [expand, Result.bind_eq_ok_iff, Result.pure_eq_ok, Except.ok.injEq] at expanded
  rcases expanded with ⟨items, listed, pairs, unpacked, rfl⟩
  rw [List.length_map, length_unpack unpacked, Successors.count, listed]

theorem frontier_of_reported {search following : Search} {record : Record}
    (advances : search.next transitions = .reported record following) :
    ∃ stack, search.frontier transitions = .ok stack := by
  unfold next at advances
  unfold frontier
  cases awaited : search.awaiting with
  | none => exact ⟨search.stack, rfl⟩
  | some source =>
      cases expanded : expand transitions source with
      | error fault => simp [awaited, expanded] at advances
      | ok records => exact ⟨records ++ search.stack, by simp [expanded]⟩

/-- What one more report does to a search: some records were dropped, and the next one is awaited. -/
theorem following_of_reported {search following : Search} {record : Record} {stack : List Record}
    (advances : search.next transitions = .reported record following)
    (frontier_eq : search.frontier transitions = .ok stack) :
    ∃ dropped rest, stack = dropped ++ record :: rest ∧
      record.state.isIn search.visited.members = false ∧
      following =
        { visited := search.visited.insert record.state
          stack := rest
          awaiting := some record
          popped := search.popped + dropped.length + 1 } := by
  rw [next_of_frontier frontier_eq] at advances
  rcases pop_cases search.visited search.popped stack with
    ⟨_, ended⟩ | ⟨dropped, top, rest, split, _, ⟨fault, _, failed⟩ | ⟨_, fresh, reported⟩⟩
  · rw [ended] at advances
    cases advances
  · rw [failed] at advances
    cases advances
  · rw [reported, Advance.reported.injEq] at advances
    rcases advances with ⟨rfl, rfl⟩
    exact ⟨dropped, rest, split, fresh, rfl⟩

theorem awaiting_of_reported {search following : Search} {record : Record}
    (advances : search.next transitions = .reported record following) :
    following.awaiting = some record := by
  rcases frontier_of_reported advances with ⟨stack, frontier_eq⟩
  rcases following_of_reported advances frontier_eq with ⟨dropped, rest, _, _, rfl⟩
  rfl

/-- At any time, the records taken from the stack and those on it are the initial ones and the successors
of the reported states. -/
theorem popped_of_reports {initialStates : List Value} {records stack : List Record} {search : Search}
    (reports : Reports transitions (start initialStates) records search)
    (frontier_eq : search.frontier transitions = .ok stack) :
    search.popped + stack.length =
      initialStates.length + (records.map fun record => (transitions record.state).count).sum := by
  induction reports generalizing stack with
  | none =>
      simp only [frontier, start, Except.ok.injEq] at frontier_eq
      simp [start, ← frontier_eq]
  | @next records record search following _ advances ih =>
      rcases frontier_of_reported advances with ⟨earlierStack, earlier_eq⟩
      have counted := ih earlier_eq
      rcases following_of_reported advances earlier_eq with ⟨dropped, rest, rfl, _, rfl⟩
      simp only [frontier, Result.bind_eq_ok_iff, Result.pure_eq_ok, Except.ok.injEq] at frontier_eq
      rcases frontier_eq with ⟨children, expanded, rfl⟩
      have width := length_expand expanded
      simp only [List.length_append, List.length_cons, List.map_append, List.map_cons, List.map_nil,
        List.sum_append, List.sum_cons, List.sum_nil] at counted ⊢
      omega

theorem length_le_popped {initialStates : List Value} {records : List Record} {search : Search}
    (reports : Reports transitions (start initialStates) records search) :
    records.length ≤ search.popped := by
  induction reports with
  | none => exact Nat.zero_le _
  | next _ advances ih =>
      rcases frontier_of_reported advances with ⟨stack, frontier_eq⟩
      rcases following_of_reported advances frontier_eq with ⟨dropped, rest, _, _, rfl⟩
      simp only [List.length_append, List.length_singleton]
      omega

/-- The states that a run asks for their transitions, in order: a search that is advanced asks for those
of the state it awaits. -/
def asked (transitions : Value → Successors Result) : Nat → Search → List Value
  | 0, _ => []
  | bound + 1, search =>
      (search.awaiting.map Record.state).toList ++
        match search.next transitions with
        | .reported _ following => asked transitions bound following
        | _ => []

/-- A search that is advanced asks for the transitions of the awaited state only. -/
theorem next_congr {other : Value → Successors Result} {search : Search}
    (agree : ∀ state ∈ (search.awaiting.map Record.state).toList,
      (transitions state).toList = (other state).toList) :
    search.next transitions = search.next other := by
  unfold next
  cases awaited : search.awaiting with
  | none => rfl
  | some record =>
      have same : (transitions record.state).toList = (other record.state).toList :=
        agree _ (by simp [awaited])
      simp [expand, same]

/-- A run is the same for all transitions that agree in the states it asks for. -/
theorem run_congr_asked {other : Value → Successors Result} {bound : Nat} {search : Search}
    (agree : ∀ state ∈ asked transitions bound search, transitions state = other state) :
    search.run transitions bound = search.run other bound := by
  induction bound generalizing search with
  | zero => rfl
  | succ bound ih =>
      simp only [asked, List.forall_mem_append] at agree
      have same := next_congr fun state state_mem => congrArg Successors.toList (agree.1 state state_mem)
      cases advances : search.next transitions with
      | exhausted ended => simp [run, ← same, advances]
      | failed fault stopped => simp [run, ← same, advances]
      | reported record following =>
          rw [run_of_reported advances, run_of_reported (same ▸ advances)]
          rw [ih (by simpa [advances] using agree.2)]

/-- A run that comes to the end of a search asks for the transitions of the awaited state and of each
state it reports. -/
theorem asked_of_exhausted {bound : Nat} {search : Search}
    (ended : (search.run transitions bound).ending = .exhausted) :
    asked transitions bound search =
      (search.awaiting.map Record.state).toList ++ (search.run transitions bound).states := by
  induction bound generalizing search with
  | zero => cases ended
  | succ bound ih =>
      cases advances : search.next transitions with
      | exhausted stopped => simp [asked, run, advances, Trace.states]
      | failed fault stopped => simp [run, advances] at ended
      | reported record following =>
          rw [run_of_reported advances] at ended ⊢
          simp [asked, advances, ih ended, awaiting_of_reported advances, Trace.states]

theorem ended_of_exhausted {search ended : Search} {stack : List Record}
    (stops : search.next transitions = .exhausted ended)
    (frontier_eq : search.frontier transitions = .ok stack) :
    ended = { visited := search.visited, popped := search.popped + stack.length } := by
  rw [next_of_frontier frontier_eq] at stops
  rcases pop_cases search.visited search.popped stack with
    ⟨_, ended_eq⟩ | ⟨dropped, top, rest, _, _, ⟨fault, _, failed⟩ | ⟨_, _, reported⟩⟩
  · rw [ended_eq, Advance.exhausted.injEq] at stops
    exact stops.symm
  · rw [failed] at stops
    cases stops
  · rw [reported] at stops
    cases stops

/-- What is reported before a search ends, and where it ends, for all bounds beyond the reports. -/
theorem run_of_ended {first last ended : Search} {records : List Record}
    (reports : Reports transitions first records last)
    (stops : last.next transitions = .exhausted ended) (more : Nat) :
    first.run transitions (records.length + more + 1) =
      { records, ending := .exhausted, search := ended } := by
  have stopped : last.run transitions (more + 1) = { ending := .exhausted, search := ended } := by
    simp [run, stops]
  rw [Nat.add_assoc, run_of_reports reports, stopped]
  simp [Trace.after]

end Search

namespace TransitionSystem

variable {system : TransitionSystem Result}

/-- The records that enter the stack of a search that expands the given states: one for each initial
state and one for each transition. -/
def recordCount (system : TransitionSystem Result) (states : List Value) : Nat :=
  system.initialStates.length + (states.map fun state => (system.transitions state).count).sum

theorem WellFormed.count_congr (wellFormed : system.WellFormed) {state other : Value}
    (hasState : system.HasState state) (equal : (state == other) = true) :
    (system.transitions state).count = (system.transitions other).count := by
  rcases wellFormed.listed hasState with ⟨pairs, listed⟩
  rcases wellFormed.listed (hasState.congr equal) with ⟨others, listed'⟩
  have same := Value.length_eq_of_beq_list (wellFormed.congruent hasState equal listed listed')
  unfold Lists at listed listed'
  simpa [Successors.count, listed, listed'] using same

theorem WellFormed.sum_count_congr (wellFormed : system.WellFormed) {states others : List Value}
    (hasStates : ∀ state ∈ states, system.HasState state)
    (matched : (Value.list states == .list others) = true) :
    (states.map fun state => (system.transitions state).count).sum =
      (others.map fun state => (system.transitions state).count).sum := by
  induction states generalizing others with
  | nil => rw [List.length_eq_zero_iff.mp (Value.length_eq_of_beq_list matched).symm]
  | cons state states ih =>
      cases others with
      | nil => cases matched
      | cons other others =>
          rw [List.forall_mem_cons] at hasStates
          have both : (state == other && Value.list states == .list others) = true := matched
          rw [Bool.and_eq_true] at both
          simp only [List.map_cons, List.sum_cons]
          rw [wellFormed.count_congr hasStates.1 both.1, ih hasStates.2 both.2]

/-- The number of records does not depend on which of several equal values stand for the states, nor on
their order. -/
theorem WellFormed.recordCount_congr (wellFormed : system.WellFormed) {states others : List Value}
    (distinct : Value.Distinct states) (distinct' : Value.Distinct others)
    (exact : ∀ state : Value, state.isIn states = true ↔ system.HasState state)
    (exact' : ∀ state : Value, state.isIn others = true ↔ system.HasState state) :
    system.recordCount states = system.recordCount others := by
  have hasStates : ∀ state ∈ states, system.HasState state :=
    fun state state_mem => (exact state).mp (Value.isIn_of_mem state_mem)
  rcases distinct.exists_perm distinct'
    (fun state state_mem => (exact' state).mpr (hasStates state state_mem))
    (fun other other_mem => (exact other).mpr ((exact' other).mp (Value.isIn_of_mem other_mem))) with
    ⟨arranged, perm, matched⟩
  rw [recordCount, recordCount, (perm.map _).sum_nat, wellFormed.sum_count_congr hasStates matched]

/-- A search of finitely many states comes to a point where it ends. -/
theorem exists_ended (wellFormed : system.WellFormed) (finite : system.FinitelyReachable) :
    ∃ last ended reported pending, Search.Stage system last reported pending ∧
      Search.Reports system.transitions system.search (reported.map Placed.toRecord) last ∧
      last.next system.transitions = .exhausted ended ∧
      ∀ placed ∈ pending, placed.state.isIn (Placed.states reported) = true := by
  rcases explore_exhausted wellFormed finite with ⟨bound, _, _, _, _, exhausted⟩
  rcases explore_stage wellFormed bound with
    ⟨last, reported, pending, records_eq, stage, reports, ⟨cut, _⟩ | ⟨_, ⟨ended, stops⟩, seen⟩⟩
  · have ending := (exhausted 0).2
    rw [Nat.add_zero, cut] at ending
    cases ending
  · rw [← records_eq] at reports
    exact ⟨last, ended, reported, pending, stage, reports, stops, seen⟩

/-- The work of a search of finitely many states. It ends with an empty stack once it has taken from it
as many records as there are initial states and transitions of reachable states. It has asked for the
transitions of each reachable state once and depends on no others, and a larger bound changes nothing. -/
theorem explore_work (wellFormed : system.WellFormed) (finite : system.FinitelyReachable) :
    ∃ trace : Search.Trace, trace.ending = .exhausted ∧ trace.search.stack = [] ∧
      Value.Distinct trace.states ∧
      (∀ state : Value, state.isIn trace.states = true ↔ system.HasState state) ∧
      trace.search.expanded = trace.states ∧
      ∀ states : List Value, Value.Distinct states →
        (∀ state : Value, state.isIn states = true ↔ system.HasState state) →
          trace.search.popped = system.recordCount states ∧
          (∀ bound, system.recordCount states ≤ bound →
            (system.explore bound).records = trace.records) ∧
          ∀ bound, system.recordCount states < bound →
            system.explore bound = trace ∧
            Search.asked system.transitions bound system.search = trace.states ∧
            ∀ other : Value → Successors Result,
              (∀ state ∈ trace.states, system.transitions state = other state) →
                system.search.run other bound = trace := by
  rcases exists_ended wellFormed finite with
    ⟨last, ended, reported, pending, stage, reports, stops, seen⟩
  have ended_eq := Search.ended_of_exhausted stops stage.frontier_eq
  have states_exact := stage.explores.isIn_reported_iff wellFormed seen
  refine ⟨{ records := reported.map Placed.toRecord, ending := .exhausted, search := ended },
    rfl, by rw [ended_eq], ?_⟩
  simp only [Search.Trace.states, Placed.map_state_toRecord]
  refine ⟨stage.explores.distinct, states_exact, ?_, ?_⟩
  · rw [ended_eq, Search.expanded, stage.visited_eq, List.reverse_reverse]
  intro states distinct exact
  have popped_eq : ended.popped = system.recordCount states := by
    rw [wellFormed.recordCount_congr distinct stage.explores.distinct exact states_exact, ended_eq]
    have counted := Search.popped_of_reports reports stage.frontier_eq
    simpa [recordCount, Placed.states, Function.comp_def] using counted
  have enough : (reported.map Placed.toRecord).length ≤ system.recordCount states := by
    have length_le := Search.length_le_popped reports
    rw [← popped_eq, ended_eq]
    exact Nat.le_add_right_of_le length_le
  refine ⟨popped_eq, ?_, ?_⟩
  · intro bound large
    rcases Nat.exists_eq_add_of_le (Nat.le_trans enough large) with ⟨more, rfl⟩
    cases more with
    | zero =>
        rw [explore, Search.run_of_reports reports]
        simp [Search.run]
    | succ more => rw [explore, ← Nat.add_assoc, Search.run_of_ended reports stops]
  · intro bound large
    rcases Nat.exists_eq_add_of_lt (Nat.lt_of_le_of_lt enough large) with ⟨more, rfl⟩
    have run_eq := Search.run_of_ended reports stops more
    have asked_eq := Search.asked_of_exhausted (congrArg Search.Trace.ending run_eq)
    rw [run_eq] at asked_eq
    simp only [Search.Trace.states, Placed.map_state_toRecord] at asked_eq
    refine ⟨run_eq, asked_eq, fun other agree => ?_⟩
    rw [← run_eq]
    refine (Search.run_congr_asked fun state state_mem => agree state ?_).symm
    rw [asked_eq] at state_mem
    exact state_mem

/-- A merging system has three initial states and, in three reachable states, six transitions: nine
records are taken from the stack. -/
theorem explore_work_merging :
    merging.WellFormed ∧ merging.FinitelyReachable ∧
      merging.recordCount (merging.explore 10).states = 9 ∧
      (merging.explore 10).search.popped = merging.recordCount (merging.explore 10).states := by
  refine ⟨merging_wellLabelled.toWellFormed, merging_finitelyReachable, rfl, ?_⟩
  rcases explore_work merging_wellLabelled.toWellFormed merging_finitelyReachable with
    ⟨trace, _, _, distinct, exact, _, counted⟩
  rcases counted trace.states distinct exact with ⟨popped_eq, _, settled⟩
  have trace_eq : merging.explore 10 = trace := by
    rw [← (settled (10 + (merging.recordCount trace.states + 1)) (by omega)).1]
    exact (Search.run_add_of_exhausted rfl _).symm
  rw [trace_eq, popped_eq]

end TransitionSystem

end StateSpace
