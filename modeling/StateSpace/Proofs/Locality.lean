import StateSpace.Proofs.Check
import StateSpace.Proofs.Search.Work

/-!
# What a check depends on

A search reports a state before it asks for its transitions, and it asks for no label at all. A check
asks for the label of each reported state and stops at the first in which the property fails. So what a
check that stops has seen of a system is the transitions of the states reported before its
counterexample, and the labels of those and of the counterexample. `TransitionSystem.AgreesOn` relates
two systems that cannot be told apart by this.

Nothing is assumed of the systems: they may have infinitely many states, and their labels and
transitions may fail. One round of a search depends on the transitions of the awaited state
(`Search.next_congr`), and by induction the records depend on those of all states but the last.
-/

namespace StateSpace

namespace Search

variable {transitions other : Value → Successors Result} {initialStates : List Value}
  {records : List Record} {last : Search}

theorem Reports.awaiting_eq (reports : Reports transitions (start initialStates) records last) :
    last.awaiting = records.getLast? := by
  cases reports with
  | none => rfl
  | next _ advances => rw [awaiting_of_reported advances, List.getLast?_concat]

theorem Reports.visited_eq (reports : Reports transitions (start initialStates) records last) :
    last.visited.members = (records.map Record.state).reverse := by
  induction reports with
  | none => rfl
  | next _ advances ih =>
      rcases frontier_of_reported advances with ⟨stack, frontier_eq⟩
      rcases following_of_reported advances frontier_eq with ⟨dropped, rest, _, _, rfl⟩
      simp [ih]

/-- A search reports no state twice, whatever the transitions are. -/
theorem Reports.distinct (reports : Reports transitions (start initialStates) records last) :
    Value.Distinct (records.map Record.state) := by
  induction reports with
  | none => exact List.Pairwise.nil
  | next earlier advances ih =>
      rcases frontier_of_reported advances with ⟨stack, frontier_eq⟩
      rcases following_of_reported advances frontier_eq with ⟨dropped, rest, _, fresh, _⟩
      rw [earlier.visited_eq, Value.isIn, List.any_reverse] at fresh
      rw [List.map_append, List.map_singleton]
      exact Value.distinct_concat.mpr ⟨ih, fresh⟩

/-- Transitions that agree in all reported states but the last report the same. -/
theorem Reports.congr (reports : Reports transitions (start initialStates) records last)
    (agree : ∀ record ∈ records.dropLast,
      (transitions record.state).toList = (other record.state).toList) :
    Reports other (start initialStates) records last := by
  induction reports with
  | none => exact .none
  | @next records record search following earlier advances ih =>
      rw [List.dropLast_concat] at agree
      refine .next (ih fun previous previous_mem => ?_) ?_
      · exact agree previous (List.dropLast_subset records previous_mem)
      · -- the state that is awaited now was reported before the one that is reported next
        rw [← advances]
        refine (next_congr fun state state_mem => ?_).symm
        rw [Option.mem_toList, Option.map_eq_some_iff] at state_mem
        rcases state_mem with ⟨awaited, awaiting_eq, rfl⟩
        rw [earlier.awaiting_eq] at awaiting_eq
        exact agree awaited (List.mem_of_getLast? awaiting_eq)

end Search

namespace TransitionSystem

/-- Another system starts in the same states and agrees with a system on the labels of the given states
and on the transitions of all but the last of them. -/
structure AgreesOn (system other : TransitionSystem Result) (states : List Value) : Prop where
  initialStates : other.initialStates = system.initialStates
  transitions : ∀ state ∈ states.dropLast,
    (other.transitions state).toList = (system.transitions state).toList
  labels : ∀ state ∈ states, other.label state = system.label state

variable {system other : TransitionSystem Result} {property : Property Result}

theorem AgreesOn.holdsAt_eq {states : List Value} (agrees : system.AgreesOn other states)
    {state : Value} (state_mem : state ∈ states) :
    other.holdsAt property state = system.holdsAt property state := by
  rw [holdsAt, holdsAt, agrees.labels state state_mem]

/-- A system that agrees on the states reported so far reports the same so far. -/
theorem AgreesOn.reports {records : List Record} {last : Search}
    (agrees : system.AgreesOn other (records.map Record.state))
    (reports : Search.Reports system.transitions system.search records last) :
    Search.Reports other.transitions other.search records last := by
  rw [search, agrees.initialStates]
  refine Search.Reports.congr reports fun record record_mem => ?_
  refine (agrees.transitions record.state ?_).symm
  rw [← List.map_dropLast]
  exact List.mem_map_of_mem record_mem

/-- A check that finds a counterexample depends on no more of the system than it has explored: the
transitions of the states reported before the counterexample, which are unequal to it, and the labels of
those and of the counterexample. Every system that agrees so far gets the same verdict, whatever happens
in the other states. -/
theorem check_early_exit {bound checked : Nat} {counterexample : Counterexample}
    (violated : system.check property bound = .ok (.violated counterexample checked))
    (agrees : system.AgreesOn other (system.explore checked).states) :
    (∃ earlier, (system.explore checked).records =
        earlier ++ [⟨counterexample.state, counterexample.path⟩] ∧
      counterexample.state.isIn (earlier.map Record.state) = false) ∧
    (other.explore checked).records = (system.explore checked).records ∧
    ∀ more, other.check property (checked + more) = .ok (.violated counterexample checked) := by
  rw [check_eq] at violated
  rcases judge_violated violated with ⟨earlier, later, records_eq, rfl, holds, fails⟩
  rw [Nat.zero_add] at agrees ⊢
  have upTo : (system.explore (earlier.length + 1)).records =
      earlier ++ [⟨counterexample.state, counterexample.path⟩] := Search.run_records_upTo records_eq
  rcases Search.run_reports system.transitions (earlier.length + 1) system.search with
    ⟨last, reports, _⟩
  change Search.Reports _ _ (system.explore (earlier.length + 1)).records last at reports
  rw [upTo] at reports
  have distinct := Search.Reports.distinct reports
  rw [List.map_append, List.map_singleton, Value.distinct_concat] at distinct
  rw [Search.Trace.states, upTo] at agrees
  have explored : ∀ more, (other.explore (earlier.length + 1 + more)).records =
      earlier ++ ⟨counterexample.state, counterexample.path⟩ ::
        (last.run other.transitions more).records := by
    intro more
    have run_eq := Search.run_of_reports (agrees.reports reports) more
    rw [List.length_append, List.length_singleton] at run_eq
    rw [explore, run_eq]
    simp
  refine ⟨⟨earlier, upTo, distinct.2⟩, ?_, ?_⟩
  · rw [upTo]
    simpa [Search.run] using explored 0
  · intro more
    have holds' : ∀ record ∈ earlier, other.holdsAt property record.state = .ok true := by
      intro record record_mem
      rw [agrees.holdsAt_eq (by simpa using .inl ⟨record, record_mem, rfl⟩)]
      exact holds record record_mem
    have fails' : other.holdsAt property counterexample.state = .ok false := by
      rw [agrees.holdsAt_eq (by simp)]
      exact fails
    rw [check_eq, explored, judge_of_fails holds' fails', Nat.zero_add]

/-- A counter that goes up and down without end. Below a limit its label is low. -/
def counting (limit : Int) : TransitionSystem Result where
  initialStates := [.int 0, .int 10]
  label
    | .int number => .ok (.set (if number < limit then [.str "low"] else []))
    | _ => .ok (.set [])
  transitions
    | .int number => .atOnce (.ok
        [.pair (.str "up") (.int (number + 1)), .pair (.str "down") (.int (number - 1))])
    | _ => .atOnce (.ok [])

/-- The counter with a fault in place of all that a check of its labels does not need: the labels of
states below zero or beyond the limit, and the transitions of these and of the limit. -/
def failing (limit : Int) : TransitionSystem Result where
  initialStates := [.int 0, .int 10]
  label
    | .int number =>
        if 0 ≤ number ∧ number ≤ limit then (counting limit).label (.int number)
        else .error (.raised "no label")
    | _ => .error (.raised "no label")
  transitions
    | .int number =>
        if 0 ≤ number ∧ number < limit then (counting limit).transitions (.int number)
        else .atOnce (.error (.raised "no transitions"))
    | _ => .atOnce (.error (.raised "no transitions"))

/-- A counter without end and one that fails in all states not explored get the same verdict. -/
theorem check_early_exit_failing :
    (counting 3).check isLow 9 = .ok (.violated ⟨.int 3, (((Path.single (.int 0)).extend
        (.str "up") (.int 1)).extend (.str "up") (.int 2)).extend (.str "up") (.int 3)⟩ 4) ∧
      (counting 3).AgreesOn (failing 3) ((counting 3).explore 4).states ∧
      ((failing 3).transitions (.int 3)).toList = .error (.raised "no transitions") ∧
      ∀ more, ((failing 3).check isLow (4 + more)).map Verdict.counterexample? =
        ((counting 3).check isLow 9).map Verdict.counterexample? := by
  have violated : (counting 3).check isLow 9 = .ok (.violated ⟨.int 3, (((Path.single (.int 0)).extend
      (.str "up") (.int 1)).extend (.str "up") (.int 2)).extend (.str "up") (.int 3)⟩ 4) := rfl
  have agrees : (counting 3).AgreesOn (failing 3) ((counting 3).explore 4).states := by
    have states_eq : ((counting 3).explore 4).states = [.int 0, .int 1, .int 2, .int 3] := rfl
    refine ⟨rfl, ?_, ?_⟩ <;> rw [states_eq] <;> simp [failing, counting]
  refine ⟨violated, agrees, rfl, ?_⟩
  intro more
  rw [violated, (check_early_exit violated agrees).2.2 more]

end TransitionSystem

end StateSpace
