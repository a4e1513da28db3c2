import StateSpace.Proofs.Formula
import StateSpace.Proofs.Locality
import StateSpace.Proofs.Search.Restriction

/-!
# Answers of checks

A check takes a bound, and what it answers is its verdict with all bounds beyond some number. There are two
ways to know it. A counterexample follows from the first records of the search alone, and these are found by
advancing the search: it goes on into the first transition of the state it has reported last, if that leads
into a new state. That there is no counterexample follows from the reachable states of a regular system.

A search that ends settles the checks of all properties that are decided in its records. The verdict names the
first record in which the property fails, or none if it holds in all of them.
-/

namespace StateSpace

namespace Search

/-- A search reports the record on top of its frontier if the state is new. -/
theorem exists_next_of_top {transitions : Value → Successors Result} {search : Search} {record : Record}
    {rest : List Record} (frontier_eq : search.frontier transitions = .ok (record :: rest))
    (hashable : record.state.IsHashable) (fresh : record.state.isIn search.visited.members = false) :
    ∃ following, search.next transitions = .reported record following := by
  rw [next_of_frontier frontier_eq]
  simp [pop, Value.requireHashable_eq_ok_iff.mpr hashable, ValueSet.has_eq, fresh]

end Search

namespace TransitionSystem

variable {system : TransitionSystem Result} {property : Property Result} {bound : Nat} {verdict : Verdict}
  {records : List Record}

/-- A search begins with the first initial state. -/
theorem exists_reports_initial {initial : Value} {others : List Value}
    (starts : system.initialStates = initial :: others) (hashable : initial.IsHashable) :
    ∃ last, Search.Reports system.transitions system.search [⟨initial, .single initial⟩] last := by
  have frontier_eq : system.search.frontier system.transitions =
      .ok (⟨initial, .single initial⟩ :: others.map fun state => ⟨state, .single state⟩) := by
    simp [search, Search.start, Search.frontier, starts]
  rcases Search.exists_next_of_top frontier_eq hashable rfl with ⟨last, advances⟩
  exact ⟨last, .next .none advances⟩

/-- A search goes on into the first transition of the state reported last, if that leads into a state not
reported yet. -/
theorem exists_reports_first {earlier : List Record} {record : Record} {last : Search}
    (reports : Search.Reports system.transitions system.search (earlier ++ [record]) last)
    {action target : Value} {pairs : List (Value × Value)}
    (listed : system.Lists record.state ((action, target) :: pairs)) (hashable : target.IsHashable)
    (fresh : target.isIn ((earlier ++ [record]).map Record.state) = false) :
    ∃ following, Search.Reports system.transitions system.search
      (earlier ++ [record] ++ [⟨target, record.path.extend action target⟩]) following := by
  have awaited : last.awaiting = some record := by
    rw [Search.Reports.awaiting_eq reports, List.getLast?_concat]
  have expanded := @Search.expand_of_lists system ⟨record, []⟩ _ listed
  have frontier_eq : last.frontier system.transitions =
      .ok (⟨target, record.path.extend action target⟩ ::
        (pairs.map fun pair => ⟨pair.2, record.path.extend pair.1 pair.2⟩) ++ last.stack) := by
    rw [Placed.map_toRecord_successors] at expanded
    simp [Search.frontier, awaited, expanded]
  have unseen : target.isIn last.visited.members = false := by
    rw [Search.Reports.visited_eq reports, Value.isIn, List.any_reverse]
    exact fresh
  rcases Search.exists_next_of_top frontier_eq hashable unseen with ⟨following, advances⟩
  exact ⟨following, .next reports advances⟩

/-- With all bounds beyond some number, a check comes to the same verdict, which names the given
counterexample or none. -/
def Answers (system : TransitionSystem Result) (property : Property Result)
    (answer : Option Counterexample) : Prop :=
  ∃ bound verdict, (∀ more, system.check property (bound + more) = .ok verdict) ∧
    verdict ≠ .undecided ∧ verdict.counterexample? = answer

/-- A check stops at the first state reported in which the property fails, whatever comes later. -/
theorem check_of_reports {earlier : List Record} {counterexample : Counterexample} {last : Search}
    (reports : Search.Reports system.transitions system.search
      (earlier ++ [⟨counterexample.state, counterexample.path⟩]) last)
    (holds : ∀ record ∈ earlier, system.holdsAt property record.state = .ok true)
    (fails : system.holdsAt property counterexample.state = .ok false) (more : Nat) :
    system.check property (earlier.length + 1 + more) =
      .ok (.violated counterexample (earlier.length + 1)) := by
  have run_eq := Search.run_of_reports reports more
  rw [List.length_append, List.length_singleton] at run_eq
  rw [check_eq, explore, run_eq, Search.Trace.records_after, List.append_assoc]
  exact (judge_of_fails holds fails _ 0).trans (by rw [Nat.zero_add])

theorem yields_of_reports {earlier : List Record} {counterexample : Counterexample} {last : Search}
    (reports : Search.Reports system.transitions system.search
      (earlier ++ [⟨counterexample.state, counterexample.path⟩]) last)
    (holds : ∀ record ∈ earlier, system.holdsAt property record.state = .ok true)
    (fails : system.holdsAt property counterexample.state = .ok false) :
    system.Yields property ((Verdict.violated counterexample (earlier.length + 1)).worded property) :=
  yields_of_check (check_of_reports reports holds fails)

/-- A check that finds a violation in a state without a printed form fails. -/
theorem yields_error_of_reports {earlier : List Record} {counterexample : Counterexample} {last : Search}
    (reports : Search.Reports system.transitions system.search
      (earlier ++ [⟨counterexample.state, counterexample.path⟩]) last)
    (holds : ∀ record ∈ earlier, system.holdsAt property record.state = .ok true)
    (fails : system.holdsAt property counterexample.state = .ok false)
    (hidden : counterexample.state.isPrintable = false) : system.Yields property (.error .numberTooLong) := by
  have yields := yields_of_reports reports holds fails
  rwa [Verdict.worded_violated_of_unprintable hidden] at yields

/-- With all bounds from a number on, a check comes to the verdict. -/
def SettledFrom (system : TransitionSystem Result) (bound : Nat) (property : Property Result)
    (verdict : Verdict) : Prop :=
  verdict ≠ .undecided ∧ ∀ more, system.check property (bound + more) = .ok verdict

/-- With all bounds from a number on, a search reports the records and ends. -/
def EndsFrom (system : TransitionSystem Result) (bound : Nat) (records : List Record) : Prop :=
  ∀ more, (system.explore (bound + more)).records = records ∧
    (system.explore (bound + more)).ending = .exhausted

namespace EndsFrom

theorem check_eq (ends : system.EndsFrom bound records) (property : Property Result) (more : Nat) :
    system.check property (bound + more) = system.judge property .exhausted records 0 := by
  rw [TransitionSystem.check_eq, (ends more).1, (ends more).2]

theorem exists_settled (ends : system.EndsFrom bound records)
    (decided : ∀ record ∈ records, ∃ truth, system.holdsAt property record.state = .ok truth) :
    ∃ verdict, system.SettledFrom bound property verdict := by
  rcases judge_exhausted decided 0 with ⟨verdict, judged, settled, _⟩
  refine ⟨verdict, settled, fun more => ?_⟩
  rw [ends.check_eq, judged]

theorem counterexample_eq_none_iff (ends : system.EndsFrom bound records)
    (settled : system.SettledFrom bound property verdict) :
    verdict.counterexample? = none ↔
      ∀ record ∈ records, system.holdsAt property record.state = .ok true := by
  have judged := settled.2 0
  rw [ends.check_eq] at judged
  constructor
  · intro unnamed
    cases verdict with
    | holds checked => exact (judge_holds judged).2
    | violated counterexample checked => cases unnamed
    | undecided => exact absurd rfl settled.1
  · intro holds
    rw [judge_of_holds holds] at judged
    cases judged
    rfl

/-- A settled check names the first record in which the property fails. -/
theorem counterexample_eq_some_iff (ends : system.EndsFrom bound records)
    (settled : system.SettledFrom bound property verdict) {counterexample : Counterexample} :
    verdict.counterexample? = some counterexample ↔
      ∃ earlier later, records = earlier ++ ⟨counterexample.state, counterexample.path⟩ :: later ∧
        (∀ record ∈ earlier, system.holdsAt property record.state = .ok true) ∧
        system.holdsAt property counterexample.state = .ok false := by
  have judged := settled.2 0
  rw [ends.check_eq] at judged
  constructor
  · intro named
    cases verdict with
    | holds checked => cases named
    | violated found checked =>
        cases named
        rcases judge_violated judged with ⟨earlier, later, records_eq, _, holds, fails⟩
        exact ⟨earlier, later, records_eq, holds, fails⟩
    | undecided => cases named
  · rintro ⟨earlier, later, records_eq, holds, fails⟩
    rw [records_eq, judge_of_fails holds fails] at judged
    cases judged
    rfl

end EndsFrom

/-- A check answers with no counterexample if the property holds in all reachable states of a regular
system, and these are finitely many. -/
theorem Regular.answers_none (regular : system.Regular) (finite : system.FinitelyReachable)
    (holds : ∀ state, system.Reachable state → system.holdsAt property state = .ok true) :
    system.Answers property none := by
  rcases regular.explore_exhausted finite with ⟨bound, records, ends, _, reachable, _⟩
  have allHold : ∀ record ∈ records, system.holdsAt property record.state = .ok true :=
    fun record record_mem => holds _ (reachable record record_mem)
  rcases EndsFrom.exists_settled ends fun record record_mem => ⟨true, allHold record record_mem⟩ with
    ⟨verdict, settled⟩
  exact ⟨bound, verdict, settled.2, settled.1,
    (EndsFrom.counterexample_eq_none_iff ends settled).mpr allHold⟩

theorem holdsAt_of_means {formula : Formula Result} {state : Value} {label : Label} {meaning : Prop}
    (labelled : system.label state = .ok label) (means : formula.Means label meaning)
    (true_there : meaning) : system.holdsAt (.formula formula) state = .ok true := by
  rcases means.holds_eq with ⟨truth, holds_eq, truth_iff⟩
  simp [holdsAt, labelled, holds_eq, truth_iff.mpr true_there]

theorem fails_of_means {formula : Formula Result} {state : Value} {label : Label} {meaning : Prop}
    (labelled : system.label state = .ok label) (means : formula.Means label meaning)
    (false_there : ¬meaning) : system.holdsAt (.formula formula) state = .ok false := by
  rcases means.holds_eq with ⟨truth, holds_eq, truth_iff⟩
  have truth_eq : truth = false := Bool.eq_false_iff.mpr fun holds => false_there (truth_iff.mp holds)
  simp [holdsAt, labelled, holds_eq, truth_eq]

end TransitionSystem

end StateSpace
