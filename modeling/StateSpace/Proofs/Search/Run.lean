import StateSpace.Search
import StateSpace.Proofs.Outcome

/-!
# Runs of a search

What a search does next depends on its visited states and on its frontier, the stack once the
successors of the awaited state are on it. `Search.pop_cases` says everything that taking records from
a stack can do. `Search.Reports` describes a search by the records it has reported, whatever the bound
it was run with, and `Search.run_reports` and `Search.run_of_reports` say that a run reports the same.
-/

namespace StateSpace

namespace Search

variable {transitions : Value → Successors Result}

/-- The stack once the successors of the awaited state are on it. -/
def frontier (transitions : Value → Successors Result) (search : Search) : Result (List Record) :=
  match search.awaiting with
  | none => .ok search.stack
  | some record => do pure ((← expand transitions record) ++ search.stack)

theorem next_of_frontier {search : Search} {stack : List Record}
    (frontier_eq : search.frontier transitions = .ok stack) :
    search.next transitions = pop search.visited search.popped stack := by
  unfold frontier at frontier_eq
  unfold next
  cases awaited : search.awaiting with
  | none =>
      simp only [awaited, Except.ok.injEq] at frontier_eq
      simp [frontier_eq]
  | some record =>
      simp only [awaited, Result.bind_eq_ok_iff, Result.pure_eq_ok, Except.ok.injEq] at frontier_eq
      rcases frontier_eq with ⟨records, expanded, rfl⟩
      simp [expanded]

/-- Taking records from a stack drops records of visited states. Then either none is left, or the next
one is of a state that cannot be a key, or it is reported. -/
theorem pop_cases (visited : ValueSet) (popped : Nat) (stack : List Record) :
    (∀ record ∈ stack, record.state.isIn visited.members = true) ∧
        pop visited popped stack = .exhausted { visited, popped := popped + stack.length } ∨
      ∃ dropped record rest, stack = dropped ++ record :: rest ∧
        (∀ earlier ∈ dropped, earlier.state.isIn visited.members = true) ∧
        ((∃ fault, record.state.requireHashable = .error fault ∧
            pop visited popped stack =
              .failed fault { visited, stack := rest, popped := popped + dropped.length + 1 }) ∨
          record.state.IsHashable ∧ record.state.isIn visited.members = false ∧
            pop visited popped stack =
              .reported record
                { visited := visited.insert record.state
                  stack := rest
                  awaiting := some record
                  popped := popped + dropped.length + 1 }) := by
  induction stack generalizing popped with
  | nil => exact .inl ⟨by simp, rfl⟩
  | cons top stack ih =>
      cases hashed : top.state.requireHashable with
      | error fault =>
          refine .inr ⟨[], top, stack, rfl, by simp, .inl ⟨fault, hashed, ?_⟩⟩
          simp [pop, hashed]
      | ok _ =>
          cases seen : visited.has top.state with
          | false =>
              refine .inr ⟨[], top, stack, rfl, by simp, .inr ⟨?_, ?_, ?_⟩⟩
              · exact Value.requireHashable_eq_ok_iff.mp hashed
              · rw [← ValueSet.has_eq, seen]
              · simp [pop, hashed, seen]
          | true =>
              have again : pop visited popped (top :: stack) = pop visited (popped + 1) stack := by
                simp [pop, hashed, seen]
              have topSeen : top.state.isIn visited.members = true := by
                rw [← ValueSet.has_eq, seen]
              rw [again]
              rcases ih (popped + 1) with ⟨allSeen, ended⟩ | ⟨dropped, record, rest, rfl, droppedSeen, outcome⟩
              · refine .inl ⟨List.forall_mem_cons.mpr ⟨topSeen, allSeen⟩, ?_⟩
                rw [ended, List.length_cons]
                congr 2
                omega
              · refine .inr ⟨top :: dropped, record, rest, rfl,
                  List.forall_mem_cons.mpr ⟨topSeen, droppedSeen⟩, ?_⟩
                have count : popped + 1 + dropped.length + 1 = popped + (top :: dropped).length + 1 := by
                  simp only [List.length_cons]
                  omega
                rw [← count]
                exact outcome

namespace Trace

/-- A run with records that were reported before it. -/
def after (trace : Trace) (earlier : List Record) : Trace :=
  { trace with records := earlier ++ trace.records }

@[simp]
theorem records_after (trace : Trace) (earlier : List Record) :
    (trace.after earlier).records = earlier ++ trace.records :=
  rfl

@[simp]
theorem ending_after (trace : Trace) (earlier : List Record) :
    (trace.after earlier).ending = trace.ending :=
  rfl

theorem after_append (trace : Trace) (earlier later : List Record) :
    trace.after (earlier ++ later) = (trace.after later).after earlier := by
  simp [after]

end Trace

theorem run_of_reported {search following : Search} {record : Record}
    (advances : search.next transitions = .reported record following) (bound : Nat) :
    search.run transitions (bound + 1) = (following.run transitions bound).after [record] := by
  simp [run, advances, Trace.after]

/-- From one search, the records are reported in order and lead to another search. -/
inductive Reports (transitions : Value → Successors Result) (start : Search) :
    List Record → Search → Prop where
  | none : Reports transitions start [] start
  | next {records : List Record} {record : Record} {search search' : Search}
      (earlier : Reports transitions start records search)
      (advances : search.next transitions = .reported record search') :
      Reports transitions start (records ++ [record]) search'

theorem Reports.cons {start search last : Search} {record : Record} {records : List Record}
    (advances : start.next transitions = .reported record search)
    (reports : Reports transitions search records last) :
    Reports transitions start (record :: records) last := by
  induction reports with
  | none => exact .next .none advances
  | next _ advances' ih => exact .next ih advances'

/-- How a run that stops at a search ends there. -/
def EndsAt (transitions : Value → Successors Result) (trace : Trace) (bound : Nat) (last : Search) :
    Prop :=
  trace.ending = .cut ∧ trace.records.length = bound ∨
    (∃ search, last.next transitions = .exhausted search ∧ trace.ending = .exhausted) ∨
      ∃ fault search, last.next transitions = .failed fault search ∧ trace.ending = .failed fault

/-- A run reports records up to its bound, or up to where the search ends. -/
theorem run_reports (transitions : Value → Successors Result) (bound : Nat) (search : Search) :
    ∃ last, Reports transitions search (search.run transitions bound).records last ∧
      EndsAt transitions (search.run transitions bound) bound last := by
  induction bound generalizing search with
  | zero => exact ⟨search, .none, .inl ⟨rfl, rfl⟩⟩
  | succ bound ih =>
      cases advances : search.next transitions with
      | exhausted ended =>
          simp only [run, advances]
          exact ⟨search, .none, .inr (.inl ⟨ended, advances, rfl⟩)⟩
      | failed fault stopped =>
          simp only [run, advances]
          exact ⟨search, .none, .inr (.inr ⟨fault, stopped, advances, rfl⟩)⟩
      | reported record following =>
          rw [run_of_reported advances]
          rcases ih following with ⟨last, reports, ends⟩
          refine ⟨last, reports.cons advances, ?_⟩
          rcases ends with ⟨cut, count⟩ | ends
          · exact .inl ⟨cut, by simp [count]⟩
          · exact .inr ends

/-- A run with a bound beyond the records that a search reports continues where they end. -/
theorem run_of_reports {start last : Search} {records : List Record}
    (reports : Reports transitions start records last) (more : Nat) :
    start.run transitions (records.length + more) = (last.run transitions more).after records := by
  induction reports generalizing more with
  | none => simp [Trace.after]
  | @next records record search search' _ advances ih =>
      have longer := ih (more + 1)
      rw [run_of_reported advances, ← Trace.after_append] at longer
      rw [← longer, List.length_append, List.length_singleton, Nat.add_assoc, Nat.add_comm 1]

/-- The records of a run are the first of those of every longer run. -/
theorem run_records_take (transitions : Value → Successors Result) (search : Search)
    (bound more : Nat) :
    (search.run transitions bound).records =
      (search.run transitions (bound + more)).records.take bound := by
  induction bound generalizing search with
  | zero => rfl
  | succ bound ih =>
      rw [Nat.add_right_comm]
      cases advances : search.next transitions with
      | exhausted ended => simp [run, advances]
      | failed fault stopped => simp [run, advances]
      | reported record following =>
          rw [run_of_reported advances, run_of_reported advances]
          simp [ih following]

/-- A run that has come to the end of a search is not changed by a larger bound. -/
theorem run_add_of_exhausted {search : Search} {bound : Nat}
    (ended : (search.run transitions bound).ending = .exhausted) (more : Nat) :
    search.run transitions (bound + more) = search.run transitions bound := by
  induction bound generalizing search with
  | zero => cases ended
  | succ bound ih =>
      rw [Nat.add_right_comm]
      cases advances : search.next transitions with
      | exhausted ended => simp [run, advances]
      | failed fault stopped => simp [run, advances]
      | reported record following =>
          rw [run_of_reported advances] at ended
          rw [run_of_reported advances, run_of_reported advances, ih ended]

/-- A run up to a record that a longer run reports ends with that record. -/
theorem run_records_upTo {search : Search} {bound : Nat} {earlier later : List Record} {record : Record}
    (records_eq : (search.run transitions bound).records = earlier ++ record :: later) :
    (search.run transitions (earlier.length + 1)).records = earlier ++ [record] := by
  have short : earlier.length + 1 ≤ bound := by
    have count := congrArg List.length (run_records_take transitions search bound 0)
    simp only [Nat.add_zero, records_eq, List.length_take, List.length_append, List.length_cons] at count
    omega
  rcases Nat.exists_eq_add_of_le short with ⟨more, rfl⟩
  rw [run_records_take transitions search _ more, records_eq, List.append_cons]
  exact List.take_left' (by simp)

end Search

end StateSpace
