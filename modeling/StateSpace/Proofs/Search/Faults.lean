import StateSpace.Proofs.Locality
import StateSpace.Proofs.Search.StateCount

/-!
# Searches that may fail

The transitions of a state may fail. A search that asks for them ends with the fault, but what it has
reported by then is still an exploration of the system, because it went on from states whose transitions
could be listed. Only the last reported state may be one whose transitions fail.

So no assumption that everything succeeds is needed to say what a search has found. It reports reachable
states only, with valid paths into them. If it ends without a fault, the transitions of all reported states could be listed, and they
lead into reported states. If it ends with a fault, the fault is one of the transitions of the state
reported last, or it is that of a reachable state that cannot be a key.
-/

namespace StateSpace

namespace TransitionSystem

/-- Wherever the transitions of a state can be listed, they are pairs. -/
def Paired (system : TransitionSystem Result) : Prop :=
  ∀ {state : Value} {items : List Value}, (system.transitions state).toList = .ok items →
    ∃ pairs, system.Lists state pairs

/-- Equal reachable states have equal transitions, where these can be listed. -/
def Coherent (system : TransitionSystem Result) : Prop :=
  ∀ {state other : Value} {pairs others : List (Value × Value)},
    system.Reachable state → system.Reachable other → (state == other) = true →
      system.Lists state pairs → system.Lists other others →
        (Value.list (pairs.map fun pair => .pair pair.1 pair.2) ==
          .list (others.map fun pair => .pair pair.1 pair.2)) = true

end TransitionSystem

namespace Search

variable {system : TransitionSystem Result} {records : List Record} {last : Search}

theorem lists_of_expand (paired : system.Paired) {record : Record} {successors : List Record}
    (expanded : expand system.transitions record = .ok successors) :
    ∃ pairs, system.Lists record.state pairs := by
  rw [expand, Result.bind_eq_ok_iff] at expanded
  rcases expanded with ⟨items, listed, _⟩
  exact paired listed

theorem toList_of_expand_error (paired : system.Paired) {record : Record} {fault : Fault}
    (failed : expand system.transitions record = .error fault) :
    (system.transitions record.state).toList = .error fault := by
  cases listing : (system.transitions record.state).toList with
  | error raised => simpa [expand, listing] using failed
  | ok items =>
      rcases paired listing with ⟨pairs, listed⟩
      have expanded := @expand_of_lists system ⟨record, []⟩ pairs listed
      cases failed.symm.trans expanded

/-- As long as the transitions of the awaited state can be listed, what was reported is an exploration. -/
theorem stage_of_frontier (paired : system.Paired)
    (reports : Reports system.transitions system.search records last) {stack : List Record}
    (frontier_eq : last.frontier system.transitions = .ok stack) :
    ∃ reported pending, reported.map Placed.toRecord = records ∧ Stage system last reported pending := by
  induction reports generalizing stack with
  | none => exact ⟨[], system.starts, rfl, stage_search system⟩
  | @next records record search following earlier advances ih =>
      rcases frontier_of_reported advances with ⟨_, earlier_eq⟩
      rcases ih earlier_eq with ⟨reported, pending, rfl, stage⟩
      rcases stage.of_reported advances with ⟨placed, _, rfl, goesOn⟩
      rw [frontier, awaiting_of_reported advances, Result.bind_eq_ok_iff] at frontier_eq
      rcases frontier_eq with ⟨successors, expanded, _⟩
      rcases lists_of_expand paired expanded with ⟨pairs, listed⟩
      rcases goesOn pairs listed with ⟨pending', stage'⟩
      exact ⟨reported ++ [placed], pending', by simp, stage'⟩

/-- Every record that was reported is one of an exploration. -/
theorem exists_placed_of_reports (paired : system.Paired)
    (reports : Reports system.transitions system.search records last) :
    ∀ record ∈ records, ∃ reported pending placed, system.Explores reported pending ∧
      placed ∈ reported ++ pending ∧ placed.toRecord = record := by
  cases reports with
  | none => simp
  | next earlier advances =>
      -- the state reported last was on the stack before its own transitions were asked for
      rcases frontier_of_reported advances with ⟨_, earlier_eq⟩
      rcases stage_of_frontier paired earlier earlier_eq with ⟨reported, pending, rfl, stage⟩
      rcases stage.of_reported advances with ⟨placed, placed_mem, rfl, _⟩
      intro record record_mem
      rcases List.mem_append.mp record_mem with before | same
      · rcases List.mem_map.mp before with ⟨source, source_mem, rfl⟩
        exact ⟨reported, pending, source, stage.explores, List.mem_append_left _ source_mem, rfl⟩
      · rw [List.mem_singleton.mp same]
        exact ⟨reported, pending, placed, stage.explores, List.mem_append_right _ placed_mem, rfl⟩

theorem frontier_of_exhausted {ended : Search} (stops : last.next system.transitions = .exhausted ended) :
    ∃ stack, last.frontier system.transitions = .ok stack := by
  unfold next at stops
  unfold frontier
  cases awaited : last.awaiting with
  | none => exact ⟨last.stack, rfl⟩
  | some record =>
      cases expanded : expand system.transitions record with
      | error fault => simp [awaited, expanded] at stops
      | ok successors => exact ⟨successors ++ last.stack, by simp [expanded]⟩

/-- A search fails on the transitions of the state reported last, or on a reachable state that cannot be
a key. -/
theorem failed_cases (paired : system.Paired)
    (reports : Reports system.transitions system.search records last) {fault : Fault} {stopped : Search}
    (fails : last.next system.transitions = .failed fault stopped) :
    (∃ record, records.getLast? = some record ∧
        (system.transitions record.state).toList = .error fault) ∨
      ∃ state, system.Reachable state ∧ state.requireHashable = .error fault := by
  cases frontier_eq : last.frontier system.transitions with
  | ok stack =>
      right
      rcases stage_of_frontier paired reports frontier_eq with ⟨reported, pending, _, stage⟩
      rcases stage.unhashable_of_failed fails with ⟨placed, placed_mem, unhashable⟩
      exact ⟨placed.state, stage.explores.reachable (List.mem_append_right _ placed_mem), unhashable⟩
  | error raised =>
      left
      cases awaited : last.awaiting with
      | none => simp [frontier, awaited] at frontier_eq
      | some record =>
          cases expanded : expand system.transitions record with
          | ok successors => simp [frontier, awaited, expanded] at frontier_eq
          | error refused =>
              simp only [next, awaited, expanded, Advance.failed.injEq] at fails
              rcases fails with ⟨rfl, _⟩
              refine ⟨record, ?_, toList_of_expand_error paired expanded⟩
              exact (Reports.awaiting_eq reports).symm.trans awaited

end Search

namespace TransitionSystem

variable {system : TransitionSystem Result}

theorem Explores.exists_lists {reported pending : List Placed} (explores : system.Explores reported pending) :
    ∀ placed ∈ reported, ∃ pairs, system.Lists placed.state pairs := by
  induction explores with
  | start => simp
  | round _ _ _ listed ih =>
      intro placed placed_mem
      rcases List.mem_append.mp placed_mem with before | same
      · exact ih placed before
      · rw [List.mem_singleton.mp same]
        exact ⟨_, listed⟩

/-- Whatever fails later, a search reports reachable states only, each with a valid path that ends in it. -/
theorem reachable_of_mem_explore (paired : system.Paired) {bound : Nat} {record : Record}
    (record_mem : record ∈ (system.explore bound).records) :
    system.Reachable record.state ∧ record.path.last = record.state ∧
      record.path.isValidIn system = .ok true := by
  rcases Search.run_reports system.transitions bound system.search with ⟨last, reports, _⟩
  rcases Search.exists_placed_of_reports paired reports record record_mem with
    ⟨reported, pending, placed, explores, placed_mem, rfl⟩
  exact ⟨explores.reachable placed_mem, explores.witness placed_mem⟩

/-- A search that ends without a fault has explored the system until no other state was left. -/
theorem explores_of_exhausted (paired : system.Paired) {bound : Nat}
    (ended : (system.explore bound).ending = .exhausted) :
    ∃ reported pending, reported.map Placed.toRecord = (system.explore bound).records ∧
      system.Explores reported pending ∧
      ∀ placed ∈ pending, placed.state.isIn (Placed.states reported) = true := by
  rcases Search.run_reports system.transitions bound system.search with ⟨last, reports, ends⟩
  change Search.EndsAt _ (system.explore bound) bound last at ends
  rcases ends with ⟨cut, _⟩ | ⟨stopped, stops, _⟩ | ⟨_, _, _, failed⟩
  · rw [cut] at ended
    cases ended
  · rcases Search.frontier_of_exhausted stops with ⟨_, frontier_eq⟩
    rcases Search.stage_of_frontier paired reports frontier_eq with ⟨reported, pending, records_eq, stage⟩
    exact ⟨reported, pending, records_eq, stage.explores, stage.seen_of_exhausted stops⟩
  · rw [failed] at ended
    cases ended

theorem exists_lists_of_exhausted (paired : system.Paired) {bound : Nat}
    (ended : (system.explore bound).ending = .exhausted) :
    ∀ record ∈ (system.explore bound).records, ∃ pairs, system.Lists record.state pairs := by
  rcases explores_of_exhausted paired ended with ⟨reported, pending, records_eq, explores, _⟩
  intro record record_mem
  rw [← records_eq] at record_mem
  rcases List.mem_map.mp record_mem with ⟨placed, placed_mem, rfl⟩
  exact explores.exists_lists placed placed_mem

theorem explore_failed_cases (paired : system.Paired) {bound : Nat} {fault : Fault}
    (ended : (system.explore bound).ending = .failed fault) :
    (∃ earlier record, (system.explore bound).records = earlier ++ [record] ∧
        (system.transitions record.state).toList = .error fault) ∨
      ∃ state, system.Reachable state ∧ state.requireHashable = .error fault := by
  rcases Search.run_reports system.transitions bound system.search with ⟨last, reports, ends⟩
  change Search.EndsAt _ (system.explore bound) bound last at ends
  change Search.Reports _ _ (system.explore bound).records last at reports
  rcases ends with ⟨cut, _⟩ | ⟨_, _, exhausted⟩ | ⟨raised, stopped, fails, failed⟩
  · rw [cut] at ended
    cases ended
  · rw [exhausted] at ended
    cases ended
  · rw [failed, Search.Ending.failed.injEq] at ended
    subst ended
    rcases Search.failed_cases paired reports fails with ⟨record, last_eq, refused⟩ | unhashable
    · rcases List.getLast?_eq_some_iff.mp last_eq with ⟨earlier, records_eq⟩
      exact .inl ⟨earlier, record, records_eq, refused⟩
    · exact .inr unhashable

/-- A search of a coherent system that ends without a fault has reported every reachable state. -/
theorem isIn_explore_of_exhausted (paired : system.Paired) (coherent : system.Coherent)
    {bound : Nat} (ended : (system.explore bound).ending = .exhausted) {state : Value}
    (reachable : system.Reachable state) : state.isIn (system.explore bound).states = true := by
  rcases explores_of_exhausted paired ended with ⟨reported, pending, records_eq, explores, seen⟩
  rw [states_explore records_eq]
  induction reachable with
  | initial mem => exact explores.isIn_of_initial seen mem
  | @step state action target pairs source listed mem ih =>
      rcases Value.isIn_iff.mp ih with ⟨value, value_mem, equal⟩
      rcases List.mem_map.mp value_mem with ⟨placed, placed_mem, rfl⟩
      rcases explores.exists_lists placed placed_mem with ⟨pairs', listed'⟩
      have placed_reachable := explores.reachable (List.mem_append_left pending placed_mem)
      have same := coherent source placed_reachable (BEq.symm equal) listed listed'
      rcases List.mem_iff_getElem?.mp (List.mem_map_of_mem mem) with ⟨position, found⟩
      rcases Value.getElem?_of_beq_list same found with ⟨item, item_found, item_equal⟩
      rcases List.mem_map.mp (List.mem_of_getElem? item_found) with ⟨pair', pair_mem, rfl⟩
      rw [Value.isIn_congr (Value.beq_pair_iff.mp item_equal).2]
      exact explores.isIn_of_transition seen placed_mem listed' pair_mem

end TransitionSystem

end StateSpace
