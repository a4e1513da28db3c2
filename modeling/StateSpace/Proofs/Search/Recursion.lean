import StateSpace.Proofs.Search.Run

/-!
# Recursive depth-first search

The plain form of depth-first search is a recursion: visiting a state marks it, reports it, and then
visits its successors in order. A fault ends the whole recursion and keeps what was reported before it.
The recursion need not end, so it is bounded by the depth to which calls are nested, and gives nothing
where that is exceeded.

The main result is that the search with a stack reports the same records in the same order and ends in
the same way wherever the recursion ends. A call of the recursion corresponds to the part of a run in
which the stack above some records is used up.
-/

namespace StateSpace

namespace Search

/-- What a recursive search has done so far. -/
structure Progress where
  /-- The states visited, the latest first. -/
  visited : List Value := []
  /-- The records reported, in order. -/
  records : List Record := []

/-- Mark the state of a record and report it. -/
def Progress.report (progress : Progress) (record : Record) : Progress where
  visited := record.state :: progress.visited
  records := progress.records ++ [record]

/-- A computation of the recursive search. A fault keeps the progress made before it. -/
abbrev Recursive := ExceptT Fault (StateT Progress Option)

namespace Recursive

variable {α β : Type}

/-- What a computation gives, if its calls are not nested too deeply. -/
def runFrom (computation : Recursive α) (progress : Progress) : Option (Result α × Progress) :=
  computation.run.run progress

/-- An operation that makes no progress. -/
def ofResult (result : Result α) : Recursive α :=
  ExceptT.mk (pure result)

/-- Give nothing. -/
def tooDeep : Recursive α :=
  ExceptT.mk (StateT.lift none)

@[simp]
theorem runFrom_tooDeep (progress : Progress) : runFrom (tooDeep : Recursive α) progress = none :=
  rfl

@[simp]
theorem runFrom_ofResult_bind (result : Result α) (next : α → Recursive β) (progress : Progress) :
    runFrom (ofResult result >>= next) progress =
      match result with
      | .ok value => runFrom (next value) progress
      | .error fault => some (.error fault, progress) := by
  cases result <;> rfl

@[simp]
theorem runFrom_get_bind (next : Progress → Recursive β) (progress : Progress) :
    runFrom (get >>= next) progress = runFrom (next progress) progress :=
  rfl

@[simp]
theorem runFrom_set_bind (changed : Progress) (next : PUnit → Recursive β) (progress : Progress) :
    runFrom (set changed >>= next) progress = runFrom (next ⟨⟩) changed :=
  rfl

end Recursive

/-- How a search ends that has a result. -/
def Ending.ofResult : Result Unit → Ending
  | .ok () => .exhausted
  | .error fault => .failed fault

variable {transitions : Value → Successors Result}

/-- Searches that do the same next report the same and end alike. -/
theorem run_congr_next {search other : Search}
    (same : search.next transitions = other.next transitions) (bound : Nat) :
    (search.run transitions bound).records = (other.run transitions bound).records ∧
      (search.run transitions bound).ending = (other.run transitions bound).ending := by
  cases bound with
  | zero => exact ⟨rfl, rfl⟩
  | succ bound => simp [run, same]

/-- With large enough bounds, a search with these visited states and this stack reports the records and
ends as given. -/
def Ends (transitions : Value → Successors Result) (visited : ValueSet) (stack records : List Record)
    (ending : Ending) : Prop :=
  ∃ bound, ∀ more popped,
    (run transitions (more + bound) { visited, stack, popped }).records = records ∧
      (run transitions (more + bound) { visited, stack, popped }).ending = ending

namespace Ends

variable {visited : ValueSet} {stack records : List Record} {record : Record} {ending : Ending}

theorem nil (visited : ValueSet) : Ends transitions visited [] [] .exhausted :=
  ⟨1, fun _ _ => ⟨rfl, rfl⟩⟩

theorem dropped (hashable : record.state.requireHashable = .ok ())
    (seen : record.state.isIn visited.members = true)
    (ends : Ends transitions visited stack records ending) :
    Ends transitions visited (record :: stack) records ending := by
  rcases ends with ⟨bound, ends⟩
  refine ⟨bound, fun more popped => ?_⟩
  have same : next transitions { visited, stack := record :: stack, popped } =
      next transitions { visited, stack, popped := popped + 1 } := by
    simp [next, pop, hashable, ValueSet.has_eq, seen]
  rcases run_congr_next same (more + bound) with ⟨records_eq, ending_eq⟩
  rw [records_eq, ending_eq]
  exact ends more (popped + 1)

theorem unhashable {fault : Fault} (unhashable : record.state.requireHashable = .error fault)
    (visited : ValueSet) (stack : List Record) :
    Ends transitions visited (record :: stack) [] (.failed fault) := by
  refine ⟨1, fun more popped => ?_⟩
  simp [run, next, pop, unhashable]

theorem reported {children : List Record} (hashable : record.state.requireHashable = .ok ())
    (fresh : record.state.isIn visited.members = false)
    (expanded : expand transitions record = .ok children)
    (ends : Ends transitions (visited.insert record.state) (children ++ stack) records ending) :
    Ends transitions visited (record :: stack) (record :: records) ending := by
  rcases ends with ⟨bound, ends⟩
  refine ⟨bound + 1, fun more popped => ?_⟩
  have advances : next transitions { visited, stack := record :: stack, popped } =
      .reported record
        { visited := visited.insert record.state
          stack
          awaiting := some record
          popped := popped + 1 } := by
    simp [next, pop, hashable, ValueSet.has_eq, fresh]
  have same : next transitions
        { visited := visited.insert record.state
          stack
          awaiting := some record
          popped := popped + 1 } =
      next transitions
        { visited := visited.insert record.state, stack := children ++ stack, popped := popped + 1 } := by
    simp [next, expanded]
  rcases run_congr_next same (more + bound) with ⟨records_eq, ending_eq⟩
  rcases ends more (popped + 1) with ⟨rest_records, rest_ending⟩
  rw [← Nat.add_assoc, run_of_reported advances]
  simp [records_eq, ending_eq, rest_records, rest_ending]

end Ends

/-- A part of the recursion that went from one progress to another corresponds to using up a part of the
stack. After a fault nothing more is reported, and otherwise what is below the part comes next. -/
def Simulates (transitions : Value → Successors Result) (stack : List Record) (before : Progress)
    (result : Result Unit) (after : Progress) : Prop :=
  ∃ emitted, after.records = before.records ++ emitted ∧
    ∀ visited : ValueSet, visited.members = before.visited →
      match result with
      | .error fault => ∀ below, Ends transitions visited (stack ++ below) emitted (.failed fault)
      | .ok () => ∃ visited' : ValueSet, visited'.members = after.visited ∧
          ∀ below records ending, Ends transitions visited' below records ending →
            Ends transitions visited (stack ++ below) (emitted ++ records) ending

namespace Simulates

variable {stack children : List Record} {record : Record} {before middle after : Progress}
  {result : Result Unit} {fault : Fault}

theorem nil (progress : Progress) : Simulates transitions [] progress (.ok ()) progress :=
  ⟨[], by simp, fun visited members_eq => ⟨visited, members_eq, fun _ _ _ ends => ends⟩⟩

/-- What is below a part that was used up is used up next. -/
theorem append (first : Simulates transitions stack before (.ok ()) middle)
    (rest : Simulates transitions children middle result after) :
    Simulates transitions (stack ++ children) before result after := by
  rcases first with ⟨emitted, records_eq, firstSimulated⟩
  rcases rest with ⟨emitted', records_eq', restSimulated⟩
  refine ⟨emitted ++ emitted', by rw [records_eq', records_eq, List.append_assoc], ?_⟩
  intro visited members_eq
  rcases firstSimulated visited members_eq with ⟨visited', members_eq', through⟩
  cases result with
  | error fault =>
      intro below
      rw [List.append_assoc]
      exact through _ _ _ (restSimulated visited' members_eq' below)
  | ok _ =>
      rcases restSimulated visited' members_eq' with ⟨visited'', members_eq'', through'⟩
      refine ⟨visited'', members_eq'', fun below rest ending ends => ?_⟩
      rw [List.append_assoc, List.append_assoc]
      exact through _ _ _ (through' below rest ending ends)

/-- A fresh record is used up once its successors are, which take its place. -/
theorem reported (hashable : record.state.requireHashable = .ok ())
    (fresh : record.state.isIn before.visited = false)
    (expanded : expand transitions record = .ok children)
    (simulated : Simulates transitions children (before.report record) result after) :
    Simulates transitions [record] before result after := by
  rcases simulated with ⟨emitted, records_eq, simulated⟩
  refine ⟨record :: emitted, by simp [records_eq, Progress.report], ?_⟩
  intro visited members_eq
  have fresh' : record.state.isIn visited.members = false := by rw [members_eq, fresh]
  have inserted : (visited.insert record.state).members = (before.report record).visited := by
    simp [Progress.report, members_eq]
  cases result with
  | error fault =>
      intro below
      exact .reported hashable fresh' expanded (simulated _ inserted below)
  | ok _ =>
      rcases simulated _ inserted with ⟨visited', members_eq', through⟩
      refine ⟨visited', members_eq', fun below records ending ends => ?_⟩
      exact .reported hashable fresh' expanded (through below records ending ends)

end Simulates

end Search

end StateSpace
