import StateSpace.Proofs.Check
import StateSpace.Proofs.Search.Positions
import StateSpace.Proofs.Search.StateCount

/-!
# The tree of witnesses

The path of a record is the path of the record it was found from, with one more step. That record was
reported before, and its own path was found in the same way. So the paths of a search form a tree whose
nodes are the reported records: the beginnings of a reported path are paths of records, and these were
reported one after the other, from the shortest to the longest.

A record stays on the stack while other records are reported. What it descends from was reported when it
was put there, and records that are reported later come after that, so the invariant needs nothing about
the rounds in between. No two states of a path are equal, which bounds the length of a counterexample by
the number of reachable states.
-/

namespace StateSpace

namespace Path

theorem length_states (path : Path) : path.states.length = path.length + 1 := by
  simp [states, length_eq]

theorem getElem?_length_states (path : Path) : path.states[path.length]? = some path.last := by
  rw [last_eq, length_eq, states]
  cases steps_eq : path.steps.reverse with
  | nil => simp [List.reverse_eq_nil_iff.mp steps_eq]
  | cons step others => simp [List.reverse_eq_cons_iff.mp steps_eq]

/-- A record of a state on a path, with the path up to that state. -/
structure Begins (path : Path) (count : Nat) (record : Record) : Prop where
  state_eq : path.states[count]? = some record.state
  head_eq : record.path.head = path.head
  steps_eq : record.path.steps = path.steps.take count

/-- The records of all states of a path but the last, each with the path up to its state. -/
structure DescendsFrom (path : Path) (ancestors : List Record) : Prop where
  length_eq : ancestors.length = path.length
  begins : ∀ count ancestor, ancestors[count]? = some ancestor → path.Begins count ancestor

theorem descendsFrom_single (state : Value) : (single state).DescendsFrom [] where
  length_eq := rfl
  begins := by simp

theorem begins_self {record : Record} (last_eq : record.path.last = record.state) :
    record.path.Begins record.path.length record where
  state_eq := by rw [getElem?_length_states, last_eq]
  head_eq := rfl
  steps_eq := by rw [length_eq, List.take_length]

/-- What begins a path begins the path with one more step. -/
theorem Begins.extend {path : Path} {count : Nat} {record : Record} (begins : path.Begins count record)
    (action state : Value) : (path.extend action state).Begins count record := by
  have within : count < path.states.length := (List.getElem?_eq_some_iff.mp begins.state_eq).1
  refine ⟨?_, begins.head_eq, ?_⟩
  · rw [states_extend, List.getElem?_append_left within, begins.state_eq]
  · rw [length_states, length_eq] at within
    rw [begins.steps_eq, Path.extend, steps_extended, List.take_append_of_le_length (by omega)]

/-- A path with one more step descends from what the path descends from and from the record of the path. -/
theorem DescendsFrom.extend {record : Record} {ancestors : List Record}
    (descends : record.path.DescendsFrom ancestors) (last_eq : record.path.last = record.state)
    (action state : Value) : (record.path.extend action state).DescendsFrom (ancestors ++ [record]) := by
  refine ⟨by simp [descends.length_eq, Path.extend, length], ?_⟩
  intro count ancestor found
  by_cases within : count < ancestors.length
  · rw [List.getElem?_append_left within] at found
    exact (descends.begins count ancestor found).extend action state
  · have bounded := (List.getElem?_eq_some_iff.mp found).1
    rw [List.length_append, List.length_singleton] at bounded
    have count_eq : count = ancestors.length := by omega
    rw [count_eq, List.getElem?_concat_length, Option.some.injEq] at found
    rw [count_eq, ← found, descends.length_eq]
    exact (begins_self last_eq).extend action state

end Path

namespace TransitionSystem

variable {system : TransitionSystem Result}

namespace Explores

/-- A reported record was on the stack after the rounds that reported the records before it. -/
theorem exists_before {reported pending : List Placed} (explores : system.Explores reported pending)
    {earlier later : List Placed} {placed : Placed} (split : reported = earlier ++ placed :: later) :
    ∃ pending', system.Explores earlier pending' ∧ placed ∈ pending' := by
  induction explores generalizing later with
  | start => simp at split
  | @round reported dropped rest source pairs before _ _ _ ih =>
      rcases List.eq_nil_or_concat later with rfl | ⟨others, last, rfl⟩
      · rcases List.append_singleton_inj.mp split with ⟨rfl, rfl⟩
        exact ⟨_, before, by simp⟩
      · rw [List.concat_eq_append, ← List.cons_append, ← List.append_assoc] at split
        exact ih (List.append_singleton_inj.mp split).1

/-- A record on the stack descends from reported records, in the order in which they were reported. -/
theorem descends {reported pending : List Placed} (explores : system.Explores reported pending)
    {placed : Placed} (placed_mem : placed ∈ pending) :
    ∃ ancestors, ancestors.Sublist (reported.map Placed.toRecord) ∧
      placed.path.DescendsFrom ancestors := by
  induction explores generalizing placed with
  | start =>
      rcases mem_starts_iff.mp placed_mem with ⟨_, state, _, rfl⟩
      exact ⟨[], List.Sublist.refl _, Path.descendsFrom_single state⟩
  | @round reported dropped rest source pairs before _ _ _ ih =>
      rw [List.map_append]
      rcases List.mem_append.mp placed_mem with successor_mem | below
      · rcases Placed.mem_successors_iff.mp successor_mem with ⟨_, pair, _, rfl⟩
        have source_mem : source ∈ dropped ++ source :: rest := by simp
        have last_eq := (before.isAt (List.mem_append_right reported source_mem)).1
        rcases ih source_mem with ⟨ancestors, sublist, descends⟩
        exact ⟨ancestors ++ [source.toRecord], sublist.append (List.Sublist.refl _),
          descends.extend last_eq pair.1 pair.2⟩
      · rcases ih (List.mem_append_right _ (List.mem_cons_of_mem _ below)) with ⟨ancestors, sublist, descends⟩
        exact ⟨ancestors, sublist.trans (List.sublist_append_left _ _), descends⟩

end Explores

/-- A path that a search reports is no longer than the number of states allows. -/
theorem length_path_lt_stateCount (wellFormed : system.WellFormed) {bound : Nat} {record : Record}
    (record_mem : record ∈ (system.explore bound).records) :
    (record.path.length : ℕ∞) + 1 ≤ system.stateCount := by
  rcases exists_placed wellFormed record_mem with ⟨reported, pending, placed, explores, placed_mem, rfl⟩
  rcases explores.simple placed_mem with ⟨distinct, visited⟩
  have counted := length_le_stateCount distinct fun state state_mem => by
    rcases List.mem_map.mp (visited state_mem) with ⟨other, other_mem, rfl⟩
    exact explores.reachable (List.mem_append_left _ other_mem)
  rw [Path.length_states] at counted
  exact_mod_cast counted

/-- The paths of a search form a tree. The states of a reported path are pairwise unequal, and each of its
proper beginnings is the path of a record reported before, the shorter ones first. So a counterexample has
fewer steps than the system has states. -/
theorem explore_tree (wellFormed : system.WellFormed) :
    (∀ bound earlier record later, (system.explore bound).records = earlier ++ record :: later →
      Value.Distinct record.path.states ∧
      ∃ ancestors : List Record, ancestors.Sublist earlier ∧ ancestors.length = record.path.length ∧
        ∀ count ancestor, ancestors[count]? = some ancestor →
          record.path.states[count]? = some ancestor.state ∧
          ancestor.path.head = record.path.head ∧
          ancestor.path.steps = record.path.steps.take count) ∧
    ∀ (property : Property Result) bound counterexample checked,
      system.check property bound = .ok (.violated counterexample checked) →
        (counterexample.path.length : ℕ∞) + 1 ≤ system.stateCount := by
  constructor
  · intro bound earlier record later records_split
    rcases explore_stage wellFormed bound with ⟨_, reported, pending, records_eq, stage, _⟩
    rw [← records_eq] at records_split
    rcases List.map_eq_append_iff.mp records_split with ⟨before, others, split, rfl, others_eq⟩
    rcases List.map_eq_cons_iff.mp others_eq with ⟨placed, after, rfl, rfl, rfl⟩
    rcases stage.explores.exists_before split with ⟨pending', explores, placed_mem⟩
    rcases explores.descends placed_mem with ⟨ancestors, sublist, descends⟩
    refine ⟨(stage.explores.simple (by simp [split])).1, ancestors, sublist, descends.length_eq, ?_⟩
    intro count ancestor found
    have begins := descends.begins count ancestor found
    exact ⟨begins.state_eq, begins.head_eq, begins.steps_eq⟩
  · intro property bound counterexample checked violated
    rw [check_eq] at violated
    rcases judge_violated violated with ⟨earlier, later, records_eq, _⟩
    exact @length_path_lt_stateCount system wellFormed bound
      ⟨counterexample.state, counterexample.path⟩ (by simp [records_eq])

/-- The last path of a merging system has two steps. The two records before it have its beginnings, and as
it is a counterexample, the system has three states. -/
theorem explore_tree_merging :
    merging.WellFormed ∧
      (∃ first second third, (merging.explore 3).records = [first, second] ++ [third] ∧
        third.path.length = 2 ∧ first.path.steps = third.path.steps.take 0 ∧
        second.path.steps = third.path.steps.take 1) ∧
      3 ≤ merging.stateCount := by
  have tree := explore_tree merging_wellLabelled.toWellFormed
  refine ⟨merging_wellLabelled.toWellFormed, ?_, ?_⟩
  · refine ⟨_, _, _, rfl, rfl, ?_⟩
    rcases (tree.1 3 [_, _] _ [] rfl).2 with ⟨ancestors, sublist, length_eq, begins⟩
    have all := sublist.eq_of_length length_eq
    exact ⟨(begins 0 _ (by rw [all]; rfl)).2.2, (begins 1 _ (by rw [all]; rfl)).2.2⟩
  · exact tree.2 isLow 3
      ⟨.int 2, ((Path.single (.int 0)).extend (.str "up") (.int 1)).extend (.str "up") (.int 2)⟩ 3 rfl

end TransitionSystem

end StateSpace
