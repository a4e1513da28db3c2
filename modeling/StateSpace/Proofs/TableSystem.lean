import StateSpace.Proofs.Reachability
import StateSpace.Proofs.Table

/-!
# Systems given by tables

A system given by tables asks them for each state, and a table answers alike for equal states. So such a
system is well formed as soon as its initial states and the targets of its transitions may be keys, and
its reachable states are among those finitely many values.
-/

namespace StateSpace

namespace Successors

@[simp]
theorem toList_atOnce (items : Result (List Value)) : (atOnce items).toList = items := by
  cases items with
  | error fault => rfl
  | ok items => simp [toList, atOnce, collect]

/-- To ask whether a pair is among transitions that are produced together, all of them are produced. -/
theorem toList_of_has_atOnce {items : Result (List Value)} {pair : Value} {found : Bool}
    (has_eq : (atOnce items).has pair = .ok found) : ∃ listed, items = .ok listed := by
  cases items with
  | error fault => cases has_eq
  | ok listed => exact ⟨listed, rfl⟩

end Successors

namespace TransitionSystem

/-- A table of transitions that are pairs and lead into states that may be keys. -/
def LeadsToKeys (edges : Table (List Value)) : Prop :=
  ∀ entry ∈ edges, ∀ item ∈ entry.2, ∃ action target, item = .pair action target ∧ target.IsHashable

/-- The targets of the transitions of a table. -/
def targets (edges : Table (List Value)) : List Value :=
  edges.flatMap fun entry => entry.2.filterMap fun item =>
    match item.asPair with
    | .ok pair => some pair.2
    | .error _ => none

variable {initialStates : List Value} {labels edges : Table (List Value)}
  {system : TransitionSystem Result}

theorem ofTable_cases (built : ofTable initialStates labels edges = .ok system) :
    ∃ labelTable : Table Label, system =
      { initialStates
        label := fun state => do pure ((← labelTable.lookup state).getD (.set []))
        transitions := fun state => .atOnce do pure ((← edges.lookup state).getD []) } := by
  simp only [ofTable, Result.bind_eq_ok_iff, Result.pure_eq_ok, Except.ok.injEq] at built
  rcases built with ⟨labelTable, _, rfl⟩
  exact ⟨labelTable, rfl⟩

theorem toList_ofTable (built : ofTable initialStates labels edges = .ok system) {state : Value}
    (hashable : state.IsHashable) :
    (system.transitions state).toList = .ok ((edges.find? state).getD []) := by
  rcases ofTable_cases built with ⟨labelTable, rfl⟩
  simp [Table.lookup_of_isHashable hashable]

/-- What a table lists for a state is pairs that lead into targets of the table. -/
theorem LeadsToKeys.exists_pairs (leads : LeadsToKeys edges) (state : Value) :
    ∃ pairs : List (Value × Value),
      (edges.find? state).getD [] = pairs.map (fun pair => .pair pair.1 pair.2) ∧
        ∀ pair ∈ pairs, pair.2.IsHashable ∧ pair.2 ∈ targets edges := by
  cases found : edges.find? state with
  | none => exact ⟨[], rfl, by simp⟩
  | some items =>
      rcases Table.mem_of_find? found with ⟨present, entry_mem, _⟩
      have pairOf : ∀ item ∈ items, ∃ pair : Value × Value, item = .pair pair.1 pair.2 ∧
          pair.2.IsHashable ∧ pair.2 ∈ targets edges := by
        intro item item_mem
        rcases leads (present, items) entry_mem item item_mem with ⟨action, target, rfl, hashable⟩
        refine ⟨(action, target), rfl, hashable, ?_⟩
        exact List.mem_flatMap.mpr ⟨(present, items), entry_mem,
          List.mem_filterMap.mpr ⟨_, item_mem, rfl⟩⟩
      clear found entry_mem
      induction items with
      | nil => exact ⟨[], rfl, by simp⟩
      | cons item items ih =>
          rcases pairOf item (by simp) with ⟨pair, rfl, fits⟩
          rcases ih fun item item_mem => pairOf item (List.mem_cons_of_mem _ item_mem) with
            ⟨pairs, items_eq, allFit⟩
          refine ⟨pair :: pairs, ?_, List.forall_mem_cons.mpr ⟨fits, allFit⟩⟩
          simpa using items_eq

/-- The states of a system given by tables may be keys, and equal its initial states or the targets of
its transitions. -/
theorem hashable_of_ofTable (built : ofTable initialStates labels edges = .ok system)
    (initial_hashable : ∀ state ∈ initialStates, state.IsHashable) (leads : LeadsToKeys edges)
    {state : Value} (reachable : system.Reachable state) :
    state.IsHashable ∧ state ∈ initialStates ++ targets edges := by
  have initial_eq : system.initialStates = initialStates := by
    rcases ofTable_cases built with ⟨labelTable, rfl⟩
    rfl
  induction reachable with
  | initial mem =>
      rw [initial_eq] at mem
      exact ⟨initial_hashable _ mem, List.mem_append_left _ mem⟩
  | @step state action target pairs source listed mem ih =>
      rcases leads.exists_pairs state with ⟨pairs', items_eq, fits⟩
      have listed' : system.Lists state pairs' := by
        rw [Lists, toList_ofTable built ih.1, items_eq]
      rw [listed.unique listed'] at mem
      exact ⟨(fits _ mem).1, List.mem_append_right _ (fits _ mem).2⟩

/-- A system given by tables is well formed if its states may be keys. -/
theorem wellFormed_of_ofTable (built : ofTable initialStates labels edges = .ok system)
    (initial_hashable : ∀ state ∈ initialStates, state.IsHashable) (leads : LeadsToKeys edges) :
    system.WellFormed := by
  have hashable : ∀ {state : Value}, system.HasState state → state.IsHashable := by
    rintro state ⟨reached, reachable, equal⟩
    exact (hashable_of_ofTable built initial_hashable leads reachable).1.of_beq equal
  refine ⟨hashable, ?_, ?_⟩
  · intro state hasState
    rcases leads.exists_pairs state with ⟨pairs, items_eq, _⟩
    exact ⟨pairs, by rw [Lists, toList_ofTable built (hashable hasState), items_eq]⟩
  · intro state other items others hasState equal listed listed'
    rw [toList_ofTable built (hashable hasState), Except.ok.injEq] at listed
    rw [toList_ofTable built (hashable (hasState.congr equal)), Except.ok.injEq] at listed'
    rw [← listed, ← listed', Table.find?_congr equal]
    exact BEq.rfl

/-- Equal states have the same label in a system given by tables. -/
theorem wellLabelled_of_ofTable (built : ofTable initialStates labels edges = .ok system)
    (initial_hashable : ∀ state ∈ initialStates, state.IsHashable) (leads : LeadsToKeys edges) :
    system.WellLabelled := by
  have wellFormed := wellFormed_of_ofTable built initial_hashable leads
  rcases ofTable_cases built with ⟨labelTable, label_eq⟩
  have label_of : ∀ {state : Value}, system.HasState state →
      system.label state = .ok ((labelTable.find? state).getD (.set [])) := by
    intro state hasState
    rw [label_eq]
    simp [Table.lookup_of_isHashable (wellFormed.hashable hasState)]
  refine ⟨wellFormed, fun hasState => ⟨_, label_of hasState⟩, ?_⟩
  intro state other label label' hasState equal labelled labelled'
  rw [label_of hasState, Except.ok.injEq] at labelled
  rw [label_of (hasState.congr equal), Except.ok.injEq] at labelled'
  rw [← labelled, ← labelled', Table.find?_congr equal]
  exact BEq.rfl

theorem finitelyReachable_of_ofTable (built : ofTable initialStates labels edges = .ok system)
    (initial_hashable : ∀ state ∈ initialStates, state.IsHashable) (leads : LeadsToKeys edges) :
    system.FinitelyReachable :=
  ⟨initialStates ++ targets edges, fun _ reachable =>
    Value.isIn_of_mem (hashable_of_ofTable built initial_hashable leads reachable).2⟩

/-- Transitions between three numbers, two of which are also truth values. There are parallel transitions
into equal states, a cycle and a loop. -/
def mergingEdges : Table (List Value) :=
  [(.int 0, [.pair (.str "up") (.int 1), .pair (.str "set") (.bool true), .pair (.str "jump") (.int 2)]),
    (.int 1, [.pair (.str "reset") (.bool false), .pair (.str "up") (.int 2)]),
    (.int 2, [.pair (.str "stay") (.int 2)])]

/-- A system in which equal states of different kinds merge. -/
def merging : TransitionSystem Result where
  initialStates := [.int 0, .bool false, .int 1]
  label state := do
    pure ((← Table.lookup [(.int 0, .set [.str "low"]), (.bool true, .set [.str "low"])] state).getD
      (.set []))
  transitions state := .atOnce do pure ((← mergingEdges.lookup state).getD [])

theorem ofTable_merging :
    ofTable [.int 0, .bool false, .int 1] [(.int 0, [.str "low"]), (.bool true, [.str "low"])]
      mergingEdges = .ok merging :=
  rfl

theorem mergingEdges_leadsToKeys : LeadsToKeys mergingEdges := by
  simp [LeadsToKeys, mergingEdges, Value.pair, Value.IsHashable, and_assoc]

theorem merging_wellLabelled : merging.WellLabelled :=
  wellLabelled_of_ofTable ofTable_merging (by simp [Value.IsHashable]) mergingEdges_leadsToKeys

theorem merging_finitelyReachable : merging.FinitelyReachable :=
  finitelyReachable_of_ofTable ofTable_merging (by simp [Value.IsHashable]) mergingEdges_leadsToKeys

end TransitionSystem

end StateSpace
