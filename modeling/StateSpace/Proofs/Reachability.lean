import StateSpace.TransitionSystem
import StateSpace.Proofs.Membership
import StateSpace.Proofs.Outcome

/-!
# Reachable states

The states of a system are those that its transitions lead to from the initial states. A system is
well formed if its transitions can be listed in each of its states, as pairs, if its states may be
keys, and if equal states have equal transitions. All of this is asked of the reachable states and of
the values that equal them, and of no other value: a function of states need not be defined elsewhere.

The main result is that the valid paths of a well-formed system end in exactly its states.
-/

namespace StateSpace

namespace Successors

/-- Where all transitions can be listed, a pair is among them if the list holds it. -/
theorem has_of_toList {successors : Successors Result} {items : List Value}
    (listed : successors.toList = .ok items) (pair : Value) :
    successors.has pair = .ok (pair.isIn items) := by
  rcases successors with ⟨stages⟩
  simp only [toList, has] at listed ⊢
  induction stages generalizing items with
  | nil =>
      cases listed
      rfl
  | cons stage stages ih =>
      simp only [collect, Result.bind_eq_ok_iff, Result.pure_eq_ok, Except.ok.injEq] at listed
      rcases listed with ⟨first, rfl, others, rest, rfl⟩
      rw [Value.isIn_append]
      cases found : pair.isIn first <;> simp [searchStages, ih rest, found]

end Successors

namespace TransitionSystem

/-- The pairs are the transitions that leave a state, in order. -/
def Lists (system : TransitionSystem Result) (state : Value) (pairs : List (Value × Value)) : Prop :=
  (system.transitions state).toList = .ok (pairs.map fun pair => .pair pair.1 pair.2)

/-- The closure of the initial states under the transitions. -/
inductive Reachable (system : TransitionSystem Result) : Value → Prop where
  | initial {state : Value} (mem : state ∈ system.initialStates) : Reachable system state
  | step {state action target : Value} {pairs : List (Value × Value)}
      (source : Reachable system state) (listed : system.Lists state pairs)
      (mem : (action, target) ∈ pairs) : Reachable system target

/-- A value that equals a reachable state. -/
def HasState (system : TransitionSystem Result) (state : Value) : Prop :=
  ∃ reached, system.Reachable reached ∧ (reached == state) = true

/-- A system whose states may be keys and have transitions that can be listed as pairs, equal states
having equal transitions. -/
structure WellFormed (system : TransitionSystem Result) : Prop where
  hashable : ∀ {state : Value}, system.HasState state → state.IsHashable
  listed : ∀ {state : Value}, system.HasState state → ∃ pairs, system.Lists state pairs
  congruent : ∀ {state other : Value} {items others : List Value}, system.HasState state →
    (state == other) = true → (system.transitions state).toList = .ok items →
      (system.transitions other).toList = .ok others → (Value.list items == .list others) = true

/-- A well-formed system whose states have labels, equal states having equal labels. -/
structure WellLabelled (system : TransitionSystem Result) : Prop extends WellFormed system where
  labelled : ∀ {state : Value}, system.HasState state → ∃ label, system.label state = .ok label
  labels_congruent : ∀ {state other : Value} {label label' : Label}, system.HasState state →
    (state == other) = true → system.label state = .ok label → system.label other = .ok label' →
      (label.toValue == label'.toValue) = true

/-- Up to equality, the reachable states are among finitely many values. -/
def FinitelyReachable (system : TransitionSystem Result) : Prop :=
  ∃ cover : List Value, ∀ state, system.Reachable state → state.isIn cover = true

variable {system : TransitionSystem Result}

theorem Reachable.hasState {state : Value} (reachable : system.Reachable state) :
    system.HasState state :=
  ⟨state, reachable, BEq.rfl⟩

theorem HasState.congr {state other : Value} (hasState : system.HasState state)
    (equal : (state == other) = true) : system.HasState other := by
  rcases hasState with ⟨reached, reachable, reached_equal⟩
  exact ⟨reached, reachable, BEq.trans reached_equal equal⟩

theorem Lists.unique {state : Value} {pairs others : List (Value × Value)}
    (listed : system.Lists state pairs) (listed' : system.Lists state others) : pairs = others := by
  rw [Lists, listed', Except.ok.injEq] at listed
  refine ((List.map_inj_right ?_).mp listed).symm
  rintro ⟨action, target⟩ ⟨action', target'⟩ same
  simpa [Value.pair] using same

namespace WellFormed

/-- Equal states list equal pairs at each position. -/
theorem getElem?_congr (wellFormed : system.WellFormed) {state other : Value}
    {pairs others : List (Value × Value)} (hasState : system.HasState state)
    (equal : (state == other) = true) (listed : system.Lists state pairs)
    (listed' : system.Lists other others) {position : Nat} {pair : Value × Value}
    (found : pairs[position]? = some pair) :
    ∃ pair', others[position]? = some pair' ∧
      (pair.1 == pair'.1) = true ∧ (pair.2 == pair'.2) = true := by
  have same := wellFormed.congruent hasState equal listed listed'
  have foundItem : (pairs.map fun pair => Value.pair pair.1 pair.2)[position]? =
      some (.pair pair.1 pair.2) := by
    simp [found]
  rcases Value.getElem?_of_beq_list same foundItem with ⟨item, item_found, item_equal⟩
  rw [List.getElem?_map, Option.map_eq_some_iff] at item_found
  rcases item_found with ⟨pair', pair_found, rfl⟩
  exact ⟨pair', pair_found, Value.beq_pair_iff.mp item_equal⟩

/-- A transition of a state has an equal one, at the same position, in every equal state. -/
theorem transition_congr (wellFormed : system.WellFormed) {state other : Value}
    {pairs : List (Value × Value)} (hasState : system.HasState state)
    (equal : (state == other) = true) (listed : system.Lists state pairs) {position : Nat}
    {pair : Value × Value} (found : pairs[position]? = some pair) :
    ∃ others pair', system.Lists other others ∧ others[position]? = some pair' ∧
      (pair.1 == pair'.1) = true ∧ (pair.2 == pair'.2) = true := by
  rcases wellFormed.listed (hasState.congr equal) with ⟨others, listed'⟩
  exact ⟨others, (wellFormed.getElem?_congr hasState equal listed listed' found).imp fun _ equals =>
    ⟨listed', equals⟩⟩

theorem has_iff (wellFormed : system.WellFormed) {state : Value} (hasState : system.HasState state)
    {action target : Value} :
    (system.transitions state).has (.pair action target) = .ok true ↔
      ∃ pairs, system.Lists state pairs ∧ ∃ pair ∈ pairs,
        (pair.1 == action) = true ∧ (pair.2 == target) = true := by
  rcases wellFormed.listed hasState with ⟨pairs, listed⟩
  rw [Successors.has_of_toList listed, Except.ok.injEq, Value.isIn_iff]
  constructor
  · rintro ⟨item, item_mem, equal⟩
    rcases List.mem_map.mp item_mem with ⟨pair, pair_mem, rfl⟩
    exact ⟨pairs, listed, pair, pair_mem, Value.beq_pair_iff.mp equal⟩
  · rintro ⟨others, listed', pair, pair_mem, equal⟩
    rw [listed'.unique listed] at pair_mem
    exact ⟨_, List.mem_map_of_mem pair_mem, Value.beq_pair_iff.mpr equal⟩

/-- A state of a system is left only into states of the system. -/
theorem hasState_target (wellFormed : system.WellFormed) {state : Value}
    {pairs : List (Value × Value)} (hasState : system.HasState state)
    (listed : system.Lists state pairs) {pair : Value × Value} (pair_mem : pair ∈ pairs) :
    system.HasState pair.2 := by
  rcases hasState with ⟨reached, reachable, equal⟩
  rcases List.mem_iff_getElem?.mp pair_mem with ⟨position, found⟩
  rcases wellFormed.transition_congr (reachable.hasState.congr equal) (BEq.symm equal) listed found with
    ⟨reachedPairs, pair', reachedListed, found', _, equal'⟩
  exact ⟨pair'.2, reachable.step reachedListed (List.mem_of_getElem? found'), BEq.symm equal'⟩

end WellFormed

end TransitionSystem

namespace Path

variable {system : TransitionSystem Result}

theorem last_listed (path : Path) : (listed path.head path.steps).last = path.last := by
  rw [last_eq path, last_eq, steps_listed, head]

theorem last_listed_cons (current : Value) (step : Step) (steps : List Step) :
    (listed current (step :: steps)).last = (listed step.state steps).last := by
  cases steps with
  | nil => rfl
  | cons next steps => simp [last_eq, List.getLast?_cons]

theorem followsFrom_cons_iff {current : Value} {step : Step} {steps : List Step} :
    followsFrom system current (step :: steps) = .ok true ↔
      (system.transitions current).has step.toPair = .ok true ∧
        followsFrom system step.state steps = .ok true := by
  cases found : (system.transitions current).has step.toPair with
  | error fault => simp [followsFrom, found]
  | ok flag => cases flag <;> simp [followsFrom, found]

theorem followsFrom_append_iff {current : Value} {steps further : List Step} :
    followsFrom system current (steps ++ further) = .ok true ↔
      followsFrom system current steps = .ok true ∧
        followsFrom system (listed current steps).last further = .ok true := by
  induction steps generalizing current with
  | nil => simp [followsFrom, last]
  | cons step steps ih =>
      rw [List.cons_append, followsFrom_cons_iff, followsFrom_cons_iff, ih, last_listed_cons, and_assoc]

theorem isValidIn_iff {path : Path} :
    path.isValidIn system = .ok true ↔
      path.head.isIn system.initialStates = true ∧
        followsFrom system path.head path.steps = .ok true := by
  cases found : path.head.isIn system.initialStates <;>
    simp [isValidIn, found]

/-- A path with one more step is valid if the path is and the step leaves its last state. -/
theorem isValidIn_extend_iff {path : Path} {action state : Value} :
    (path.extend action state).isValidIn system = .ok true ↔
      path.isValidIn system = .ok true ∧
        (system.transitions path.last).has (.pair action state) = .ok true := by
  rw [isValidIn_iff, isValidIn_iff, extend, steps_extended, head, followsFrom_append_iff, last_listed,
    followsFrom_cons_iff, and_assoc]
  simp [followsFrom, Step.toPair]

end Path

namespace TransitionSystem

variable {system : TransitionSystem Result}

namespace WellFormed

theorem hasState_of_followsFrom (wellFormed : system.WellFormed) {current : Value}
    {steps : List Step} (hasState : system.HasState current)
    (follows : Path.followsFrom system current steps = .ok true) :
    system.HasState (Path.listed current steps).last := by
  induction steps generalizing current with
  | nil => exact hasState
  | cons step steps ih =>
      rw [Path.followsFrom_cons_iff] at follows
      rcases (wellFormed.has_iff hasState).mp follows.1 with ⟨pairs, listed, pair, pair_mem, _, equal⟩
      rw [Path.last_listed_cons]
      exact ih ((wellFormed.hasState_target hasState listed pair_mem).congr equal) follows.2

/-- The last state of a valid path is a state of the system. -/
theorem hasState_last (wellFormed : system.WellFormed) {path : Path}
    (valid : path.isValidIn system = .ok true) : system.HasState path.last := by
  rw [Path.isValidIn_iff] at valid
  rcases Value.isIn_iff.mp valid.1 with ⟨initial, initial_mem, equal⟩
  rw [← Path.last_listed]
  exact wellFormed.hasState_of_followsFrom ⟨initial, .initial initial_mem, equal⟩ valid.2

/-- Some valid path ends in each reachable state. -/
theorem exists_valid_path (wellFormed : system.WellFormed) {state : Value}
    (reachable : system.Reachable state) :
    ∃ path : Path, path.isValidIn system = .ok true ∧ path.last = state := by
  induction reachable with
  | @initial state mem =>
      refine ⟨.single state, Path.isValidIn_iff.mpr ⟨Value.isIn_of_mem mem, ?_⟩, rfl⟩
      simp [Path.single, Path.followsFrom]
  | @step state action target pairs source listed mem ih =>
      rcases ih with ⟨path, valid, rfl⟩
      refine ⟨path.extend action target, Path.isValidIn_extend_iff.mpr ⟨valid, ?_⟩, rfl⟩
      exact (wellFormed.has_iff source.hasState).mpr
        ⟨pairs, listed, (action, target), mem, BEq.rfl, BEq.rfl⟩

/-- The valid paths end in exactly the states of the system. -/
theorem hasState_iff_exists_path (wellFormed : system.WellFormed) {state : Value} :
    system.HasState state ↔
      ∃ path : Path, path.isValidIn system = .ok true ∧ (path.last == state) = true := by
  constructor
  · rintro ⟨reached, reachable, equal⟩
    rcases wellFormed.exists_valid_path reachable with ⟨path, valid, rfl⟩
    exact ⟨path, valid, equal⟩
  · rintro ⟨path, valid, equal⟩
    exact (wellFormed.hasState_last valid).congr equal

end WellFormed

end TransitionSystem

end StateSpace
