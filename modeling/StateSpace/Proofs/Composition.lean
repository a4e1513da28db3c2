import StateSpace.Proofs.PathAlgebra
import StateSpace.Proofs.TableSystem

/-!
# Valid paths in parts

Whether a path is valid is found out step by step, from the state before each step. Where two paths are
joined, the second goes on from the last state of the first, while on its own it goes on from its head,
which need only equal that state. In a well-formed system this makes no difference: equal states are left
by equal transitions, so a path is valid exactly if its parts are, each from where it starts. This is asked
of the states of the system only, and the parts of a valid path visit no others.
-/

namespace StateSpace

namespace TransitionSystem

/-- The system that starts in a given state. -/
def startingIn (system : TransitionSystem Result) (state : Value) : TransitionSystem Result :=
  { system with initialStates := [state] }

variable {system : TransitionSystem Result}

theorem followsFrom_startingIn (state current : Value) (steps : List Step) :
    Path.followsFrom (system.startingIn state) current steps = Path.followsFrom system current steps := by
  induction steps generalizing current with
  | nil => rfl
  | cons step steps ih =>
      simp only [Path.followsFrom, ih]
      rfl

theorem isValidIn_startingIn_iff {path : Path} :
    path.isValidIn (system.startingIn path.head) = .ok true ↔
      Path.followsFrom system path.head path.steps = .ok true := by
  have starts : path.head.isIn (system.startingIn path.head).initialStates = true :=
    Value.isIn_of_mem (List.mem_singleton_self _)
  rw [Path.isValidIn_iff, and_iff_right starts, followsFrom_startingIn]

theorem isValidIn_take {path : Path} (valid : path.isValidIn system = .ok true) (count : Nat) :
    (Path.listed path.head (path.steps.take count)).isValidIn system = .ok true := by
  rw [Path.isValidIn_iff] at valid ⊢
  rcases valid with ⟨initial, follows⟩
  rw [← List.take_append_drop count path.steps, Path.followsFrom_append_iff] at follows
  rw [Path.steps_listed]
  exact ⟨initial, follows.1⟩

namespace WellFormed

theorem has_congr (wellFormed : system.WellFormed) {current other : Value} {step step' : Step}
    (hasState : system.HasState current) (equal : (current == other) = true)
    (same : (step == step') = true) (has : (system.transitions current).has step.toPair = .ok true) :
    (system.transitions other).has step'.toPair = .ok true := by
  rcases Step.beq_iff.mp same with ⟨sameAction, sameState⟩
  rcases (wellFormed.has_iff hasState).mp has with ⟨pairs, listed, pair, pair_mem, toAction, toState⟩
  rcases List.mem_iff_getElem?.mp pair_mem with ⟨position, found⟩
  rcases wellFormed.transition_congr hasState equal listed found with
    ⟨others, pair', listed', found', actions_equal, targets_equal⟩
  refine (wellFormed.has_iff (hasState.congr equal)).mpr
    ⟨others, listed', pair', List.mem_of_getElem? found', ?_, ?_⟩
  · exact BEq.trans (BEq.symm actions_equal) (BEq.trans toAction sameAction)
  · exact BEq.trans (BEq.symm targets_equal) (BEq.trans toState sameState)

theorem hasState_step (wellFormed : system.WellFormed) {current : Value} {step : Step}
    (hasState : system.HasState current)
    (has : (system.transitions current).has step.toPair = .ok true) : system.HasState step.state := by
  rcases (wellFormed.has_iff hasState).mp has with ⟨pairs, listed, pair, pair_mem, _, equal⟩
  exact (wellFormed.hasState_target hasState listed pair_mem).congr equal

theorem followsFrom_congr (wellFormed : system.WellFormed) {current other : Value}
    {steps steps' : List Step} (hasState : system.HasState current)
    (equal : (current == other) = true) (same : (steps == steps') = true)
    (follows : Path.followsFrom system current steps = .ok true) :
    Path.followsFrom system other steps' = .ok true := by
  rw [Step.beq_list_iff] at same
  induction same generalizing current other with
  | nil => rfl
  | @cons step step' steps steps' first _ ih =>
      rw [Path.followsFrom_cons_iff] at follows ⊢
      refine ⟨wellFormed.has_congr hasState equal first follows.1, ?_⟩
      exact ih (wellFormed.hasState_step hasState follows.1) (Step.beq_iff.mp first).2 follows.2

theorem exists_followsFrom (wellFormed : system.WellFormed) {current : Value}
    (hasState : system.HasState current) (steps : List Step) :
    ∃ follows, Path.followsFrom system current steps = .ok follows := by
  induction steps generalizing current with
  | nil => exact ⟨true, rfl⟩
  | cons step steps ih =>
      rcases wellFormed.listed hasState with ⟨pairs, listed⟩
      cases taken : step.toPair.isIn (pairs.map fun pair => .pair pair.1 pair.2) with
      | false => exact ⟨false, by simp [Path.followsFrom, Successors.has_of_toList listed, taken]⟩
      | true =>
          have has : (system.transitions current).has step.toPair = .ok true := by
            rw [Successors.has_of_toList listed, taken]
          rcases ih (wellFormed.hasState_step hasState has) with ⟨follows, follows_eq⟩
          exact ⟨follows, by simp [Path.followsFrom, has, follows_eq]⟩

/-- Every path is valid or not: to find out does not fail. -/
theorem exists_isValidIn (wellFormed : system.WellFormed) (path : Path) :
    ∃ valid, path.isValidIn system = .ok valid := by
  cases initial : path.head.isIn system.initialStates with
  | false => exact ⟨false, by simp [Path.isValidIn, initial]⟩
  | true =>
      rcases Value.isIn_iff.mp initial with ⟨state, state_mem, equal⟩
      rcases wellFormed.exists_followsFrom ⟨state, .initial state_mem, equal⟩ path.steps with
        ⟨follows, follows_eq⟩
      exact ⟨follows, by simp [Path.isValidIn, initial, follows_eq]⟩

theorem isValidIn_congr (wellFormed : system.WellFormed) {path other : Path}
    (same : (path == other) = true) (valid : path.isValidIn system = .ok true) :
    other.isValidIn system = .ok true := by
  rw [Path.isValidIn_iff] at valid ⊢
  rw [Path.beq_iff] at same
  rcases valid with ⟨initial, follows⟩
  rcases Value.isIn_iff.mp initial with ⟨state, state_mem, equal⟩
  refine ⟨Value.isIn_iff.mpr ⟨state, state_mem, BEq.trans equal same.1⟩, ?_⟩
  exact wellFormed.followsFrom_congr ⟨state, .initial state_mem, equal⟩ same.1 same.2 follows

/-- A joined path is valid if its first part is and its second part is one from its own head. -/
theorem isValidIn_concat_iff (wellFormed : system.WellFormed) {path other joined : Path}
    (defined : path.concat other = .ok joined) :
    joined.isValidIn system = .ok true ↔
      path.isValidIn system = .ok true ∧
        other.isValidIn (system.startingIn other.head) = .ok true := by
  rcases Path.concat_eq_ok_iff.mp defined with ⟨meets, rfl⟩
  have parts : (path.join other).isValidIn system = .ok true ↔
      path.isValidIn system = .ok true ∧ Path.followsFrom system path.last other.steps = .ok true := by
    rw [Path.isValidIn_iff, Path.isValidIn_iff, Path.head_join, Path.steps_join,
      Path.followsFrom_append_iff, Path.last_listed, and_assoc]
  rw [parts, isValidIn_startingIn_iff]
  refine and_congr_right fun valid => ?_
  -- the second part goes on from a state of the system, under two names that are equal
  have hasLast := wellFormed.hasState_last valid
  constructor
  · exact wellFormed.followsFrom_congr hasLast (BEq.symm meets) BEq.rfl
  · exact wellFormed.followsFrom_congr (hasLast.congr (BEq.symm meets)) meets BEq.rfl

theorem isValidIn_extend_iff_isIn (wellFormed : system.WellFormed) {path : Path} {action state : Value} :
    (path.extend action state).isValidIn system = .ok true ↔
      path.isValidIn system = .ok true ∧ ∃ items, (system.transitions path.last).toList = .ok items ∧
        (Value.pair action state).isIn items = true := by
  rw [Path.isValidIn_extend_iff]
  refine and_congr_right fun valid => ?_
  rcases wellFormed.listed (wellFormed.hasState_last valid) with ⟨pairs, listed⟩
  rw [Successors.has_of_toList listed, listed]
  simp

end WellFormed

/-- Validity composes. Every path is found to be valid or not. A joined path is valid exactly if the first
path is and the second is in the system that starts in its head. In particular a path with one more step
is valid exactly if the path is and the step equals a transition of its last state, and what equals a
beginning of a valid path is valid. -/
theorem isValidIn_composes (wellFormed : system.WellFormed) :
    (∀ path : Path, ∃ valid, path.isValidIn system = .ok valid) ∧
    (∀ path other joined : Path, path.concat other = .ok joined →
      (joined.isValidIn system = .ok true ↔
        path.isValidIn system = .ok true ∧
          other.isValidIn (system.startingIn other.head) = .ok true)) ∧
    (∀ (path : Path) (action state : Value),
      (path.extend action state).isValidIn system = .ok true ↔
        path.isValidIn system = .ok true ∧ ∃ items, (system.transitions path.last).toList = .ok items ∧
          (Value.pair action state).isIn items = true) ∧
    ∀ (path beginning : Path) (count : Nat), path.isValidIn system = .ok true →
      (Path.listed path.head (path.steps.take count) == beginning) = true →
        beginning.isValidIn system = .ok true := by
  refine ⟨wellFormed.exists_isValidIn, fun path other joined => wellFormed.isValidIn_concat_iff,
    fun path action state => wellFormed.isValidIn_extend_iff_isIn, ?_⟩
  intro path beginning count valid same
  exact wellFormed.isValidIn_congr same (isValidIn_take valid count)

/-- In a merging system, a path into a truth value and a path from the number that equals it are valid
together, as both are on their own. -/
theorem isValidIn_composes_merging :
    merging.WellFormed ∧
      (Path.listed (.int 0) [⟨.str "set", .bool true⟩]).concat
          (Path.listed (.int 1) [⟨.str "up", .int 2⟩, ⟨.str "stay", .int 2⟩]) =
        .ok (Path.listed (.int 0)
          [⟨.str "set", .bool true⟩, ⟨.str "up", .int 2⟩, ⟨.str "stay", .int 2⟩]) ∧
      (Path.listed (.int 0)
        [⟨.str "set", .bool true⟩, ⟨.str "up", .int 2⟩, ⟨.str "stay", .int 2⟩]).isValidIn merging =
          .ok true ∧
      (Path.listed (.bool false) [⟨.str "set", .int 1⟩]).isValidIn merging = .ok true := by
  have wellFormed := merging_wellLabelled.toWellFormed
  rcases isValidIn_composes wellFormed with ⟨_, joins, _, begins⟩
  have valid := (joins (Path.listed (.int 0) [⟨.str "set", .bool true⟩])
    (Path.listed (.int 1) [⟨.str "up", .int 2⟩, ⟨.str "stay", .int 2⟩]) _ rfl).mpr ⟨rfl, rfl⟩
  exact ⟨wellFormed, rfl, valid, begins _ _ 1 valid rfl⟩

end TransitionSystem

end StateSpace
