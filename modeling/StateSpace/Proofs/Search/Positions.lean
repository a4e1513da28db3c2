import Mathlib.Data.List.Induction
import Mathlib.Data.List.Lex
import StateSpace.Proofs.Search.Exactness

/-!
# The order of the reported paths

A path is encoded by the positions of its choices: the position of its head among the initial states,
then, for each step, the position of the chosen transition in the state before it. The search reports
each state with a path that visits no state twice, and no path of this kind into an equal state has
lexicographically smaller positions.

The argument follows a path from its head. Each of its states was reported with positions no greater
than those of the path up to there, or something smaller than the rest of the path is still on the
stack. A reported record never has positions that properly begin those of a path without repetitions
into the same state, so that both can be continued by the same choice.
-/

namespace StateSpace

namespace Positions

/-- All positions that begin with the first ones are below the second ones. -/
def Precedes (positions others : List Nat) : Prop :=
  ∀ further, positions ++ further < others

theorem Precedes.lt {positions others : List Nat} (precedes : Precedes positions others) :
    positions < others := by
  simpa using precedes []

theorem Precedes.append {positions others : List Nat} (precedes : Precedes positions others)
    (more : List Nat) : Precedes (positions ++ more) others := by
  intro further
  rw [List.append_assoc]
  exact precedes (more ++ further)

theorem precedes_sibling (positions : List Nat) {first second : Nat} (less : first < second) :
    Precedes (positions ++ [first]) (positions ++ [second]) := by
  intro further
  rw [List.append_assoc]
  exact List.append_left_lt (List.cons_lt_cons_iff.mpr (.inl less))

theorem precedes_of_lt {positions others : List Nat} (less : positions < others)
    (apart : ¬ positions <+: others) : Precedes positions others := by
  induction positions generalizing others with
  | nil => exact absurd List.nil_prefix apart
  | cons first positions ih =>
      cases others with
      | nil => exact absurd less (List.not_lt_nil _)
      | cons first' others =>
          intro further
          rcases List.cons_lt_cons_iff.mp less with first_less | ⟨rfl, rest_less⟩
          · exact List.cons_lt_cons_iff.mpr (.inl first_less)
          · rw [List.cons_prefix_cons] at apart
            exact List.cons_lt_cons_iff.mpr (.inr ⟨rfl, ih rest_less (by simpa using apart) further⟩)

theorem lt_concat (positions : List Nat) (position : Nat) : positions < positions ++ [position] := by
  simpa using @List.append_left_lt Nat _ positions [] [position] (List.nil_lt_cons _ _)

/-- Positions that do not properly begin others keep their order when both are continued. -/
theorem concat_le_concat {positions others : List Nat} (le : positions ≤ others)
    (apart : positions <+: others → positions = others) (position : Nat) :
    positions ++ [position] ≤ others ++ [position] := by
  by_cases begins : positions <+: others
  · rw [apart begins]
  · have less : positions < others := lt_of_le_of_ne le (fun same => begins (same ▸ List.prefix_rfl))
    exact ((precedes_of_lt less begins [position]).trans (lt_concat others position)).le

end Positions

/-- The position of the transition that a step follows from a state. -/
def Step.IsAt (system : TransitionSystem Result) (current : Value) (step : Step) (position : Nat) :
    Prop :=
  ∃ pairs pair, system.Lists current pairs ∧ pairs[position]? = some pair ∧
    (pair.1 == step.action) = true ∧ (pair.2 == step.state) = true

namespace Path

/-- The positions of the transitions that steps follow, each from the state before it. -/
def FollowsAt (system : TransitionSystem Result) : Value → List Step → List Nat → Prop
  | _, [], [] => True
  | current, step :: steps, position :: positions =>
      step.IsAt system current position ∧ FollowsAt system step.state steps positions
  | _, _, _ => False

/-- The positions of a path: that of its head among the initial states, then those of its steps. -/
def IsAt (system : TransitionSystem Result) (path : Path) : List Nat → Prop
  | [] => False
  | position :: positions =>
      (∃ initial, system.initialStates[position]? = some initial ∧ (initial == path.head) = true) ∧
        FollowsAt system path.head path.steps positions

variable {system : TransitionSystem Result}

theorem followsAt_nil_iff {current : Value} {steps : List Step} :
    FollowsAt system current steps [] ↔ steps = [] := by
  cases steps <;> simp [FollowsAt]

theorem followsAt_cons_iff {current : Value} {steps : List Step} {position : Nat}
    {positions : List Nat} :
    FollowsAt system current steps (position :: positions) ↔
      ∃ step rest, steps = step :: rest ∧ step.IsAt system current position ∧
        FollowsAt system step.state rest positions := by
  cases steps <;> simp [FollowsAt]

theorem followsAt_append_iff {current : Value} {steps : List Step} {positions further : List Nat} :
    FollowsAt system current steps (positions ++ further) ↔
      ∃ before after, steps = before ++ after ∧ FollowsAt system current before positions ∧
        FollowsAt system (listed current before).last after further := by
  induction positions generalizing current steps with
  | nil =>
      constructor
      · intro follows
        exact ⟨[], steps, rfl, trivial, follows⟩
      · rintro ⟨before, after, rfl, follows, rest⟩
        rw [followsAt_nil_iff] at follows
        rw [follows] at rest ⊢
        exact rest
  | cons position positions ih =>
      constructor
      · intro follows
        rcases followsAt_cons_iff.mp follows with ⟨step, rest, rfl, isAt, follows⟩
        rcases ih.mp follows with ⟨before, after, rfl, followsBefore, followsAfter⟩
        refine ⟨step :: before, after, rfl, ⟨isAt, followsBefore⟩, ?_⟩
        rwa [last_listed_cons]
      · rintro ⟨_, after, rfl, follows, followsAfter⟩
        rcases followsAt_cons_iff.mp follows with ⟨step, before, rfl, isAt, followsBefore⟩
        rw [last_listed_cons] at followsAfter
        exact ⟨isAt, ih.mpr ⟨before, after, rfl, followsBefore, followsAfter⟩⟩

theorem followsAt_singleton_iff {current : Value} {steps : List Step} {position : Nat} :
    FollowsAt system current steps [position] ↔
      ∃ step, steps = [step] ∧ step.IsAt system current position := by
  simp [followsAt_cons_iff, followsAt_nil_iff, and_comm]

theorem isAt_iff {path : Path} {positions : List Nat} :
    path.IsAt system positions ↔
      ∃ position rest initial, positions = position :: rest ∧
        system.initialStates[position]? = some initial ∧ (initial == path.head) = true ∧
        FollowsAt system path.head path.steps rest := by
  cases positions <;> simp [IsAt, ← exists_and_right, and_assoc]

/-- A path with one more step is at positions with one more position. -/
theorem IsAt.extend {path : Path} {positions : List Nat} (isAt : path.IsAt system positions)
    {action state : Value} {position : Nat}
    (stepAt : Step.IsAt system path.last ⟨action, state⟩ position) :
    (path.extend action state).IsAt system (positions ++ [position]) := by
  rcases isAt_iff.mp isAt with ⟨first, rest, initial, rfl, found, equal, follows⟩
  refine isAt_iff.mpr ⟨first, rest ++ [position], initial, rfl, found, equal, ?_⟩
  rw [Path.extend, steps_extended, followsAt_append_iff]
  refine ⟨path.steps, [⟨action, state⟩], rfl, follows, ?_⟩
  rw [head, last_listed]
  exact followsAt_singleton_iff.mpr ⟨_, rfl, stepAt⟩

/-- Positions that begin those of a path are positions of the path up to there. -/
theorem IsAt.take {head : Value} {steps : List Step} {positions further : List Nat}
    (isAt : (listed head steps).IsAt system (positions ++ further)) (nonempty : positions ≠ []) :
    ∃ before after, steps = before ++ after ∧ (listed head before).IsAt system positions ∧
      FollowsAt system (listed head before).last after further := by
  cases positions with
  | nil => exact absurd rfl nonempty
  | cons first positions =>
      rcases isAt with ⟨initial, follows⟩
      rw [steps_listed] at follows
      rcases followsAt_append_iff.mp follows with ⟨before, after, rfl, followsBefore, rest⟩
      exact ⟨before, after, rfl, ⟨initial, by rwa [steps_listed]⟩, rest⟩

theorem states_listed_append (head : Value) (before after : List Step) :
    (listed head (before ++ after)).states = (listed head before).states ++ after.map Step.state := by
  simp [states, Path.head]

theorem states_extend (path : Path) (action state : Value) :
    (path.extend action state).states = path.states ++ [state] := by
  simp [states, extend, Path.head]

theorem last_listed_concat (head : Value) (steps : List Step) (step : Step) :
    (listed head (steps ++ [step])).last = step.state := by
  simp [last]

theorem last_mem_states (path : Path) : path.last ∈ path.states := by
  rw [last_eq, states]
  cases found : path.steps.getLast? with
  | none => simp
  | some step => simpa using .inr ⟨step, List.mem_of_getLast? found, rfl⟩

/-- A path that visits no state twice is back in an earlier state only if it has gone no further. -/
theorem eq_nil_of_distinct {head : Value} {before after : List Step}
    (distinct : Value.Distinct (listed head (before ++ after)).states)
    (equal : ((listed head before).last == (listed head (before ++ after)).last) = true) :
    after = [] := by
  rcases List.eq_nil_or_concat after with rfl | ⟨between, step, rfl⟩
  · rfl
  · rw [List.concat_eq_append, ← List.append_assoc] at distinct equal
    rw [states_listed_append, List.map_singleton, Value.distinct_concat, states_listed_append,
      Value.isIn_append, Bool.or_eq_false_iff] at distinct
    rw [last_listed_concat] at equal
    have found : step.state.isIn (listed head before).states = true :=
      Value.isIn_iff.mpr ⟨_, last_mem_states _, equal⟩
    rw [distinct.2.1] at found
    cases found

end Path

namespace TransitionSystem

variable {system : TransitionSystem Result}

namespace WellFormed

theorem has_toPair_iff (wellFormed : system.WellFormed) {current : Value}
    (hasState : system.HasState current) {step : Step} :
    (system.transitions current).has step.toPair = .ok true ↔
      ∃ position, step.IsAt system current position := by
  rw [Step.toPair, wellFormed.has_iff hasState]
  constructor
  · rintro ⟨pairs, listed, pair, pair_mem, equal⟩
    rcases List.mem_iff_getElem?.mp pair_mem with ⟨position, found⟩
    exact ⟨position, pairs, pair, listed, found, equal⟩
  · rintro ⟨position, pairs, pair, listed, found, equal⟩
    exact ⟨pairs, listed, pair, List.mem_of_getElem? found, equal⟩

theorem hasState_of_isAt (wellFormed : system.WellFormed) {current : Value} {step : Step}
    {position : Nat} (hasState : system.HasState current)
    (isAt : step.IsAt system current position) : system.HasState step.state := by
  rcases isAt with ⟨pairs, pair, listed, found, _, equal⟩
  exact (wellFormed.hasState_target hasState listed (List.mem_of_getElem? found)).congr equal

/-- The same choice in equal states leads to equal states. -/
theorem isAt_congr (wellFormed : system.WellFormed) {current other : Value} {step step' : Step}
    {position : Nat} (hasState : system.HasState current) (equal : (current == other) = true)
    (isAt : step.IsAt system current position) (isAt' : step'.IsAt system other position) :
    (step.state == step'.state) = true := by
  rcases isAt with ⟨pairs, pair, listed, found, _, reaches⟩
  rcases isAt' with ⟨others, other', listed', found', _, reaches'⟩
  rcases wellFormed.getElem?_congr hasState equal listed listed' found with
    ⟨match', match_found, _, targets_equal⟩
  rw [found', Option.some.injEq] at match_found
  rw [← match_found] at targets_equal
  exact BEq.trans (BEq.symm reaches) (BEq.trans targets_equal reaches')

theorem followsFrom_iff_exists_positions (wellFormed : system.WellFormed) {current : Value}
    (hasState : system.HasState current) {steps : List Step} :
    Path.followsFrom system current steps = .ok true ↔
      ∃ positions, Path.FollowsAt system current steps positions := by
  induction steps generalizing current with
  | nil =>
      refine ⟨fun _ => ⟨[], trivial⟩, fun _ => ?_⟩
      simp [Path.followsFrom]
  | cons step steps ih =>
      rw [Path.followsFrom_cons_iff, wellFormed.has_toPair_iff hasState]
      constructor
      · rintro ⟨⟨position, isAt⟩, follows⟩
        rcases (ih (wellFormed.hasState_of_isAt hasState isAt)).mp follows with ⟨positions, followsAt⟩
        exact ⟨position :: positions, isAt, followsAt⟩
      · rintro ⟨positions, followsAt⟩
        cases positions with
        | nil => exact followsAt.elim
        | cons position positions =>
            refine ⟨⟨position, followsAt.1⟩, ?_⟩
            exact (ih (wellFormed.hasState_of_isAt hasState followsAt.1)).mpr ⟨positions, followsAt.2⟩

theorem hasState_head {path : Path} {positions : List Nat} (isAt : path.IsAt system positions) :
    system.HasState path.head := by
  rcases Path.isAt_iff.mp isAt with ⟨position, rest, initial, _, found, equal, _⟩
  exact ⟨initial, .initial (List.mem_of_getElem? found), equal⟩

/-- The paths that have positions are the valid ones. -/
theorem isValidIn_iff_exists_positions (wellFormed : system.WellFormed) {path : Path} :
    path.isValidIn system = .ok true ↔ ∃ positions, path.IsAt system positions := by
  rw [Path.isValidIn_iff, Value.isIn_iff]
  constructor
  · rintro ⟨⟨initial, initial_mem, equal⟩, follows⟩
    have hasState : system.HasState path.head := ⟨initial, .initial initial_mem, equal⟩
    rcases (wellFormed.followsFrom_iff_exists_positions hasState).mp follows with
      ⟨positions, followsAt⟩
    rcases List.mem_iff_getElem?.mp initial_mem with ⟨position, found⟩
    exact ⟨position :: positions, ⟨initial, found, equal⟩, followsAt⟩
  · rintro ⟨positions, isAt⟩
    rcases Path.isAt_iff.mp isAt with ⟨position, rest, initial, _, found, equal, follows⟩
    refine ⟨⟨initial, List.mem_of_getElem? found, equal⟩, ?_⟩
    exact (wellFormed.followsFrom_iff_exists_positions (hasState_head isAt)).mpr ⟨rest, follows⟩

theorem last_congr_of_followsAt (wellFormed : system.WellFormed) {current other : Value}
    {steps steps' : List Step} {positions : List Nat} (hasState : system.HasState current)
    (equal : (current == other) = true) (follows : Path.FollowsAt system current steps positions)
    (follows' : Path.FollowsAt system other steps' positions) :
    ((Path.listed current steps).last == (Path.listed other steps').last) = true := by
  induction positions generalizing current other steps steps' with
  | nil =>
      rw [Path.followsAt_nil_iff] at follows follows'
      rw [follows, follows']
      exact equal
  | cons position positions ih =>
      rcases Path.followsAt_cons_iff.mp follows with ⟨step, rest, rfl, isAt, follows⟩
      rcases Path.followsAt_cons_iff.mp follows' with ⟨step', rest', rfl, isAt', follows'⟩
      rw [Path.last_listed_cons, Path.last_listed_cons]
      exact ih (wellFormed.hasState_of_isAt hasState isAt)
        (wellFormed.isAt_congr hasState equal isAt isAt') follows follows'

/-- Paths at the same positions end in equal states. -/
theorem last_congr (wellFormed : system.WellFormed) {path other : Path} {positions : List Nat}
    (isAt : path.IsAt system positions) (isAt' : other.IsAt system positions) :
    (path.last == other.last) = true := by
  rcases Path.isAt_iff.mp isAt with ⟨position, rest, initial, rfl, found, equal, follows⟩
  rcases isAt' with ⟨⟨initial', found', equal'⟩, follows'⟩
  rw [found, Option.some.injEq] at found'
  rw [← found'] at equal'
  rw [← Path.last_listed path, ← Path.last_listed other]
  exact wellFormed.last_congr_of_followsAt (hasState_head isAt) (BEq.trans (BEq.symm equal) equal')
    follows follows'

end WellFormed

theorem pairwise_precedes {α : Type} (items : List α) {place : Nat → α → Placed}
    {positions : List Nat}
    (place_positions : ∀ position item, (place position item).positions = positions ++ [position]) :
    (items.mapIdx place).Pairwise fun placed later =>
      Positions.Precedes placed.positions later.positions := by
  rw [List.pairwise_iff_getElem]
  intro first second _ _ less
  simp only [List.getElem_mapIdx, place_positions]
  exact Positions.precedes_sibling positions less

namespace Explores

/-- The positions on the stack ascend, and are above all reported ones. -/
theorem ordered {reported pending : List Placed} (explores : system.Explores reported pending) :
    (∀ earlier ∈ reported, ∀ later ∈ pending, earlier.positions < later.positions) ∧
      pending.Pairwise fun placed later =>
        Positions.Precedes placed.positions later.positions := by
  induction explores with
  | start => exact ⟨by simp, @pairwise_precedes _ _ _ [] fun _ _ => rfl⟩
  | @round reported dropped rest source pairs _ _ _ _ ih =>
      rcases ih with ⟨below, sorted⟩
      rcases List.pairwise_cons.mp (List.pairwise_append.mp sorted).2.1 with
        ⟨source_precedes, rest_sorted⟩
      refine ⟨?_, List.pairwise_append.mpr ⟨pairwise_precedes _ fun _ _ => rfl, rest_sorted, ?_⟩⟩
      · intro earlier earlier_mem later later_mem
        have le_source : earlier.positions ≤ source.positions := by
          rcases List.mem_append.mp earlier_mem with old | same
          · exact (below earlier old source (by simp)).le
          · rw [List.mem_singleton.mp same]
        rcases List.mem_append.mp later_mem with successor_mem | rest_mem
        · rcases Placed.mem_successors_iff.mp successor_mem with ⟨position, pair, _, rfl⟩
          exact lt_of_le_of_lt le_source (Positions.lt_concat source.positions position)
        · exact lt_of_le_of_lt le_source (source_precedes later rest_mem).lt
      · intro successor successor_mem later later_mem
        rcases Placed.mem_successors_iff.mp successor_mem with ⟨position, pair, _, rfl⟩
        exact (source_precedes later later_mem).append [position]

/-- Every record has a path at its positions. -/
theorem isAt {reported pending : List Placed} (explores : system.Explores reported pending)
    {placed : Placed} (placed_mem : placed ∈ reported ++ pending) :
    placed.path.last = placed.state ∧ placed.path.IsAt system placed.positions := by
  refine explores.forall_record
    (fun placed => placed.path.last = placed.state ∧ placed.path.IsAt system placed.positions)
    ?_ ?_ placed_mem
  · intro placed start_mem
    rcases mem_starts_iff.mp start_mem with ⟨position, state, found, rfl⟩
    exact ⟨rfl, ⟨state, found, BEq.rfl⟩, trivial⟩
  · rintro source pairs ⟨last_eq, isAt⟩ listed successor successor_mem
    rcases Placed.mem_successors_iff.mp successor_mem with ⟨position, pair, found, rfl⟩
    rw [← last_eq] at listed
    exact ⟨rfl, isAt.extend ⟨pairs, pair, listed, found, BEq.rfl, BEq.rfl⟩⟩

/-- A reported path visits pairwise unequal states, all of them reported. -/
theorem simple {reported pending : List Placed} (explores : system.Explores reported pending)
    {placed : Placed} (placed_mem : placed ∈ reported) :
    Value.Distinct placed.path.states ∧ placed.path.states ⊆ Placed.states reported := by
  induction explores generalizing placed with
  | start => simp at placed_mem
  | @round reported dropped rest source pairs earlier _ fresh _ ih =>
      rw [Placed.states_append]
      rcases List.mem_append.mp placed_mem with old | same
      · exact ⟨(ih old).1, List.subset_append_of_subset_left _ (ih old).2⟩
      · rw [List.mem_singleton.mp same]
        have source_mem : source ∈ reported ++ (dropped ++ source :: rest) := by simp
        rcases earlier.generates source_mem with
          start_mem | ⟨origin, origin_mem, _, _, successor_mem⟩
        · rcases mem_starts_iff.mp start_mem with ⟨position, state, _, rfl⟩
          exact ⟨List.pairwise_singleton _ _, List.subset_append_right _ _⟩
        · rcases ih origin_mem with ⟨distinct, visited⟩
          rcases Placed.mem_successors_iff.mp successor_mem with ⟨position, pair, _, rfl⟩
          rw [Path.states_extend]
          refine ⟨Value.distinct_concat.mpr ⟨distinct, ?_⟩, ?_⟩
          · refine Bool.eq_false_iff.mpr fun found => ?_
            rw [Value.isIn_mono visited found] at fresh
            cases fresh
          · exact List.append_subset.mpr ⟨List.subset_append_of_subset_left _ visited,
              List.subset_append_right _ _⟩

/-- A record that was put on the stack is still there, or a record of its state with no greater
positions was reported. -/
theorem pending_or_reported_le {reported pending : List Placed}
    (explores : system.Explores reported pending) {placed : Placed}
    (generated : system.Generates reported placed) :
    placed ∈ pending ∨ ∃ earlier ∈ reported,
      (earlier.state == placed.state) = true ∧ earlier.positions ≤ placed.positions :=
  explores.pending_or_reported (fun earlier later => earlier.positions ≤ later.positions)
    (fun _ => le_rfl)
    (fun explores earlier earlier_mem later later_mem =>
      (explores.ordered.1 earlier earlier_mem later later_mem).le)
    generated

/-- The positions of a reported record do not properly begin those of a path that visits no state twice
and ends in a state equal to the record's. -/
theorem positions_eq_of_prefix (wellFormed : system.WellFormed) {reported pending : List Placed}
    (explores : system.Explores reported pending) {placed : Placed} (placed_mem : placed ∈ reported)
    {head : Value} {steps : List Step} {positions : List Nat}
    (isAt : (Path.listed head steps).IsAt system positions)
    (distinct : Value.Distinct (Path.listed head steps).states)
    (equal : (placed.state == (Path.listed head steps).last) = true)
    (begins : placed.positions <+: positions) : placed.positions = positions := by
  rcases explores.isAt (List.mem_append_left _ placed_mem) with ⟨last_eq, placedAt⟩
  rcases begins with ⟨further, rfl⟩
  have nonempty : placed.positions ≠ [] := by
    intro none
    rw [none] at placedAt
    exact placedAt.elim
  -- the path was already in an equal state when it was at the positions of the record
  rcases isAt.take nonempty with ⟨before, after, rfl, beforeAt, follows⟩
  have back := wellFormed.last_congr beforeAt placedAt
  rw [last_eq] at back
  rw [Path.eq_nil_of_distinct distinct (BEq.trans back equal)] at follows
  cases further with
  | nil => rw [List.append_nil]
  | cons _ _ => exact follows.elim

/-- A path that visits no state twice ends in a state that was reported with no greater positions,
unless a record with no greater positions is still on the stack. -/
theorem reported_or_pending_of_isAt (wellFormed : system.WellFormed) {reported pending : List Placed}
    (explores : system.Explores reported pending) {head : Value} {steps : List Step} {position : Nat}
    {positions : List Nat} (isAt : (Path.listed head steps).IsAt system (position :: positions))
    (distinct : Value.Distinct (Path.listed head steps).states) :
    (∃ earlier ∈ reported, (earlier.state == (Path.listed head steps).last) = true ∧
        earlier.positions ≤ position :: positions) ∨
      ∃ later ∈ pending, later.positions ≤ position :: positions := by
  induction positions using List.reverseRecOn generalizing steps with
  | nil =>
      rcases isAt with ⟨⟨initial, found, initial_equal⟩, follows⟩
      rw [Path.steps_listed] at follows
      rw [Path.followsAt_nil_iff.mp follows]
      rcases explores.pending_or_reported_le
        (.inl (mem_starts_iff.mpr ⟨position, initial, found, rfl⟩)) with
        pending_mem | ⟨first, first_mem, first_equal, le⟩
      · exact .inr ⟨_, pending_mem, le_rfl⟩
      · exact .inl ⟨first, first_mem, BEq.trans first_equal initial_equal, le⟩
  | append_singleton positions choice ih =>
      rw [← List.cons_append] at isAt ⊢
      rcases isAt.take (List.cons_ne_nil _ _) with ⟨before, after, rfl, beforeAt, follows⟩
      rcases Path.followsAt_singleton_iff.mp follows with
        ⟨step, rfl, pairs, pair, listed, found, _, reaches⟩
      rw [Path.states_listed_append, List.map_singleton, Value.distinct_concat] at distinct
      rw [Path.last_listed_concat]
      rcases ih beforeAt distinct.1 with ⟨earlier, earlier_mem, equal, le⟩ | ⟨later, later_mem, le⟩
      · -- the record of the state before is continued by the choice that continues the path
        have hasState := (explores.hasState wellFormed (List.mem_append_left _ earlier_mem)).congr equal
        rcases wellFormed.transition_congr hasState (BEq.symm equal) listed found with
          ⟨others, other, listed', found', _, targets_equal⟩
        have continued_le := Positions.concat_le_concat le
          (explores.positions_eq_of_prefix wellFormed earlier_mem beforeAt distinct.1 equal) choice
        rcases explores.pending_or_reported_le (.inr ⟨earlier, earlier_mem, others, listed',
          Placed.mem_successors_iff.mpr ⟨choice, other, found', rfl⟩⟩) with
          pending_mem | ⟨first, first_mem, first_equal, first_le⟩
        · exact .inr ⟨_, pending_mem, continued_le⟩
        · refine .inl ⟨first, first_mem, ?_, first_le.trans continued_le⟩
          exact BEq.trans first_equal (BEq.trans (BEq.symm targets_equal) reaches)
      · exact .inr ⟨later, later_mem, le.trans (Positions.lt_concat _ _).le⟩

/-- No path that visits no state twice comes to the state of a reported record by smaller positions. -/
theorem positions_le (wellFormed : system.WellFormed) {reported pending : List Placed}
    (explores : system.Explores reported pending) {placed : Placed} (placed_mem : placed ∈ reported)
    {path : Path} {positions : List Nat} (distinct : Value.Distinct path.states)
    (equal : (path.last == placed.state) = true) (isAt : path.IsAt system positions) :
    placed.positions ≤ positions := by
  cases positions with
  | nil => exact isAt.elim
  | cons position positions =>
      have listedAt : (Path.listed path.head path.steps).IsAt system (position :: positions) := by
        simpa [Path.IsAt, Path.head] using isAt
      have listedDistinct : Value.Distinct (Path.listed path.head path.steps).states := by
        simpa [Path.states, Path.head] using distinct
      rcases explores.reported_or_pending_of_isAt wellFormed listedAt listedDistinct with
        ⟨earlier, earlier_mem, earlier_equal, le⟩ | ⟨later, later_mem, le⟩
      · rw [Path.last_listed] at earlier_equal
        rwa [← explores.distinct.eq_of_beq earlier_mem placed_mem (BEq.trans earlier_equal equal)]
      · exact (explores.ordered.1 placed placed_mem later later_mem).le.trans le

end Explores

/-- The path that is reported with a state is the least one. It visits no state twice, and the positions
it was found by are lexicographically no greater than those of any path of the system that visits no
state twice and ends in an equal state. -/
theorem explore_path_least (wellFormed : system.WellFormed) :
    (∀ path : Path,
      path.isValidIn system = .ok true ↔ ∃ positions, path.IsAt system positions) ∧
    ∀ bound, ∃ reported pending, system.Explores reported pending ∧
      reported.map Placed.toRecord = (system.explore bound).records ∧
      ∀ placed ∈ reported,
        Value.Distinct placed.path.states ∧ placed.path.IsAt system placed.positions ∧
        ∀ (path : Path) (positions : List Nat), Value.Distinct path.states →
          (path.last == placed.state) = true → path.IsAt system positions →
            placed.positions ≤ positions := by
  refine ⟨fun _ => wellFormed.isValidIn_iff_exists_positions, ?_⟩
  intro bound
  rcases explore_stage wellFormed bound with ⟨_, reported, pending, records_eq, stage, _⟩
  refine ⟨reported, pending, stage.explores, records_eq, ?_⟩
  intro placed placed_mem
  refine ⟨(stage.explores.simple placed_mem).1,
    (stage.explores.isAt (List.mem_append_left _ placed_mem)).2, ?_⟩
  intro path positions distinct equal isAt
  exact stage.explores.positions_le wellFormed placed_mem distinct equal isAt

theorem merging_jump_isAt :
    (Path.listed (.int 0) [⟨.str "jump", .int 2⟩]).IsAt merging [0, 2] := by
  refine ⟨⟨.int 0, rfl, rfl⟩, ⟨[(.str "up", .int 1), (.str "set", .bool true), (.str "jump", .int 2)],
    (.str "jump", .int 2), rfl, rfl, rfl, rfl⟩, trivial⟩

/-- The last state of a merging system is reported with a path of two steps: its positions are smaller
than those of the single jump that leads there. -/
theorem explore_path_least_merging :
    merging.WellFormed ∧
      ∃ reported pending, merging.Explores reported pending ∧
        reported.map Placed.toRecord = (merging.explore 3).records ∧
        ∃ placed ∈ reported, placed.state = .int 2 ∧ placed.path.length = 2 ∧
          placed.positions ≤ [0, 2] := by
  refine ⟨merging_wellLabelled.toWellFormed, ?_⟩
  rcases (explore_path_least merging_wellLabelled.toWellFormed).2 3 with
    ⟨reported, pending, explores, records_eq, least⟩
  have third : (reported.map Placed.toRecord)[2]? =
      some ⟨.int 2, ((Path.single (.int 0)).extend (.str "up") (.int 1)).extend (.str "up") (.int 2)⟩ := by
    rw [records_eq]
    rfl
  rcases List.mem_map.mp (List.mem_of_getElem? third) with ⟨placed, placed_mem, placed_eq⟩
  have state_eq : placed.state = .int 2 := congrArg Record.state placed_eq
  refine ⟨reported, pending, explores, records_eq, placed, placed_mem, state_eq, ?_, ?_⟩
  · rw [congrArg Record.path placed_eq]
    rfl
  · refine (least placed placed_mem).2.2 _ _ (by decide) ?_ merging_jump_isAt
    rw [state_eq]
    rfl

end TransitionSystem

end StateSpace
