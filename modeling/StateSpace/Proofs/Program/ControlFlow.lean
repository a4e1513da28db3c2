import StateSpace.Proofs.Program.Correctness
import StateSpace.Proofs.Program.Reached

/-!
# Control flow of program graphs

Without its guards and effects, a program graph given by a table is a graph of locations, in which each row
of the table is an edge. Every path through the compiled system is a walk through this graph, because a
transition that is taken stands in the table at the location that is left. What is true of the locations on
all walks is therefore true of all reached configurations, whatever the guards and effects do.
-/

namespace StateSpace

/-- The location of a configuration. -/
def ProgramGraph.locationOf (configuration : Value) : Result Value := do
  pure (← configuration.asPair).1

/-- A step into a configuration as a step into its location. -/
def Step.toLocation (step : Step) : Result Step := do
  pure ⟨step.action, ← ProgramGraph.locationOf step.state⟩

/-- A path through configurations as a path through their locations. -/
def Path.toLocations (path : Path) : Result Path := do
  let head ← ProgramGraph.locationOf path.head
  pure (.listed head (← path.steps.mapM Step.toLocation))

namespace ProgramGraph

/-- Some row that a table declares at a location has an action and a target, up to equality. -/
def Leads (table : Table (List (GuardedTransition Result))) (location action target : Value) : Prop :=
  ∃ row ∈ (table.find? location).getD [], (row.action == action) = true ∧ (row.target == target) = true

/-- The rows of a table lead from a location along the given steps. -/
def WalksFrom (table : Table (List (GuardedTransition Result))) : Value → List Step → Prop
  | _, [] => True
  | location, step :: steps =>
      Leads table location step.action step.state ∧ WalksFrom table step.state steps

/-- A path through locations starts at an initial one and follows the rows of a table. -/
def IsWalk (locations : List Value) (table : Table (List (GuardedTransition Result))) (walk : Path) :
    Prop :=
  walk.head.isIn locations = true ∧ WalksFrom table walk.head walk.steps

@[simp]
theorem locationOf_pair (location state : Value) : locationOf (.pair location state) = .ok location :=
  rfl

section Tables

variable {locations : List Value} {initial : ProgramState}
  {table : Table (List (GuardedTransition Result))} {effects : Table (Routine Result)}

/-- A transition that is taken follows a row of the table. -/
theorem Takes.leads {location state action target after : Value}
    (takes : (ofTable locations initial table effects).Takes location state action target after) :
    Leads table location action target := by
  rcases takes with ⟨transitions, transition, result, declared, mem, _, _, sameAction, sameTarget, _⟩
  rw [eq_of_transitions_ofTable declared] at mem
  exact ⟨transition, mem, sameAction, sameTarget⟩

theorem walksFrom_of_followsFrom {location state : Value} {steps : List Step}
    (follows : Path.followsFrom (ofTable locations initial table effects).compile
      (.pair location state) steps = .ok true) :
    ∃ walked, steps.mapM Step.toLocation = .ok walked ∧ WalksFrom table location walked := by
  induction steps generalizing location state with
  | nil => exact ⟨[], rfl, trivial⟩
  | cons step steps ih =>
      rw [Path.followsFrom_cons_iff] at follows
      rcases takes_of_has follows.1 with ⟨target, after, step_eq, takes⟩
      rw [step_eq] at follows
      rcases ih follows.2 with ⟨walked, walked_eq, walks⟩
      refine ⟨⟨step.action, target⟩ :: walked, ?_, takes.leads, walks⟩
      simp [List.mapM_cons, Step.toLocation, step_eq, walked_eq]

theorem exists_walk_of_isValidIn {path : Path}
    (valid : path.isValidIn (ofTable locations initial table effects).compile = .ok true) :
    ∃ walk, path.toLocations = .ok walk ∧ IsWalk locations table walk := by
  rcases Path.isValidIn_iff.mp valid with ⟨starts, follows⟩
  rcases isIn_initialStates_iff.mp starts with ⟨location, state, head_eq, among, _⟩
  rw [head_eq] at follows
  rcases walksFrom_of_followsFrom follows with ⟨walked, walked_eq, walks⟩
  refine ⟨.listed location walked, ?_, among, ?_⟩
  · simp [Path.toLocations, head_eq, walked_eq]
  · rw [Path.steps_listed]
    exact walks

/-- Locations that contain the initial ones and that no row leaves contain all reached ones. -/
theorem exists_within_of_hasState {within : Value → Prop}
    (starts : ∀ location ∈ locations, ∃ place, within place ∧ (place == location) = true)
    (closed : ∀ place, within place → ∀ row ∈ (table.find? place).getD [],
      ∃ next, within next ∧ (next == row.target) = true)
    {configuration : Value}
    (hasState : (ofTable locations initial table effects).compile.HasState configuration) :
    ∃ location state place, configuration = .pair location state ∧ within place ∧
      (place == location) = true := by
  rcases hasState with ⟨reached, reachable, equal⟩
  have invariant : (ofTable locations initial table effects).Invariant fun location _ =>
      ∃ place, within place ∧ (place == location) = true := by
    refine ⟨starts, ?_⟩
    rintro location state after transitions transition ⟨place, inside, same⟩ declared mem _ _
    rw [eq_of_transitions_ofTable declared, ← Table.find?_congr same] at mem
    exact closed place inside transition mem
  rcases invariant.exists_of_reachable reachable with ⟨location, state, rfl, place, inside, same⟩
  rcases Value.beq_pair_left_iff.mp equal with ⟨location', state', rfl, sameLocation, _⟩
  exact ⟨location', state', place, rfl, inside, BEq.trans same sameLocation⟩

end Tables

/-! ### Propositions about locations -/

variable {graph : ProgramGraph Result}

theorem label_cases (graph : ProgramGraph Result) (configuration : Value) :
    (∃ fault, graph.compile.label configuration = .error fault) ∨
      ∃ location state, graph.compile.label configuration = .ok (.program location state) := by
  cases parts : configuration.asPair with
  | error fault => exact .inl ⟨fault, by simp [compile, configurationOf, parts]⟩
  | ok pair => exact .inr ⟨pair.1, pair.2, by simp [compile, configurationOf, parts]⟩

/-- No configuration is at two unequal locations. -/
theorem holdsAt_notBoth {place other : Value} (unequal : (place == other) = false)
    (configuration : Value) :
    graph.compile.holdsAt (.formula (.not (.and (.atLocation place) (.atLocation other)))) configuration =
      graph.compile.holdsAt (.formula .truth) configuration := by
  rcases label_cases graph configuration with ⟨fault, failed⟩ | ⟨location, state, labelled⟩
  · simp [TransitionSystem.holdsAt, failed]
  · have means := ((means_atLocation place location state).and (means_atLocation other location state)).not
    simp only [TransitionSystem.holdsAt, labelled, Result.ok_bind]
    apply means.holds_congr .truth
    simp only [iff_true]
    rintro ⟨here, there⟩
    rw [BEq.trans here (BEq.symm there)] at unequal
    cases unequal

theorem check_truth_ne_violated (system : TransitionSystem Result) (bound : Nat)
    (counterexample : Counterexample) (checked : Nat) :
    system.check (.formula .truth) bound ≠ .ok (.violated counterexample checked) := by
  intro violated
  rw [TransitionSystem.check_eq] at violated
  rcases TransitionSystem.judge_violated violated with ⟨_, _, _, _, _, fails⟩
  rw [TransitionSystem.holdsAt, Result.bind_eq_ok_iff] at fails
  rcases fails with ⟨label, _, fails⟩
  cases fails

/-- The paths through the compiled system are, without program states, walks through the rows of the table
that start at an initial location. So the reached configurations stay within all locations that contain the
initial ones and that no row leaves. The formula that the program is not at two unequal locations is checked
like a formula that is always true, so no check of it finds a counterexample. -/
theorem control_flow (locations : List Value) (initial : ProgramState)
    (table : Table (List (GuardedTransition Result))) (effects : Table (Routine Result)) :
    (∀ path : Path, path.isValidIn (ofTable locations initial table effects).compile = .ok true →
      ∃ walk, path.toLocations = .ok walk ∧ IsWalk locations table walk) ∧
    (∀ within : Value → Prop,
      (∀ location ∈ locations, ∃ place, within place ∧ (place == location) = true) →
      (∀ place, within place → ∀ row ∈ (table.find? place).getD [],
        ∃ next, within next ∧ (next == row.target) = true) →
      ∀ configuration, (ofTable locations initial table effects).compile.HasState configuration →
        ∃ place, within place ∧ (ofTable locations initial table effects).compile.holdsAt
          (.formula (.atLocation place)) configuration = .ok true) ∧
    ∀ place other : Value, (place == other) = false → ∀ bound,
      (ofTable locations initial table effects).compile.check
          (.formula (.not (.and (.atLocation place) (.atLocation other)))) bound =
        (ofTable locations initial table effects).compile.check (.formula .truth) bound ∧
      ∀ counterexample checked, (ofTable locations initial table effects).compile.check
          (.formula (.not (.and (.atLocation place) (.atLocation other)))) bound ≠
        .ok (.violated counterexample checked) := by
  refine ⟨fun _ => exists_walk_of_isValidIn, ?_, ?_⟩
  · intro within starts closed configuration hasState
    rcases exists_within_of_hasState starts closed hasState with
      ⟨location, state, place, rfl, inside, same⟩
    exact ⟨place, inside, TransitionSystem.holdsAt_of_means rfl (means_atLocation _ _ _) same⟩
  · intro place other unequal bound
    rw [TransitionSystem.check_congr (holdsAt_notBoth unequal)]
    exact ⟨rfl, check_truth_ne_violated _ bound⟩

/-- A path of the lamp that returns to its first location. It gives the locations in other forms than the
rows do. -/
def lampPath : Path :=
  ((Path.single (.pair (.bool false) Lamp.dark)).extend (.str "press") (.pair (.int 1) Lamp.bright)).extend
    (.str "press") (.pair (.int 0) Lamp.dark)

/-- The lamp walks between its two locations, is always at one of them and never at both. -/
theorem control_flow_lamp :
    lampPath.isValidIn Lamp.graph.compile = .ok true ∧
      (∃ walk, lampPath.toLocations = .ok walk ∧ IsWalk [.int 0] Lamp.rows walk) ∧
      Lamp.graph.compile.HasState (.pair (.int 1) Lamp.bright) ∧
      (∃ place, (place = .bool false ∨ place = .int 1) ∧
        Lamp.graph.compile.holdsAt (.formula (.atLocation place)) (.pair (.int 1) Lamp.bright) =
          .ok true) ∧
      (Value.int 0 == .int 1) = false ∧
      Lamp.graph.compile.check
          (.formula (.not (.and (.atLocation (.int 0)) (.atLocation (.int 1))))) 9 =
        Lamp.graph.compile.check (.formula .truth) 9 := by
  rcases control_flow [.int 0] ⟨[(.str "lit", .bool false)]⟩ Lamp.rows
    [(.str "press", Lamp.toggle), (.str "wait", .unchanged)] with ⟨walks, stays, notBoth⟩
  have hasState : Lamp.graph.compile.HasState (.pair (.int 1) Lamp.bright) := by
    have start : Lamp.graph.compile.Reachable (.pair (.int 0) Lamp.dark) :=
      .initial (List.mem_singleton.mpr rfl)
    have listed : Lamp.graph.compile.Lists (.pair (.int 0) Lamp.dark)
        [(.str "press", .pair (.bool true) Lamp.bright), (.str "press", .pair (.int 1) Lamp.bright)] := rfl
    exact ⟨_, start.step listed List.mem_cons_self, rfl⟩
  refine ⟨rfl, walks lampPath rfl, hasState, ?_, rfl, (notBoth (.int 0) (.int 1) rfl 9).1⟩
  apply stays (fun place => place = .bool false ∨ place = .int 1) _ _ _ hasState
  · simp only [List.mem_singleton, forall_eq]
    exact ⟨.bool false, .inl rfl, rfl⟩
  · rintro place (rfl | rfl) row row_mem
    · have rows_eq : (Lamp.rows.find? (.bool false)).getD [] =
          [⟨Lamp.isDark, .str "press", .bool true⟩, ⟨.always, .str "press", .int 1⟩] := rfl
      rw [rows_eq] at row_mem
      refine ⟨.int 1, .inr rfl, ?_⟩
      simp only [List.mem_cons, List.not_mem_nil, or_false] at row_mem
      rcases row_mem with rfl | rfl <;> rfl
    · have rows_eq : (Lamp.rows.find? (.int 1)).getD [] =
          [⟨Lamp.isDark, .str "wait", .int 0⟩, ⟨.always, .str "press", .bool false⟩] := rfl
      rw [rows_eq] at row_mem
      refine ⟨.bool false, .inl rfl, ?_⟩
      simp only [List.mem_cons, List.not_mem_nil, or_false] at row_mem
      rcases row_mem with rfl | rfl <;> rfl

end ProgramGraph

end StateSpace
