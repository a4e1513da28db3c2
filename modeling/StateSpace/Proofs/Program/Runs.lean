import Mathlib.Data.List.Forall2
import StateSpace.Program.Compiled
import StateSpace.Proofs.TableSystem

/-!
# Runs of program graphs

A run of a program graph starts at an initial location in the initial program state and takes declared
transitions whose guards hold. It is defined on the graph alone, without its transition system. The
configurations that occur in runs are the pairs of a location and a program state.

The runs are the valid paths of the compiled system if nothing that a run asks for fails. If moreover
equal configurations go on alike, the compiled system is well labelled, and its states are exactly the
configurations that occur. Program graphs given by tables go on alike at equal locations, so there it is
enough that guards and effects do not tell equal program states apart.
-/

namespace StateSpace

/-- Equal arguments give equal results, where they give results. -/
def Routine.Extensional (routine : Routine Result) : Prop :=
  ∀ {value value' result result' : Value}, (value == value') = true →
    routine.run value = .ok result → routine.run value' = .ok result' → (result == result') = true

namespace ProgramGraph

/-- Some declared transition, whose guard holds, leads by an action from one configuration to another,
whose program state is what the effect of the action gives. -/
def Takes (graph : ProgramGraph Result) (location state action target after : Value) : Prop :=
  ∃ transitions transition result, graph.transitions location = .ok transitions ∧
    transition ∈ transitions ∧ transition.guard.holds state = .ok true ∧
    graph.apply transition.action state = .ok result ∧ (transition.action == action) = true ∧
    (transition.target == target) = true ∧ (result == after) = true

/-- A run goes on from a configuration along the given steps. -/
def RunsFrom (graph : ProgramGraph Result) : Value → Value → List Step → Prop
  | _, _, [] => True
  | location, state, step :: steps =>
      ∃ target after, step.state = .pair target after ∧
        graph.Takes location state step.action target after ∧ RunsFrom graph target after steps

/-- A path is a run of the program graph. -/
def IsRun (graph : ProgramGraph Result) (path : Path) : Prop :=
  ∃ location state, path.head = .pair location state ∧
    location.isIn graph.initialLocations = true ∧ (graph.initialState.toValue == state) = true ∧
    graph.RunsFrom location state path.steps

/-- The configurations that occur in runs. -/
inductive Occurs (graph : ProgramGraph Result) : Value → Value → Prop where
  | start {location state : Value} (initial : location.isIn graph.initialLocations = true)
      (same : (graph.initialState.toValue == state) = true) : Occurs graph location state
  | step {location state action target after : Value} (source : Occurs graph location state)
      (taken : graph.Takes location state action target after) : Occurs graph target after

/-- The guard of a transition has a result in a program state, and the effect of its action does if the
guard holds. -/
structure Succeeds (graph : ProgramGraph Result) (state : Value)
    (transition : GuardedTransition Result) : Prop where
  guard : ∃ value, transition.guard.run state = .ok value
  effect : transition.guard.holds state = .ok true →
    ∃ after, graph.apply transition.action state = .ok after

/-- Every configuration that occurs declares transitions, and they succeed. -/
structure Faultless (graph : ProgramGraph Result) : Prop where
  declared : ∀ {location state : Value}, graph.Occurs location state →
    ∃ transitions, graph.transitions location = .ok transitions
  succeeds : ∀ {location state : Value} {transitions : List (GuardedTransition Result)},
    graph.Occurs location state → graph.transitions location = .ok transitions →
      ∀ transition ∈ transitions, graph.Succeeds state transition

/-- Two transitions, each seen from its own program state, have guards with equal results, equal actions
and equal targets. -/
structure Alike (state state' : Value) (transition transition' : GuardedTransition Result) : Prop where
  guards : ∀ {value value' : Value}, transition.guard.run state = .ok value →
    transition'.guard.run state' = .ok value' → (value == value') = true
  actions : (transition.action == transition'.action) = true
  targets : (transition.target == transition'.target) = true

/-- The configurations that occur may be keys. Equal ones declare transitions that are alike, and equal
actions have equal results in equal program states. -/
structure Extensional (graph : ProgramGraph Result) : Prop where
  hashable : ∀ {location state : Value}, graph.Occurs location state →
    location.IsHashable ∧ state.IsHashable
  alike : ∀ {location location' state state' : Value}
    {transitions transitions' : List (GuardedTransition Result)}, graph.Occurs location state →
      (location == location') = true → (state == state') = true →
      graph.transitions location = .ok transitions → graph.transitions location' = .ok transitions' →
        List.Forall₂ (Alike state state') transitions transitions'
  effects : ∀ {location state state' action action' after after' : Value},
    graph.Occurs location state → (state == state') = true → (action == action') = true →
      graph.apply action state = .ok after → graph.apply action' state' = .ok after' →
        (after == after') = true

variable {graph : ProgramGraph Result}

theorem Takes.congr {location state action target after target' after' : Value}
    (takes : graph.Takes location state action target after) (sameTarget : (target == target') = true)
    (sameAfter : (after == after') = true) : graph.Takes location state action target' after' := by
  rcases takes with ⟨transitions, transition, result, declared, mem, holds, applied, sameAction,
    ofTarget, ofAfter⟩
  exact ⟨transitions, transition, result, declared, mem, holds, applied, sameAction,
    BEq.trans ofTarget sameTarget, BEq.trans ofAfter sameAfter⟩

theorem Occurs.congr {location state location' state' : Value} (occurs : graph.Occurs location state)
    (sameLocation : (location == location') = true) (sameState : (state == state') = true) :
    graph.Occurs location' state' := by
  cases occurs with
  | start initial same =>
      rw [Value.isIn_congr sameLocation] at initial
      exact .start initial (BEq.trans same sameState)
  | step source taken => exact .step source (taken.congr sameLocation sameState)

theorem RunsFrom.occurs {location state location' state' : Value} {steps : List Step}
    (runs : graph.RunsFrom location state steps) (occurs : graph.Occurs location state)
    (visited : Value.pair location' state' ∈ steps.map Step.state) :
    graph.Occurs location' state' := by
  induction steps generalizing location state with
  | nil => simp at visited
  | cons step steps ih =>
      rcases runs with ⟨target, after, step_eq, taken, runs⟩
      have occurs' := Occurs.step occurs taken
      rw [List.map_cons, step_eq] at visited
      rcases List.mem_cons.mp visited with here | later
      · rcases Value.pair_inj.mp here with ⟨rfl, rfl⟩
        exact occurs'
      · exact ih runs occurs' later

theorem IsRun.occurs {path : Path} (run : graph.IsRun path) {location state : Value}
    (visited : Value.pair location state ∈ path.states) : graph.Occurs location state := by
  rcases run with ⟨first, firstState, head_eq, initial, same, runs⟩
  have occurs := Occurs.start initial same
  rw [Path.states, head_eq] at visited
  rcases List.mem_cons.mp visited with here | later
  · rcases Value.pair_inj.mp here with ⟨rfl, rfl⟩
    exact occurs
  · exact runs.occurs occurs later

/-! ### One step of the compiled system -/

/-- The action and the configuration into which a transition leads from a program state, if its guard
holds there. -/
def taken (graph : ProgramGraph Result) (state : Value) (transition : GuardedTransition Result) :
    Option (Value × Value) :=
  match transition.guard.holds state, graph.apply transition.action state with
  | .ok true, .ok after => some (transition.action, .pair transition.target after)
  | _, _ => none

theorem taken_eq_some_iff {state : Value} {transition : GuardedTransition Result}
    {pair : Value × Value} :
    graph.taken state transition = some pair ↔
      transition.guard.holds state = .ok true ∧
        ∃ after, graph.apply transition.action state = .ok after ∧
          pair = (transition.action, .pair transition.target after) := by
  unfold taken
  split
  · rename_i after holds applied
    simp [holds, applied, eq_comm]
  · rename_i excluded
    simp only [reduceCtorEq, false_iff]
    rintro ⟨holds, after, applied, _⟩
    exact excluded after holds applied

theorem Succeeds.cases {state : Value} {transition : GuardedTransition Result}
    (succeeds : graph.Succeeds state transition) :
    transition.guard.holds state = .ok false ∨
      transition.guard.holds state = .ok true ∧
        ∃ after, graph.apply transition.action state = .ok after := by
  rcases succeeds.guard with ⟨value, run_eq⟩
  have holds_eq : transition.guard.holds state = .ok value.truthy := by
    simp [Routine.holds, run_eq]
  cases truth : value.truthy with
  | false => exact .inl (by rw [holds_eq, truth])
  | true =>
      rw [truth] at holds_eq
      exact .inr ⟨holds_eq, succeeds.effect holds_eq⟩

theorem Succeeds.of_holds {state after : Value} {transition : GuardedTransition Result} {truth : Bool}
    (holds : transition.guard.holds state = .ok truth)
    (applied : graph.apply transition.action state = .ok after) : graph.Succeeds state transition where
  guard := by
    rw [Routine.holds, Result.bind_eq_ok_iff] at holds
    rcases holds with ⟨value, run_eq, _⟩
    exact ⟨value, run_eq⟩
  effect _ := ⟨after, applied⟩

theorem Succeeds.of_fails {state : Value} {transition : GuardedTransition Result}
    (fails : transition.guard.holds state = .ok false) : graph.Succeeds state transition where
  guard := by
    have ran := fails
    rw [Routine.holds, Result.bind_eq_ok_iff] at ran
    rcases ran with ⟨value, run_eq, _⟩
    exact ⟨value, run_eq⟩
  effect holds := by
    rw [fails] at holds
    cases holds

theorem successors_of_enabledIn {state : Value} {transitions : List (GuardedTransition Result)}
    (succeeds : ∀ transition ∈ transitions, graph.Succeeds state transition) :
    ∃ enabled, GuardedTransition.enabledIn state transitions = .ok enabled ∧
      enabled.mapM (graph.successor state) =
        .ok ((transitions.filterMap (graph.taken state)).map fun pair => .pair pair.1 pair.2) := by
  induction transitions with
  | nil => exact ⟨[], rfl, rfl⟩
  | cons transition transitions ih =>
      rw [List.forall_mem_cons] at succeeds
      rcases ih succeeds.2 with ⟨enabled, enabled_eq, mapped⟩
      rcases succeeds.1.cases with fails | ⟨holds, after, applied⟩
      · refine ⟨enabled, ?_, ?_⟩
        · simp [GuardedTransition.enabledIn, fails, enabled_eq]
        · simp [taken, fails, mapped]
      · refine ⟨transition :: enabled, ?_, ?_⟩
        · simp [GuardedTransition.enabledIn, holds, enabled_eq]
        · simp [taken, holds, applied, successor, mapped]

/-- The compiled system asks all guards of a location first and then applies the effects. -/
theorem toList_compile_pair (location state : Value) :
    (graph.compile.transitions (.pair location state)).toList =
      (graph.transitions location >>= fun transitions =>
        GuardedTransition.enabledIn state transitions >>= fun enabled =>
          enabled.mapM (graph.successor state)) := by
  have configuration_eq : (configurationOf (.pair location state) : Result (Value × Value)) =
      .ok (location, state) := rfl
  simp only [compile, Successors.toList_atOnce, successors, configuration_eq, Result.ok_bind, enabled,
    MonadCells.ofResult_result, bind_assoc]

/-- Where the transitions of a location succeed in a program state, the compiled system has those that are
enabled there, in the order in which they are declared. -/
theorem lists_compile_of_succeeds {location state : Value} {transitions : List (GuardedTransition Result)}
    (declared : graph.transitions location = .ok transitions)
    (succeeds : ∀ transition ∈ transitions, graph.Succeeds state transition) :
    graph.compile.Lists (.pair location state) (transitions.filterMap (graph.taken state)) := by
  rcases successors_of_enabledIn succeeds with ⟨chosen, chosen_eq, mapped⟩
  simp only [TransitionSystem.Lists, toList_compile_pair, declared, Result.ok_bind, chosen_eq, mapped]

theorem succeeds_of_mapM {state : Value} {transitions enabled : List (GuardedTransition Result)}
    {items : List Value} (enabled_eq : GuardedTransition.enabledIn state transitions = .ok enabled)
    (mapped : enabled.mapM (graph.successor state) = .ok items) :
    ∀ transition ∈ transitions, graph.Succeeds state transition := by
  induction transitions generalizing enabled items with
  | nil => simp
  | cons first transitions ih =>
      simp only [GuardedTransition.enabledIn, Result.bind_eq_ok_iff, Result.pure_eq_ok,
        Except.ok.injEq] at enabled_eq
      rcases enabled_eq with ⟨flag, holds, rest, rest_eq, rfl⟩
      rw [List.forall_mem_cons]
      cases flag with
      | false =>
          refine ⟨.of_fails holds, ?_⟩
          simp only [Bool.false_eq_true, ↓reduceIte] at mapped
          exact ih rest_eq mapped
      | true =>
          simp only [↓reduceIte, List.mapM_cons, successor, Result.bind_eq_ok_iff,
            Result.pure_eq_ok, Except.ok.injEq] at mapped
          rcases mapped with ⟨_, ⟨after, applied, _⟩, others, others_eq, _⟩
          exact ⟨.of_holds holds applied, ih rest_eq others_eq⟩

/-- The compiled system can list its transitions only where those of the location succeed. -/
theorem succeeds_of_toList {location state : Value} {items : List Value}
    (listed : (graph.compile.transitions (.pair location state)).toList = .ok items) :
    ∃ transitions, graph.transitions location = .ok transitions ∧
      ∀ transition ∈ transitions, graph.Succeeds state transition := by
  simp only [toList_compile_pair, Result.bind_eq_ok_iff] at listed
  rcases listed with ⟨transitions, declared, chosen, chosen_eq, mapped⟩
  exact ⟨transitions, declared, succeeds_of_mapM chosen_eq mapped⟩

theorem exists_taken_of_lists {location state : Value} {pairs : List (Value × Value)}
    (listed : graph.compile.Lists (.pair location state) pairs) {pair : Value × Value}
    (mem : pair ∈ pairs) :
    ∃ transitions transition after, graph.transitions location = .ok transitions ∧
      transition ∈ transitions ∧ transition.guard.holds state = .ok true ∧
      graph.apply transition.action state = .ok after ∧
      pair = (transition.action, .pair transition.target after) := by
  rcases succeeds_of_toList listed with ⟨transitions, declared, succeeds⟩
  rw [listed.unique (lists_compile_of_succeeds declared succeeds)] at mem
  rcases List.mem_filterMap.mp mem with ⟨transition, transition_mem, taken_eq⟩
  rcases taken_eq_some_iff.mp taken_eq with ⟨holds, after, applied, pair_eq⟩
  exact ⟨transitions, transition, after, declared, transition_mem, holds, applied, pair_eq⟩

theorem Faultless.lists_compile (faultless : graph.Faultless) {location state : Value}
    {transitions : List (GuardedTransition Result)} (occurs : graph.Occurs location state)
    (declared : graph.transitions location = .ok transitions) :
    graph.compile.Lists (.pair location state) (transitions.filterMap (graph.taken state)) :=
  lists_compile_of_succeeds declared (faultless.succeeds occurs declared)

/-- A step of the compiled system is one of the program graph. -/
theorem takes_of_has {location state action next : Value}
    (has : (graph.compile.transitions (.pair location state)).has (.pair action next) = .ok true) :
    ∃ target after, next = .pair target after ∧ graph.Takes location state action target after := by
  rcases Successors.toList_of_has_atOnce has with ⟨items, items_eq⟩
  have listed : (graph.compile.transitions (.pair location state)).toList = .ok items := by
    rw [compile, Successors.toList_atOnce, items_eq]
  rcases succeeds_of_toList listed with ⟨transitions, declared, succeeds⟩
  rw [Successors.has_of_toList (lists_compile_of_succeeds declared succeeds), Except.ok.injEq,
    Value.isIn_iff] at has
  rcases has with ⟨item, item_mem, equal⟩
  rcases List.mem_map.mp item_mem with ⟨pair, pair_mem, rfl⟩
  rcases List.mem_filterMap.mp pair_mem with ⟨transition, mem, taken_eq⟩
  rcases taken_eq_some_iff.mp taken_eq with ⟨holds, result, applied, rfl⟩
  rcases Value.beq_pair_iff.mp equal with ⟨sameAction, sameNext⟩
  rcases Value.beq_pair_left_iff.mp sameNext with ⟨target, after, rfl, sameTarget, sameAfter⟩
  exact ⟨target, after, rfl, transitions, transition, result, declared, mem, holds, applied,
    sameAction, sameTarget, sameAfter⟩

/-- The steps of the compiled system from a configuration that occurs are those of the program graph. -/
theorem Faultless.has_compile (faultless : graph.Faultless) {location state : Value}
    (occurs : graph.Occurs location state) (action next : Value) :
    ∃ found, (graph.compile.transitions (.pair location state)).has (.pair action next) = .ok found ∧
      (found = true ↔ ∃ target after, next = .pair target after ∧
        graph.Takes location state action target after) := by
  rcases faultless.declared occurs with ⟨transitions, declared⟩
  have has_eq := Successors.has_of_toList (faultless.lists_compile occurs declared) (.pair action next)
  refine ⟨_, has_eq, ?_⟩
  constructor
  · intro found
    rw [found] at has_eq
    exact takes_of_has has_eq
  · rintro ⟨target, after, rfl, transitions', transition, result, declared', mem, holds, applied,
      sameAction, sameTarget, sameAfter⟩
    rw [declared, Except.ok.injEq] at declared'
    subst declared'
    have pair_mem := List.mem_filterMap.mpr
      ⟨transition, mem, taken_eq_some_iff.mpr ⟨holds, result, applied, rfl⟩⟩
    refine Value.isIn_iff.mpr ⟨_, List.mem_map_of_mem pair_mem, ?_⟩
    exact Value.beq_pair_iff.mpr ⟨sameAction, Value.beq_pair_iff.mpr ⟨sameTarget, sameAfter⟩⟩

/-! ### Whole runs -/

theorem Faultless.followsFrom_compile (faultless : graph.Faultless) {location state : Value}
    (occurs : graph.Occurs location state) (steps : List Step) :
    ∃ follows, Path.followsFrom graph.compile (.pair location state) steps = .ok follows ∧
      (follows = true ↔ graph.RunsFrom location state steps) := by
  induction steps generalizing location state with
  | nil => exact ⟨true, rfl, by simp [RunsFrom]⟩
  | cons step steps ih =>
      -- a step that is not taken ends the walk, so the system is asked in configurations that occur only
      rcases faultless.has_compile occurs step.action step.state with ⟨found, found_eq, found_iff⟩
      cases found with
      | false =>
          refine ⟨false, by simp [Path.followsFrom, Step.toPair, found_eq], ?_⟩
          simp only [Bool.false_eq_true, false_iff] at found_iff ⊢
          rintro ⟨target, after, step_eq, taken, _⟩
          exact found_iff ⟨target, after, step_eq, taken⟩
      | true =>
          rcases found_iff.mp rfl with ⟨target, after, step_eq, taken⟩
          rcases ih (.step occurs taken) with ⟨follows, follows_eq, follows_iff⟩
          rw [← step_eq] at follows_eq
          refine ⟨follows, by simp [Path.followsFrom, Step.toPair, found_eq, follows_eq], ?_⟩
          rw [follows_iff]
          constructor
          · exact fun runs => ⟨target, after, step_eq, taken, runs⟩
          · rintro ⟨target', after', step_eq', _, runs⟩
            rw [step_eq] at step_eq'
            rcases Value.pair_inj.mp step_eq' with ⟨rfl, rfl⟩
            exact runs

theorem isIn_initialStates_iff {configuration : Value} :
    configuration.isIn graph.compile.initialStates = true ↔
      ∃ location state, configuration = .pair location state ∧
        location.isIn graph.initialLocations = true ∧
        (graph.initialState.toValue == state) = true := by
  rw [Value.isIn_iff]
  constructor
  · rintro ⟨initial, initial_mem, equal⟩
    rcases List.mem_map.mp initial_mem with ⟨first, first_mem, rfl⟩
    rcases Value.beq_pair_left_iff.mp equal with ⟨location, state, rfl, sameLocation, sameState⟩
    exact ⟨location, state, rfl, Value.isIn_iff.mpr ⟨first, first_mem, sameLocation⟩, sameState⟩
  · rintro ⟨location, state, rfl, initial, same⟩
    rcases Value.isIn_iff.mp initial with ⟨first, first_mem, sameLocation⟩
    exact ⟨_, List.mem_map_of_mem first_mem, Value.beq_pair_iff.mpr ⟨sameLocation, same⟩⟩

/-- Whether a path is valid in the compiled system has an answer, which is whether it is a run. -/
theorem Faultless.isValidIn_compile (faultless : graph.Faultless) (path : Path) :
    ∃ valid, path.isValidIn graph.compile = .ok valid ∧ (valid = true ↔ graph.IsRun path) := by
  cases initial : path.head.isIn graph.compile.initialStates with
  | false =>
      refine ⟨false, by simp [Path.isValidIn, initial], ?_⟩
      simp only [Bool.false_eq_true, false_iff]
      rintro ⟨location, state, head_eq, among, same, _⟩
      rw [isIn_initialStates_iff.mpr ⟨location, state, head_eq, among, same⟩] at initial
      cases initial
  | true =>
      rcases isIn_initialStates_iff.mp initial with ⟨location, state, head_eq, among, same⟩
      rcases faultless.followsFrom_compile (.start among same) path.steps with
        ⟨follows, follows_eq, follows_iff⟩
      rw [← head_eq] at follows_eq
      refine ⟨follows, by simp [Path.isValidIn, initial, follows_eq], ?_⟩
      rw [follows_iff]
      constructor
      · exact fun runs => ⟨location, state, head_eq, among, same, runs⟩
      · rintro ⟨location', state', head_eq', _, _, runs⟩
        rw [head_eq] at head_eq'
        rcases Value.pair_inj.mp head_eq' with ⟨rfl, rfl⟩
        exact runs

theorem Faultless.isRun_of_isValidIn (faultless : graph.Faultless) {path : Path}
    (valid : path.isValidIn graph.compile = .ok true) : graph.IsRun path := by
  rcases faultless.isValidIn_compile path with ⟨flag, flag_eq, flag_iff⟩
  rw [valid, Except.ok.injEq] at flag_eq
  exact flag_iff.mp flag_eq.symm

/-! ### The states of the compiled system -/

theorem Faultless.occurs_of_reachable (faultless : graph.Faultless) {configuration : Value}
    (reachable : graph.compile.Reachable configuration) :
    ∃ location state, configuration = .pair location state ∧ graph.Occurs location state := by
  induction reachable with
  | initial mem =>
      rcases List.mem_map.mp mem with ⟨location, location_mem, rfl⟩
      exact ⟨location, _, rfl, .start (Value.isIn_of_mem location_mem) BEq.rfl⟩
  | @step _ action next pairs source listed mem ih =>
      rcases ih with ⟨location, state, rfl, occurs⟩
      rcases faultless.declared occurs with ⟨transitions, declared⟩
      rw [listed.unique (faultless.lists_compile occurs declared)] at mem
      rcases List.mem_filterMap.mp mem with ⟨transition, transition_mem, taken_eq⟩
      rcases taken_eq_some_iff.mp taken_eq with ⟨holds, after, applied, pair_eq⟩
      cases pair_eq
      exact ⟨transition.target, after, rfl, .step occurs ⟨transitions, transition, after, declared,
        transition_mem, holds, applied, BEq.rfl, BEq.rfl, BEq.rfl⟩⟩

theorem Faultless.occurs_of_hasState (faultless : graph.Faultless) {configuration : Value}
    (hasState : graph.compile.HasState configuration) :
    ∃ location state, configuration = .pair location state ∧ graph.Occurs location state := by
  rcases hasState with ⟨reached, reachable, equal⟩
  rcases faultless.occurs_of_reachable reachable with ⟨location, state, rfl, occurs⟩
  rcases Value.beq_pair_left_iff.mp equal with ⟨location', state', rfl, sameLocation, sameState⟩
  exact ⟨location', state', rfl, occurs.congr sameLocation sameState⟩

theorem Alike.holds_eq {state state' : Value} {transition transition' : GuardedTransition Result}
    (alike : Alike state state' transition transition') (succeeds : graph.Succeeds state transition)
    (succeeds' : graph.Succeeds state' transition') :
    transition.guard.holds state = transition'.guard.holds state' := by
  rcases succeeds.guard with ⟨value, run_eq⟩
  rcases succeeds'.guard with ⟨value', run_eq'⟩
  simp [Routine.holds, run_eq, run_eq', Value.truthy_eq_of_beq (alike.guards run_eq run_eq')]

/-- Transitions that are alike lead into equal configurations if equal actions have equal effects. -/
theorem taken_congr {state state' : Value}
    (effects : ∀ {action action' after after' : Value}, (action == action') = true →
      graph.apply action state = .ok after → graph.apply action' state' = .ok after' →
        (after == after') = true)
    {transitions transitions' : List (GuardedTransition Result)}
    (succeeds : ∀ transition ∈ transitions, graph.Succeeds state transition)
    (succeeds' : ∀ transition ∈ transitions', graph.Succeeds state' transition)
    (alike : List.Forall₂ (Alike state state') transitions transitions') :
    (Value.list ((transitions.filterMap (graph.taken state)).map fun pair => .pair pair.1 pair.2) ==
      .list ((transitions'.filterMap (graph.taken state')).map fun pair => .pair pair.1 pair.2)) =
        true := by
  change Value.beqItems _ _ = true
  -- both lists of transitions are walked at once, and guards that agree keep or drop the same positions
  induction alike with
  | nil => rfl
  | @cons transition transition' transitions transitions' first rest ih =>
      rw [List.forall_mem_cons] at succeeds succeeds'
      have matched := ih succeeds.2 succeeds'.2
      have agree := first.holds_eq succeeds.1 succeeds'.1
      rcases succeeds.1.cases with fails | ⟨holds, after, applied⟩
      · have fails' := agree.symm.trans fails
        simpa [taken, fails, fails'] using matched
      · have holds' := agree.symm.trans holds
        rcases succeeds'.1.effect holds' with ⟨after', applied'⟩
        have sameAfter := effects first.actions applied applied'
        have samePair := Value.beq_pair_iff.mpr
          ⟨first.actions, Value.beq_pair_iff.mpr ⟨first.targets, sameAfter⟩⟩
        simp only [List.filterMap_cons, taken, holds, applied, holds', applied', List.map_cons,
          Value.beqItems, Bool.and_eq_true]
        exact ⟨samePair, matched⟩

theorem Extensional.compile_wellLabelled (extensional : graph.Extensional)
    (faultless : graph.Faultless) : graph.compile.WellLabelled where
  hashable hasState := by
    rcases faultless.occurs_of_hasState hasState with ⟨location, state, rfl, occurs⟩
    have parts := extensional.hashable occurs
    simpa [Value.IsHashable, Value.pair] using parts
  listed hasState := by
    rcases faultless.occurs_of_hasState hasState with ⟨location, state, rfl, occurs⟩
    rcases faultless.declared occurs with ⟨transitions, declared⟩
    exact ⟨_, faultless.lists_compile occurs declared⟩
  congruent hasState equal listed listed' := by
    rcases faultless.occurs_of_hasState hasState with ⟨location, state, rfl, occurs⟩
    rcases Value.beq_pair_left_iff.mp equal with ⟨location', state', rfl, sameLocation, sameState⟩
    have occurs' := occurs.congr sameLocation sameState
    rcases faultless.declared occurs with ⟨transitions, declared⟩
    rcases faultless.declared occurs' with ⟨transitions', declared'⟩
    rw [faultless.lists_compile occurs declared, Except.ok.injEq] at listed
    rw [faultless.lists_compile occurs' declared', Except.ok.injEq] at listed'
    rw [← listed, ← listed']
    exact taken_congr (extensional.effects occurs sameState) (faultless.succeeds occurs declared)
      (faultless.succeeds occurs' declared')
      (extensional.alike occurs sameLocation sameState declared declared')
  labelled hasState := by
    rcases faultless.occurs_of_hasState hasState with ⟨location, state, rfl, _⟩
    exact ⟨_, rfl⟩
  labels_congruent hasState equal labelled labelled' := by
    rcases faultless.occurs_of_hasState hasState with ⟨location, state, rfl, _⟩
    rcases Value.beq_pair_left_iff.mp equal with ⟨location', state', rfl, same⟩
    cases labelled
    cases labelled'
    exact (Value.beq_programLabel_iff location state _).mpr ⟨location', state', rfl, same⟩

/-- The configurations that occur in runs are states of the compiled system. -/
theorem Occurs.hasState (faultless : graph.Faultless) (extensional : graph.Extensional)
    {location state : Value} (occurs : graph.Occurs location state) :
    graph.compile.HasState (.pair location state) := by
  induction occurs with
  | start initial same =>
      rcases Value.isIn_iff.mp initial with ⟨first, first_mem, sameLocation⟩
      exact ⟨_, .initial (List.mem_map_of_mem first_mem), Value.beq_pair_iff.mpr ⟨sameLocation, same⟩⟩
  | step source taken ih =>
      rcases taken with ⟨transitions, transition, result, declared, mem, holds, applied, _,
        sameTarget, sameAfter⟩
      have listed := faultless.lists_compile source declared
      have pair_mem := List.mem_filterMap.mpr
        ⟨transition, mem, taken_eq_some_iff.mpr ⟨holds, result, applied, rfl⟩⟩
      -- the run may go on in any value that equals the listed target
      have target := (extensional.compile_wellLabelled faultless).hasState_target ih listed pair_mem
      exact target.congr (Value.beq_pair_iff.mpr ⟨sameTarget, sameAfter⟩)

/-! ### Program graphs given by tables -/

section Tables

variable {locations : List Value} {initial : ProgramState}
  {table : Table (List (GuardedTransition Result))} {effects : Table (Routine Result)}

theorem transitions_ofTable {location : Value} (hashable : location.IsHashable) :
    (ofTable locations initial table effects).transitions location =
      .ok ((table.find? location).getD []) := by
  simp [ofTable, Table.lookup_of_isHashable hashable]

theorem eq_of_transitions_ofTable {location : Value} {transitions : List (GuardedTransition Result)}
    (declared : (ofTable locations initial table effects).transitions location = .ok transitions) :
    transitions = (table.find? location).getD [] := by
  simp only [ofTable, Table.lookup, Result.bind_eq_ok_iff, Result.pure_eq_ok, Except.ok.injEq] at declared
  rcases declared with ⟨_, ⟨_, _, rfl⟩, rfl⟩
  rfl

theorem mem_of_transitions_ofTable {location : Value} {transitions : List (GuardedTransition Result)}
    (declared : (ofTable locations initial table effects).transitions location = .ok transitions)
    {transition : GuardedTransition Result} (mem : transition ∈ transitions) :
    ∃ entry ∈ table, transition ∈ entry.2 := by
  rw [eq_of_transitions_ofTable declared] at mem
  exact Table.mem_of_mem_find? mem

/-- The effect of an action that can be applied is in the table. -/
theorem find?_of_apply {action state after : Value}
    (applied : (ofTable locations initial table effects).apply action state = .ok after) :
    ∃ effect, effects.find? action = some effect ∧ effect.run state = .ok after := by
  simp only [apply, MonadCells.ofResult_result, ofTable, Table.lookup, Result.bind_eq_ok_iff,
    Result.pure_eq_ok, Except.ok.injEq] at applied
  rcases applied with ⟨effect, ⟨_, ⟨_, _, rfl⟩, effect_eq⟩, run_eq⟩
  cases found : effects.find? action with
  | none =>
      rw [found] at effect_eq
      cases effect_eq
  | some present =>
      rw [found] at effect_eq
      cases effect_eq
      exact ⟨effect, rfl, run_eq⟩

theorem apply_ofTable_of_some {action state : Value} {effect : Routine Result}
    (hashable : action.IsHashable) (found : effects.find? action = some effect) :
    (ofTable locations initial table effects).apply action state = effect.run state := by
  simp [apply, ofTable, Table.lookup_of_isHashable hashable, found]

theorem apply_ofTable_of_none {action state : Value} (hashable : action.IsHashable)
    (absent : effects.find? action = none) :
    (ofTable locations initial table effects).apply action state = .error (.undefinedEffect action) := by
  simp only [apply, ofTable, Table.lookup_of_isHashable hashable, absent, Result.ok_bind,
    MonadCells.ofResult_result]
  rfl

/-- Equal locations find the same transitions and equal actions the same effect, so it is enough that
guards and effects give equal results in equal program states. -/
theorem extensional_ofTable
    (hashable : ∀ {location state : Value},
      (ofTable locations initial table effects).Occurs location state →
        location.IsHashable ∧ state.IsHashable)
    (guards : ∀ entry ∈ table, ∀ transition ∈ entry.2, transition.guard.Extensional)
    (results : ∀ entry ∈ effects, entry.2.Extensional) :
    (ofTable locations initial table effects).Extensional where
  hashable := hashable
  alike {location location' state state' transitions transitions'} occurs sameLocation sameState
      declared declared' := by
    have same : transitions = transitions' := by
      rw [transitions_ofTable (hashable occurs).1, Table.find?_congr sameLocation] at declared
      rw [transitions_ofTable (hashable (occurs.congr sameLocation sameState)).1, declared,
        Except.ok.injEq] at declared'
      exact declared'
    subst same
    refine List.forall₂_same.mpr fun transition mem => ⟨?_, BEq.rfl, BEq.rfl⟩
    rcases mem_of_transitions_ofTable declared mem with ⟨entry, entry_mem, mem⟩
    exact guards entry entry_mem transition mem sameState
  effects occurs sameState sameAction applied applied' := by
    rcases find?_of_apply applied with ⟨effect, found, run_eq⟩
    rcases find?_of_apply applied' with ⟨effect', found', run_eq'⟩
    rw [Table.find?_congr sameAction, found'] at found
    cases found
    rcases Table.mem_of_find? found' with ⟨present, entry_mem, _⟩
    exact results _ entry_mem sameState run_eq run_eq'

end Tables

end ProgramGraph

end StateSpace
