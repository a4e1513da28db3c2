import StateSpace.Proofs.Program.Runs
import StateSpace.Proofs.Search.Faults
import StateSpace.Proofs.Verdict

/-!
# Configurations that a compiled system reaches

A configuration is reached from an initial location by transitions that are enabled and have an effect.
This needs no assumption on the program graph: where a guard or an effect fails, the search does not go on.
So whatever enabled transitions preserve holds in all reached configurations.

A program graph is steady in some configurations if these may be keys and equal ones among them go on alike.
It is then enough that nothing fails there for a search to find all that is reached.
-/

namespace StateSpace

/-- A routine gives a result for each of the given values, and equal results for equal ones. -/
structure Routine.ReliableOn (routine : Routine Result) (values : Value → Prop) : Prop where
  succeeds : ∀ {value : Value}, values value → ∃ result, routine.run value = .ok result
  congruent : ∀ {value value' result result' : Value}, values value → values value' →
    (value == value') = true → routine.run value = .ok result → routine.run value' = .ok result' →
      (result == result') = true

namespace Routine

variable {values : Value → Prop}

theorem reliableOn_constant {name : String} {result : Value} :
    (builtin name fun _ => .ok result : Routine Result).ReliableOn values where
  succeeds _ := ⟨result, rfl⟩
  congruent _ _ _ ran ran' := by
    cases ran
    cases ran'
    exact BEq.rfl

theorem reliableOn_unchanged : (unchanged : Routine Result).ReliableOn values where
  succeeds _ := ⟨_, rfl⟩
  congruent _ _ same ran ran' := by
    cases ran
    cases ran'
    exact same

theorem reliableOn_of_eq {routine : Routine Result}
    (same : ∀ {value value' : Value}, values value → values value' → (value == value') = true →
      value = value')
    (succeeds : ∀ {value : Value}, values value → ∃ result, routine.run value = .ok result) :
    routine.ReliableOn values where
  succeeds := succeeds
  congruent here there equal ran ran' := by
    rw [same here there equal, ran', Except.ok.injEq] at ran
    rw [ran]
    exact BEq.rfl

theorem ReliableOn.holds_congr {routine : Routine Result} (reliable : routine.ReliableOn values)
    {value value' : Value} (here : values value) (there : values value') (same : (value == value') = true) :
    routine.holds value = routine.holds value' := by
  rcases reliable.succeeds here with ⟨result, ran⟩
  rcases reliable.succeeds there with ⟨result', ran'⟩
  simp [holds, ran, ran', Value.truthy_eq_of_beq (reliable.congruent here there same ran ran')]

end Routine

namespace ProgramGraph

/-- The compiled system reaches the configuration of a location and a program state. -/
def Reaches (graph : ProgramGraph Result) (location state : Value) : Prop :=
  graph.compile.Reachable (.pair location state)

/-- The labels of the configurations that the compiled system reaches. -/
def ReachesLabel (graph : ProgramGraph Result) (label : Label) : Prop :=
  ∃ location state, graph.Reaches location state ∧ label = .program location state

theorem means_atLocation (place location state : Value) :
    (Formula.atLocation place).Means (.program location state) ((place == location) = true) :=
  .atomic rfl

theorem isPrintable_not_atLocation (place : Value) :
    (Property.formula (.not (.atLocation place)) : Property Result).isPrintable = place.isPrintable := by
  simp [Property.isPrintable, Formula.isPrintable, Formula.atLocation, Atom.atLocation, Atom.isPrintable,
    Value.isPrintable]

theorem isPrintable_holds_not_atLocation {place checked : Nat} (small : place ≤ maxDigits)
    (few : checked ≤ maxDigits) :
    (Verdict.holds checked).isPrintable (.formula (.not (.atLocation (.int place))) : Property Result) = true := by
  rw [Verdict.isPrintable_holds_iff, isPrintable_not_atLocation, Value.isPrintable_int_iff]
  exact ⟨lt_numberLimit small, lt_numberLimit few⟩

variable {graph : ProgramGraph Result}

/-! ### Steps between reached configurations -/

theorem toList_compile {configuration location state : Value}
    (parts : configuration.asPair = .ok (location, state)) :
    (graph.compile.transitions configuration).toList =
      (graph.compile.transitions (.pair location state)).toList := by
  have parts' : (Value.pair location state).asPair = .ok (location, state) := rfl
  simp [compile, successors, configurationOf, parts, parts']

theorem compile_paired : graph.compile.Paired := by
  intro configuration items listed
  cases parts : configuration.asPair with
  | error fault => simp [compile, successors, configurationOf, parts] at listed
  | ok pair =>
      have same : (graph.compile.transitions configuration).toList =
          (graph.compile.transitions (.pair pair.1 pair.2)).toList := toList_compile parts
      rw [same] at listed
      rcases succeeds_of_toList listed with ⟨transitions, declared, succeeds⟩
      exact ⟨_, same.trans (lists_compile_of_succeeds declared succeeds)⟩

/-- What holds at the start and is kept by enabled transitions. -/
structure Invariant (graph : ProgramGraph Result) (holds : Value → Value → Prop) : Prop where
  start : ∀ location ∈ graph.initialLocations, holds location graph.initialState.toValue
  step : ∀ {location state after : Value} {transitions : List (GuardedTransition Result)}
    {transition : GuardedTransition Result}, holds location state →
      graph.transitions location = .ok transitions → transition ∈ transitions →
      transition.guard.holds state = .ok true → graph.apply transition.action state = .ok after →
        holds transition.target after

/-- Invariants hold in all reached configurations. -/
theorem Invariant.exists_of_reachable {holds : Value → Value → Prop} (invariant : graph.Invariant holds)
    {configuration : Value} (reachable : graph.compile.Reachable configuration) :
    ∃ location state, configuration = .pair location state ∧ holds location state := by
  induction reachable with
  | initial mem =>
      rcases List.mem_map.mp mem with ⟨location, location_mem, rfl⟩
      exact ⟨location, _, rfl, invariant.start location location_mem⟩
  | step _ listed mem ih =>
      rcases ih with ⟨location, state, rfl, kept⟩
      rcases exists_taken_of_lists listed mem with
        ⟨transitions, transition, after, declared, transition_mem, enabled, applied, pair_eq⟩
      cases pair_eq
      exact ⟨_, after, rfl, invariant.step kept declared transition_mem enabled applied⟩

theorem Invariant.of_reaches {holds : Value → Value → Prop} (invariant : graph.Invariant holds)
    {location state : Value} (reaches : graph.Reaches location state) : holds location state := by
  rcases invariant.exists_of_reachable reaches with ⟨location', state', parts, kept⟩
  rcases Value.pair_inj.mp parts with ⟨rfl, rfl⟩
  exact kept

theorem exists_reaches {configuration : Value} (reachable : graph.compile.Reachable configuration) :
    ∃ location state, configuration = .pair location state ∧ graph.Reaches location state := by
  have invariant : graph.Invariant fun _ _ => True := ⟨fun _ _ => trivial, fun _ _ _ _ _ => trivial⟩
  rcases invariant.exists_of_reachable reachable with ⟨location, state, rfl, _⟩
  exact ⟨location, state, rfl, reachable⟩

theorem exists_reaches_of_mem_explore {bound : Nat} {record : Record}
    (record_mem : record ∈ (graph.compile.explore bound).records) :
    ∃ location state, record.state = .pair location state ∧ graph.Reaches location state :=
  exists_reaches (TransitionSystem.reachable_of_mem_explore compile_paired record_mem).1

theorem Reaches.step {location state after : Value} {transitions : List (GuardedTransition Result)}
    {transition : GuardedTransition Result} (reaches : graph.Reaches location state)
    (declared : graph.transitions location = .ok transitions)
    (succeeds : ∀ other ∈ transitions, graph.Succeeds state other) (mem : transition ∈ transitions)
    (holds : transition.guard.holds state = .ok true)
    (applied : graph.apply transition.action state = .ok after) :
    graph.Reaches transition.target after := by
  apply TransitionSystem.Reachable.step reaches (lists_compile_of_succeeds declared succeeds)
  exact List.mem_filterMap.mpr
    ⟨transition, mem, taken_eq_some_iff.mpr ⟨holds, after, applied, rfl⟩⟩

/-! ### Configurations that go on alike -/

/-- The given configurations may be keys. Equal ones declare transitions that are alike, and equal actions
have equal results in their program states. -/
structure Steady (graph : ProgramGraph Result) (reached : Value → Value → Prop) : Prop where
  hashable : ∀ {location state : Value}, reached location state →
    location.IsHashable ∧ state.IsHashable
  alike : ∀ {location location' state state' : Value}
    {transitions transitions' : List (GuardedTransition Result)}, reached location state →
      reached location' state' → (location == location') = true → (state == state') = true →
      graph.transitions location = .ok transitions → graph.transitions location' = .ok transitions' →
        List.Forall₂ (Alike state state') transitions transitions'
  effects : ∀ {location location' state state' action action' after after' : Value},
    reached location state → reached location' state' → (state == state') = true →
      (action == action') = true → graph.apply action state = .ok after →
      graph.apply action' state' = .ok after' → (after == after') = true

/-- Wherever they are declared in the given configurations, transitions succeed. -/
def SucceedsIn (graph : ProgramGraph Result) (reached : Value → Value → Prop) : Prop :=
  ∀ {location state : Value}, reached location state →
    ∃ transitions, graph.transitions location = .ok transitions ∧
      ∀ transition ∈ transitions, graph.Succeeds state transition

theorem Steady.coherent (steady : graph.Steady graph.Reaches) : graph.compile.Coherent := by
  intro configuration configuration' pairs pairs' reachable reachable' equal listed listed'
  rcases exists_reaches reachable with ⟨location, state, rfl, reaches⟩
  rcases exists_reaches reachable' with ⟨location', state', rfl, reaches'⟩
  rcases Value.beq_pair_iff.mp equal with ⟨sameLocation, sameState⟩
  rcases succeeds_of_toList listed with ⟨transitions, declared, succeeds⟩
  rcases succeeds_of_toList listed' with ⟨transitions', declared', succeeds'⟩
  rw [listed.unique (lists_compile_of_succeeds declared succeeds),
    listed'.unique (lists_compile_of_succeeds declared' succeeds')]
  apply taken_congr _ succeeds succeeds'
  · exact steady.alike reaches reaches' sameLocation sameState declared declared'
  · exact steady.effects reaches reaches' sameState

theorem Steady.hashable_of_reachable (steady : graph.Steady graph.Reaches) {configuration : Value}
    (reachable : graph.compile.Reachable configuration) : configuration.IsHashable := by
  rcases exists_reaches reachable with ⟨location, state, rfl, reaches⟩
  have parts := steady.hashable reaches
  simpa [Value.IsHashable, Value.pair] using parts

theorem Steady.regular (steady : graph.Steady graph.Reaches)
    (succeeds : graph.SucceedsIn graph.Reaches) : graph.compile.Regular where
  hashable := steady.hashable_of_reachable
  listed reachable := by
    rcases exists_reaches reachable with ⟨location, state, rfl, reaches⟩
    rcases succeeds reaches with ⟨transitions, declared, succeedsHere⟩
    exact ⟨_, lists_compile_of_succeeds declared succeedsHere⟩
  congruent := steady.coherent

/-! ### Tables of routines that do not fail -/

/-- The given configurations may be keys, and the guards and effects of two tables are reliable in their
program states. -/
structure Reliable (table : Table (List (GuardedTransition Result))) (effects : Table (Routine Result))
    (reached : Value → Value → Prop) : Prop where
  hashable : ∀ {location state : Value}, reached location state →
    location.IsHashable ∧ state.IsHashable
  guards : ∀ entry ∈ table, ∀ transition ∈ entry.2,
    transition.guard.ReliableOn fun state => ∃ location, reached location state
  effects : ∀ entry ∈ effects, entry.2.ReliableOn fun state => ∃ location, reached location state

namespace Reliable

variable {locations : List Value} {initial : ProgramState}
  {table : Table (List (GuardedTransition Result))} {effects : Table (Routine Result)}
  {reached : Value → Value → Prop}

theorem steady (reliable : Reliable table effects reached) :
    (ofTable locations initial table effects).Steady reached where
  hashable := reliable.hashable
  alike {location location' state state' transitions transitions'} here there sameLocation sameState
      declared declared' := by
    have same : transitions = transitions' := by
      rw [transitions_ofTable (reliable.hashable here).1, Table.find?_congr sameLocation] at declared
      rw [transitions_ofTable (reliable.hashable there).1, declared, Except.ok.injEq] at declared'
      exact declared'
    subst same
    refine List.forall₂_same.mpr fun transition mem => ⟨?_, BEq.rfl, BEq.rfl⟩
    rcases mem_of_transitions_ofTable declared mem with ⟨entry, entry_mem, mem⟩
    exact (reliable.guards entry entry_mem transition mem).congruent ⟨_, here⟩ ⟨_, there⟩ sameState
  effects here there sameState sameAction applied applied' := by
    rcases find?_of_apply applied with ⟨effect, found, run_eq⟩
    rcases find?_of_apply applied' with ⟨effect', found', run_eq'⟩
    rw [Table.find?_congr sameAction, found'] at found
    cases found
    rcases Table.mem_of_find? found' with ⟨present, entry_mem, _⟩
    exact (reliable.effects _ entry_mem).congruent ⟨_, here⟩ ⟨_, there⟩ sameState run_eq run_eq'

/-- Where every enabled action has an effect, the transitions of the tables succeed. -/
theorem succeedsIn (reliable : Reliable table effects reached)
    (actions : ∀ entry ∈ table, ∀ transition ∈ entry.2, transition.action.IsHashable)
    (defined : ∀ {location state : Value} {transition : GuardedTransition Result},
      reached location state → transition ∈ (table.find? location).getD [] →
        transition.guard.holds state = .ok true → ∃ effect, effects.find? transition.action = some effect) :
    (ofTable locations initial table effects).SucceedsIn reached := by
  intro location state here
  refine ⟨_, transitions_ofTable (reliable.hashable here).1, ?_⟩
  intro transition mem
  rcases Table.mem_of_mem_find? mem with ⟨entry, entry_mem, entry_mem'⟩
  refine ⟨(reliable.guards entry entry_mem transition entry_mem').succeeds ⟨_, here⟩, ?_⟩
  intro holds
  rcases defined here mem holds with ⟨effect, found⟩
  rcases Table.mem_of_find? found with ⟨present, effect_mem, _⟩
  rw [apply_ofTable_of_some (actions entry entry_mem transition entry_mem') found]
  exact (reliable.effects _ effect_mem).succeeds ⟨_, here⟩

end Reliable

end ProgramGraph

end StateSpace
