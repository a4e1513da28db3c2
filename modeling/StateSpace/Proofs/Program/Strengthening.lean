import StateSpace.Proofs.OrderIndependence
import StateSpace.Proofs.Program.Correctness
import StateSpace.Proofs.Program.Reached

/-!
# Stronger guards

A program graph strengthens another if they differ in guards only and its guards hold nowhere else. It then
takes fewer transitions, so the configurations that it reaches are among those that the other one reaches.
The two searches need not resemble each other, since a transition that is not taken changes what is found
first and by which path, but what is reached is compared without them. Properties that hold throughout the
other graph hold throughout the stronger one.
-/

namespace StateSpace

/-- A transition differs from another in its guard only, and if its guard holds in a program state, so does
that of the other. -/
structure GuardedTransition.Strengthens (state : Value) (transition weaker : GuardedTransition Result) :
    Prop where
  action : transition.action = weaker.action
  target : transition.target = weaker.target
  guard : transition.guard.holds state = .ok true → weaker.guard.holds state = .ok true

theorem GuardedTransition.Strengthens.exists_mem {state : Value}
    {transitions weaker : List (GuardedTransition Result)}
    (strengthens : List.Forall₂ (Strengthens state) transitions weaker)
    {transition : GuardedTransition Result} (mem : transition ∈ transitions) :
    ∃ other ∈ weaker, Strengthens state transition other := by
  induction strengthens with
  | nil => simp at mem
  | cons first _ ih =>
      rcases List.mem_cons.mp mem with rfl | later
      · exact ⟨_, List.mem_cons_self, first⟩
      · rcases ih later with ⟨other, other_mem, strengthens⟩
        exact ⟨other, List.mem_cons_of_mem _ other_mem, strengthens⟩

namespace ProgramGraph

/-- A program graph has the same start and the same effects as another, and wherever the other one comes its
transitions differ in guards that are stronger. -/
structure Strengthens (graph weaker : ProgramGraph Result) : Prop where
  initialLocations : graph.initialLocations = weaker.initialLocations
  initialState : graph.initialState = weaker.initialState
  effect : graph.effect = weaker.effect
  transitions : ∀ {location state : Value} {rows rows' : List (GuardedTransition Result)},
    weaker.Reaches location state → graph.transitions location = .ok rows →
      weaker.transitions location = .ok rows' →
        List.Forall₂ (GuardedTransition.Strengthens state) rows rows'

variable {graph weaker : ProgramGraph Result} {property : Property Result}

theorem Steady.mono {reached others : Value → Value → Prop} (steady : graph.Steady reached)
    (among : ∀ {location state : Value}, others location state → reached location state) :
    graph.Steady others where
  hashable here := steady.hashable (among here)
  alike here there := steady.alike (among here) (among there)
  effects here there := steady.effects (among here) (among there)

namespace Strengthens

theorem apply_eq (strengthens : graph.Strengthens weaker) (action state : Value) :
    graph.apply action state = weaker.apply action state := by
  rw [apply, apply, strengthens.effect]

theorem invariant (strengthens : graph.Strengthens weaker) (succeeds : weaker.SucceedsIn weaker.Reaches) :
    graph.Invariant weaker.Reaches where
  start location location_mem := by
    rw [strengthens.initialLocations] at location_mem
    rw [strengthens.initialState]
    exact .initial (List.mem_map_of_mem location_mem)
  step := by
    intro location state after transitions transition reaches declared mem holds applied
    rcases succeeds reaches with ⟨transitions', declared', succeedsHere⟩
    rcases GuardedTransition.Strengthens.exists_mem (strengthens.transitions reaches declared declared') mem
      with ⟨other, other_mem, stronger⟩
    rw [strengthens.apply_eq, stronger.action] at applied
    rw [stronger.target]
    exact reaches.step declared' succeedsHere other_mem (stronger.guard holds) applied

/-- What a program graph reaches is reached by every weaker one. -/
theorem reachable_mono (strengthens : graph.Strengthens weaker)
    (succeeds : weaker.SucceedsIn weaker.Reaches) {configuration : Value}
    (reachable : graph.compile.Reachable configuration) : weaker.compile.Reachable configuration := by
  rcases (strengthens.invariant succeeds).exists_of_reachable reachable with ⟨location, state, rfl, reaches⟩
  exact reaches

theorem finitelyReachable (strengthens : graph.Strengthens weaker)
    (succeeds : weaker.SucceedsIn weaker.Reaches) (finite : weaker.compile.FinitelyReachable) :
    graph.compile.FinitelyReachable := by
  rcases finite with ⟨cover, covered⟩
  refine ⟨cover, ?_⟩
  intro configuration reachable
  exact covered configuration (strengthens.reachable_mono succeeds reachable)

end Strengthens

section Tables

variable {locations : List Value} {initial : ProgramState}
  {table table' : Table (List (GuardedTransition Result))} {effects : Table (Routine Result)}

theorem forall₂_find? {state : Value}
    (rows : List.Forall₂ (fun entry entry' => entry.1 = entry'.1 ∧
      List.Forall₂ (GuardedTransition.Strengthens state) entry.2 entry'.2) table table')
    (location : Value) :
    List.Forall₂ (GuardedTransition.Strengthens state) ((table.find? location).getD [])
      ((table'.find? location).getD []) := by
  induction rows with
  | nil => exact .nil
  | @cons entry entry' rest rest' first _ ih =>
      rcases entry with ⟨key, transitions⟩
      rcases entry' with ⟨key', transitions'⟩
      rcases first with ⟨rfl, stronger⟩
      by_cases here : (key == location) = true
      · simpa [Table.find?, here] using stronger
      · simpa [Table.find?, here] using ih

/-- Tables with the same keys, in which each transition is strengthened, give such program graphs. -/
theorem strengthens_ofTable
    (rows : ∀ {location state : Value}, (ofTable locations initial table' effects).Reaches location state →
      List.Forall₂ (fun entry entry' => entry.1 = entry'.1 ∧
        List.Forall₂ (GuardedTransition.Strengthens state) entry.2 entry'.2) table table') :
    (ofTable locations initial table effects).Strengthens (ofTable locations initial table' effects) where
  initialLocations := rfl
  initialState := rfl
  effect := rfl
  transitions reaches declared declared' := by
    rw [eq_of_transitions_ofTable declared, eq_of_transitions_ofTable declared']
    exact forall₂_find? (rows reaches) _

end Tables

/-! ### What a check without a counterexample says -/

/-- A property that is decided in the labels does not tell equal reached configurations apart. -/
theorem holdsAt_congr_of_decidedIn (decided : property.DecidedIn graph.ReachesLabel)
    {configuration other : Value} (reachable : graph.compile.Reachable configuration)
    (reachable' : graph.compile.Reachable other) (equal : (configuration == other) = true) :
    graph.compile.holdsAt property configuration = graph.compile.holdsAt property other := by
  rcases exists_reaches reachable with ⟨location, state, rfl, reaches⟩
  rcases exists_reaches reachable' with ⟨location', state', rfl, reaches'⟩
  apply decided.congruent ⟨location, state, reaches, rfl⟩ ⟨location', state', reaches', rfl⟩
  exact (Value.beq_programLabel_iff location state _).mpr
    ⟨location', state', rfl, Value.beq_pair_iff.mp equal⟩

/-- A check that finds no counterexample has found the property to hold in all reached configurations. -/
theorem Steady.holdsAt_of_answers_none (steady : graph.Steady graph.Reaches)
    (decided : property.DecidedIn graph.ReachesLabel) (answers : graph.compile.Answers property none)
    {configuration : Value} (reachable : graph.compile.Reachable configuration) :
    graph.compile.holdsAt property configuration = .ok true := by
  rcases answers with ⟨bound, verdict, checked, settled, unnamed⟩
  have judged := checked 0
  cases verdict with
  | undecided => exact absurd rfl settled
  | violated counterexample count => cases unnamed
  | holds count =>
      rw [TransitionSystem.check_eq] at judged
      rcases TransitionSystem.judge_holds judged with ⟨ended, holds⟩
      have found := TransitionSystem.isIn_explore_of_exhausted compile_paired steady.coherent ended reachable
      rcases Value.isIn_iff.mp found with ⟨value, value_mem, equal⟩
      rcases List.mem_map.mp value_mem with ⟨record, record_mem, rfl⟩
      have record_reachable := (TransitionSystem.reachable_of_mem_explore compile_paired record_mem).1
      rw [← holdsAt_congr_of_decidedIn decided record_reachable reachable equal]
      exact holds record record_mem

/-- Strengthening guards is monotone. If the weaker program graph has finitely many reachable configurations
and nothing fails in them, the search of either graph ends, and the states that it finds for the stronger
graph are among those that it finds for the weaker one. A check that finds no counterexample in the weaker
graph finds none in the stronger one. -/
theorem strengthens_monotone (strengthens : graph.Strengthens weaker)
    (steady : graph.Steady weaker.Reaches) (succeeds : graph.SucceedsIn weaker.Reaches)
    (steady' : weaker.Steady weaker.Reaches) (succeeds' : weaker.SucceedsIn weaker.Reaches)
    (finite : weaker.compile.FinitelyReachable) :
    (∃ bound states states',
      (∀ more, graph.compile.reachableStates? (bound + more) = .ok (some states)) ∧
      (∀ more, weaker.compile.reachableStates? (bound + more) = .ok (some states')) ∧
      (∀ state, graph.compile.Reachable state → state.isIn states = true) ∧
      ∀ state : Value, state.isIn states = true → state.isIn states' = true) ∧
    ∀ property : Property Result, property.DecidedIn weaker.ReachesLabel →
      weaker.compile.Answers property none → graph.compile.Answers property none := by
  have among : ∀ {location state : Value}, graph.Reaches location state → weaker.Reaches location state :=
    strengthens.reachable_mono succeeds'
  have regular : graph.compile.Regular :=
    (steady.mono among).regular fun reaches => succeeds (among reaches)
  have regular' : weaker.compile.Regular := steady'.regular succeeds'
  have finite' := strengthens.finitelyReachable succeeds' finite
  refine ⟨?_, ?_⟩
  · rcases regular.explore_exhausted finite' with ⟨bound, records, ended, _, reachable, found⟩
    rcases regular'.explore_exhausted finite with ⟨bound', records', ended', _, _, found'⟩
    refine ⟨bound + bound', records.map Record.state, records'.map Record.state, ?_, ?_, found, ?_⟩
    · intro more
      rw [Nat.add_assoc]
      simp [TransitionSystem.reachableStates?, Search.Trace.states, ended (bound' + more)]
    · intro more
      rw [Nat.add_comm bound, Nat.add_assoc]
      simp [TransitionSystem.reachableStates?, Search.Trace.states, ended' (bound + more)]
    · intro state isIn
      rcases Value.isIn_iff.mp isIn with ⟨value, value_mem, equal⟩
      rcases List.mem_map.mp value_mem with ⟨record, record_mem, rfl⟩
      rw [← Value.isIn_congr equal]
      exact found' _ (strengthens.reachable_mono succeeds' (reachable record record_mem))
  · intro property decided answers
    apply regular.answers_none finite'
    intro configuration reachable
    have reachable' := strengthens.reachable_mono succeeds' reachable
    have holds := steady'.holdsAt_of_answers_none decided answers reachable'
    rcases exists_reaches reachable with ⟨location, state, rfl, _⟩
    exact holds

end ProgramGraph

/-! ### A lamp that cannot be pressed -/

namespace Lamp

def never : Routine Result :=
  .builtin "never" fun _ => .ok (.bool false)

/-- The transitions of the lamp with guards under which it stays at its first location. -/
def idleRows : Table (List (GuardedTransition Result)) :=
  [(.int 0, [⟨never, .str "press", .bool true⟩, ⟨never, .str "press", .int 1⟩]),
    (.bool true, [⟨isDark, .str "wait", .int 0⟩, ⟨isDark, .str "press", .bool false⟩])]

def idle : ProgramGraph Result :=
  .ofTable [.int 0] ⟨[(.str "lit", .bool false)]⟩ idleRows
    [(.str "press", toggle), (.str "wait", .unchanged)]

theorem hashable_of_reaches {location state : Value} (reaches : graph.Reaches location state) :
    location.IsHashable ∧ state.IsHashable := by
  rcases faultless.occurs_of_reachable reaches with ⟨location', state', parts, occurs⟩
  rcases Value.pair_inj.mp parts with ⟨rfl, rfl⟩
  exact hashable_of_occurs occurs

theorem reliableOn_isDark {values : Value → Prop} : isDark.ReliableOn values where
  succeeds _ := ⟨_, rfl⟩
  congruent _ _ := isDark_extensional

theorem reliableOn_toggle {values : Value → Prop} : toggle.ReliableOn values where
  succeeds _ := ⟨_, rfl⟩
  congruent _ _ := toggle_extensional

/-- Tables that use the guards and the actions of the lamp. -/
def Fits (table : Table (List (GuardedTransition Result))) : Prop :=
  ∀ entry ∈ table, ∀ transition ∈ entry.2,
    (transition.guard = isDark ∨ transition.guard = .always ∨ transition.guard = never) ∧
      (transition.action = .str "press" ∨ transition.action = .str "wait")

theorem Fits.reliable {table : Table (List (GuardedTransition Result))} (fits : Fits table) :
    ProgramGraph.Reliable table [(.str "press", toggle), (.str "wait", .unchanged)] graph.Reaches where
  hashable := hashable_of_reaches
  guards entry entry_mem transition mem := by
    rcases (fits entry entry_mem transition mem).1 with guard_eq | guard_eq | guard_eq <;> rw [guard_eq]
    · exact reliableOn_isDark
    · exact Routine.reliableOn_constant
    · exact Routine.reliableOn_constant
  effects := by
    simp only [List.forall_mem_cons, List.not_mem_nil, false_implies, implies_true, and_true]
    exact ⟨reliableOn_toggle, Routine.reliableOn_unchanged⟩

theorem Fits.succeedsIn {table : Table (List (GuardedTransition Result))} (fits : Fits table) :
    (ProgramGraph.ofTable [.int 0] ⟨[(.str "lit", .bool false)]⟩ table
      [(.str "press", toggle), (.str "wait", .unchanged)]).SucceedsIn graph.Reaches := by
  apply fits.reliable.succeedsIn
  · intro entry entry_mem transition mem
    rcases (fits entry entry_mem transition mem).2 with action_eq | action_eq <;> rw [action_eq] <;> rfl
  · intro location state transition _ mem _
    rcases Table.mem_of_mem_find? mem with ⟨entry, entry_mem, mem⟩
    rcases (fits entry entry_mem transition mem).2 with action_eq | action_eq <;> rw [action_eq]
    · exact ⟨toggle, rfl⟩
    · exact ⟨.unchanged, rfl⟩

theorem fits_rows : Fits rows := by
  simp [Fits, rows]

theorem fits_idleRows : Fits idleRows := by
  simp [Fits, idleRows]

theorem idle_strengthens : idle.Strengthens graph := by
  apply ProgramGraph.strengthens_ofTable
  intro location state _
  have never_fails : never.holds state = .ok true → False := by
    intro holds
    cases holds
  have same : GuardedTransition.Strengthens state ⟨isDark, .str "wait", .int 0⟩
      ⟨isDark, .str "wait", .int 0⟩ := ⟨rfl, rfl, id⟩
  have weakened : GuardedTransition.Strengthens state ⟨isDark, .str "press", .bool false⟩
      ⟨.always, .str "press", .bool false⟩ := ⟨rfl, rfl, fun _ => rfl⟩
  refine .cons ⟨rfl, .cons ⟨rfl, rfl, ?_⟩ (.cons ⟨rfl, rfl, ?_⟩ .nil)⟩
    (.cons ⟨rfl, .cons same (.cons weakened .nil)⟩ .nil)
  · exact fun holds => (never_fails holds).elim
  · exact fun holds => (never_fails holds).elim

/-- The formula that the lamp is not at a third location. -/
def notAtThird : Property Result :=
  .formula (.not (.atLocation (.int 2)))

theorem means_notAtThird (location state : Value) :
    (Formula.not (.atLocation (.int 2)) : Formula Result).Means (.program location state)
      (¬(Value.int 2 == location) = true) :=
  (ProgramGraph.means_atLocation (.int 2) location state).not

theorem notAtThird_decidedIn : notAtThird.DecidedIn graph.ReachesLabel where
  decided := by
    rintro label ⟨location, state, _, rfl⟩
    rcases (means_notAtThird location state).holds_eq with ⟨truth, holds_eq, _⟩
    exact ⟨truth, holds_eq⟩
  congruent := by
    rintro label label' ⟨location, state, _, rfl⟩ ⟨location', state', _, rfl⟩ same
    rcases (Value.beq_programLabel_iff location state _).mp same with ⟨_, _, label_eq, sameLocation, _⟩
    cases label_eq
    apply (means_notAtThird location state).holds_congr (means_notAtThird location' state')
    rw [BEq.congr_right sameLocation]

theorem answers_notAtThird : graph.compile.Answers notAtThird none := by
  apply (fits_rows.reliable.steady.regular fits_rows.succeedsIn).answers_none finitelyReachable
  intro configuration reachable
  rcases faultless.occurs_of_reachable reachable with ⟨location, state, rfl, occurs⟩
  apply TransitionSystem.holdsAt_of_means rfl (means_notAtThird location state)
  intro same
  rcases occurs_cases occurs with ⟨here, _⟩ | ⟨here, _⟩
  · cases BEq.trans here (BEq.symm same)
  · cases BEq.trans here (BEq.symm same)

end Lamp

/-- The lamp that cannot be pressed reaches no more than the lamp, and what a check shows of the lamp it
also shows of it. -/
theorem ProgramGraph.strengthens_monotone_lamp :
    Lamp.idle.Strengthens Lamp.graph ∧
      (∃ bound states states',
        (∀ more, Lamp.idle.compile.reachableStates? (bound + more) = .ok (some states)) ∧
        (∀ more, Lamp.graph.compile.reachableStates? (bound + more) = .ok (some states')) ∧
        (∀ state, Lamp.idle.compile.Reachable state → state.isIn states = true) ∧
        ∀ state : Value, state.isIn states = true → state.isIn states' = true) ∧
      Lamp.notAtThird.DecidedIn Lamp.graph.ReachesLabel ∧
      Lamp.graph.compile.Answers Lamp.notAtThird none ∧
      Lamp.idle.compile.Answers Lamp.notAtThird none := by
  rcases strengthens_monotone Lamp.idle_strengthens Lamp.fits_idleRows.reliable.steady
    Lamp.fits_idleRows.succeedsIn Lamp.fits_rows.reliable.steady Lamp.fits_rows.succeedsIn
    Lamp.finitelyReachable with ⟨found, kept⟩
  exact ⟨Lamp.idle_strengthens, found, Lamp.notAtThird_decidedIn, Lamp.answers_notAtThird,
    kept Lamp.notAtThird Lamp.notAtThird_decidedIn Lamp.answers_notAtThird⟩

end StateSpace
