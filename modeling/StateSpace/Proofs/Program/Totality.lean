import StateSpace.Expr
import StateSpace.Proofs.Program.FaultOrder
import StateSpace.Proofs.Program.Reached

/-!
# Effects that are missing

A table of effects need not define every action. The effect of an action is asked for when an enabled
transition is to be listed, so a missing effect shows as a fault of the search, and only then. A search that
ends without a fault has listed the transitions of every reached configuration, up to equality: it certifies
that no enabled action is without an effect.

The fault is that of the configuration reported last. What a check does after its search may still fail. Its
notices show the property, the state of a violation and some numbers, and a number may be too long to be shown.
-/

namespace StateSpace

namespace ProgramGraph

/-- Where all guards have results, only the effect of an enabled transition can fail. -/
theorem exists_apply_error {graph : ProgramGraph Result} {location state : Value}
    {transitions : List (GuardedTransition Result)} {fault : Fault}
    (declared : graph.transitions location = .ok transitions)
    (guards : ∀ transition ∈ transitions, ∃ value, transition.guard.run state = .ok value)
    (failed : (graph.compile.transitions (.pair location state)).toList = .error fault) :
    ∃ transition ∈ transitions, transition.guard.holds state = .ok true ∧
      graph.apply transition.action state = .error fault := by
  rcases (toList_compile_eq_error_iff declared).mp failed with
    ⟨_, row, _, rfl, _, raised⟩ | ⟨_, _, row, _, enabled_eq, _, raised⟩
  · exfalso
    rcases guards row (by simp) with ⟨value, run_eq⟩
    cases run_eq.symm.trans raised
  · have row_mem : row ∈ transitions.filter (·.isEnabledIn state) := by
      rw [enabled_eq]
      simp
    rcases List.mem_filter.mp row_mem with ⟨mem, enabled⟩
    exact ⟨row, mem, GuardedTransition.isEnabledIn_iff.mp enabled, raised⟩

/-- A check of a property that is decided fails only with the fault of the search, and the property then
holds in all that was reported. -/
theorem failed_of_check_error {graph : ProgramGraph Result} {property : Property Result}
    (decided : ∀ label, graph.ReachesLabel label → ∃ truth, property.holds label = .ok truth)
    {bound : Nat} {fault : Fault} (failed : graph.compile.check property bound = .error fault) :
    (graph.compile.explore bound).ending = .failed fault ∧
      ∀ record ∈ (graph.compile.explore bound).records,
        graph.compile.holdsAt property record.state = .ok true := by
  rw [TransitionSystem.check_eq] at failed
  rcases TransitionSystem.judge_error failed with ⟨record, record_mem, raised⟩ | ended
  · exfalso
    rcases exists_reaches_of_mem_explore record_mem with ⟨location, state, state_eq, reaches⟩
    rcases decided _ ⟨location, state, reaches, rfl⟩ with ⟨truth, truth_eq⟩
    have holds_eq : graph.compile.holdsAt property (.pair location state) = .ok truth := truth_eq
    rw [state_eq, holds_eq] at raised
    cases raised
  · exact ended

/-- A row of a table is enabled in a configuration that a program graph reaches. -/
structure EnabledAt (graph : ProgramGraph Result) (table : Table (List (GuardedTransition Result)))
    (location state : Value) (row : GuardedTransition Result) : Prop where
  reached : graph.Reaches location state
  declared : row ∈ (table.find? location).getD []
  holds : row.guard.holds state = .ok true

section Tables

variable {locations : List Value} {initial : ProgramState}
  {table : Table (List (GuardedTransition Result))} {effects : Table (Routine Result)}

theorem Reliable.undefined_of_apply_error {reached : Value → Value → Prop}
    (reliable : Reliable table effects reached) {location state action : Value} {fault : Fault}
    (here : reached location state) (hashable : action.IsHashable)
    (failed : (ofTable locations initial table effects).apply action state = .error fault) :
    effects.find? action = none ∧ fault = .undefinedEffect action := by
  cases found : effects.find? action with
  | none =>
      rw [apply_ofTable_of_none hashable found, Except.error.injEq] at failed
      exact ⟨rfl, failed.symm⟩
  | some effect =>
      rcases Table.mem_of_find? found with ⟨present, entry_mem, _⟩
      rcases (reliable.effects _ entry_mem).succeeds ⟨location, here⟩ with ⟨result, run_eq⟩
      rw [apply_ofTable_of_some hashable found, run_eq] at failed
      cases failed

section Searches

variable (reliable : Reliable table effects (ofTable locations initial table effects).Reaches)
  {bound : Nat}

include reliable

/-- A search that has ended certifies that every enabled action has an effect. -/
theorem defined_of_exhausted
    (ended : ((ofTable locations initial table effects).compile.explore bound).ending = .exhausted)
    {location state : Value} {row : GuardedTransition Result}
    (enabled : (ofTable locations initial table effects).EnabledAt table location state row) :
    ∃ effect, effects.find? row.action = some effect := by
  have found := TransitionSystem.isIn_explore_of_exhausted compile_paired reliable.steady.coherent ended
    enabled.reached
  -- the search may have reported another configuration, but an equal one, and listed what leaves it
  rcases Value.isIn_iff.mp found with ⟨value, value_mem, equal⟩
  rcases List.mem_map.mp value_mem with ⟨record, record_mem, rfl⟩
  rcases TransitionSystem.exists_lists_of_exhausted compile_paired ended record record_mem with
    ⟨pairs, listed⟩
  rcases exists_reaches_of_mem_explore record_mem with ⟨location', state', state_eq, reaches⟩
  rw [state_eq] at equal listed
  rcases Value.beq_pair_iff.mp equal with ⟨sameLocation, sameState⟩
  rcases succeeds_of_toList listed with ⟨transitions, declared, succeeds⟩
  have mem := enabled.declared
  rw [← Table.find?_congr sameLocation, ← eq_of_transitions_ofTable declared] at mem
  rcases mem_of_transitions_ofTable declared mem with ⟨entry, entry_mem, entry_mem'⟩
  have holds : row.guard.holds state' = .ok true := by
    rw [(reliable.guards entry entry_mem row entry_mem').holds_congr ⟨_, reaches⟩ ⟨_, enabled.reached⟩
      sameState]
    exact enabled.holds
  rcases (succeeds row mem).effect holds with ⟨after, applied⟩
  rcases find?_of_apply applied with ⟨effect, effect_eq, _⟩
  exact ⟨effect, effect_eq⟩

/-- A search fails only for want of the effect of an action that is enabled in the configuration that it
has reported last. -/
theorem undefined_of_failed
    (actions : ∀ entry ∈ table, ∀ row ∈ entry.2, row.action.IsHashable) {fault : Fault}
    (ended : ((ofTable locations initial table effects).compile.explore bound).ending = .failed fault) :
    ∃ earlier record location state row,
      ((ofTable locations initial table effects).compile.explore bound).records = earlier ++ [record] ∧
      record.state = .pair location state ∧
      (ofTable locations initial table effects).EnabledAt table location state row ∧
      effects.find? row.action = none ∧ fault = .undefinedEffect row.action := by
  rcases TransitionSystem.explore_failed_cases compile_paired ended with
    ⟨earlier, record, records_eq, failed⟩ | ⟨configuration, reachable, unhashable⟩
  · have record_mem : record ∈
        ((ofTable locations initial table effects).compile.explore bound).records := by
      rw [records_eq]
      simp
    rcases exists_reaches_of_mem_explore record_mem with ⟨location, state, state_eq, reaches⟩
    rw [state_eq] at failed
    have guards : ∀ row ∈ (table.find? location).getD [], ∃ value, row.guard.run state = .ok value := by
      intro row mem
      rcases Table.mem_of_mem_find? mem with ⟨entry, entry_mem, mem⟩
      exact (reliable.guards entry entry_mem row mem).succeeds ⟨location, reaches⟩
    rcases exists_apply_error (transitions_ofTable (reliable.hashable reaches).1) guards failed with
      ⟨row, mem, holds, applied⟩
    rcases Table.mem_of_mem_find? mem with ⟨entry, entry_mem, entry_mem'⟩
    rcases reliable.undefined_of_apply_error reaches (actions entry entry_mem row entry_mem') applied with
      ⟨absent, fault_eq⟩
    exact ⟨earlier, record, location, state, row, records_eq, state_eq, ⟨reaches, mem, holds⟩, absent,
      fault_eq⟩
  · rw [Value.requireHashable_eq_ok_iff.mpr (reliable.steady.hashable_of_reachable reachable)] at unhashable
    cases unhashable

end Searches

/-- Checks certify the effects of a program graph whose tables are reliable. If a check ends without a
counterexample, no enabled action at a reached configuration is without an effect. If it fails, it is for
want of the effect of an action that is enabled in the configuration reported last, and the property held in
all that was reported. Nothing else fails, except that the search may come to a verdict that cannot be worded.
As long as enabled actions have effects, it does not matter which others are missing: the search comes to a
verdict, and the check gives it if it can be worded. -/
theorem report_certifies_effects {graph : ProgramGraph Result}
    (built : graph = ofTable locations initial table effects)
    (reliable : Reliable table effects graph.Reaches)
    (actions : ∀ entry ∈ table, ∀ row ∈ entry.2, row.action.IsHashable) {property : Property Result}
    (decided : ∀ label, graph.ReachesLabel label → ∃ truth, property.holds label = .ok truth)
    (bound : Nat) :
    (∀ count notices, graph.compile.report property bound = .ok (.holds count, notices) →
      ∀ location state row, graph.EnabledAt table location state row →
        ∃ effect, effects.find? row.action = some effect) ∧
    (∀ fault, graph.compile.report property bound = .error fault →
      (∃ earlier record location state row,
        (graph.compile.explore bound).records = earlier ++ [record] ∧
        record.state = .pair location state ∧ graph.EnabledAt table location state row ∧
        effects.find? row.action = none ∧ fault = .undefinedEffect row.action ∧
        ∀ reported ∈ (graph.compile.explore bound).records,
          graph.compile.holdsAt property reported.state = .ok true) ∨
      fault = .numberTooLong ∧ ∃ verdict,
        graph.compile.check property bound = .ok verdict ∧ verdict.isPrintable property = false) ∧
    ((∀ location state row, graph.EnabledAt table location state row →
        ∃ effect, effects.find? row.action = some effect) →
      ∃ verdict, graph.compile.check property bound = .ok verdict ∧
        (graph.compile.report property bound).map Prod.fst = verdict.worded property) := by
  subst built
  have undefined : ∀ {fault}, (ofTable locations initial table effects).compile.check property bound =
      .error fault → _ := fun failed =>
    undefined_of_failed reliable actions (failed_of_check_error decided failed).1
  refine ⟨?_, ?_, ?_⟩
  · intro count notices reported location state row enabled
    have checked := TransitionSystem.check_of_report reported
    rw [TransitionSystem.check_eq] at checked
    exact defined_of_exhausted reliable (TransitionSystem.judge_holds checked).1 enabled
  · intro fault failed
    rcases TransitionSystem.check_of_report_error failed with raised | unworded
    · left
      rcases undefined raised with
        ⟨earlier, record, location, state, row, records_eq, state_eq, enabled, absent, fault_eq⟩
      exact ⟨earlier, record, location, state, row, records_eq, state_eq, enabled, absent, fault_eq,
        (failed_of_check_error decided raised).2⟩
    · right
      exact unworded
  · intro defined
    cases checked : (ofTable locations initial table effects).compile.check property bound with
    | ok verdict =>
        refine ⟨verdict, rfl, ?_⟩
        rw [TransitionSystem.map_report, checked, Result.ok_bind]
    | error raised =>
        rcases undefined checked with ⟨_, _, location, state, row, _, _, enabled, absent, _⟩
        rcases defined location state row enabled with ⟨effect, found⟩
        rw [absent] at found
        cases found

end Tables

/-- That a program is not at a location is decided in all configurations. -/
theorem decided_not_atLocation {graph : ProgramGraph Result} (target : Value) (label : Label)
    (reaches : graph.ReachesLabel label) :
    ∃ truth, (Property.formula (.not (.atLocation target)) : Property Result).holds label = .ok truth := by
  rcases reaches with ⟨location, state, _, rfl⟩
  rcases (means_atLocation target location state).not.holds_eq with ⟨truth, holds_eq, _⟩
  exact ⟨truth, holds_eq⟩

end ProgramGraph

/-! ### An errand on which something may be lost -/

namespace Errand

def isLost : Routine Result :=
  .builtin "is_lost" fun state => state.item (.str "lost")

/-- Nothing leads to the last location. -/
def rows : Table (List (GuardedTransition Result)) :=
  [(.int 0, [⟨.always, .str "leave", .int 1⟩]), (.int 1, [⟨isLost, .str "lose", .int 0⟩]),
    (.int 2, [⟨.always, .str "lose", .int 0⟩])]

/-- Losing something has no effect defined. -/
def effects : Table (Routine Result) :=
  [(.str "leave", .unchanged)]

def start (lost : Bool) : ProgramState :=
  ⟨[(.str "lost", .bool lost)]⟩

def graph (lost : Bool) : ProgramGraph Result :=
  .ofTable [.int 0] (start lost) rows effects

/-- Nothing changes the program state, and losing something does not lead on. -/
theorem invariant (lost : Bool) : (graph lost).Invariant fun location state =>
    (location = .int 0 ∨ location = .int 1) ∧ state = (start lost).toValue where
  start location mem := ⟨.inl (List.mem_singleton.mp mem), rfl⟩
  step := by
    rintro location state after transitions transition ⟨rfl | rfl, rfl⟩ declared mem _ applied
    · cases declared
      cases List.mem_singleton.mp mem
      cases applied
      exact ⟨.inr rfl, rfl⟩
    · cases declared
      cases List.mem_singleton.mp mem
      cases applied

theorem reliable (lost : Bool) : ProgramGraph.Reliable rows effects (graph lost).Reaches where
  hashable reaches := by
    rcases (invariant lost).of_reaches reaches with ⟨rfl | rfl, rfl⟩ <;> exact ⟨rfl, rfl⟩
  guards := by
    have reads : isLost.ReliableOn fun state => ∃ location, (graph lost).Reaches location state := by
      apply Routine.reliableOn_of_eq
      · rintro state state' ⟨_, here⟩ ⟨_, there⟩ _
        rw [((invariant lost).of_reaches here).2, ((invariant lost).of_reaches there).2]
      · rintro state ⟨_, here⟩
        rw [((invariant lost).of_reaches here).2]
        exact ⟨.bool lost, rfl⟩
    simp only [rows, List.forall_mem_cons, List.not_mem_nil, false_implies, implies_true, and_true]
    exact ⟨Routine.reliableOn_constant, reads, Routine.reliableOn_constant⟩
  effects := by
    simp only [effects, List.forall_mem_cons, List.not_mem_nil, false_implies, implies_true, and_true]
    exact Routine.reliableOn_unchanged

theorem hashable_actions : ∀ entry ∈ rows, ∀ row ∈ entry.2, row.action.IsHashable := by
  simp [rows, Value.IsHashable]

def property : Property Result :=
  .formula (.not (.atLocation (.int 2)))

end Errand

/-- If something is lost, the check of the errand fails for want of the effect. If nothing is lost, it ends
well although two rows of the table have no effect, one of them at a location that is reached. -/
theorem ProgramGraph.report_certifies_effects_errand :
    (Errand.graph true).compile.report Errand.property 3 = .error (.undefinedEffect (.str "lose")) ∧
      (∃ location state row, (Errand.graph true).EnabledAt Errand.rows location state row ∧
        Errand.effects.find? row.action = none ∧
        Fault.undefinedEffect (.str "lose") = .undefinedEffect row.action) ∧
      (∃ notices, (Errand.graph false).compile.report Errand.property 3 = .ok (.holds 2, notices)) ∧
      ∀ location state row, (Errand.graph false).EnabledAt Errand.rows location state row →
        ∃ effect, Errand.effects.find? row.action = some effect := by
  have failed : (Errand.graph true).compile.report Errand.property 3 =
      .error (.undefinedEffect (.str "lose")) := rfl
  have checked : (Errand.graph false).compile.check Errand.property 3 = .ok (.holds 2) := rfl
  have shown : (Verdict.holds 2).isPrintable Errand.property = true :=
    isPrintable_holds_not_atLocation (by decide) (by decide)
  have reported := TransitionSystem.report_of_check checked
  rw [if_pos shown] at reported
  refine ⟨failed, ?_, ⟨_, reported⟩, ?_⟩
  · rcases (report_certifies_effects rfl (Errand.reliable true) Errand.hashable_actions
      (decided_not_atLocation (.int 2)) 3).2.1 _ failed with undefined | ⟨fault_eq, _⟩
    · rcases undefined with ⟨_, _, location, state, row, _, _, enabled, absent, fault_eq, _⟩
      exact ⟨location, state, row, enabled, absent, fault_eq⟩
    · cases fault_eq
  · exact (report_certifies_effects rfl (Errand.reliable false) Errand.hashable_actions
      (decided_not_atLocation (.int 2)) 3).1 2 _ reported

/-! ### A number that is squared -/

namespace Squaring

def assignment (number : Int) : ProgramState :=
  ⟨[(.str "x", .int number)]⟩

def square : Routine Result :=
  .assign (.made 0) [("x", .computed fun state =>
    (Expr.arithmetic .mul (.lookup (.ok (.str "x"))) (.lookup (.ok (.str "x")))).evaluate state)]

def rows : Table (List (GuardedTransition Result)) :=
  [(.int 0, [⟨.always, .str "square", .int 1⟩])]

def effects : Table (Routine Result) :=
  [(.str "square", square)]

def graph (number : Int) : ProgramGraph Result :=
  .ofTable [.int 0] (assignment number) rows effects

def property : Property Result :=
  .formula (.not (.atLocation (.int 1)))

variable {number : Int}

theorem run_square : square.run (assignment number).toValue = .ok (assignment (number * number)).toValue :=
  rfl

theorem invariant (number : Int) : (graph number).Invariant fun location state =>
    location = .int 0 ∧ state = (assignment number).toValue ∨
      location = .int 1 ∧ state = (assignment (number * number)).toValue where
  start location mem := .inl ⟨List.mem_singleton.mp mem, rfl⟩
  step := by
    rintro location state after transitions transition (⟨rfl, rfl⟩ | ⟨rfl, rfl⟩) declared mem _ applied
    · cases declared
      cases List.mem_singleton.mp mem
      cases applied
      exact .inr ⟨rfl, rfl⟩
    · cases declared
      cases mem

theorem eq_of_beq_assignment {other : Int}
    (same : ((assignment number).toValue == (assignment other).toValue) = true) : number = other := by
  change Value.beq (.state _) (.state _) = true at same
  simp [assignment, Value.unmarked, Value.markWhere, Value.standsFor, Value.countsAs] at same
  omega

theorem reliable (number : Int) : ProgramGraph.Reliable rows effects (graph number).Reaches where
  hashable reaches := by
    rcases (invariant number).of_reaches reaches with ⟨rfl, rfl⟩ | ⟨rfl, rfl⟩ <;> exact ⟨rfl, rfl⟩
  guards := by
    simp only [rows, List.forall_mem_cons, List.not_mem_nil, false_implies, implies_true, and_true]
    exact Routine.reliableOn_constant
  effects := by
    have assigned : ∀ {state}, (∃ location, (graph number).Reaches location state) →
        ∃ value, state = (assignment value).toValue := by
      rintro state ⟨location, reaches⟩
      rcases (invariant number).of_reaches reaches with ⟨_, state_eq⟩ | ⟨_, state_eq⟩ <;> exact ⟨_, state_eq⟩
    simp only [effects, List.forall_mem_cons, List.not_mem_nil, false_implies, implies_true, and_true]
    apply Routine.reliableOn_of_eq
    · intro state state' here there same
      rcases assigned here with ⟨value, rfl⟩
      rcases assigned there with ⟨value', rfl⟩
      rw [eq_of_beq_assignment same]
    · intro state here
      rcases assigned here with ⟨value, rfl⟩
      exact ⟨_, run_square⟩

def violation (number : Int) : Counterexample where
  state := .pair (.int 1) (assignment (number * number)).toValue
  path := (Path.single (.pair (.int 0) (assignment number).toValue)).extend (.str "square")
    (.pair (.int 1) (assignment (number * number)).toValue)

theorem isPrintable_violation (long : numberLimit ≤ (number * number).natAbs) :
    (violation number).state.isPrintable = false := by
  have hidden : ¬(number * number).natAbs < numberLimit := Nat.not_lt.mpr long
  simp [violation, assignment, ProgramState.toValue, Value.pair, Value.isPrintable, Value.arePrintable,
    Value.areEntriesPrintable, Value.isEntryPrintable, hidden]

/-- The check of a number whose square is too long finds the violation and cannot word it. -/
theorem yields_error (long : numberLimit ≤ (number * number).natAbs) :
    (graph number).compile.Yields property (.error .numberTooLong) := by
  have starts : (graph number).compile.initialStates =
      [.pair (.int 0) (assignment number).toValue] := rfl
  have listed : (graph number).compile.Lists (.pair (.int 0) (assignment number).toValue)
      [(.str "square", (violation number).state)] := rfl
  rcases TransitionSystem.exists_reports_initial starts rfl with ⟨last, reports⟩
  rcases @TransitionSystem.exists_reports_first _ [] _ last reports _ _ _ listed rfl rfl with
    ⟨following, reports'⟩
  apply TransitionSystem.yields_error_of_reports reports'
  · simp only [List.nil_append, List.mem_singleton, forall_eq]
    rfl
  · rfl
  · exact isPrintable_violation long

/-- The number that is a one and a number of zeros. -/
def power (zeros : Nat) : Int :=
  (Nat.pow 10 zeros : Nat)

theorem pow_le_natAbs_mul {zeros digits : Nat} (long : digits ≤ zeros + zeros) :
    Nat.pow 10 digits ≤ (power zeros * power zeros).natAbs := by
  rw [power, Int.natAbs_mul, Int.natAbs_natCast]
  calc Nat.pow 10 digits
      ≤ Nat.pow 10 (zeros + zeros) := Nat.pow_le_pow_right (by decide) long
    _ = Nat.pow 10 zeros * Nat.pow 10 zeros := Nat.pow_add 10 zeros zeros

theorem numberLimit_le_natAbs_mul {zeros : Nat} (long : maxDigits ≤ zeros + zeros) :
    numberLimit ≤ (power zeros * power zeros).natAbs := by
  unfold numberLimit
  exact pow_le_natAbs_mul long

end Squaring

/-- A check may fail although every row of the table has an effect, and guards, effects and the property do
not fail. -/
theorem ProgramGraph.report_squaring_unworded :
    Reliable Squaring.rows Squaring.effects (Squaring.graph (Squaring.power 2150)).Reaches ∧
      (∀ entry ∈ Squaring.rows, ∀ row ∈ entry.2, row.action.IsHashable ∧
        ∃ effect, Squaring.effects.find? row.action = some effect) ∧
      (∀ label, (Squaring.graph (Squaring.power 2150)).ReachesLabel label →
        ∃ truth, Squaring.property.holds label = .ok truth) ∧
      (Squaring.graph (Squaring.power 2150)).compile.Yields Squaring.property (.error .numberTooLong) := by
  refine ⟨Squaring.reliable _, ?_, decided_not_atLocation (.int 1),
    Squaring.yields_error (Squaring.numberLimit_le_natAbs_mul (by decide))⟩
  simp only [Squaring.rows, List.forall_mem_cons, List.not_mem_nil, false_implies, implies_true, and_true]
  exact ⟨rfl, Squaring.square, rfl⟩

end StateSpace
