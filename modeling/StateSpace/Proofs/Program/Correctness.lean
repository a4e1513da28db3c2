import StateSpace.Proofs.Check
import StateSpace.Proofs.Formula
import StateSpace.Proofs.Program.Reached
import StateSpace.Proofs.Search.Positions

/-!
# Correctness of compiled program graphs

Formulas over locations and conditions have a meaning in a configuration of a program graph that does not
mention labels, the compiled system or the order in which operands are evaluated. The value of a formula
in the label of a configuration agrees with this meaning. So a counterexample of a check is a run that ends
where the formula is false, and a check that finds none says that the formula is true throughout all runs.

The second half needs more than the first. A search goes on from one of several equal configurations only, and
the others may declare other transitions. And in both halves the verdict of the search still has to be worded.
The last result shows what goes wrong otherwise.
-/

namespace StateSpace

/-- The meaning of a formula at a location in a program state. A proposition that is neither a location
nor a condition, and a user-defined node, is true nowhere. -/
def Formula.TrueAt : Formula Result → Value → Value → Prop
  | .truth, _, _ => True
  | .falsity, _, _ => False
  | .atomic (.plain (.atLocation place)), location, _ => (place == location) = true
  | .atomic (.plain _), _, _ => False
  | .atomic (.holds condition), _, state => condition.holds state = .ok true
  | .not body, location, state => ¬body.TrueAt location state
  | .and left right, location, state => left.TrueAt location state ∧ right.TrueAt location state
  | .or left right, location, state => left.TrueAt location state ∨ right.TrueAt location state
  | .implies left right, location, state => left.TrueAt location state → right.TrueAt location state
  | .custom _, _, _ => False

namespace ProgramGraph

/-- The formulas over locations and over conditions that have results in the program states that occur,
equal ones in equal program states. -/
inductive Interprets (graph : ProgramGraph Result) : Formula Result → Prop where
  | truth : Interprets graph .truth
  | falsity : Interprets graph .falsity
  | atLocation (place : Value) : Interprets graph (.atLocation place)
  | holds {condition : Routine Result}
      (succeeds : ∀ {location state : Value}, graph.Occurs location state →
        ∃ value, condition.run state = .ok value)
      (agrees : ∀ {location state state' value value' : Value}, graph.Occurs location state →
        (state == state') = true → condition.run state = .ok value →
          condition.run state' = .ok value' → (value == value') = true) :
      Interprets graph (.holds condition)
  | not {body : Formula Result} (ofBody : Interprets graph body) : Interprets graph (.not body)
  | and {left right : Formula Result} (ofLeft : Interprets graph left)
      (ofRight : Interprets graph right) : Interprets graph (.and left right)
  | or {left right : Formula Result} (ofLeft : Interprets graph left)
      (ofRight : Interprets graph right) : Interprets graph (.or left right)
  | implies {left right : Formula Result} (ofLeft : Interprets graph left)
      (ofRight : Interprets graph right) : Interprets graph (.implies left right)

variable {graph : ProgramGraph Result} {formula : Formula Result}

/-- The value of a formula in the label of a configuration counts as true if the formula is true there. -/
theorem Interprets.means (interprets : graph.Interprets formula) {location state : Value}
    (occurs : graph.Occurs location state) :
    formula.Means (.program location state) (formula.TrueAt location state) := by
  induction interprets with
  | truth => exact .truth
  | falsity => exact .falsity
  | atLocation place => exact .atomic rfl
  | @holds condition succeeds agrees =>
      rcases succeeds occurs with ⟨value, run_eq⟩
      have holds_eq : condition.holds state = .ok value.truthy := by
        simp [Routine.holds, run_eq]
      have labelled : (Label.program location state).holds (.holds condition) = .ok value.truthy := holds_eq
      simpa [Formula.holds, Formula.TrueAt, holds_eq] using Formula.Means.atomic labelled
  | not ofBody ih => exact ih.not
  | and ofLeft ofRight ihLeft ihRight => exact ihLeft.and ihRight
  | or ofLeft ofRight ihLeft ihRight => exact ihLeft.or ihRight
  | implies ofLeft ofRight ihLeft ihRight => exact ihLeft.implies ihRight

/-- A formula is true in all or none of the configurations that equal one that occurs. -/
theorem Interprets.trueAt_congr (interprets : graph.Interprets formula)
    {location location' state state' : Value} (occurs : graph.Occurs location state)
    (sameLocation : (location == location') = true) (sameState : (state == state') = true) :
    formula.TrueAt location state ↔ formula.TrueAt location' state' := by
  induction interprets with
  | truth => rfl
  | falsity => rfl
  | atLocation place =>
      simp only [Formula.atLocation, Atom.atLocation, Formula.TrueAt]
      rw [BEq.congr_right sameLocation]
  | @holds condition succeeds agrees =>
      rcases succeeds occurs with ⟨value, run_eq⟩
      rcases succeeds (occurs.congr sameLocation sameState) with ⟨value', run_eq'⟩
      have same := Value.truthy_eq_of_beq (agrees occurs sameState run_eq run_eq')
      simp [Formula.holds, Formula.TrueAt, Routine.holds, run_eq, run_eq', same]
  | not ofBody ih => exact not_congr ih
  | and ofLeft ofRight ihLeft ihRight => exact and_congr ihLeft ihRight
  | or ofLeft ofRight ihLeft ihRight => exact or_congr ihLeft ihRight
  | implies ofLeft ofRight ihLeft ihRight => exact imp_congr ihLeft ihRight

theorem Interprets.decides (interprets : graph.Interprets formula) (faultless : graph.Faultless) :
    graph.compile.Decides (.formula formula) where
  decided hasState labelled := by
    rcases faultless.occurs_of_hasState hasState with ⟨location, state, rfl, occurs⟩
    cases labelled
    rcases (interprets.means occurs).holds_eq with ⟨truth, holds_eq, _⟩
    exact ⟨truth, holds_eq⟩
  congruent hasState hasOther labelled labelled' same := by
    rcases faultless.occurs_of_hasState hasState with ⟨location, state, rfl, occurs⟩
    rcases faultless.occurs_of_hasState hasOther with ⟨location', state', rfl, occurs'⟩
    cases labelled
    cases labelled'
    rcases (Value.beq_programLabel_iff location state _).mp same with
      ⟨_, _, label_eq, sameLocation, sameState⟩
    cases label_eq
    exact (interprets.means occurs).holds_congr (interprets.means occurs')
      (interprets.trueAt_congr occurs sameLocation sameState)

theorem Interprets.holdsAt_iff (interprets : graph.Interprets formula) {location state : Value}
    (occurs : graph.Occurs location state) :
    (graph.compile.holdsAt (.formula formula) (.pair location state) = .ok true ↔
        formula.TrueAt location state) ∧
      (graph.compile.holdsAt (.formula formula) (.pair location state) = .ok false ↔
        ¬formula.TrueAt location state) := by
  have label_eq : graph.compile.label (.pair location state) = .ok (.program location state) := rfl
  rcases (interprets.means occurs).holds_eq with ⟨truth, holds_eq, truth_iff⟩
  simp [TransitionSystem.holdsAt, label_eq, holds_eq, ← truth_iff]

/-- A formula holds in all reachable states of the compiled system if it is true throughout all runs. -/
theorem Interprets.holdsAt_reachable_iff (interprets : graph.Interprets formula)
    (faultless : graph.Faultless) (extensional : graph.Extensional) :
    (∀ configuration, graph.compile.Reachable configuration →
        graph.compile.holdsAt (.formula formula) configuration = .ok true) ↔
      ∀ path, graph.IsRun path → ∀ location state, .pair location state ∈ path.states →
        formula.TrueAt location state := by
  have wellLabelled := extensional.compile_wellLabelled faultless
  constructor
  · intro holds path run location state visited
    have occurs := run.occurs visited
    rcases occurs.hasState faultless extensional with ⟨reached, reachable, equal⟩
    have holdsHere := holds reached reachable
    rw [wellLabelled.holdsAt_congr (interprets.decides faultless) reachable.hasState equal] at holdsHere
    exact (interprets.holdsAt_iff occurs).1.mp holdsHere
  · intro trueThroughout configuration reachable
    rcases faultless.occurs_of_reachable reachable with ⟨location, state, rfl, occurs⟩
    rcases wellLabelled.exists_valid_path reachable with ⟨path, valid, last_eq⟩
    have visited := path.last_mem_states
    rw [last_eq] at visited
    have trueHere := trueThroughout path (faultless.isRun_of_isValidIn valid) location state visited
    exact (interprets.holdsAt_iff occurs).1.mpr trueHere

end ProgramGraph

/-! ### A lamp -/

namespace Lamp

def dark : Value :=
  .state [(.str "lit", .bool false)]

def bright : Value :=
  .state [(.str "lit", .int 1)]

def isDark : Routine Result :=
  .builtin "is_dark" fun state => .ok (.bool (state == dark))

def toggle : Routine Result :=
  .builtin "toggle" fun state => .ok (if state == dark then bright else dark)

/-- Transitions between two locations, which stand there as numbers and as truth values. -/
def rows : Table (List (GuardedTransition Result)) :=
  [(.int 0, [⟨isDark, .str "press", .bool true⟩, ⟨.always, .str "press", .int 1⟩]),
    (.bool true, [⟨isDark, .str "wait", .int 0⟩, ⟨.always, .str "press", .bool false⟩])]

/-- A lamp that starts dark and that is bright at the second location. -/
def graph : ProgramGraph Result :=
  .ofTable [.int 0] ⟨[(.str "lit", .bool false)]⟩ rows
    [(.str "press", toggle), (.str "wait", .unchanged)]

theorem isDark_extensional : isDark.Extensional := by
  intro state state' result result' same ran ran'
  cases ran
  cases ran'
  rw [BEq.congr_left same]
  exact BEq.rfl

theorem toggle_extensional : toggle.Extensional := by
  intro state state' result result' same ran ran'
  cases ran
  cases ran'
  rw [BEq.congr_left same]
  exact BEq.rfl

theorem toggle_run_of_beq {state : Value} :
    ((dark == state) = true → toggle.run state = .ok bright) ∧
      ((bright == state) = true → toggle.run state = .ok dark) := by
  have run_eq : toggle.run state = .ok (if state == dark then bright else dark) := rfl
  constructor
  · intro same
    simp [run_eq, BEq.symm same]
  · intro same
    have unequal : (state == dark) = false := by
      rw [← BEq.congr_left same]
      rfl
    simp [run_eq, unequal]

theorem transitions_eq {number : Int} {location : Value}
    (same : (Value.int number == location) = true) :
    graph.transitions location = .ok ((rows.find? (.int number)).getD []) := by
  have hashable : (Value.int number).IsHashable := rfl
  rw [graph, ProgramGraph.transitions_ofTable (hashable.of_beq same), Table.find?_congr same]

/-- The lamp is dark at the first location and bright at the second. -/
theorem occurs_cases {location state : Value} (occurs : graph.Occurs location state) :
    (Value.int 0 == location) = true ∧ (dark == state) = true ∨
      (Value.int 1 == location) = true ∧ (bright == state) = true := by
  induction occurs with
  | @start location state initial same =>
      refine .inl ⟨?_, same⟩
      simpa [graph, ProgramGraph.ofTable, Value.isIn] using initial
  | @step location state action target after source taken ih =>
      rcases taken with ⟨transitions, transition, result, declared, mem, holds, applied, _, sameTarget,
        sameAfter⟩
      have press_eq : graph.apply (.str "press") state = toggle.run state := rfl
      rcases ih with ⟨sameLocation, sameState⟩ | ⟨sameLocation, sameState⟩
      · rw [toggle_run_of_beq.1 sameState] at press_eq
        cases declared.symm.trans (transitions_eq sameLocation)
        have rows_eq : (rows.find? (.int 0)).getD [] =
            [⟨isDark, .str "press", .bool true⟩, ⟨.always, .str "press", .int 1⟩] := rfl
        simp only [rows_eq, List.mem_cons, List.not_mem_nil, or_false] at mem
        rcases mem with rfl | rfl
        · cases press_eq.symm.trans applied
          exact .inr ⟨sameTarget, sameAfter⟩
        · cases press_eq.symm.trans applied
          exact .inr ⟨sameTarget, sameAfter⟩
      · rw [toggle_run_of_beq.2 sameState] at press_eq
        cases declared.symm.trans (transitions_eq sameLocation)
        have rows_eq : (rows.find? (.int 1)).getD [] =
            [⟨isDark, .str "wait", .int 0⟩, ⟨.always, .str "press", .bool false⟩] := rfl
        simp only [rows_eq, List.mem_cons, List.not_mem_nil, or_false] at mem
        rcases mem with rfl | rfl
        · have isBright : (state == dark) = false := by
            rw [← BEq.congr_left sameState]
            rfl
          have holds_eq : isDark.holds state = .ok (state == dark) := rfl
          rw [holds_eq, isBright] at holds
          cases holds
        · cases press_eq.symm.trans applied
          exact .inl ⟨sameTarget, sameAfter⟩

theorem hashable_of_occurs {location state : Value} (occurs : graph.Occurs location state) :
    location.IsHashable ∧ state.IsHashable := by
  have hashable : (Value.int 0).IsHashable ∧ (Value.int 1).IsHashable ∧
      dark.IsHashable ∧ bright.IsHashable := ⟨rfl, rfl, rfl, rfl⟩
  rcases occurs_cases occurs with ⟨sameLocation, sameState⟩ | ⟨sameLocation, sameState⟩
  · exact ⟨hashable.1.of_beq sameLocation, hashable.2.2.1.of_beq sameState⟩
  · exact ⟨hashable.2.1.of_beq sameLocation, hashable.2.2.2.of_beq sameState⟩

theorem succeeds {entry : Value × List (GuardedTransition Result)} (entry_mem : entry ∈ rows)
    {transition : GuardedTransition Result} (mem : transition ∈ entry.2) (state : Value) :
    graph.Succeeds state transition := by
  simp only [rows, List.mem_cons, List.not_mem_nil, or_false] at entry_mem
  rcases entry_mem with rfl | rfl <;> simp only [List.mem_cons, List.not_mem_nil, or_false] at mem <;>
    rcases mem with rfl | rfl <;> exact ⟨⟨_, rfl⟩, fun _ => ⟨_, rfl⟩⟩

theorem faultless : graph.Faultless where
  declared occurs := ⟨_, ProgramGraph.transitions_ofTable (hashable_of_occurs occurs).1⟩
  succeeds occurs declared transition mem := by
    rcases ProgramGraph.mem_of_transitions_ofTable declared mem with ⟨entry, entry_mem, mem⟩
    exact succeeds entry_mem mem _

theorem extensional : graph.Extensional := by
  apply ProgramGraph.extensional_ofTable hashable_of_occurs
  · simp only [rows, List.forall_mem_cons, List.not_mem_nil, false_implies, implies_true, and_true]
    have always_extensional : (Routine.always : Routine Result).Extensional := by
      intro state state' result result' same ran ran'
      cases ran
      cases ran'
      rfl
    exact ⟨⟨isDark_extensional, always_extensional⟩, isDark_extensional, always_extensional⟩
  · simp only [List.forall_mem_cons, List.not_mem_nil, false_implies, implies_true, and_true]
    refine ⟨toggle_extensional, ?_⟩
    intro state state' result result' same ran ran'
    cases ran
    cases ran'
    exact same

theorem finitelyReachable : graph.compile.FinitelyReachable := by
  refine ⟨[.pair (.int 0) dark, .pair (.int 1) bright], ?_⟩
  intro configuration reachable
  rcases faultless.occurs_of_reachable reachable with ⟨location, state, rfl, occurs⟩
  rw [Value.isIn_iff]
  rcases occurs_cases occurs with same | same
  · exact ⟨_, by simp, Value.beq_pair_iff.mpr same⟩
  · exact ⟨.pair (.int 1) bright, by simp, Value.beq_pair_iff.mpr same⟩

end Lamp

/-! ### Equal locations that go on differently -/

namespace Twins

/-- Only the truth value leads on, not the number that equals it. -/
def rows : Value → List (GuardedTransition Result)
  | .bool true => [⟨.always, .str "go", .int 5⟩]
  | _ => []

/-- No variables. -/
def empty : ProgramState :=
  ⟨[]⟩

/-- Both values are initial locations. -/
def graph : ProgramGraph Result where
  initialLocations := [.int 1, .bool true]
  initialState := empty
  transitions location := .ok (rows location)
  effect _ := .ok .unchanged

/-- The property that the transition was not taken. -/
def property : Property Result :=
  .formula (.not (.atLocation (.int 5)))

theorem mem_rows {location : Value} {transition : GuardedTransition Result}
    (mem : transition ∈ rows location) :
    location = .bool true ∧ transition = ⟨.always, .str "go", .int 5⟩ := by
  unfold rows at mem
  split at mem
  · exact ⟨rfl, List.mem_singleton.mp mem⟩
  · cases mem

theorem faultless : graph.Faultless where
  declared _ := ⟨_, rfl⟩
  succeeds _ declared transition mem := by
    cases declared
    rcases mem_rows mem with ⟨_, rfl⟩
    exact ⟨⟨_, rfl⟩, fun _ => ⟨_, rfl⟩⟩

theorem invariant : graph.Invariant fun location state =>
    location ∈ [.int 1, .bool true, .int 5] ∧ state = empty.toValue where
  start location mem := by
    have among : location ∈ [.int 1, .bool true] ++ [.int 5] := List.mem_append_left _ mem
    exact ⟨among, rfl⟩
  step := by
    rintro location state after transitions transition ⟨_, rfl⟩ declared mem _ applied
    cases declared
    rcases mem_rows mem with ⟨_, rfl⟩
    cases applied
    exact ⟨by simp, rfl⟩

theorem finitelyReachable : graph.compile.FinitelyReachable := by
  refine ⟨[.int 1, .bool true, .int 5].map fun location => .pair location empty.toValue, ?_⟩
  intro configuration reachable
  rcases invariant.exists_of_reachable reachable with ⟨location, state, rfl, location_mem, rfl⟩
  exact Value.isIn_of_mem (List.mem_map_of_mem location_mem)

theorem run : graph.IsRun
    (.listed (.pair (.bool true) empty.toValue) [⟨.str "go", .pair (.int 5) empty.toValue⟩]) := by
  refine ⟨.bool true, empty.toValue, rfl, rfl, BEq.rfl, .int 5, empty.toValue, rfl, ?_, trivial⟩
  exact ⟨_, ⟨.always, .str "go", .int 5⟩, empty.toValue, rfl, List.mem_singleton.mpr rfl, rfl, rfl, BEq.rfl,
    BEq.rfl, BEq.rfl⟩

/-- The search reports the number and takes the truth value for the same location. -/
theorem yields_holds : graph.compile.Yields property (.ok (.holds 1)) := by
  have ended : (graph.compile.explore 2).ending = .exhausted := rfl
  have two : graph.compile.check property 2 = .ok (.holds 1) := rfl
  have checked : ∀ more, graph.compile.check property (2 + more) = .ok (.holds 1) := by
    intro more
    rw [TransitionSystem.check_add_of_exhausted ended, two]
  have shown : (Verdict.holds 1).isPrintable property = true :=
    ProgramGraph.isPrintable_holds_not_atLocation (by decide) (by decide)
  rw [← Verdict.worded_eq_ok_iff.mpr ⟨shown, rfl⟩]
  exact TransitionSystem.yields_of_check checked

end Twins

namespace ProgramGraph

end ProgramGraph

end StateSpace
