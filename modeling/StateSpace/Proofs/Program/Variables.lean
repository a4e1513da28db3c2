import StateSpace.Proofs.Program.Reached
import StateSpace.Proofs.Program.Updates

/-!
# Variables along runs of program graphs

An update replaces values and never adds a variable, because a variable that is not declared is refused
before anything is bound. So if the effects of a program graph are assignments, all program states that are
reached declare the variables of the initial one in the same order.

What a function reads of a program state is described by `Reading`: it asks for one variable after the other,
and which one it asks for next may depend on the values found so far. A function that asks for declared
variables only is never told that one is missing.
-/

namespace StateSpace

/-! ### Assignments -/

namespace Routine

/-- The effects that change nothing or assign to named variables. -/
inductive Assigns : Routine Result → Prop where
  | unchanged : Assigns .unchanged
  | assign (identity : Identity) (updates : List (String × Update Result)) :
      Assigns (.assign identity updates)

theorem evaluateUpdates_eq_mapM (state : Value) (updates : Table (Update Result)) :
    evaluateUpdates state updates =
      (updates.mapM fun entry => do pure (entry.1, ← entry.2.evaluate state)) := by
  induction updates with
  | nil => rfl
  | cons entry updates ih =>
      rw [evaluateUpdates, List.mapM_cons, ih, bind_assoc]
      rfl

theorem keys_evaluateUpdates {updates : Table (Update Result)} {state : Value} {values : Table Value}
    (evaluated : evaluateUpdates state updates = .ok values) : values.keys = updates.keys := by
  rw [evaluateUpdates_eq_mapM, Result.mapM_eq_ok_iff] at evaluated
  induction evaluated with
  | nil => rfl
  | @cons entry change updates values first _ ih =>
      simp only [Result.bind_eq_ok_iff, Result.pure_eq_ok, Except.ok.injEq] at first
      rcases first with ⟨value, _, rfl⟩
      exact congrArg (entry.1 :: ·) ih

theorem exists_evaluateUpdates {updates : Table (Update Result)} {state : Value}
    (evaluate : ∀ entry ∈ updates, ∃ value, entry.2.evaluate state = .ok value) :
    ∃ values, evaluateUpdates state updates = .ok values := by
  rw [evaluateUpdates_eq_mapM]
  apply Result.exists_mapM_eq_ok_iff.mpr
  intro entry entry_mem
  rcases evaluate entry entry_mem with ⟨value, value_eq⟩
  exact ⟨(entry.1, value), by rw [value_eq, Result.ok_bind, Result.pure_eq_ok]⟩

/-- The updates of an assignment, of which the last one for a name counts. -/
def updateTable (updates : List (String × Update Result)) : Table (Update Result) :=
  Table.merge [] (updates.map fun (name, update) => (.str name, update))

theorem assign_run_toValue (identity : Identity) (updates : List (String × Update Result))
    (state : ProgramState) :
    (assign identity updates).run state.toValue = (do
      let values ← evaluateUpdates state.toValue (updateTable updates)
      pure (← state.update values).toValue) :=
  rfl

/-- An assignment gives a program state that declares the same variables in the same order. -/
theorem Assigns.declared_eq {routine : Routine Result} (assigns : routine.Assigns) {state : ProgramState}
    {result : Value} (ran : routine.run state.toValue = .ok result) :
    ∃ after : ProgramState, result = after.toValue ∧ after.declared = state.declared := by
  cases assigns with
  | unchanged =>
      cases ran
      exact ⟨state, rfl, rfl⟩
  | assign identity updates =>
      rw [assign_run_toValue] at ran
      simp only [Result.bind_eq_ok_iff, Result.pure_eq_ok, Except.ok.injEq] at ran
      rcases ran with ⟨values, _, after, updated, rfl⟩
      exact ⟨after, rfl, ProgramState.declared_update updated⟩

section Undeclared

variable {updates : List (String × Update Result)} {state : ProgramState} {name : String}

theorem has_updateTable (named : name ∈ updates.map Prod.fst) :
    (updateTable updates).has (.str name) = true := by
  rcases List.mem_map.mp named with ⟨update, update_mem, rfl⟩
  rw [updateTable, Table.has_merge, Bool.or_eq_true]
  right
  rw [Table.has, List.any_eq_true]
  exact ⟨_, List.mem_map_of_mem update_mem, BEq.rfl⟩

/-- Once its updates are evaluated, an assignment that names a variable that is not declared is refused. -/
theorem update_of_evaluateUpdates (named : name ∈ updates.map Prod.fst)
    (undeclared : state.entries.has (.str name) = false) {values : Table Value}
    (evaluated : evaluateUpdates state.toValue (updateTable updates) = .ok values) :
    ∃ first ∈ (updateTable updates).keys, state.entries.has first = false ∧
      state.update values = .error (state.missing first) := by
  have sameKeys := keys_evaluateUpdates evaluated
  have namedThere : values.has (.str name) = true := by
    rw [Table.has_eq_of_keys_eq sameKeys]
    exact has_updateTable named
  rw [← sameKeys]
  exact ProgramState.update_of_undeclared namedThere undeclared

theorem assign_run_of_undeclared (identity : Identity) (named : name ∈ updates.map Prod.fst)
    (undeclared : state.entries.has (.str name) = false) :
    ∃ fault, (assign identity updates).run state.toValue = .error fault := by
  rw [assign_run_toValue]
  cases evaluated : evaluateUpdates state.toValue (updateTable updates) with
  | error fault => exact ⟨fault, rfl⟩
  | ok values =>
      rcases update_of_evaluateUpdates named undeclared evaluated with ⟨first, _, _, updated⟩
      exact ⟨state.missing first, by simp [updated]⟩

/-- If all updates have values, the fault is that of the first variable that is not declared. -/
theorem assign_run_eq_missing (identity : Identity) (named : name ∈ updates.map Prod.fst)
    (undeclared : state.entries.has (.str name) = false)
    (evaluate : ∀ update ∈ updates, ∃ value, update.2.evaluate state.toValue = .ok value) :
    ∃ first ∈ updates.map Prod.fst, state.entries.has (.str first) = false ∧
      (assign identity updates).run state.toValue = .error (state.missing (.str first)) := by
  have given : ∀ entry ∈ updateTable updates, (∃ first ∈ updates.map Prod.fst, entry.1 = .str first) ∧
      ∃ value, entry.2.evaluate state.toValue = .ok value := by
    apply Table.forall_mem_merge (fun key => ∃ first ∈ updates.map Prod.fst, key = .str first)
      (fun update : Update Result => ∃ value, update.evaluate state.toValue = .ok value)
    · simp
    · rw [List.forall_mem_map]
      intro update update_mem
      exact ⟨⟨_, List.mem_map_of_mem update_mem, rfl⟩, evaluate update update_mem⟩
  rcases exists_evaluateUpdates fun entry entry_mem => (given entry entry_mem).2 with
    ⟨values, evaluated⟩
  rcases update_of_evaluateUpdates named undeclared evaluated with ⟨key, key_mem, undeclaredKey, updated⟩
  rcases List.mem_map.mp key_mem with ⟨entry, entry_mem, rfl⟩
  rcases (given entry entry_mem).1 with ⟨first, first_mem, key_eq⟩
  rw [key_eq] at undeclaredKey updated
  refine ⟨first, first_mem, undeclaredKey, ?_⟩
  rw [assign_run_toValue, evaluated]
  simp [updated]

end Undeclared

end Routine

/-! ### What a function reads -/

/-- Functions of a program state that use it only by asking for variables of which some condition holds.
They do not report a missing variable of their own accord. -/
inductive Reading (readable : Value → Prop) : (ProgramState → Result Value) → Prop where
  | answer {result : Result Value}
      (other : ∀ name declared, result ≠ .error (.missingVariable name declared)) :
      Reading readable fun _ => result
  | ask {name : Value} {goOn : Value → ProgramState → Result Value} (allowed : readable name)
      (later : ∀ value, Reading readable (goOn value)) :
      Reading readable fun state => do goOn (← state.get name) state

/-- The function that gives the value of a variable. -/
theorem Reading.get {readable : Value → Prop} {name : Value} (allowed : readable name) :
    Reading readable fun state => state.get name := by
  have asks : Reading readable fun state => state.get name >>= fun value => .ok value := by
    apply Reading.ask allowed
    intro value
    apply Reading.answer
    simp
  have bind_ok : ∀ result : Result Value, (result >>= fun value => .ok value) = result := by
    intro result
    cases result <;> rfl
  simpa only [bind_ok] using asks

/-- A function that asks for variables that have values is never told that one is missing. -/
theorem Reading.ne_missingVariable {readable : Value → Prop} {function : ProgramState → Result Value}
    (reading : Reading readable function) {state : ProgramState}
    (found : ∀ name, readable name → ∃ value, state.get name = .ok value) (name : Value)
    (declared : List Value) : function state ≠ .error (.missingVariable name declared) := by
  induction reading with
  | answer other => exact other name declared
  | @ask asked goOn allowed _ ih =>
      rcases found asked allowed with ⟨value, value_eq⟩
      simp only [value_eq, Result.ok_bind]
      exact ih value

/-- A guard or condition that asks a program state for certain variables only. -/
def Routine.Reads (routine : Routine Result) (readable : Value → Prop) : Prop :=
  Reading readable fun state => routine.run state.toValue

theorem Routine.Reads.holds_ne_missingVariable {routine : Routine Result} {readable : Value → Prop}
    (reads : routine.Reads readable) {state : ProgramState}
    (found : ∀ name, readable name → ∃ value, state.get name = .ok value) (name : Value)
    (declared : List Value) : routine.holds state.toValue ≠ .error (.missingVariable name declared) := by
  have notMissing := Reading.ne_missingVariable reads found name declared
  rw [Routine.holds]
  cases ran : routine.run state.toValue with
  | ok value => simp
  | error fault =>
      rw [ran] at notMissing
      simpa using notMissing

namespace ProgramGraph

/-- All effects of a program graph change nothing or are assignments. -/
def Assigning (graph : ProgramGraph Result) : Prop :=
  ∀ {action : Value} {routine : Routine Result}, graph.effect action = .ok routine → routine.Assigns

variable {graph : ProgramGraph Result}

theorem Assigning.invariant (assigning : graph.Assigning) :
    graph.Invariant fun _ value => ∃ state : ProgramState,
      value = state.toValue ∧ state.declared = graph.initialState.declared where
  start _ _ := ⟨graph.initialState, rfl, rfl⟩
  step := by
    rintro location value after transitions transition ⟨state, rfl, declared⟩ _ _ _ applied
    simp only [apply, MonadCells.ofResult_result, Result.bind_eq_ok_iff] at applied
    rcases applied with ⟨routine, effect_eq, ran⟩
    rcases (assigning effect_eq).declared_eq ran with ⟨state', rfl, declared'⟩
    exact ⟨state', rfl, declared'.trans declared⟩

theorem assigning_ofTable {locations : List Value} {initial : ProgramState}
    {table : Table (List (GuardedTransition Result))} {effects : Table (Routine Result)}
    (assigns : ∀ entry ∈ effects, entry.2.Assigns) :
    (ofTable locations initial table effects).Assigning := by
  intro action routine effect_eq
  simp only [ofTable, Table.lookup, Result.bind_eq_ok_iff, Result.pure_eq_ok,
    Except.ok.injEq] at effect_eq
  rcases effect_eq with ⟨_, ⟨_, _, rfl⟩, effect_eq⟩
  cases found : effects.find? action with
  | none =>
      rw [found] at effect_eq
      cases effect_eq
  | some effect =>
      rw [found] at effect_eq
      cases effect_eq
      rcases Table.mem_of_find? found with ⟨present, entry_mem, _⟩
      exact assigns _ entry_mem

/-- Where the effect of an enabled transition fails, no transition can be listed. -/
theorem toList_of_apply_error {location state : Value} {transitions : List (GuardedTransition Result)}
    {transition : GuardedTransition Result} {fault : Fault}
    (declared : graph.transitions location = .ok transitions) (mem : transition ∈ transitions)
    (holds : transition.guard.holds state = .ok true)
    (failed : graph.apply transition.action state = .error fault) :
    ∃ raised, (graph.compile.transitions (.pair location state)).toList = .error raised := by
  cases listed : (graph.compile.transitions (.pair location state)).toList with
  | error raised => exact ⟨raised, rfl⟩
  | ok items =>
      rcases succeeds_of_toList listed with ⟨transitions', declared', succeeds⟩
      rw [declared, Except.ok.injEq] at declared'
      subst declared'
      rcases (succeeds transition mem).effect holds with ⟨after, applied⟩
      rw [failed] at applied
      cases applied

theorem holdsAt_holds (condition : Routine Result) (location state : Value) :
    graph.compile.holdsAt (.formula (.holds condition)) (.pair location state) =
      condition.holds state := by
  have labelled : graph.compile.label (.pair location state) = .ok (.program location state) := rfl
  simp only [TransitionSystem.holdsAt, labelled, Result.ok_bind, Property.holds, Property.evaluate,
    Formula.holds, Formula.evaluate, Label.holds]
  cases condition.holds state with
  | error fault => rfl
  | ok truth => rfl

/-- Along all runs of a program graph whose effects are assignments, the program states declare the
variables of the initial one, in the same order. So a declared variable has a value wherever a search comes,
and no guard or condition that asks for declared variables is told that one is missing. An enabled
assignment to a variable that is not declared makes the search fail, and it is the variable that is reported
if all values to be assigned exist. -/
theorem variables_preserved (assigning : graph.Assigning) :
    (∀ bound, ∀ record ∈ (graph.compile.explore bound).records,
      graph.compile.Reachable record.state) ∧
    ∀ configuration, graph.compile.Reachable configuration →
      ∃ location, ∃ state : ProgramState, configuration = .pair location state.toValue ∧
        state.declared = graph.initialState.declared ∧
        (∀ name, graph.initialState.declares name = .ok true → ∃ value, state.get name = .ok value) ∧
        (∀ routine : Routine Result,
          routine.Reads (fun name => graph.initialState.declares name = .ok true) →
          ∀ name declared,
            routine.holds state.toValue ≠ .error (.missingVariable name declared) ∧
            graph.compile.holdsAt (.formula (.holds routine)) configuration ≠
              .error (.missingVariable name declared)) ∧
        ∀ transitions transition identity updates,
          graph.transitions location = .ok transitions → transition ∈ transitions →
          transition.guard.holds state.toValue = .ok true →
          graph.effect transition.action = .ok (.assign identity updates) →
          (∃ name ∈ updates.map Prod.fst, graph.initialState.declares (.str name) = .ok false) →
            (∃ fault, (graph.compile.transitions configuration).toList = .error fault) ∧
            ((∀ update ∈ updates, ∃ value, update.2.evaluate state.toValue = .ok value) →
              ∃ first ∈ updates.map Prod.fst,
                graph.initialState.declares (.str first) = .ok false ∧
                graph.apply transition.action state.toValue =
                  .error (.missingVariable (.str first) graph.initialState.declared)) := by
  refine ⟨fun _ _ record_mem => (TransitionSystem.reachable_of_mem_explore compile_paired record_mem).1, ?_⟩
  intro configuration reachable
  rcases assigning.invariant.exists_of_reachable reachable with
    ⟨location, _, rfl, state, rfl, declared⟩
  have declares_eq := ProgramState.declares_eq_of_declared_eq declared
  have found : ∀ name, graph.initialState.declares name = .ok true →
      ∃ value, state.get name = .ok value := by
    intro name declares
    rw [← declares_eq] at declares
    exact ProgramState.exists_get_of_declares declares
  refine ⟨location, state, rfl, declared, found, ?_, ?_⟩
  · intro routine reads name names
    have notMissing := reads.holds_ne_missingVariable found name names
    rw [holdsAt_holds]
    exact ⟨notMissing, notMissing⟩
  · rintro transitions transition identity updates declares_transitions mem holds effect_eq
      ⟨name, named, undeclared⟩
    have apply_eq : graph.apply transition.action state.toValue =
        (Routine.assign identity updates).run state.toValue := by
      simp [apply, effect_eq]
    rw [← declares_eq, ProgramState.declares_str, Except.ok.injEq] at undeclared
    constructor
    · rcases Routine.assign_run_of_undeclared identity named undeclared with ⟨fault, ran⟩
      exact toList_of_apply_error declares_transitions mem holds (apply_eq.trans ran)
    · intro evaluate
      rcases Routine.assign_run_eq_missing identity named undeclared evaluate with
        ⟨first, first_mem, undeclaredFirst, ran⟩
      refine ⟨first, first_mem, ?_, ?_⟩
      · rw [← declares_eq, ProgramState.declares_str, undeclaredFirst]
      · rw [apply_eq, ran, ProgramState.missing, declared]

end ProgramGraph

/-! ### Two variables that are exchanged -/

namespace Exchange

def isSet : Routine Result :=
  .builtin "is_set" fun state => state.item (.str "x")

/-- The updates are given in another order than the variables. -/
def exchange : Routine Result :=
  .assign (.made 0) [("y", .computed fun state => state.item (.str "x")),
    ("x", .computed fun state => state.item (.str "y"))]

/-- An assignment to a declared variable and to one that is not. -/
def extend : Routine Result :=
  .assign (.made 1) [("x", .constant (.int 0)), ("z", .constant (.int 0))]

def graph : ProgramGraph Result :=
  .ofTable [.int 0] ⟨[(.str "x", .int 1), (.str "y", .int 2)]⟩
    [(.int 0, [⟨isSet, .str "exchange", .int 1⟩]), (.int 1, [⟨.always, .str "extend", .int 0⟩])]
    [(.str "exchange", exchange), (.str "extend", extend)]

def exchanged : ProgramState :=
  ⟨[(.str "x", .int 2), (.str "y", .int 1)]⟩

theorem assigning : graph.Assigning := by
  apply ProgramGraph.assigning_ofTable
  simp only [List.forall_mem_cons, List.not_mem_nil, false_implies, implies_true, and_true]
  exact ⟨.assign _ _, .assign _ _⟩

theorem reachable_exchanged : graph.compile.Reachable (.pair (.int 1) exchanged.toValue) := by
  have start : graph.compile.Reachable (.pair (.int 0) graph.initialState.toValue) :=
    .initial (by simp [ProgramGraph.compile, graph, ProgramGraph.ofTable])
  have listed : graph.compile.Lists (.pair (.int 0) graph.initialState.toValue)
      [(.str "exchange", .pair (.int 1) exchanged.toValue)] := rfl
  exact start.step listed (List.mem_singleton.mpr rfl)

theorem isSet_reads : isSet.Reads fun name => graph.initialState.declares name = .ok true := by
  change Reading _ fun state => state.get (.str "x")
  apply Reading.get
  rfl

end Exchange

/-- Two variables that were exchanged keep their order, and an assignment to a third one is refused. -/
theorem ProgramGraph.variables_preserved_exchange :
    Exchange.graph.Assigning ∧
      Exchange.graph.compile.Reachable (.pair (.int 1) Exchange.exchanged.toValue) ∧
      Exchange.exchanged.declared = [.str "x", .str "y"] ∧
      Exchange.isSet.Reads (fun name => Exchange.graph.initialState.declares name = .ok true) ∧
      (∀ name declared, Exchange.isSet.holds Exchange.exchanged.toValue ≠
        .error (.missingVariable name declared)) ∧
      (∃ fault, (Exchange.graph.compile.transitions
        (.pair (.int 1) Exchange.exchanged.toValue)).toList = .error fault) ∧
      Exchange.graph.apply (.str "extend") Exchange.exchanged.toValue =
        .error (.missingVariable (.str "z") [.str "x", .str "y"]) := by
  rcases (variables_preserved Exchange.assigning).2 _ Exchange.reachable_exchanged with
    ⟨location, state, configuration_eq, declared, _, reads, refuses⟩
  rcases Value.pair_inj.mp configuration_eq with ⟨rfl, state_eq⟩
  rw [← state_eq] at reads refuses
  have undeclared : Exchange.graph.initialState.declares (.str "z") = .ok false := rfl
  rcases refuses _ _ (.made 1) _ rfl (List.mem_singleton.mpr rfl) rfl rfl ⟨"z", by simp, undeclared⟩ with
    ⟨fails, missing⟩
  refine ⟨Exchange.assigning, Exchange.reachable_exchanged, rfl, Exchange.isSet_reads, ?_, fails, ?_⟩
  · exact fun name declared => (reads Exchange.isSet Exchange.isSet_reads name declared).1
  · rcases missing (by simp [Update.evaluate]) with ⟨first, first_mem, undeclaredFirst, applied⟩
    simp only [List.map_cons, List.map_nil, List.mem_cons, List.not_mem_nil, or_false] at first_mem
    rcases first_mem with rfl | rfl
    · cases undeclaredFirst
    · exact applied

end StateSpace
