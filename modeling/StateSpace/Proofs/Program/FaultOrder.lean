import StateSpace.Proofs.Program.Runs

/-!
# The order of faults in a compiled system

The transitions that leave a configuration are found in two passes over the rows of its location. The first
asks every guard, and the second applies the effects of the rows whose guards hold. Each pass goes from the
first row to the last and stops at the first fault. So a guard that fails hides whatever the effects of
earlier rows would do, and an effect is asked for only if no guard fails.

`Result.FirstFails` says which fault a pass over a list has. Both passes are described by it, and their
outcomes together are all that listing the transitions can come to.
-/

namespace StateSpace

namespace GuardedTransition

/-- Whether the guard of a transition gives a true value in a program state. -/
def isEnabledIn (state : Value) (transition : GuardedTransition Result) : Bool :=
  match transition.guard.run state with
  | .ok value => value.truthy
  | .error _ => false

theorem isEnabledIn_iff {state : Value} {transition : GuardedTransition Result} :
    transition.isEnabledIn state = true ↔ transition.guard.holds state = .ok true := by
  rw [isEnabledIn, Routine.holds]
  cases transition.guard.run state <;> simp

theorem enabledIn_eq_error_iff {state : Value} {transitions : List (GuardedTransition Result)}
    {fault : Fault} :
    enabledIn state transitions = .error fault ↔
      Result.FirstFails (fun transition => transition.guard.run state) transitions fault := by
  induction transitions with
  | nil =>
      apply iff_of_false
      · intro failed
        cases failed
      · exact Result.not_firstFails_nil
  | cons transition transitions ih =>
      rw [Result.firstFails_cons_iff, ← ih, enabledIn, Routine.holds]
      cases transition.guard.run state with
      | error raised => simp
      | ok value => cases enabledIn state transitions <;> simp

theorem enabledIn_eq_ok_iff {state : Value} {transitions enabled : List (GuardedTransition Result)} :
    enabledIn state transitions = .ok enabled ↔
      (∀ transition ∈ transitions, ∃ value, transition.guard.run state = .ok value) ∧
        enabled = transitions.filter (isEnabledIn state) := by
  induction transitions generalizing enabled with
  | nil => simp [enabledIn, eq_comm]
  | cons transition transitions ih =>
      rw [List.forall_mem_cons, List.filter_cons, isEnabledIn]
      simp only [enabledIn, Routine.holds, Result.bind_eq_ok_iff, Result.pure_eq_ok, Except.ok.injEq,
        MonadCells.truth_result, ih]
      constructor
      · rintro ⟨truth, ⟨value, value_eq, rfl⟩, rest, ⟨succeed, rfl⟩, rfl⟩
        rw [value_eq]
        exact ⟨⟨⟨value, rfl⟩, succeed⟩, rfl⟩
      · rintro ⟨⟨⟨value, value_eq⟩, succeed⟩, rfl⟩
        rw [value_eq]
        exact ⟨_, ⟨value, rfl, rfl⟩, _, ⟨succeed, rfl⟩, rfl⟩

end GuardedTransition

namespace ProgramGraph

variable {graph : ProgramGraph Result} {location state : Value} {rows : List (GuardedTransition Result)}

theorem successor_eq_ok_iff {row : GuardedTransition Result} {item : Value} :
    graph.successor state row = .ok item ↔
      ∃ effect after, graph.effect row.action = .ok effect ∧ effect.run state = .ok after ∧
        item = .pair row.action (.pair row.target after) := by
  simp only [successor, apply, MonadCells.ofResult_result, Result.bind_eq_ok_iff, Result.pure_eq_ok,
    Except.ok.injEq]
  constructor
  · rintro ⟨after, ⟨effect, found, applied⟩, rfl⟩
    exact ⟨effect, after, found, applied, rfl⟩
  · rintro ⟨effect, after, found, applied, rfl⟩
    exact ⟨after, ⟨effect, found, applied⟩, rfl⟩

theorem firstFails_successor_iff {fault : Fault} :
    Result.FirstFails (graph.successor state) rows fault ↔
      Result.FirstFails (fun row => graph.apply row.action state) rows fault := by
  apply Result.firstFails_congr
  · intro row
    simp [successor, Result.bind_eq_ok_iff]
  · intro row
    simp [successor, Result.bind_eq_error_iff]

theorem toList_compile_eq_error_iff (declared : graph.transitions location = .ok rows) {fault : Fault} :
    (graph.compile.transitions (.pair location state)).toList = .error fault ↔
      Result.FirstFails (fun row => row.guard.run state) rows fault ∨
        (∀ row ∈ rows, ∃ value, row.guard.run state = .ok value) ∧
          Result.FirstFails (fun row => graph.apply row.action state)
            (rows.filter (·.isEnabledIn state)) fault := by
  rw [toList_compile_pair, declared, Result.ok_bind, Result.bind_eq_error_iff,
    GuardedTransition.enabledIn_eq_error_iff]
  apply or_congr_right
  simp only [GuardedTransition.enabledIn_eq_ok_iff, Result.mapM_eq_error_iff, firstFails_successor_iff]
  constructor
  · rintro ⟨enabled, ⟨succeed, rfl⟩, fails⟩
    exact ⟨succeed, fails⟩
  · rintro ⟨succeed, fails⟩
    exact ⟨_, ⟨succeed, rfl⟩, fails⟩

theorem toList_compile_eq_ok_iff (declared : graph.transitions location = .ok rows) {items : List Value} :
    (graph.compile.transitions (.pair location state)).toList = .ok items ↔
      (∀ row ∈ rows, ∃ value, row.guard.run state = .ok value) ∧
        List.Forall₂ (fun row item => ∃ effect after, graph.effect row.action = .ok effect ∧
          effect.run state = .ok after ∧ item = .pair row.action (.pair row.target after))
            (rows.filter (·.isEnabledIn state)) items := by
  simp only [toList_compile_pair, declared, Result.ok_bind, Result.bind_eq_ok_iff,
    GuardedTransition.enabledIn_eq_ok_iff, Result.mapM_eq_ok_iff, successor_eq_ok_iff]
  constructor
  · rintro ⟨enabled, ⟨succeed, rfl⟩, related⟩
    exact ⟨succeed, related⟩
  · rintro ⟨succeed, related⟩
    exact ⟨_, ⟨succeed, rfl⟩, related⟩

theorem effect_ofTable {locations : List Value} {initial : ProgramState}
    {table : Table (List (GuardedTransition Result))} {effects : Table (Routine Result)} {action : Value}
    (hashable : action.IsHashable) :
    (ofTable locations initial table effects).effect action =
      match effects.find? action with
      | some effect => .ok effect
      | none => .error (.undefinedEffect action) := by
  simp only [ofTable, Table.lookup_of_isHashable hashable, Result.ok_bind]
  cases effects.find? action <;> rfl

/-- What listing the transitions of a configuration comes to. It fails with the fault of the first guard that
fails, whatever the effects would do. If no guard fails, it fails with the first fault of looking up an
effect or applying it, among the rows whose guards hold. Otherwise it gives one transition for each of these
rows, in their order. A program graph given by tables has rows at every location that may be a key, and the
effect of an action that its table lacks is undefined. -/
theorem transitions_compile_in_order (declared : graph.transitions location = .ok rows) (state : Value) :
    (∀ fault, (graph.compile.transitions (.pair location state)).toList = .error fault ↔
      Result.FirstFails (fun row => row.guard.run state) rows fault ∨
        (∀ row ∈ rows, ∃ value, row.guard.run state = .ok value) ∧
          Result.FirstFails (fun row => graph.effect row.action >>= fun effect => effect.run state)
            (rows.filter (·.isEnabledIn state)) fault) ∧
    (∀ items, (graph.compile.transitions (.pair location state)).toList = .ok items ↔
      (∀ row ∈ rows, ∃ value, row.guard.run state = .ok value) ∧
        List.Forall₂ (fun row item => ∃ effect after, graph.effect row.action = .ok effect ∧
          effect.run state = .ok after ∧ item = .pair row.action (.pair row.target after))
            (rows.filter (·.isEnabledIn state)) items) ∧
    ∀ locations initial table effects, graph = ofTable locations initial table effects →
      (location.IsHashable → graph.transitions location = .ok ((table.find? location).getD [])) ∧
        ∀ action : Value, action.IsHashable → effects.find? action = none →
          graph.effect action = .error (.undefinedEffect action) := by
  refine ⟨?_, ?_, ?_⟩
  · intro fault
    exact toList_compile_eq_error_iff declared
  · intro items
    exact toList_compile_eq_ok_iff declared
  · rintro locations initial table effects rfl
    constructor
    · intro hashable
      exact transitions_ofTable hashable
    · intro action hashable absent
      rw [effect_ofTable hashable, absent]

end ProgramGraph

/-! ### A gate that may be forced -/

namespace Gate

def isPaid : Routine Result :=
  .builtin "is_paid" fun state => state.item (.str "paid")

/-- Forcing the gate has no effect defined, and there are two equal ways to leave. -/
def table : Table (List (GuardedTransition Result)) :=
  [(.int 0, [⟨.always, .str "force", .int 1⟩, ⟨isPaid, .str "pass", .int 1⟩]),
    (.int 1, [⟨isPaid, .str "pass", .int 0⟩, ⟨isPaid, .str "pass", .int 0⟩])]

def graph : ProgramGraph Result :=
  .ofTable [.int 0] ⟨[]⟩ table [(.str "pass", .unchanged)]

def paid : Value :=
  .state [(.str "paid", .bool true)]

end Gate

/-- Where it is not known whether the gate was paid for, the guard that asks fails, although the row before
it is enabled and has no effect. Where it was paid for, the effect is missing. Equal rows are listed twice. -/
theorem ProgramGraph.transitions_compile_in_order_gate :
    (Gate.graph.compile.transitions (.pair (.int 0) (.state []))).toList =
        .error (.missingVariable (.str "paid") []) ∧
      (Gate.graph.compile.transitions (.pair (.int 0) Gate.paid)).toList =
        .error (.undefinedEffect (.str "force")) ∧
      (Gate.graph.compile.transitions (.pair (.int 1) Gate.paid)).toList =
        .ok [.pair (.str "pass") (.pair (.int 0) Gate.paid), .pair (.str "pass") (.pair (.int 0) Gate.paid)] := by
  have outside : Gate.graph.transitions (.int 0) =
      .ok [⟨.always, .str "force", .int 1⟩, ⟨Gate.isPaid, .str "pass", .int 1⟩] := rfl
  have inside : Gate.graph.transitions (.int 1) =
      .ok [⟨Gate.isPaid, .str "pass", .int 0⟩, ⟨Gate.isPaid, .str "pass", .int 0⟩] := rfl
  have asked : (Gate.isPaid.run Gate.paid : Result Value) = .ok (.bool true) := rfl
  refine ⟨?_, ?_, ?_⟩
  · apply ((transitions_compile_in_order outside _).1 _).mpr
    left
    refine ⟨[⟨.always, .str "force", .int 1⟩], ⟨Gate.isPaid, .str "pass", .int 1⟩, [], rfl, ?_, rfl⟩
    simp only [List.forall_mem_singleton]
    exact ⟨.bool true, rfl⟩
  · apply ((transitions_compile_in_order outside _).1 _).mpr
    right
    constructor
    · simp only [List.forall_mem_cons, List.not_mem_nil, false_implies, implies_true, and_true]
      exact ⟨⟨.bool true, rfl⟩, .bool true, asked⟩
    · exact ⟨[], ⟨.always, .str "force", .int 1⟩, _, rfl, by simp, rfl⟩
  · apply ((transitions_compile_in_order inside _).2.1 _).mpr
    constructor
    · simp only [List.forall_mem_cons, List.not_mem_nil, false_implies, implies_true, and_true, asked]
      exact ⟨⟨_, rfl⟩, _, rfl⟩
    · exact .cons ⟨.unchanged, Gate.paid, rfl, rfl, rfl⟩ (.cons ⟨.unchanged, Gate.paid, rfl, rfl, rfl⟩ .nil)

end StateSpace
