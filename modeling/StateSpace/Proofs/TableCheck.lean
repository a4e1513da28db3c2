import StateSpace.Proofs.Saturation
import StateSpace.Proofs.Verdict

/-!
# Checks of systems given by tables

A system given by tables needs no assumption on its functions. They ask tables, and a table answers alike
for equal states: of the entries with equal keys it keeps the last, and a state it does not have is left by
no transition or has an empty label. The states are finitely many, and a formula over keys has a truth
value in each label. So every check comes to a verdict, and the verdict agrees with the naive iteration
over the states.

The check gives the verdict if it can be worded. The last result is a table with one state, a number that
has no printed form, whose check fails.
-/

namespace StateSpace

namespace Value

theorem distinct_eq_unite {members kept : List Value} (made : distinct members = .ok kept) :
    kept = unite [] members := by
  have general : ∀ start : List Value, members.foldlM (fun kept member => do
      member.requireHashable
      pure (if member.isIn kept then kept else kept ++ [member])) start = .ok kept →
        kept = unite start members := by
    clear made
    induction members with
    | nil =>
        intro start made
        cases made
        rfl
    | cons first members ih =>
        intro start made
        simp only [List.foldlM_cons, Result.bind_eq_ok_iff, Result.pure_eq_ok, Except.ok.injEq] at made
        rcases made with ⟨_, ⟨_, _, rfl⟩, made⟩
        exact ih _ made
  exact general [] made

/-- Equal sets have the same members. -/
theorem isIn_eq_of_beq_set {members others : List Value}
    (same : (Value.set members == .set others) = true) (value : Value) :
    value.isIn members = value.isIn others := by
  rcases (beq_set_iff members _).mp same with ⟨_, others_eq, forwards, backwards⟩
  cases others_eq
  rw [Bool.eq_iff_iff]
  constructor
  · intro found
    rcases isIn_iff.mp found with ⟨member, member_mem, equal⟩
    rcases forwards member member_mem with ⟨other, other_mem, equal'⟩
    exact isIn_iff.mpr ⟨other, other_mem, BEq.trans (BEq.symm equal') equal⟩
  · intro found
    rcases isIn_iff.mp found with ⟨other, other_mem, equal⟩
    rcases backwards other other_mem with ⟨member, member_mem, equal'⟩
    exact isIn_iff.mpr ⟨member, member_mem, BEq.trans equal' equal⟩

end Value

namespace TransitionSystem

variable {initialStates : List Value} {labels edges : Table (List Value)}
  {system : TransitionSystem Result}

theorem find?_labels {labelTable : Table Label}
    (made : labels.mapM (fun entry => do
      pure (entry.1, ← Label.ofSet entry.2)) = (.ok labelTable : Result _)) (state : Value) :
    labelTable.find? state =
      (labels.find? state).map fun members => .set (unite [] members) := by
  induction labels generalizing labelTable with
  | nil =>
      cases made
      rfl
  | cons entry labels ih =>
      rcases entry with ⟨present, members⟩
      simp only [List.mapM_cons, Label.ofSet, Result.bind_eq_ok_iff, Result.pure_eq_ok,
        Except.ok.injEq] at made
      rcases made with ⟨_, ⟨_, ⟨kept, kept_eq, rfl⟩, rfl⟩, rest, rest_eq, rfl⟩
      have rest_find := @ih rest (by
        simpa only [Label.ofSet, Result.pure_eq_ok] using rest_eq)
      simp only [Table.find?, rest_find, Value.distinct_eq_unite kept_eq]
      split <;> rfl

/-- The label of a state is the set of what the table lists for it. -/
theorem label_ofTable (built : ofTable initialStates labels edges = .ok system) {state : Value}
    (hashable : state.IsHashable) :
    system.label state = .ok (.set (unite [] ((labels.find? state).getD []))) := by
  simp only [ofTable, Result.bind_eq_ok_iff, Result.pure_eq_ok, Except.ok.injEq] at built
  rcases built with ⟨labelTable, made, rfl⟩
  have found := find?_labels made state
  simp only [Table.lookup_of_isHashable hashable, found]
  cases labels.find? state <;> rfl

/-- A formula over keys is decided in a system given by tables. -/
theorem decides_ofTable (built : ofTable initialStates labels edges = .ok system)
    (wellFormed : system.WellFormed) {formula : Formula Result} (overKeys : formula.OverKeys) :
    system.Decides (.formula formula) where
  decided hasState labelled := by
    rw [label_ofTable built (wellFormed.hashable hasState), Except.ok.injEq] at labelled
    rcases (overKeys.means _).holds_eq with ⟨truth, holds_eq, _⟩
    exact ⟨truth, labelled ▸ holds_eq⟩
  congruent hasState hasOther labelled labelled' same := by
    rw [label_ofTable built (wellFormed.hashable hasState), Except.ok.injEq] at labelled
    rw [label_ofTable built (wellFormed.hashable hasOther), Except.ok.injEq] at labelled'
    subst labelled labelled'
    exact (overKeys.means _).holds_congr (overKeys.means _)
      (Formula.trueIn_congr (Value.isIn_eq_of_beq_set same) formula)

end TransitionSystem

end StateSpace
