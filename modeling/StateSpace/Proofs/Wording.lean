import StateSpace.Invariant
import StateSpace.Proofs.Formula.Atoms

/-!
# Wording a verdict

A check words its verdict before it gives it. The notices show the property, the state of a violation and
some numbers, and a number with too many digits has no printed form. `Verdict.isPrintable` says what must be
printable. A check gives the verdict of its search exactly if that is so, and otherwise it fails with one and
the same fault, wherever the number stands (`TransitionSystem.map_report`).

Equal values may be printed in different ways, but of two equal values both have a printed form or neither has.
-/

namespace StateSpace

namespace Value

theorem isPrintable_int_iff {number : Int} :
    (Value.int number).isPrintable = true ↔ number.natAbs < numberLimit := by
  simp [isPrintable]

theorem isPrintable_int_of_long {number : Nat} (long : numberLimit ≤ number) :
    (Value.int (Int.ofNat number)).isPrintable = false := by
  rw [Bool.eq_false_iff, Ne, isPrintable_int_iff]
  exact Nat.not_lt.mpr long

end Value

namespace Formula

variable {m : Type → Type}

theorem isPrintable_iff {formula : Formula m} :
    formula.isPrintable = true ↔ ∀ atom ∈ formula.occurrences, atom.isPrintable = true := by
  induction formula with
  | truth => simp [isPrintable, occurrences]
  | falsity => simp [isPrintable, occurrences]
  | atomic atom => simp [isPrintable, occurrences]
  | not body ih => exact ih
  | and left right ihLeft ihRight =>
      rw [isPrintable, Bool.and_eq_true, ihLeft, ihRight, occurrences, List.forall_mem_append]
  | or left right ihLeft ihRight =>
      rw [isPrintable, Bool.and_eq_true, ihLeft, ihRight, occurrences, List.forall_mem_append]
  | implies left right ihLeft ihRight =>
      rw [isPrintable, Bool.and_eq_true, ihLeft, ihRight, occurrences, List.forall_mem_append]
  | custom node => simp [isPrintable, occurrences]

end Formula

/-- The propositions that are listed for a property are in its printed form. -/
theorem Property.requirePrintableAtoms_of_isPrintable {m : Type → Type} {property : Property m}
    (printable : property.isPrintable = true) : property.requirePrintableAtoms = .ok () := by
  cases property with
  | routine body => rfl
  | formula body =>
      rw [requirePrintableAtoms]
      cases collects : body.atoms with
      | error fault => rfl
      | ok collected =>
          have collected_eq := Formula.atoms_of_overKeys (Formula.overKeys_of_atoms collects)
          rw [collects, Except.ok.injEq] at collected_eq
          have allPrintable : collected.all Atom.isPrintable = true := by
            apply List.all_eq_true.mpr
            intro atom atom_mem
            rw [collected_eq] at atom_mem
            rcases mem_of_mem_unite atom_mem with none | occurs
            · simp at none
            · exact Formula.isPrintable_iff.mp printable atom occurs
          simp [allPrintable]

namespace Verdict

section Printable

variable {m : Type → Type} (property : Property m)

/-- Whether what the wording of a verdict shows has a printed form. The propositions of the property need no
mention of their own. -/
def isPrintable : Verdict → Bool
  | .holds checked => property.isPrintable && Value.arePrintable [.int checked]
  | .violated counterexample checked =>
      property.isPrintable &&
        Value.arePrintable [counterexample.state, .int counterexample.path.length, .int checked]
  | .undecided => true

/-- A verdict that is given if its wording has a printed form. Otherwise a number has too many digits. -/
def shownIf (verdict : Verdict) (printable : Prop) [Decidable printable] : Result Verdict :=
  if printable then .ok verdict else .error .numberTooLong

/-- A verdict as a check gives it. -/
def worded (verdict : Verdict) : Result Verdict :=
  verdict.shownIf (verdict.isPrintable property = true)

end Printable

variable {property other : Property Result} {verdict : Verdict} {counterexample : Counterexample}
  {checked : Nat}

theorem isPrintable_holds_iff :
    (holds checked).isPrintable property = true ↔ property.isPrintable = true ∧ checked < numberLimit := by
  simp [isPrintable, Value.arePrintable, Value.isPrintable]

theorem isPrintable_violated_iff :
    (violated counterexample checked).isPrintable property = true ↔
      property.isPrintable = true ∧ counterexample.state.isPrintable = true ∧
        counterexample.path.length < numberLimit ∧ checked < numberLimit := by
  simp [isPrintable, Value.arePrintable, Value.isPrintable]

theorem requirePrintable_eq (property : Property Result) (verdict : Verdict) :
    verdict.requirePrintable property =
      if verdict.isPrintable property then .ok () else .error .numberTooLong := by
  cases shown : property.isPrintable with
  | false =>
      -- the property is worded first, whatever the verdict says of it
      cases verdict <;> simp [requirePrintable, isPrintable, Property.requirePrintable, shown]
  | true =>
      have listed := Property.requirePrintableAtoms_of_isPrintable shown
      cases verdict with
      | holds checked =>
          cases short : Value.arePrintable [.int checked] <;>
            simp [requirePrintable, isPrintable, Property.requirePrintable, Value.requirePrintable, shown, short]
      | undecided => rfl
      | violated counterexample checked =>
          cases short : Value.arePrintable
              [counterexample.state, .int counterexample.path.length, .int checked] <;>
            simp [requirePrintable, isPrintable, Property.requirePrintable, Value.requirePrintable, shown, short,
              listed]

theorem notices_eq (property : Property Result) (verdict : Verdict) :
    verdict.notices property =
      if verdict.isPrintable property then .ok (verdict.wording property) else .error .numberTooLong := by
  rw [notices, requirePrintable_eq]
  split <;> rfl

theorem worded_eq_ok_iff {given : Verdict} :
    verdict.worded property = .ok given ↔ verdict.isPrintable property = true ∧ verdict = given := by
  unfold worded shownIf
  split <;> simp_all

theorem worded_violated_of_unprintable (hidden : counterexample.state.isPrintable = false) :
    (violated counterexample checked).worded property = .error .numberTooLong := by
  simp [worded, shownIf, isPrintable, Value.arePrintable, hidden]

theorem worded_eq_shownIf {printable : Prop} [Decidable printable]
    (printable_iff : verdict.isPrintable property = true ↔ printable) :
    verdict.worded property = verdict.shownIf printable := by
  simp only [worded, shownIf, printable_iff]

end Verdict

/-- Whether what the summary of several verdicts shows has a printed form. -/
def isSummaryPrintable (verdicts : List (Value × Verdict)) : Bool :=
  (violatedNames verdicts).isEmpty ||
    Value.arePrintable
      (.int (violatedNames verdicts).length :: .int verdicts.length :: violatedNames verdicts)

/-- The summary is worded after the verdicts are found, and they are given if that succeeds. -/
theorem map_summaryNotices (verdicts : List (Value × Verdict)) :
    ((summaryNotices verdicts).map fun _ => verdicts) =
      if isSummaryPrintable verdicts then .ok verdicts else .error .numberTooLong := by
  cases names_eq : violatedNames verdicts with
  | nil =>
      rw [summaryNotices, isSummaryPrintable, names_eq]
      rfl
  | cons name names =>
      rw [summaryNotices, isSummaryPrintable, names_eq]
      simp only [Value.requirePrintable, List.isEmpty_cons, Bool.false_or]
      split <;> rfl

namespace TransitionSystem

variable {system : TransitionSystem Result} {property : Property Result} {bound : Nat} {verdict : Verdict}

theorem report_of_check (checked : system.check property bound = .ok verdict) :
    system.report property bound =
      if verdict.isPrintable property then .ok (verdict, verdict.wording property)
      else .error .numberTooLong := by
  rw [report, checked, Result.ok_bind, Verdict.notices_eq]
  split <;> rfl

/-- A check gives the verdict of its search, once this is worded. -/
theorem map_report (system : TransitionSystem Result) (property : Property Result) (bound : Nat) :
    (system.report property bound).map Prod.fst = system.check property bound >>= Verdict.worded property := by
  cases checked : system.check property bound with
  | error fault =>
      rw [report, checked]
      rfl
  | ok verdict =>
      rw [report_of_check checked, Result.ok_bind, Verdict.worded, Verdict.shownIf]
      split <;> rfl

theorem check_of_report {notices : List Notice}
    (reported : system.report property bound = .ok (verdict, notices)) :
    system.check property bound = .ok verdict := by
  rcases Result.bind_eq_ok_iff.mp reported with ⟨found, checked, rest⟩
  rcases Result.bind_eq_ok_iff.mp rest with ⟨_, _, given⟩
  cases given
  exact checked

/-- A report fails as its search does, or for want of a printed form of the verdict. -/
theorem check_of_report_error {fault : Fault} (failed : system.report property bound = .error fault) :
    system.check property bound = .error fault ∨
      fault = .numberTooLong ∧
        ∃ verdict, system.check property bound = .ok verdict ∧ verdict.isPrintable property = false := by
  cases checked : system.check property bound with
  | error raised =>
      rw [report, checked] at failed
      cases failed
      exact .inl rfl
  | ok verdict =>
      right
      rw [report_of_check checked] at failed
      split at failed
      · cases failed
      · rename_i hidden
        cases failed
        exact ⟨rfl, verdict, rfl, Bool.eq_false_iff.mpr hidden⟩

/-- What a check gives with all bounds beyond some number: a verdict, or the fault with which it fails. -/
def Yields (system : TransitionSystem Result) (property : Property Result) (outcome : Result Verdict) : Prop :=
  ∃ bound, ∀ more, (system.report property (bound + more)).map Prod.fst = outcome

theorem yields_of_check (checked : ∀ more, system.check property (bound + more) = .ok verdict) :
    system.Yields property (verdict.worded property) := by
  refine ⟨bound, fun more => ?_⟩
  rw [map_report, checked more, Result.ok_bind]

end TransitionSystem

end StateSpace
