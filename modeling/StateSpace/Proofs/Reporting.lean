import StateSpace.Proofs.Conjunction
import StateSpace.Proofs.Formula.Atoms

/-!
# Reports of violations

A check that has found a violation words it in a notice, which shows the state and ends with the propositions
of the property. For that it looks at the whole formula, also at operands that the evaluation never came to,
and so it may meet a user-defined node or a proposition that may not be a key for the first time. Then the
notice ends without propositions and the verdict stays. Otherwise it lists the literals of the distinct
propositions in ascending order.

The one thing that a report needs is a printed form of all that the notice shows. The last result is a system
with a violation that is found and cannot be reported.
-/

namespace StateSpace

namespace Text

theorem sorted_perm (texts : List String) : (sorted texts).Perm texts :=
  List.mergeSort_perm texts _

theorem pairwise_sorted (texts : List String) : (sorted texts).Pairwise (· ≤ ·) := by
  have ordered : (sorted texts).Pairwise fun left right => decide (left ≤ right) = true := by
    apply List.pairwise_mergeSort
    · intro first second third
      simp only [decide_eq_true_eq]
      exact String.le_trans
    · intro first second
      simp only [Bool.or_eq_true, decide_eq_true_eq]
      exact String.le_total first second
  apply ordered.imp
  intro first second le
  exact of_decide_eq_true le

theorem sorted_eq_nil_iff {texts : List String} : sorted texts = [] ↔ texts = [] := by
  constructor
  · intro empty
    exact (empty ▸ sorted_perm texts).nil_eq.symm
  · rintro rfl
    exact (sorted_perm []).eq_nil

end Text

namespace Notice

theorem atomSuffix_of_ne_nil {atoms : List String} (listed : atoms ≠ []) :
    atomSuffix atoms = "; atoms: " ++ ", ".intercalate atoms := by
  cases atoms with
  | nil => exact absurd rfl listed
  | cons first atoms => rfl

theorem atomSuffix_eq_empty_iff {atoms : List String} : atomSuffix atoms = "" ↔ atoms = [] := by
  constructor
  · intro empty
    by_contra listed
    rw [atomSuffix_of_ne_nil listed] at empty
    simp at empty
  · rintro rfl
    rfl

end Notice

theorem Atom.Represents.eq_nil_iff {m : Type → Type} {distinct atoms : List (Atom m)}
    (represents : Represents distinct atoms) : distinct = [] ↔ atoms = [] := by
  constructor
  · rintro rfl
    apply List.eq_nil_iff_forall_not_mem.mpr
    intro atom atom_mem
    cases represents.covers atom atom_mem
  · rintro rfl
    exact List.sublist_nil.mp represents.sublist

namespace Property

variable {m : Type → Type}

/-- The properties of which no propositions are listed: routines, formulas with a user-defined node or with a
proposition that may not be a key, and formulas without propositions. -/
def Undescribed : Property m → Prop
  | .routine _ => True
  | .formula body =>
      body.nodes ≠ [] ∨ (∃ atom ∈ body.occurrences, atom.requireHashable ≠ .ok ()) ∨ body.occurrences = []

theorem atomLiterals_of_overKeys {body : Formula m} (overKeys : body.OverKeys) :
    (formula body).atomLiterals =
      Text.sorted ((unite [] body.occurrences).map Atom.literal) := by
  simp only [atomLiterals, Formula.atoms_of_overKeys overKeys]

theorem atomLiterals_of_not_overKeys {body : Formula m} (not_overKeys : ¬body.OverKeys) :
    (formula body).atomLiterals = [] := by
  rcases Formula.atoms_of_not_overKeys not_overKeys with ⟨fault, failed, _⟩
  simp only [atomLiterals, failed]

theorem undescribed_of_not_overKeys {body : Formula m} (not_overKeys : ¬body.OverKeys) :
    (formula body).Undescribed := by
  rw [Formula.overKeys_iff] at not_overKeys
  by_cases plain : body.nodes = []
  · right
    left
    by_contra! accepted
    exact not_overKeys ⟨plain, accepted⟩
  · left
    exact plain

theorem undescribed_iff_of_overKeys {body : Formula m} (overKeys : body.OverKeys) :
    (formula body).Undescribed ↔ body.occurrences = [] := by
  rcases Formula.overKeys_iff.mp overKeys with ⟨plain, accepted⟩
  constructor
  · rintro (custom | ⟨atom, atom_mem, refused⟩ | none)
    · exact absurd plain custom
    · exact absurd (accepted atom atom_mem) refused
    · exact none
  · intro none
    exact .inr (.inr none)

theorem atomLiterals_eq_nil_iff {property : Property m} : property.atomLiterals = [] ↔ property.Undescribed := by
  cases property with
  | routine body => exact iff_of_true rfl trivial
  | formula body =>
      by_cases overKeys : body.OverKeys
      · rw [undescribed_iff_of_overKeys overKeys, atomLiterals_of_overKeys overKeys, Text.sorted_eq_nil_iff,
          List.map_eq_nil_iff]
        exact (Atom.represents_unite body.occurrences).eq_nil_iff
      · exact iff_of_true (atomLiterals_of_not_overKeys overKeys) (undescribed_of_not_overKeys overKeys)

/-- Otherwise the literals of the distinct propositions are listed in ascending order. -/
theorem exists_literals_of_described {property : Property m} (described : ¬property.Undescribed) :
    ∃ body distinct literals, property = .formula body ∧ Atom.Represents distinct body.occurrences ∧
      literals.Perm (distinct.map Atom.literal) ∧ literals.Pairwise (· ≤ ·) ∧
      Notice.atomSuffix property.atomLiterals = "; atoms: " ++ ", ".intercalate literals := by
  cases property with
  | routine body => exact absurd trivial described
  | formula body =>
      have overKeys : body.OverKeys := by
        by_contra not_overKeys
        exact described (undescribed_of_not_overKeys not_overKeys)
      have listed : (formula body).atomLiterals ≠ [] := fun none => described (atomLiterals_eq_nil_iff.mp none)
      refine ⟨body, _, _, rfl, Atom.represents_unite body.occurrences, ?_, ?_,
        Notice.atomSuffix_of_ne_nil listed⟩
      · rw [atomLiterals_of_overKeys overKeys]
        exact Text.sorted_perm _
      · rw [atomLiterals_of_overKeys overKeys]
        exact Text.pairwise_sorted _

end Property

namespace TransitionSystem

variable {system : TransitionSystem Result} {property : Property Result}

theorem report_of_first_violation {count : Nat} {earlier later : List Record} {first : Record}
    (split : (system.explore count).records = earlier ++ first :: later)
    (holds : ∀ record ∈ earlier, system.holdsAt property record.state = .ok true)
    (fails : system.holdsAt property first.state = .ok false) (more : Nat) :
    system.report property (count + more) =
      if (Verdict.violated ⟨first.state, first.path⟩ (earlier.length + 1)).isPrintable property then
        .ok (.violated ⟨first.state, first.path⟩ (earlier.length + 1),
          [.violated property.text first.state first.path.length (earlier.length + 1) property.atomLiterals])
      else .error .numberTooLong :=
  report_of_check (check_of_first_violation split holds fails more)

/-- Reporting does not change a verdict. Where a search reports a first state in which a property fails, and
the property holds in all states before, every check that goes so far has this state for its counterexample,
whatever the property is. If the property, the state and the numbers of steps and of states can be printed, the
check reports them in a notice. The notice ends without propositions exactly if the property is a routine, has a
user-defined node or a proposition that may not be a key, or has no propositions, and otherwise with the literals
of its distinct propositions in ascending order. If something cannot be printed, that is the fault of the
check. -/
theorem report_violation {count : Nat} {earlier later : List Record} {first : Record}
    (split : (system.explore count).records = earlier ++ first :: later)
    (holds : ∀ record ∈ earlier, system.holdsAt property record.state = .ok true)
    (fails : system.holdsAt property first.state = .ok false) :
    (∀ more, system.check property (count + more) =
      .ok (.violated ⟨first.state, first.path⟩ (earlier.length + 1))) ∧
    ((Verdict.violated ⟨first.state, first.path⟩ (earlier.length + 1)).isPrintable property = true →
      ∃ notice suffix,
        (∀ more, system.report property (count + more) =
          .ok (.violated ⟨first.state, first.path⟩ (earlier.length + 1), [notice])) ∧
        notice.level = .info ∧
        notice.text = "Invariant " ++ property.text ++ " violated in state " ++ first.state.literal ++
          " after " ++ toString first.path.length ++ " steps (" ++ toString (earlier.length + 1) ++
          " states checked)" ++ suffix ∧
        (suffix = "" ↔ property.Undescribed) ∧
        (¬property.Undescribed →
          ∃ body distinct literals, property = .formula body ∧ Atom.Represents distinct body.occurrences ∧
            literals.Perm (distinct.map Atom.literal) ∧ literals.Pairwise (· ≤ ·) ∧
            suffix = "; atoms: " ++ ", ".intercalate literals)) ∧
    ((Verdict.violated ⟨first.state, first.path⟩ (earlier.length + 1)).isPrintable property = false →
      ∀ more, system.report property (count + more) = .error .numberTooLong) := by
  have reported := report_of_first_violation split holds fails
  refine ⟨check_of_first_violation split holds fails, ?_, ?_⟩
  · intro shown
    refine ⟨.violated property.text first.state first.path.length (earlier.length + 1) property.atomLiterals,
      Notice.atomSuffix property.atomLiterals, ?_, rfl, rfl, ?_, ?_⟩
    · intro more
      rw [reported more, if_pos shown]
    · rw [Notice.atomSuffix_eq_empty_iff, Property.atomLiterals_eq_nil_iff]
    · exact Property.exists_literals_of_described
  · intro hidden more
    rw [reported more, if_neg (Bool.eq_false_iff.mp hidden)]

/-- Two propositions, of which the second occurs in two ways. -/
def lowOrNumbered : Formula Result :=
  .and (.atom (.str "low")) (.or (.atom (.int 1)) (.implies (.atom (.bool true)) .falsity))

/-- A proposition before a node of which nothing is known. -/
def lowAndUnknown : Formula Result :=
  .and (.atom (.str "low")) (.custom ⟨.made 0, "Unknown", fun _ => .ok (.int 1)⟩)

theorem records_merging :
    (merging.explore 3).records =
      [⟨.int 0, .single (.int 0)⟩, ⟨.int 1, (Path.single (.int 0)).extend (.str "up") (.int 1)⟩] ++
        ⟨mergingViolation.state, mergingViolation.path⟩ :: [] :=
  rfl

/-- Both formulas fail in the third state for their first operand. Only one of them has propositions to list,
and both violations are reported. -/
theorem report_violation_merging :
    ¬(Property.formula lowOrNumbered).Undescribed ∧ (Property.formula lowAndUnknown).Undescribed ∧
      (∃ verdict notice front suffix, verdict.counterexample?.map Counterexample.state = some (.int 2) ∧
        (∀ more, merging.report (.formula lowOrNumbered) (3 + more) = .ok (verdict, [notice])) ∧
        notice.text = front ++ suffix ∧ suffix ≠ "") ∧
      ∃ verdict notice, verdict.counterexample?.map Counterexample.state = some (.int 2) ∧
        ∀ more, merging.report (.formula lowAndUnknown) (3 + more) = .ok (verdict, [notice]) := by
  have described : ¬(Property.formula lowOrNumbered).Undescribed := by
    have overKeys : lowOrNumbered.OverKeys := ⟨rfl, rfl, rfl, trivial⟩
    rw [Property.undescribed_iff_of_overKeys overKeys]
    exact List.cons_ne_nil _ _
  have undescribed : (Property.formula lowAndUnknown).Undescribed := .inl (List.cons_ne_nil _ _)
  have numbered : (Property.formula lowOrNumbered).isPrintable = true := by
    have short : 1 < numberLimit := lt_numberLimit (by decide)
    simp [Property.isPrintable, lowOrNumbered, Formula.isPrintable, Formula.atom, Atom.isPrintable, short,
      Value.isPrintable]
  have holds : ∀ property : Property Result, merging.holdsAt property (.int 0) = .ok true →
      merging.holdsAt property (.int 1) = .ok true →
      ∀ record ∈ [(⟨.int 0, .single (.int 0)⟩ : Record),
        ⟨.int 1, (Path.single (.int 0)).extend (.str "up") (.int 1)⟩],
        merging.holdsAt property record.state = .ok true := by
    intro property atZero atOne
    simp only [List.forall_mem_cons, List.not_mem_nil, false_implies, implies_true, and_true]
    exact ⟨atZero, atOne⟩
  refine ⟨described, undescribed, ?_, ?_⟩
  · have reports := report_violation records_merging (holds (.formula lowOrNumbered) rfl rfl) rfl
    rcases reports.2.1 (mergingViolation_isPrintable numbered) with ⟨notice, suffix, reported, _, text_eq, empty_iff, _⟩
    exact ⟨_, notice, _, suffix, rfl, reported, text_eq, fun empty => described (empty_iff.mp empty)⟩
  · have reports := report_violation records_merging (holds (.formula lowAndUnknown) rfl rfl) rfl
    rcases reports.2.1 (mergingViolation_isPrintable rfl) with ⟨notice, _, reported, _⟩
    exact ⟨_, notice, rfl, reported⟩

/-- A violation may be found and not reported, although neither the search nor the property failed before. -/
theorem report_leap_unworded :
    ((leap numberLimit).explore 2).records = [⟨.int 0, .single (.int 0)⟩] ++
        ⟨(leapViolation numberLimit).state, (leapViolation numberLimit).path⟩ :: [] ∧
      (leap numberLimit).holdsAt isLow (.int 0) = .ok true ∧
      (leap numberLimit).holdsAt isLow (leapViolation numberLimit).state = .ok false ∧
      ∀ more, (leap numberLimit).report isLow (2 + more) = .error .numberTooLong :=
  ⟨records_leap numberLimit_pos, rfl, leap_fails numberLimit_pos,
    report_leap (Nat.le_refl numberLimit) numberLimit_pos⟩

end TransitionSystem

end StateSpace
