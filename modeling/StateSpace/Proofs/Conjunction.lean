import StateSpace.Proofs.GraphCheck

/-!
# Checks of a conjunction and of its parts

Several properties may be checked one by one or joined by conjunctions. Each check has a search of its own,
but all these searches report the same records. The conjunction fails in a record exactly if some part does,
so its first violation is the first violation of some part, and no part is violated earlier.

A check that has come to a verdict words it next. That may fail for a part although the conjunction could be
worded, because a later violation may be the one that cannot be printed. Checks of several properties also name
those that are violated, which may fail as well.
-/

namespace StateSpace

namespace Formula

/-- A formula joins the parts by conjunctions, in their order and with any brackets. -/
inductive Conjoins : List (Formula Result) → Formula Result → Prop where
  | single (part : Formula Result) : Conjoins [part] part
  | and {lefts rights : List (Formula Result)} {left right : Formula Result} (ofLeft : Conjoins lefts left)
      (ofRight : Conjoins rights right) : Conjoins (lefts ++ rights) (.and left right)

theorem Conjoins.foldl {parts : List (Formula Result)} {formula : Formula Result}
    (conjoins : Conjoins parts formula) (others : List (Formula Result)) :
    Conjoins (parts ++ others) (others.foldl .and formula) := by
  induction others generalizing parts formula with
  | nil => simpa using conjoins
  | cons other others ih => simpa using ih (conjoins.and (.single other))

end Formula

namespace TransitionSystem

variable {system : TransitionSystem Result} {property : Property Result} {bound : Nat} {verdict : Verdict}
  {records : List Record} {state : Value}

theorem exists_means_of_holdsAt {formula : Formula Result} {truth : Bool}
    (holds_eq : system.holdsAt (.formula formula) state = .ok truth) :
    ∃ label, system.label state = .ok label ∧ formula.Means label (truth = true) := by
  rcases Result.bind_eq_ok_iff.mp holds_eq with ⟨label, labelled, holds_there⟩
  rcases Result.bind_eq_ok_iff.mp holds_there with ⟨value, value_eq, truthy_eq⟩
  cases truthy_eq
  exact ⟨label, labelled, value, value_eq, Iff.rfl⟩

theorem holdsAt_and {left right : Formula Result} {truth truth' : Bool}
    (ofLeft : system.holdsAt (.formula left) state = .ok truth)
    (ofRight : system.holdsAt (.formula right) state = .ok truth') :
    system.holdsAt (.formula (.and left right)) state = .ok (truth && truth') := by
  rcases exists_means_of_holdsAt ofLeft with ⟨label, labelled, means⟩
  rcases exists_means_of_holdsAt ofRight with ⟨label', labelled', means'⟩
  cases labelled.symm.trans labelled'
  rcases (means.and means').holds_eq with ⟨both, both_eq, both_iff⟩
  have both_truth : both = (truth && truth') := Bool.eq_iff_iff.mpr (by rw [both_iff, Bool.and_eq_true])
  rw [holdsAt, labelled, Result.ok_bind, both_eq, both_truth]

/-- Where all parts are decided, a conjunction is, and it is true if they all are. -/
theorem holdsAt_of_conjoins {parts : List (Formula Result)} {formula : Formula Result}
    (conjoins : Formula.Conjoins parts formula)
    (decided : ∀ part ∈ parts, ∃ truth, system.holdsAt (.formula part) state = .ok truth) :
    ∃ truth, system.holdsAt (.formula formula) state = .ok truth ∧
      (truth = true ↔ ∀ part ∈ parts, system.holdsAt (.formula part) state = .ok true) := by
  induction conjoins with
  | single part =>
      rcases decided part (by simp) with ⟨truth, truth_eq⟩
      exact ⟨truth, truth_eq, by simp [truth_eq]⟩
  | and _ _ ihLeft ihRight =>
      rw [List.forall_mem_append] at decided
      rcases ihLeft decided.1 with ⟨truth, truth_eq, truth_iff⟩
      rcases ihRight decided.2 with ⟨truth', truth_eq', truth_iff'⟩
      refine ⟨truth && truth', holdsAt_and truth_eq truth_eq', ?_⟩
      rw [Bool.and_eq_true, truth_iff, truth_iff', List.forall_mem_append]

/-! ### Wording the verdicts -/

theorem SettledFrom.report_eq (settled : system.SettledFrom bound property verdict) (more : Nat) :
    (system.report property (bound + more)).map Prod.fst = verdict.worded property := by
  rw [map_report, settled.2 more, Result.ok_bind]

/-- The properties that named formulas are. -/
def propertiesOf (entries : List (Value × Formula Result)) : List (Value × Property Result) :=
  entries.map fun entry => (entry.1, .formula entry.2)

theorem map_checkAll (properties : List (Value × Property Result)) (limit : Nat) :
    (system.checkAll properties limit).map Prod.fst =
      (properties.mapM fun entry => ((system.report entry.2 limit).map Prod.fst).map (Prod.mk entry.1)) >>=
        fun verdicts => (summaryNotices verdicts).map fun _ => verdicts := by
  have viewed := Result.map_mapM properties (fun entry => do pure (entry.1, ← system.report entry.2 limit))
    fun entry => (entry.1, entry.2.1)
  have listed : (fun entry : Value × Property Result =>
        ((system.report entry.2 limit).map Prod.fst).map (Prod.mk entry.1)) =
      fun entry => (do pure (entry.1, ← system.report entry.2 limit) :
        Result (Value × Verdict × List Notice)).map fun entry => (entry.1, entry.2.1) := by
    funext entry
    cases system.report entry.2 limit <;> rfl
  rw [listed, ← viewed, checkAll]
  cases properties.mapM fun entry => (do pure (entry.1, ← system.report entry.2 limit) :
    Result (Value × Verdict × List Notice)) with
  | error fault => rfl
  | ok reports =>
      change (summaryNotices (reports.map fun entry => (entry.1, entry.2.1)) >>= fun summary =>
          pure (reports.map fun entry => (entry.1, entry.2.1),
            (reports.flatMap fun entry => entry.2.2) ++ summary)).map Prod.fst =
        (summaryNotices (reports.map fun entry => (entry.1, entry.2.1))).map _
      cases summaryNotices (reports.map fun entry => (entry.1, entry.2.1)) <;> rfl

/-- Checks of several properties give all verdicts, unless one of these or the summary cannot be worded. -/
theorem checkAll_eq {entries : List (Value × Formula Result)} {verdictOf : Formula Result → Verdict}
    (settled : ∀ entry ∈ entries, system.SettledFrom bound (.formula entry.2) (verdictOf entry.2))
    (more : Nat) :
    (system.checkAll (propertiesOf entries) (bound + more)).map Prod.fst =
      if (∀ entry ∈ entries, (verdictOf entry.2).isPrintable (.formula entry.2) = true) ∧
          isSummaryPrintable (entries.map fun entry => (entry.1, verdictOf entry.2)) = true then
        .ok (entries.map fun entry => (entry.1, verdictOf entry.2))
      else .error .numberTooLong := by
  have worded : (entries.mapM fun entry => ((system.report (.formula entry.2) (bound + more)).map Prod.fst).map
        (Prod.mk entry.1)) =
      if ∀ entry ∈ entries, (verdictOf entry.2).isPrintable (.formula entry.2) = true then
        .ok (entries.map fun entry => (entry.1, verdictOf entry.2))
      else .error .numberTooLong := by
    apply Result.mapM_eq_ite
    intro entry entry_mem
    rw [(settled entry entry_mem).report_eq more, Verdict.worded, Verdict.shownIf]
    split <;> rfl
  rw [map_checkAll, propertiesOf, List.mapM_map]
  change (entries.mapM fun entry => ((system.report (.formula entry.2) (bound + more)).map Prod.fst).map
        (Prod.mk entry.1)) >>= _ = _
  rw [worded]
  by_cases shown : ∀ entry ∈ entries, (verdictOf entry.2).isPrintable (.formula entry.2) = true
  · simp only [if_pos shown, Result.ok_bind, map_summaryNotices, and_iff_right shown]
  · rw [if_neg shown, if_neg fun both => shown both.1, Result.error_bind]

/-! ### The first violation -/

section Conjunction

variable {entries : List (Value × Formula Result)} {formula : Formula Result}
  {verdictOf : Formula Result → Verdict}

theorem holdsAt_conjunction_iff (conjoins : Formula.Conjoins (entries.map Prod.snd) formula)
    (decided : ∀ entry ∈ entries, ∃ truth, system.holdsAt (.formula entry.2) state = .ok truth) :
    system.holdsAt (.formula formula) state = .ok true ↔
      ∀ entry ∈ entries, system.holdsAt (.formula entry.2) state = .ok true := by
  rcases holdsAt_of_conjoins conjoins (List.forall_mem_map.mpr decided) with ⟨truth, truth_eq, truth_iff⟩
  rw [List.forall_mem_map] at truth_iff
  rw [← truth_iff, truth_eq, Except.ok.injEq]

/-- A conjunction of settled parts has no violation if no part has. -/
theorem counterexample_conjunction_none_iff (ends : system.EndsFrom bound records)
    (conjoins : Formula.Conjoins (entries.map Prod.snd) formula)
    (decided : ∀ record ∈ records, ∀ entry ∈ entries,
      ∃ truth, system.holdsAt (.formula entry.2) record.state = .ok truth)
    (whole : system.SettledFrom bound (.formula formula) verdict)
    (settled : ∀ entry ∈ entries, system.SettledFrom bound (.formula entry.2) (verdictOf entry.2)) :
    verdict.counterexample? = none ↔ ∀ entry ∈ entries, (verdictOf entry.2).counterexample? = none := by
  rw [ends.counterexample_eq_none_iff whole]
  constructor
  · intro holds entry entry_mem
    apply (ends.counterexample_eq_none_iff (settled entry entry_mem)).mpr
    intro record record_mem
    exact (holdsAt_conjunction_iff conjoins (decided record record_mem)).mp (holds record record_mem) entry
      entry_mem
  · intro unnamed record record_mem
    apply (holdsAt_conjunction_iff conjoins (decided record record_mem)).mpr
    intro entry entry_mem
    exact (ends.counterexample_eq_none_iff (settled entry entry_mem)).mp (unnamed entry entry_mem) record
      record_mem

/-- The violation of a conjunction is one of a part, and no part has one in an earlier record. -/
theorem counterexample_conjunction_first (ends : system.EndsFrom bound records)
    (distinct : Value.Distinct (records.map Record.state))
    (conjoins : Formula.Conjoins (entries.map Prod.snd) formula)
    (decided : ∀ record ∈ records, ∀ entry ∈ entries,
      ∃ truth, system.holdsAt (.formula entry.2) record.state = .ok truth)
    (whole : system.SettledFrom bound (.formula formula) verdict)
    (settled : ∀ entry ∈ entries, system.SettledFrom bound (.formula entry.2) (verdictOf entry.2))
    {counterexample : Counterexample} (named : verdict.counterexample? = some counterexample) :
    (∃ entry ∈ entries, (verdictOf entry.2).counterexample? = some counterexample) ∧
      ∃ earlier later, records = earlier ++ ⟨counterexample.state, counterexample.path⟩ :: later ∧
        ∀ entry ∈ entries, ∀ other, (verdictOf entry.2).counterexample? = some other →
          other.state.isIn (earlier.map Record.state) = false := by
  rcases (ends.counterexample_eq_some_iff whole).mp named with ⟨earlier, later, records_eq, holds, fails⟩
  have earlier_mem : ∀ record ∈ earlier, record ∈ records := by
    intro record record_mem
    rw [records_eq]
    exact List.mem_append_left _ record_mem
  have partsHold : ∀ record ∈ earlier, ∀ entry ∈ entries,
      system.holdsAt (.formula entry.2) record.state = .ok true := by
    intro record record_mem
    exact (holdsAt_conjunction_iff conjoins (decided record (earlier_mem record record_mem))).mp
      (holds record record_mem)
  constructor
  · -- a part that is not true there is false there, and it was true before
    have decidedThere := decided ⟨counterexample.state, counterexample.path⟩ (by simp [records_eq])
    have someFails : ∃ entry ∈ entries, system.holdsAt (.formula entry.2) counterexample.state ≠ .ok true := by
      by_contra! allHold
      have holdsThere := (holdsAt_conjunction_iff conjoins decidedThere).mpr allHold
      rw [fails] at holdsThere
      cases holdsThere
    rcases someFails with ⟨entry, entry_mem, untrue⟩
    rcases decidedThere entry entry_mem with ⟨truth, truth_eq⟩
    cases truth with
    | true => exact absurd truth_eq untrue
    | false =>
        refine ⟨entry, entry_mem, (ends.counterexample_eq_some_iff (settled entry entry_mem)).mpr ?_⟩
        exact ⟨earlier, later, records_eq, fun record record_mem => partsHold record record_mem entry entry_mem,
          truth_eq⟩
  · refine ⟨earlier, later, records_eq, ?_⟩
    intro entry entry_mem other otherNamed
    rcases (ends.counterexample_eq_some_iff (settled entry entry_mem)).mp otherNamed with
      ⟨before, after, split, _, otherFails⟩
    apply Bool.eq_false_iff.mpr
    intro found
    rcases Value.isIn_iff.mp found with ⟨item, item_mem, equal⟩
    rcases List.mem_map.mp item_mem with ⟨record, record_mem, rfl⟩
    have same := distinct.eq_of_beq (earlier_mem record record_mem)
      (show (⟨other.state, other.path⟩ : Record) ∈ records by simp [split]) equal
    have holdsThere := partsHold record record_mem entry entry_mem
    rw [same, otherFails] at holdsThere
    cases holdsThere

/-- The check of a conjunction and the checks of its parts, in a regular system with finitely many reachable
states where all parts are decided. All of them come to verdicts. The conjunction is violated if some part is,
and its violation is the one of a part that is reported first. A check gives its verdict if it can be worded. The
verdicts of the parts are given together if they can all be worded and the summary of them too, and each is that
of a check alone. -/
theorem checkAll_conjunction (regular : system.Regular) (finite : system.FinitelyReachable)
    (conjoins : Formula.Conjoins (entries.map Prod.snd) formula)
    (decided : ∀ state, system.Reachable state → ∀ entry ∈ entries,
      ∃ truth, system.holdsAt (.formula entry.2) state = .ok truth) :
    ∃ bound verdict, ∃ verdictOf : Formula Result → Verdict,
      system.SettledFrom bound (.formula formula) verdict ∧
      (∀ entry ∈ entries, system.SettledFrom bound (.formula entry.2) (verdictOf entry.2)) ∧
      (verdict.counterexample? = none ↔
        ∀ entry ∈ entries, (verdictOf entry.2).counterexample? = none) ∧
      (∀ counterexample, verdict.counterexample? = some counterexample →
        (∃ entry ∈ entries, (verdictOf entry.2).counterexample? = some counterexample) ∧
        ∃ earlier later,
          (∀ more, (system.explore (bound + more)).records =
            earlier ++ ⟨counterexample.state, counterexample.path⟩ :: later) ∧
          ∀ entry ∈ entries, ∀ other, (verdictOf entry.2).counterexample? = some other →
            other.state.isIn (earlier.map Record.state) = false) ∧
      ∀ more,
        (system.report (.formula formula) (bound + more)).map Prod.fst = verdict.worded (.formula formula) ∧
        (∀ entry ∈ entries, (system.report (.formula entry.2) (bound + more)).map Prod.fst =
          (verdictOf entry.2).worded (.formula entry.2)) ∧
        (system.checkAll (propertiesOf entries) (bound + more)).map Prod.fst =
          if (∀ entry ∈ entries, (verdictOf entry.2).isPrintable (.formula entry.2) = true) ∧
              isSummaryPrintable (entries.map fun entry => (entry.1, verdictOf entry.2)) = true then
            .ok (entries.map fun entry => (entry.1, verdictOf entry.2))
          else .error .numberTooLong := by
  rcases regular.explore_exhausted finite with ⟨bound, records, ends, distinct, reachable, _⟩
  have decidedRecords : ∀ record ∈ records, ∀ entry ∈ entries,
      ∃ truth, system.holdsAt (.formula entry.2) record.state = .ok truth :=
    fun record record_mem => decided record.state (reachable record record_mem)
  have exists_whole : ∃ verdict, system.SettledFrom bound (.formula formula) verdict := by
    apply EndsFrom.exists_settled ends
    intro record record_mem
    rcases holdsAt_of_conjoins conjoins (List.forall_mem_map.mpr (decidedRecords record record_mem)) with
      ⟨truth, truth_eq, _⟩
    exact ⟨truth, truth_eq⟩
  have exists_settled : ∀ part, ∃ verdict, part ∈ entries.map Prod.snd →
      system.SettledFrom bound (.formula part) verdict := by
    intro part
    by_cases part_mem : part ∈ entries.map Prod.snd
    · rcases List.mem_map.mp part_mem with ⟨entry, entry_mem, rfl⟩
      rcases EndsFrom.exists_settled ends fun record record_mem =>
        decidedRecords record record_mem entry entry_mem with ⟨verdict, settled⟩
      exact ⟨verdict, fun _ => settled⟩
    · exact ⟨.undecided, fun mem => absurd mem part_mem⟩
  rcases exists_whole with ⟨verdict, whole⟩
  choose verdictOf settledParts using exists_settled
  have settled : ∀ entry ∈ entries, system.SettledFrom bound (.formula entry.2) (verdictOf entry.2) :=
    fun entry entry_mem => settledParts entry.2 (List.mem_map_of_mem entry_mem)
  refine ⟨bound, verdict, verdictOf, whole, settled,
    counterexample_conjunction_none_iff ends conjoins decidedRecords whole settled, ?_, ?_⟩
  · intro counterexample named
    rcases counterexample_conjunction_first ends distinct conjoins decidedRecords whole settled named with
      ⟨ofPart, earlier, later, records_eq, first⟩
    exact ⟨ofPart, earlier, later, fun more => (ends more).1.trans records_eq, first⟩
  · intro more
    exact ⟨whole.report_eq more, fun entry entry_mem => (settled entry entry_mem).report_eq more,
      checkAll_eq settled more⟩

end Conjunction

/-- A property and its negation. -/
def opposites : List (Value × Formula Result) :=
  [(.str "low", .atom (.str "low")), (.str "high", .not (.atom (.str "low")))]

theorem merging_decides_opposites {state : Value} (reachable : merging.Reachable state) :
    ∀ entry ∈ opposites, ∃ truth, merging.holdsAt (.formula entry.2) state = .ok truth := by
  rcases merging_wellLabelled.labelled reachable.hasState with ⟨label, labelled⟩
  simp only [opposites, List.forall_mem_cons, List.not_mem_nil, false_implies, implies_true, and_true,
    holdsAt, labelled, Result.ok_bind]
  rcases merging_label labelled with rfl | rfl
  · exact ⟨⟨_, rfl⟩, _, rfl⟩
  · exact ⟨⟨_, rfl⟩, _, rfl⟩

/-- In a merging system a property is violated in the third state and its negation in the first, so their
conjunction is violated in the first. -/
theorem checkAll_conjunction_merging :
    merging.Regular ∧ merging.FinitelyReachable ∧
      (∀ state, merging.Reachable state → ∀ entry ∈ opposites,
        ∃ truth, merging.holdsAt (.formula entry.2) state = .ok truth) ∧
      ∃ formula, Formula.Conjoins (opposites.map Prod.snd) formula ∧
        ∃ bound verdict, merging.SettledFrom bound (.formula formula) verdict ∧
          verdict.counterexample? = some ⟨.int 0, .single (.int 0)⟩ ∧
          ∃ entry ∈ opposites, ∃ partVerdict, merging.SettledFrom bound (.formula entry.2) partVerdict ∧
            partVerdict.counterexample? = some ⟨.int 0, .single (.int 0)⟩ := by
  have regular := merging_wellLabelled.toWellFormed.regular
  have conjoins : Formula.Conjoins (opposites.map Prod.snd)
      (.and (.atom (.str "low")) (.not (.atom (.str "low")))) := .foldl (.single _) [_]
  refine ⟨regular, merging_finitelyReachable, fun _ => merging_decides_opposites, _, conjoins, ?_⟩
  rcases checkAll_conjunction regular merging_finitelyReachable conjoins fun _ =>
    merging_decides_opposites with ⟨bound, verdict, verdictOf, whole, settled, _, first, _⟩
  have split : (merging.explore 1).records = [] ++ ⟨.int 0, .single (.int 0)⟩ :: [] := rfl
  have checked := @check_of_first_violation _ (.formula (.and (.atom (.str "low")) (.not (.atom (.str "low")))))
    1 [] [] _ split (by simp) rfl bound
  rw [Nat.add_comm, whole.2 1] at checked
  cases checked
  rcases (first _ rfl).1 with ⟨entry, entry_mem, named⟩
  exact ⟨bound, _, whole, rfl, entry, entry_mem, verdictOf entry.2, settled entry entry_mem, named⟩

theorem leap_finitelyReachable (number : Nat) : (leap number).FinitelyReachable :=
  finitelyReachable_of_ofTable (ofTable_leap number) (by simp [Value.IsHashable])
    (leapEdges_leadsToKeys number)

/-- Checks may fail although the system is well formed, has finitely many reachable states, and neither labels
nor the property fail. They come to a violation that cannot be worded. -/
theorem checkAll_leap_unworded :
    (leap numberLimit).WellLabelled ∧ (leap numberLimit).FinitelyReachable ∧
      (leap numberLimit).Decides isLow ∧
      ∀ more, (leap numberLimit).report isLow (2 + more) = .error .numberTooLong ∧
        (leap numberLimit).checkAll [(.str "low", isLow)] (2 + more) = .error .numberTooLong := by
  refine ⟨leap_wellLabelled numberLimit, leap_finitelyReachable numberLimit, leap_decides numberLimit, ?_⟩
  intro more
  have unworded := report_leap (Nat.le_refl numberLimit) numberLimit_pos more
  refine ⟨unworded, ?_⟩
  simp only [checkAll, List.mapM_cons, unworded, Result.error_bind]

end TransitionSystem

end StateSpace
