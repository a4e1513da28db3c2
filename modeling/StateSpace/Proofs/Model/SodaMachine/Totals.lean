import StateSpace.Proofs.Model.SodaMachine.Size

/-!
# Verdicts on the total

At the start, coins and drinks together number the two capacities together, and after a coin they are one more.
A total that is right at a location is right in all its states, and one that is wrong there is wrong the first
time that the search comes there, which is in its first or second state. So the verdicts are known for all
capacities and all totals.

All of them show numbers. The name of a predicate on the total shows the total, a violation shows the
capacities, and a verdict that the total is right shows how many states there are.
-/

namespace StateSpace

/-- The check of a property that holds in all reachable states counts them. -/
theorem TransitionSystem.Enumerates.yields_holds {system : TransitionSystem Result} {states : List Value}
    {property : Property Result} (enumerates : system.Enumerates states) (regular : system.Regular)
    (holds : ∀ state, system.Reachable state → system.holdsAt property state = .ok true) :
    system.Yields property ((Verdict.holds states.length).worded property) := by
  rcases enumerates.exists_explore_perm regular with ⟨bound, records, ends, perm⟩
  have allHold : ∀ record ∈ records, system.holdsAt property record.state = .ok true := by
    intro record record_mem
    apply holds
    exact (enumerates.mem_iff _).mp (perm.mem_iff.mp (List.mem_map_of_mem record_mem))
  have counted : records.length = states.length := by rw [← perm.length_eq, List.length_map]
  apply yields_of_check
  intro more
  rw [EndsFrom.check_eq ends, judge_of_holds allHold, Nat.zero_add, counted]

namespace SodaMachine

/-- The formula that coins and drinks together number so many, if the number has a printed form. -/
def hasTotal (identity : Identity) (expected : Int) : Result (Formula Result) := do
  pure (.holds ((← totalIs (.int expected)).toRoutine identity))

/-- The formula that the predicate on a total makes. -/
def totalFormula (identity : Identity) (expected : Int) : Formula Result :=
  .holds ((totalPredicate (.int expected)).toRoutine identity)

/-- The state after the first coin, with the path of one step to it. -/
def afterCoin (maxSodas maxBeers : Nat) : Counterexample where
  state := configuration select 1 maxSodas maxBeers
  path := (Path.single (configuration start 0 maxSodas maxBeers)).extend (.str "coin")
    (configuration select 1 maxSodas maxBeers)

variable {maxSodas maxBeers : Nat} {location : Symbol} {coins sodas beers : Int} {identity : Identity}
  {expected : Int} {property : Property Result}

theorem hasTotal_eq (identity : Identity) (expected : Int) :
    hasTotal identity expected =
      if expected.natAbs < numberLimit then .ok (totalFormula identity expected)
      else .error .numberTooLong := by
  have printable_iff : Value.arePrintable [.int expected] = true ↔ expected.natAbs < numberLimit := by
    simp [Value.arePrintable, Value.isPrintable]
  simp only [hasTotal, totalIs, Value.requirePrintable, printable_iff]
  split <;> rfl

theorem means_totalFormula :
    (totalFormula identity expected).Means (.program (.symbol location) (holding coins sodas beers))
      (coins + sodas + beers = expected) := by
  have evaluated : (totalFormula identity expected).evaluate
      (.program (.symbol location) (holding coins sodas beers)) =
        .ok (.bool (Value.int (coins + sodas + beers) == .int expected)) := rfl
  exact ⟨_, evaluated, by simp [Value.truthy, Value.beq_int]⟩

theorem means_totalFormulaAt {place : Symbol} :
    (Formula.implies (.atLocation (.symbol place)) (totalFormula identity expected)).Means
      (.program (.symbol location) (holding coins sodas beers))
      ((Value.symbol place == .symbol location) = true → coins + sodas + beers = expected) :=
  .implies (.atomic rfl) means_totalFormula

/-! ### Three verdicts -/

/-- A violation with full stock shows the capacities, and few coins, steps and states. -/
theorem worded_fullStock (printable : property.isPrintable = true) {coins checked : Nat} {path : Path}
    (fewCoins : coins ≤ maxDigits) (fewSteps : path.length ≤ maxDigits) (fewChecked : checked ≤ maxDigits) :
    (Verdict.violated ⟨configuration location coins maxSodas maxBeers, path⟩ checked).worded property =
      (Verdict.violated ⟨configuration location coins maxSodas maxBeers, path⟩ checked).shownIf
        (maxSodas < numberLimit ∧ maxBeers < numberLimit) := by
  apply Verdict.worded_eq_shownIf
  rw [Verdict.isPrintable_violated_iff, isPrintable_configuration_iff]
  simp only [printable, Int.natAbs_natCast, lt_numberLimit fewCoins, lt_numberLimit fewSteps,
    lt_numberLimit fewChecked, true_and, and_true]

theorem yields_atOnce (printable : property.isPrintable = true)
    (fails : (machine maxSodas maxBeers).compile.holdsAt property (atOnce maxSodas maxBeers).state =
      .ok false) :
    (machine maxSodas maxBeers).compile.Yields property
      ((Verdict.violated (atOnce maxSodas maxBeers) 1).shownIf
        (maxSodas < numberLimit ∧ maxBeers < numberLimit)) := by
  rcases @exists_reports_atOnce maxSodas maxBeers with ⟨last, reports⟩
  have yields := @TransitionSystem.yields_of_reports _ _ [] _ last reports (by simp) fails
  have shown : (Verdict.violated (atOnce maxSodas maxBeers) 1).worded property =
      (Verdict.violated (atOnce maxSodas maxBeers) 1).shownIf
        (maxSodas < numberLimit ∧ maxBeers < numberLimit) :=
    @worded_fullStock _ _ _ _ printable 0 _ _ (by decide) (Nat.zero_le _) (by decide)
  rw [← shown]
  exact yields

theorem yields_afterCoin (printable : property.isPrintable = true)
    (holds : (machine maxSodas maxBeers).compile.holdsAt property (atOnce maxSodas maxBeers).state =
      .ok true)
    (fails : (machine maxSodas maxBeers).compile.holdsAt property (afterCoin maxSodas maxBeers).state =
      .ok false) :
    (machine maxSodas maxBeers).compile.Yields property
      ((Verdict.violated (afterCoin maxSodas maxBeers) 2).shownIf
        (maxSodas < numberLimit ∧ maxBeers < numberLimit)) := by
  have fresh : (afterCoin maxSodas maxBeers).state.isIn [(atOnce maxSodas maxBeers).state] = false := by
    simp only [Value.isIn, List.any_cons, List.any_nil, Bool.or_false]
    exact beq_configuration_eq_false fun same => start_ne_select same.1
  rcases @exists_reports_atOnce maxSodas maxBeers with ⟨last, reports⟩
  rcases @TransitionSystem.exists_reports_first _ [] _ last reports _ _ _ lists_start rfl fresh with
    ⟨following, reports'⟩
  have yields := TransitionSystem.yields_of_reports reports' (by simpa using holds) fails
  have oneStep : (afterCoin maxSodas maxBeers).path.length = 1 := rfl
  have shown : (Verdict.violated (afterCoin maxSodas maxBeers) 2).worded property =
      (Verdict.violated (afterCoin maxSodas maxBeers) 2).shownIf
        (maxSodas < numberLimit ∧ maxBeers < numberLimit) :=
    @worded_fullStock _ _ _ _ printable 1 _ _ (by decide) (oneStep.trans_le (by decide)) (by decide)
  rw [← shown]
  exact yields

theorem yields_holds (printable : property.isPrintable = true)
    (holds : ∀ state, Balanced maxSodas maxBeers state →
      (machine maxSodas maxBeers).compile.holdsAt property state = .ok true) :
    (machine maxSodas maxBeers).compile.Yields property
      ((Verdict.holds (2 * (maxSodas + 1) * (maxBeers + 1))).shownIf
        (2 * (maxSodas + 1) * (maxBeers + 1) < numberLimit)) := by
  have yields := enumerates_configurations.yields_holds machine_regular fun state reachable =>
    holds state (balanced_of_reachable reachable)
  rw [length_configurations] at yields
  have shown_iff : (Verdict.holds (2 * (maxSodas + 1) * (maxBeers + 1))).isPrintable property = true ↔
      2 * (maxSodas + 1) * (maxBeers + 1) < numberLimit := by
    rw [Verdict.isPrintable_holds_iff, and_iff_right printable]
  rwa [Verdict.worded_eq_shownIf shown_iff] at yields

theorem totalFormulaAt_isPrintable (place : Symbol) :
    (Property.formula (.implies (.atLocation (.symbol place)) (totalFormula identity expected)) :
      Property Result).isPrintable = true :=
  rfl

theorem totalFormula_isPrintable :
    (Property.formula (totalFormula identity expected) : Property Result).isPrintable = true :=
  rfl

/-- The verdicts on the total of coins and drinks, for all capacities and all totals. A total without a printed
form makes no predicate. With any other, at the start the capacities together are the only total that is never
violated, and after a coin it is one more. No total is right at both places. A verdict is given if the numbers
in it have printed forms, and otherwise the check fails. -/
theorem report_hasTotal (maxSodas maxBeers : Nat) (identity : Identity) (expected : Int) :
    (numberLimit ≤ expected.natAbs → hasTotal identity expected = .error .numberTooLong) ∧
    (expected.natAbs < numberLimit →
      ∃ (machine : ProgramGraph Result) (formula : Formula Result),
        graph (.int maxSodas) (.int maxBeers) = .ok machine ∧ hasTotal identity expected = .ok formula ∧
        machine.compile.Yields (.formula (.implies (.atLocation (.symbol start)) formula))
          (if expected = maxSodas + maxBeers then
            (Verdict.holds (2 * (maxSodas + 1) * (maxBeers + 1))).shownIf
              (2 * (maxSodas + 1) * (maxBeers + 1) < numberLimit)
          else
            (Verdict.violated (atOnce maxSodas maxBeers) 1).shownIf
              (maxSodas < numberLimit ∧ maxBeers < numberLimit)) ∧
        machine.compile.Yields (.formula (.implies (.atLocation (.symbol select)) formula))
          (if expected = maxSodas + maxBeers + 1 then
            (Verdict.holds (2 * (maxSodas + 1) * (maxBeers + 1))).shownIf
              (2 * (maxSodas + 1) * (maxBeers + 1) < numberLimit)
          else
            (Verdict.violated (afterCoin maxSodas maxBeers) 2).shownIf
              (maxSodas < numberLimit ∧ maxBeers < numberLimit)) ∧
        machine.compile.Yields (.formula formula)
          ((if expected = maxSodas + maxBeers then Verdict.violated (afterCoin maxSodas maxBeers) 2
            else .violated (atOnce maxSodas maxBeers) 1).shownIf
              (maxSodas < numberLimit ∧ maxBeers < numberLimit))) := by
  constructor
  · intro long
    rw [hasTotal_eq, if_neg (Nat.not_lt.mpr long)]
  intro short
  refine ⟨machine maxSodas maxBeers, totalFormula identity expected, graph_eq maxSodas maxBeers, ?_, ?_, ?_, ?_⟩
  · rw [hasTotal_eq, if_pos short]
  -- a total that is wrong at a location is wrong the first time the search comes there
  · split
    · apply yields_holds (totalFormulaAt_isPrintable start)
      rintro state ⟨sodas, beers, _, _, rfl | rfl⟩
      · exact TransitionSystem.holdsAt_of_means label_configuration means_totalFormulaAt fun _ => by omega
      · exact TransitionSystem.holdsAt_of_means label_configuration means_totalFormulaAt nofun
    · apply yields_atOnce (totalFormulaAt_isPrintable start)
      apply TransitionSystem.fails_of_means label_configuration means_totalFormulaAt
      intro total
      have := total rfl
      omega
  · split
    · apply yields_holds (totalFormulaAt_isPrintable select)
      rintro state ⟨sodas, beers, _, _, rfl | rfl⟩
      · exact TransitionSystem.holdsAt_of_means label_configuration means_totalFormulaAt nofun
      · exact TransitionSystem.holdsAt_of_means label_configuration means_totalFormulaAt fun _ => by omega
    · apply yields_afterCoin (totalFormulaAt_isPrintable select)
      · exact TransitionSystem.holdsAt_of_means label_configuration means_totalFormulaAt nofun
      · apply TransitionSystem.fails_of_means label_configuration means_totalFormulaAt
        intro total
        have := total rfl
        omega
  · split
    · apply yields_afterCoin totalFormula_isPrintable
      · exact TransitionSystem.holdsAt_of_means label_configuration means_totalFormula (by omega)
      · exact TransitionSystem.fails_of_means label_configuration means_totalFormula (by omega)
    · apply yields_atOnce totalFormula_isPrintable
      exact TransitionSystem.fails_of_means label_configuration means_totalFormula (by omega)

/-- There may be no predicate on a total, and no verdict although the total is wrong in the first state. -/
theorem report_hasTotal_unworded :
    hasTotal (.made 0) (Int.ofNat numberLimit) = .error .numberTooLong ∧
      ∃ (machine : ProgramGraph Result) (formula : Formula Result),
        graph (.int (Int.ofNat numberLimit)) (.int 0) = .ok machine ∧ hasTotal (.made 0) 0 = .ok formula ∧
        machine.compile.holdsAt (.formula (.implies (.atLocation (.symbol start)) formula))
          (atOnce numberLimit 0).state = .ok false ∧
        machine.compile.Yields (.formula (.implies (.atLocation (.symbol start)) formula))
          (.error .numberTooLong) := by
  have fails : (machine numberLimit 0).compile.holdsAt
      (.formula (.implies (.atLocation (.symbol start)) (totalFormula (.made 0) 0)))
        (atOnce numberLimit 0).state = .ok false := by
    apply TransitionSystem.fails_of_means label_configuration means_totalFormulaAt
    intro total
    have empty := total rfl
    have positive := numberLimit_pos
    omega
  have yields := yields_atOnce (totalFormulaAt_isPrintable start) fails
  rw [Verdict.shownIf, if_neg fun short => Nat.lt_irrefl _ short.1] at yields
  refine ⟨?_, machine numberLimit 0, totalFormula (.made 0) 0, graph_eq numberLimit 0, ?_, fails, yields⟩
  · rw [hasTotal_eq, Int.ofNat_eq_natCast, Int.natAbs_natCast, if_neg (Nat.lt_irrefl numberLimit)]
  · rw [hasTotal_eq, Int.natAbs_zero, if_pos numberLimit_pos]

end SodaMachine

end StateSpace
