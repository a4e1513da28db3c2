import StateSpace.Proofs.Search.Exactness
import StateSpace.Proofs.Wording

/-!
# Soundness and completeness of checks

A check judges the records of the search one after the other and stops at the first that fails.
`TransitionSystem.checkFrom_eq` separates the two: a check is the judgement of the records that a search
with the same bound reports. What the search is known to report then says what the verdict means.

A property is decided in a system if it has a truth value in the label of every state of the system, the
same in equal labels. Equal states have equal labels, so it then holds in all or none of the values that
equal a state.

What a check gives is its verdict once that is worded. The last result is a property that holds in all
reachable states and whose check fails, because the property itself cannot be printed.
-/

namespace StateSpace

namespace TransitionSystem

/-- Whether a property holds in the label of a state. -/
def holdsAt (system : TransitionSystem Result) (property : Property Result) (state : Value) :
    Result Bool := do
  property.holds (← system.label state)

/-- A property that has a truth value in the labels of a system, the same in equal labels. -/
structure Decides (system : TransitionSystem Result) (property : Property Result) : Prop where
  decided : ∀ {state : Value} {label : Label}, system.HasState state →
    system.label state = .ok label → ∃ truth, property.holds label = .ok truth
  congruent : ∀ {state other : Value} {label label' : Label}, system.HasState state →
    system.HasState other → system.label state = .ok label → system.label other = .ok label' →
      (label.toValue == label'.toValue) = true → property.holds label = property.holds label'

/-- The verdict on records that a search reported before it ended in some way. -/
def judge (system : TransitionSystem Result) (property : Property Result) (ending : Search.Ending) :
    List Record → Nat → Result Verdict
  | [], checked =>
      match ending with
      | .exhausted => .ok (.holds checked)
      | .failed fault => .error fault
      | .cut => .ok .undecided
  | record :: records, checked => do
      if ← system.holdsAt property record.state then
        judge system property ending records (checked + 1)
      else
        pure (.violated ⟨record.state, record.path⟩ (checked + 1))

variable {system : TransitionSystem Result} {property : Property Result}

/-- A check is the judgement of what the search reports. -/
theorem checkFrom_eq (bound : Nat) (search : Search) (checked : Nat) :
    system.checkFrom property bound search checked =
      system.judge property (search.run system.transitions bound).ending
        (search.run system.transitions bound).records checked := by
  induction bound generalizing search checked with
  | zero => rfl
  | succ bound ih =>
      cases advances : search.next system.transitions with
      | exhausted ended => simp [checkFrom, Search.run, judge, advances]
      | failed fault stopped => simp [checkFrom, Search.run, judge, advances]
      | reported record following =>
          rw [Search.run_of_reported advances]
          simp [checkFrom, judge, holdsAt, advances, ih]

theorem check_eq (bound : Nat) :
    system.check property bound =
      system.judge property (system.explore bound).ending (system.explore bound).records 0 :=
  checkFrom_eq bound system.search 0

theorem check_add_of_exhausted {bound : Nat} (ended : (system.explore bound).ending = .exhausted) (more : Nat) :
    system.check property (bound + more) = system.check property bound := by
  have run_eq : system.explore (bound + more) = system.explore bound := Search.run_add_of_exhausted ended more
  rw [check_eq, check_eq, run_eq]

/-- Properties that hold alike in all states get the same verdict, or fail with the same fault. -/
theorem check_congr {other : Property Result}
    (alike : ∀ state, system.holdsAt property state = system.holdsAt other state) (bound : Nat) :
    system.check property bound = system.check other bound := by
  have judged : ∀ (records : List Record) (checked : Nat),
      system.judge property (system.explore bound).ending records checked =
        system.judge other (system.explore bound).ending records checked := by
    intro records
    induction records with
    | nil => exact fun _ => rfl
    | cons record records ih =>
        intro checked
        simp only [judge, alike, ih]
  rw [check_eq, check_eq, judged]

theorem judge_cons_of_holds {ending : Search.Ending} {record : Record}
    (holds : system.holdsAt property record.state = .ok true) (records : List Record) (checked : Nat) :
    system.judge property ending (record :: records) checked =
      system.judge property ending records (checked + 1) := by
  simp [judge, holds]

theorem judge_cons_of_fails {ending : Search.Ending} {record : Record}
    (fails : system.holdsAt property record.state = .ok false) (records : List Record) (checked : Nat) :
    system.judge property ending (record :: records) checked =
      .ok (.violated ⟨record.state, record.path⟩ (checked + 1)) := by
  simp [judge, fails]

/-- A violation is found at the first record in which the property fails. -/
theorem judge_violated {ending : Search.Ending} {records : List Record} {checked count : Nat}
    {counterexample : Counterexample}
    (judged : system.judge property ending records checked = .ok (.violated counterexample count)) :
    ∃ earlier later, records = earlier ++ ⟨counterexample.state, counterexample.path⟩ :: later ∧
      count = checked + earlier.length + 1 ∧
      (∀ record ∈ earlier, system.holdsAt property record.state = .ok true) ∧
      system.holdsAt property counterexample.state = .ok false := by
  induction records generalizing checked with
  | nil => cases ending <;> simp [judge] at judged
  | cons record records ih =>
      cases truth : system.holdsAt property record.state with
      | error fault => simp [judge, truth] at judged
      | ok flag =>
          cases flag with
          | false =>
              simp only [judge_cons_of_fails truth, Except.ok.injEq, Verdict.violated.injEq] at judged
              rcases judged with ⟨rfl, rfl⟩
              exact ⟨[], records, rfl, by simp, by simp, truth⟩
          | true =>
              rw [judge_cons_of_holds truth] at judged
              rcases ih judged with ⟨earlier, later, rfl, rfl, holds, fails⟩
              refine ⟨record :: earlier, later, rfl, ?_, List.forall_mem_cons.mpr ⟨truth, holds⟩, fails⟩
              simp only [List.length_cons]
              omega

theorem judge_of_fails {ending : Search.Ending} {earlier : List Record} {counterexample : Counterexample}
    (holds : ∀ record ∈ earlier, system.holdsAt property record.state = .ok true)
    (fails : system.holdsAt property counterexample.state = .ok false) (later : List Record)
    (checked : Nat) :
    system.judge property ending
        (earlier ++ ⟨counterexample.state, counterexample.path⟩ :: later) checked =
      .ok (.violated counterexample (checked + earlier.length + 1)) := by
  induction earlier generalizing checked with
  | nil => simp [judge, fails]
  | cons first earlier ih =>
      rw [List.forall_mem_cons] at holds
      rw [List.cons_append, judge_cons_of_holds holds.1, ih holds.2]
      simp only [List.length_cons, Except.ok.injEq, Verdict.violated.injEq, true_and]
      omega

theorem judge_of_holds {records : List Record}
    (holds : ∀ record ∈ records, system.holdsAt property record.state = .ok true) (checked : Nat) :
    system.judge property .exhausted records checked = .ok (.holds (checked + records.length)) := by
  induction records generalizing checked with
  | nil => rfl
  | cons record records ih =>
      rw [List.forall_mem_cons] at holds
      rw [judge_cons_of_holds holds.1, ih holds.2, List.length_cons]
      congr 2
      omega

/-- The verdict that a property holds means that the search has ended and that it holds in all records. -/
theorem judge_holds {ending : Search.Ending} {records : List Record} {checked count : Nat}
    (judged : system.judge property ending records checked = .ok (.holds count)) :
    ending = .exhausted ∧ ∀ record ∈ records, system.holdsAt property record.state = .ok true := by
  induction records generalizing checked with
  | nil => cases ending <;> simp [judge] at judged ⊢
  | cons record records ih =>
      cases truth : system.holdsAt property record.state with
      | error fault => simp [judge, truth] at judged
      | ok flag =>
          cases flag with
          | false => simp [judge_cons_of_fails truth] at judged
          | true =>
              rw [judge_cons_of_holds truth] at judged
              rcases ih judged with ⟨ended, holds⟩
              exact ⟨ended, List.forall_mem_cons.mpr ⟨truth, holds⟩⟩

/-- A fault is one of the property, or one of the search after a property that has held so far. -/
theorem judge_error {ending : Search.Ending} {records : List Record} {checked : Nat} {fault : Fault}
    (judged : system.judge property ending records checked = .error fault) :
    (∃ record ∈ records, system.holdsAt property record.state = .error fault) ∨
      ending = .failed fault ∧ ∀ record ∈ records, system.holdsAt property record.state = .ok true := by
  induction records generalizing checked with
  | nil =>
      right
      cases ending <;> simp_all [judge]
  | cons record records ih =>
      cases truth : system.holdsAt property record.state with
      | error raised =>
          simp only [judge, truth, Result.error_bind, Except.error.injEq] at judged
          rw [judged] at truth
          exact .inl ⟨record, by simp, truth⟩
      | ok flag =>
          cases flag with
          | false => simp [judge_cons_of_fails truth] at judged
          | true =>
              rw [judge_cons_of_holds truth] at judged
              rcases ih judged with ⟨later, later_mem, raised⟩ | ⟨failed, holds⟩
              · exact .inl ⟨later, List.mem_cons_of_mem _ later_mem, raised⟩
              · exact .inr ⟨failed, List.forall_mem_cons.mpr ⟨truth, holds⟩⟩

/-- Where the property is decided in all records of a search that ended, there is a verdict, which is a
violation unless the property holds in all of them. -/
theorem judge_exhausted {records : List Record}
    (decided : ∀ record ∈ records, ∃ truth, system.holdsAt property record.state = .ok truth)
    (checked : Nat) :
    ∃ verdict, system.judge property .exhausted records checked = .ok verdict ∧
      verdict ≠ .undecided ∧
      (verdict.counterexample? = none ↔
        ∀ record ∈ records, system.holdsAt property record.state = .ok true) := by
  induction records generalizing checked with
  | nil => exact ⟨.holds checked, rfl, by simp, by simp [Verdict.counterexample?]⟩
  | cons record records ih =>
      rcases decided record (by simp) with ⟨truth, truth_eq⟩
      cases truth with
      | false =>
          refine ⟨_, judge_cons_of_fails truth_eq records checked, by simp, ?_⟩
          simp [Verdict.counterexample?, truth_eq]
      | true =>
          rcases ih (fun later later_mem => decided later (List.mem_cons_of_mem _ later_mem))
            (checked + 1) with ⟨verdict, judged, settled, none_iff⟩
          refine ⟨verdict, ?_, settled, ?_⟩
          · rw [judge_cons_of_holds truth_eq, judged]
          · rw [none_iff, List.forall_mem_cons]
            exact ⟨fun holds => ⟨truth_eq, holds⟩, fun holds => holds.2⟩

namespace WellLabelled

theorem holdsAt_decided (wellLabelled : system.WellLabelled) (decides : system.Decides property)
    {state : Value} (hasState : system.HasState state) :
    ∃ truth, system.holdsAt property state = .ok truth := by
  rcases wellLabelled.labelled hasState with ⟨label, label_eq⟩
  rcases decides.decided hasState label_eq with ⟨truth, truth_eq⟩
  exact ⟨truth, by simp [holdsAt, label_eq, truth_eq]⟩

/-- A property that is decided in a system does not tell equal states apart. -/
theorem holdsAt_congr (wellLabelled : system.WellLabelled) (decides : system.Decides property)
    {state other : Value} (hasState : system.HasState state) (equal : (state == other) = true) :
    system.holdsAt property state = system.holdsAt property other := by
  have hasOther := hasState.congr equal
  rcases wellLabelled.labelled hasState with ⟨label, label_eq⟩
  rcases wellLabelled.labelled hasOther with ⟨label', label_eq'⟩
  have same := wellLabelled.labels_congruent hasState equal label_eq label_eq'
  simp only [holdsAt, label_eq, label_eq', Result.ok_bind]
  exact decides.congruent hasState hasOther label_eq label_eq' same

/-- Once all states were reported, a property that is decided holds in the reported states if it holds in
all reachable ones. -/
theorem holdsAt_reported_iff (wellLabelled : system.WellLabelled) (decides : system.Decides property)
    {reported pending : List Placed} (explores : system.Explores reported pending)
    (pending_seen : ∀ placed ∈ pending, placed.state.isIn (Placed.states reported) = true) :
    (∀ placed ∈ reported, system.holdsAt property placed.state = .ok true) ↔
      ∀ state, system.Reachable state → system.holdsAt property state = .ok true := by
  constructor
  · intro holds state reachable
    rcases Value.isIn_iff.mp (explores.isIn_reported wellLabelled.toWellFormed pending_seen
      reachable.hasState) with ⟨value, value_mem, equal⟩
    rcases List.mem_map.mp value_mem with ⟨placed, placed_mem, rfl⟩
    have hasState := reachable.hasState.congr (BEq.symm equal)
    rw [← wellLabelled.holdsAt_congr decides hasState equal]
    exact holds placed placed_mem
  · intro holds placed placed_mem
    rcases explores.hasState wellLabelled.toWellFormed (List.mem_append_left _ placed_mem) with
      ⟨reached, reachable, equal⟩
    rw [← wellLabelled.holdsAt_congr decides reachable.hasState equal]
    exact holds reached reachable

end WellLabelled

/-- The check of a system with finitely many reachable states comes to a verdict. It names no
counterexample exactly if the property holds in all reachable states. -/
theorem check_settled (wellLabelled : system.WellLabelled) (decides : system.Decides property)
    (finite : system.FinitelyReachable) :
    ∃ bound verdict, (∀ more, system.check property (bound + more) = .ok verdict) ∧
      verdict ≠ .undecided ∧
      (verdict.counterexample? = none ↔
        ∀ state, system.Reachable state → system.holdsAt property state = .ok true) := by
  rcases explore_exhausted wellLabelled.toWellFormed finite with
    ⟨bound, reported, pending, explores, seen, ended⟩
  have decided : ∀ record ∈ reported.map Placed.toRecord,
      ∃ truth, system.holdsAt property record.state = .ok truth := by
    intro record record_mem
    rcases List.mem_map.mp record_mem with ⟨placed, placed_mem, rfl⟩
    exact wellLabelled.holdsAt_decided decides
      (explores.hasState wellLabelled.toWellFormed (List.mem_append_left _ placed_mem))
  rcases judge_exhausted decided 0 with ⟨verdict, judged, settled, none_iff⟩
  rw [List.forall_mem_map, wellLabelled.holdsAt_reported_iff decides explores seen] at none_iff
  refine ⟨bound, verdict, ?_, settled, none_iff⟩
  intro more
  rw [check_eq, (ended more).1, (ended more).2, judged]

theorem merging_label {state : Value} {label : Label} (labelled : merging.label state = .ok label) :
    label = .set [.str "low"] ∨ label = .set [] := by
  simp only [merging, Table.lookup, Table.find?, Result.bind_eq_ok_iff, Result.pure_eq_ok,
    Except.ok.injEq] at labelled
  rcases labelled with ⟨found, ⟨_, _, rfl⟩, rfl⟩
  split
  · exact .inl rfl
  · split
    · exact .inl rfl
    · exact .inr rfl

/-- The property that the label has one proposition. -/
def isLow : Property Result :=
  .formula (.atom (.str "low"))

/-- The property that the label lacks a number as a proposition. -/
def lacks (number : Nat) : Property Result :=
  .formula (.not (.atom (.int (Int.ofNat number))))

end TransitionSystem

end StateSpace
