import StateSpace.Proofs.ReachabilityGraph
import StateSpace.Proofs.TableCheck
import StateSpace.Proofs.Verdict

/-!
# Checks and graphs of one system

A check and the building of a graph advance the same search and stop for different reasons: the one at the
first violation, the other at its bound. The records of a run with a smaller bound are the first records of
a run with a larger one, so the first violation among the states of a graph is the one that a check comes
to, however far the search could go on. Where the graph has none, a check only finds one beyond the graph,
and no such state equals one of the graph.

A check words what it has found, which it cannot do if the state has no printed form. The last result is a
well-formed system in which a check fails for this reason.
-/

namespace StateSpace

namespace TransitionSystem

variable {system : TransitionSystem Result} {property : Property Result}

/-- Where the first records of a search hold a first violation, every check that goes so far finds it. -/
theorem check_of_first_violation {count : Nat} {earlier later : List Record} {first : Record}
    (split : (system.explore count).records = earlier ++ first :: later)
    (holds : ∀ record ∈ earlier, system.holdsAt property record.state = .ok true)
    (fails : system.holdsAt property first.state = .ok false) (more : Nat) :
    system.check property (count + more) =
      .ok (.violated ⟨first.state, first.path⟩ (earlier.length + 1)) := by
  have goes_on : (system.explore (count + more)).records =
      earlier ++ first :: (later ++ (system.explore (count + more)).records.drop count) := by
    rw [explore, Search.run_records_take system.transitions system.search count more] at split
    rw [← List.cons_append, ← List.append_assoc, ← split]
    exact (List.take_append_drop count _).symm
  have judged := @judge_of_fails system property (system.explore (count + more)).ending earlier
    ⟨first.state, first.path⟩ holds fails
  rw [check_eq, goes_on, judged, Nat.zero_add]

/-- The violation in a merging system, with the path that the search takes to it. -/
def mergingViolation : Counterexample where
  state := .int 2
  path := ((Path.single (.int 0)).extend (.str "up") (.int 1)).extend (.str "up") (.int 2)

theorem mergingViolation_isPrintable (printable : property.isPrintable = true) :
    (Verdict.violated mergingViolation 3).isPrintable property = true :=
  Verdict.isPrintable_violated_iff.mpr ⟨printable, Value.isPrintable_int_iff.mpr (lt_numberLimit (by decide)),
    lt_numberLimit (by decide), lt_numberLimit (by decide)⟩

end TransitionSystem

namespace ReachabilityGraph

variable {system : TransitionSystem Result} {property : Property Result}

end ReachabilityGraph

namespace TransitionSystem

/-- One transition, from zero to a number. -/
def leapEdges (number : Nat) : Table (List Value) :=
  [(.int 0, [.pair (.str "leap") (.int (Int.ofNat number))])]

/-- A system that goes from zero to a number, and has a proposition in zero only. -/
def leap (number : Nat) : TransitionSystem Result where
  initialStates := [.int 0]
  label state := do pure ((← Table.lookup [(.int 0, .set [.str "low"])] state).getD (.set []))
  transitions state := .atOnce do pure ((← (leapEdges number).lookup state).getD [])

/-- The violation in the number. -/
def leapViolation (number : Nat) : Counterexample where
  state := .int (Int.ofNat number)
  path := (Path.single (.int 0)).extend (.str "leap") (.int (Int.ofNat number))

theorem ofTable_leap (number : Nat) :
    ofTable [.int 0] [(.int 0, [.str "low"])] (leapEdges number) = .ok (leap number) :=
  rfl

theorem leapEdges_leadsToKeys (number : Nat) : LeadsToKeys (leapEdges number) := by
  simp [LeadsToKeys, leapEdges, Value.pair, Value.IsHashable]

theorem leap_wellLabelled (number : Nat) : (leap number).WellLabelled :=
  wellLabelled_of_ofTable (ofTable_leap number) (by simp [Value.IsHashable]) (leapEdges_leadsToKeys number)

theorem leap_decides (number : Nat) : (leap number).Decides isLow :=
  decides_ofTable (ofTable_leap number) (leap_wellLabelled number).toWellFormed rfl

variable {number : Nat}

theorem beq_leapViolation (positive : 0 < number) :
    (Value.int 0 == (leapViolation number).state) = false := by
  rw [leapViolation, Value.beq_int]
  apply decide_eq_false
  intro zero
  exact positive.ne (Int.ofNat.inj zero)

theorem leap_fails (positive : 0 < number) :
    (leap number).holdsAt isLow (leapViolation number).state = .ok false := by
  have hashable : (leapViolation number).state.IsHashable := rfl
  have label_eq : (leap number).label (leapViolation number).state = .ok (.set []) := by
    simp [leap, Table.lookup_of_isHashable hashable, Table.find?, beq_leapViolation positive]
  rw [holdsAt, label_eq]
  rfl

theorem records_leap (positive : 0 < number) :
    ((leap number).explore 2).records =
      [⟨.int 0, .single (.int 0)⟩, ⟨(leapViolation number).state, (leapViolation number).path⟩] := by
  have starts : (leap number).initialStates = [.int 0] := rfl
  have listed : (leap number).Lists (.int 0) [(.str "leap", (leapViolation number).state)] := rfl
  have fresh : (leapViolation number).state.isIn [.int 0] = false := by
    simp [Value.isIn, beq_leapViolation positive]
  rcases exists_reports_initial starts rfl with ⟨last, reports⟩
  rcases @exists_reports_first _ [] _ last reports _ _ _ listed rfl fresh with ⟨following, reports'⟩
  exact congrArg Search.Trace.records (Search.run_of_reports reports' 0)

theorem check_leap (positive : 0 < number) (more : Nat) :
    (leap number).check isLow (2 + more) = .ok (.violated (leapViolation number) 2) := by
  have low : ∀ record ∈ [(⟨.int 0, .single (.int 0)⟩ : Record)],
      (leap number).holdsAt isLow record.state = .ok true := by
    simp only [List.mem_singleton, forall_eq]
    rfl
  exact check_of_first_violation (records_leap positive) low (leap_fails positive) more

theorem report_leap (long : numberLimit ≤ number) (positive : 0 < number) (more : Nat) :
    (leap number).report isLow (2 + more) = .error .numberTooLong := by
  have hidden : (leapViolation number).state.isPrintable = false := Value.isPrintable_int_of_long long
  have unworded : (Verdict.violated (leapViolation number) 2).isPrintable isLow ≠ true := by
    simp [Verdict.isPrintable_violated_iff, hidden]
  rw [report_of_check (check_leap positive more), if_neg unworded]

end TransitionSystem

end StateSpace
