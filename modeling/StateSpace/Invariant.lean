import StateSpace.Formula
import StateSpace.Search

/-!
# Invariants

A property is an invariant of a system if it holds in the label of every reachable state. A check
walks through the search and stops at the first state in which the property fails, which it reports
with the path the search took there. The path is a witness and need not be a shortest one.
-/

namespace StateSpace

/-- A reachable state in which a property fails, with a path to it. -/
structure Counterexample where
  state : Value
  path : Path
  deriving Inhabited, Repr

namespace Counterexample

instance : BEq Counterexample :=
  ⟨fun left right => left.state == right.state && left.path == right.path⟩

/-- The printed form of a counterexample. -/
def text (counterexample : Counterexample) : String :=
  "Counterexample(state=" ++ counterexample.state.literal ++ ", path=" ++
    counterexample.path.text ++ ")"

/-- The printed form of a counterexample, if its states and actions can be printed. -/
def printed (counterexample : Counterexample) : Result String := do
  Value.requirePrintable [counterexample.state]
  let _ ← counterexample.path.printed
  pure counterexample.text

end Counterexample

/-- The verdict of a check, with the number of states checked. -/
inductive Verdict where
  | holds (checked : Nat)
  | violated (counterexample : Counterexample) (checked : Nat)
  /-- The bound was reached before the search ended. -/
  | undecided
  deriving Inhabited, Repr

namespace Verdict

/-- The counterexample of a verdict. -/
def counterexample? : Verdict → Option Counterexample
  | .violated counterexample _ => some counterexample
  | _ => none

/-- Whether a verdict says that the property holds. -/
def isHolds : Verdict → Bool
  | .holds _ => true
  | _ => false

section Wording

variable {m : Type → Type} (property : Property m)

/-- The notices that word a verdict. -/
def wording : Verdict → List Notice
  | .holds checked => [.exhausted checked, .invariant property.text checked]
  | .violated counterexample checked =>
      [.violated property.text counterexample.state counterexample.path.length checked property.atomLiterals]
  | .undecided => []

/-- Succeeds if all that the wording of a verdict shows has a printed form. That is the property and the
numbers of states and steps, and for a violation also the state and the propositions of the property. -/
def requirePrintable : Verdict → Result Unit
  | .holds checked => do
      property.requirePrintable
      Value.requirePrintable [.int checked]
  | .violated counterexample checked => do
      property.requirePrintable
      Value.requirePrintable [counterexample.state, .int counterexample.path.length, .int checked]
      property.requirePrintableAtoms
  | .undecided => .ok ()

/-- The notices of a check, if its verdict can be worded. -/
def notices (verdict : Verdict) : Result (List Notice) := do
  verdict.requirePrintable property
  pure (verdict.wording property)

end Wording

end Verdict

/-- The names of the properties that are violated. -/
def violatedNames (verdicts : List (Value × Verdict)) : List Value :=
  (verdicts.filter fun (_, verdict) => verdict.counterexample?.isSome).map Prod.fst

/-- The notice that some of several properties are violated, if any is. It shows the names of these
properties and how many there are, which must have printed forms. -/
def summaryNotices (verdicts : List (Value × Verdict)) : Result (List Notice) :=
  match violatedNames verdicts with
  | [] => .ok []
  | names => do
      Value.requirePrintable (.int names.length :: .int verdicts.length :: names)
      pure [.violatedAmong names verdicts.length]

namespace TransitionSystem

/-- Check a property in the states that a search has still to report. -/
def checkFrom (system : TransitionSystem Result) (property : Property Result) : Nat → Search → Nat → Result Verdict
  | 0, _, _ => .ok .undecided
  | bound + 1, search, checked =>
      match search.next system.transitions with
      | .exhausted _ => .ok (.holds checked)
      | .failed fault _ => .error fault
      | .reported record search => do
          let label ← system.label record.state
          if ← property.holds label then
            checkFrom system property bound search (checked + 1)
          else
            pure (.violated ⟨record.state, record.path⟩ (checked + 1))

/-- Check a property in at most a number of reachable states of a system. -/
def check (system : TransitionSystem Result) (property : Property Result) (bound : Nat) : Result Verdict :=
  system.checkFrom property bound system.search 0

/-- Check a property and word the verdict. -/
def report (system : TransitionSystem Result) (property : Property Result) (bound : Nat) :
    Result (Verdict × List Notice) := do
  let verdict ← system.check property bound
  pure (verdict, ← verdict.notices property)

/-- Check several named properties, each with a search of its own. A verdict is worded before the next
search begins, and the violated properties are named at the end. -/
def checkAll (system : TransitionSystem Result) (properties : List (Value × Property Result)) (bound : Nat) :
    Result (List (Value × Verdict) × List Notice) := do
  let reports ← properties.mapM fun (name, property) => do pure (name, ← system.report property bound)
  let verdicts := reports.map fun (name, verdict, _) => (name, verdict)
  let summary ← summaryNotices verdicts
  pure (verdicts, (reports.flatMap fun (_, _, notices) => notices) ++ summary)

end TransitionSystem

end StateSpace
