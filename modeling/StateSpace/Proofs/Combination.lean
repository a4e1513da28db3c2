import StateSpace.Program.Compiled
import StateSpace.Proofs.Check

/-!
# Predicates and formulas

A condition on program states can be combined in two ways. Predicates are combined before they enter a
formula as one proposition, and propositions are combined by the formula itself. The two are evaluated by
different code: a predicate turns what its operands give into truth values at once, while a formula hands on
the value of the operand that decides it. `Combination` records how a predicate was combined, and both
readings of it ask the same operands in the same order and come to the same outcome, also where an operand
fails or changes a dictionary.
-/

namespace StateSpace

/-- A monad with cells that obeys the laws of monads and in which a truth value counts as itself. -/
class LawfulCells (m : Type → Type) [MonadCells m] : Prop extends LawfulMonad m where
  truth_bool (flag : Bool) : (MonadCells.truth (.bool flag) : m Bool) = pure flag

instance : LawfulCells Result where
  truth_bool _ := rfl

instance : LawfulCells Live where
  truth_bool _ := rfl

attribute [simp] LawfulCells.truth_bool

/-- The ways to join two conditions. -/
inductive Connective where
  | and
  | or
  | implies

namespace Connective

variable {m : Type → Type}

/-- A predicate joined with a routine. -/
def predicate [MonadCells m] : Connective → Predicate m → Routine m → Predicate m
  | .and => Predicate.and
  | .or => Predicate.or
  | .implies => Predicate.implies

/-- Two formulas joined. -/
def formula : Connective → Formula m → Formula m → Formula m
  | .and => Formula.and
  | .or => Formula.or
  | .implies => Formula.implies

end Connective

/-- How a predicate was combined. What is wrapped in a predicate, and the second operand of a connective,
may be a predicate too, which then has an identity as a routine, or any other routine. -/
inductive Combination (m : Type → Type) where
  | everywhere
  | nowhere
  | wrapped (routine : Routine m) (name : String)
  | rewrapped (body : Combination m) (identity : Identity) (name : String)
  | not (body : Combination m)
  | join (connective : Connective) (left right : Combination m) (identity : Identity)
  | joinRoutine (connective : Connective) (left : Combination m) (right : Routine m)

namespace Combination

variable {m : Type → Type}

/-- The formula with one proposition for each routine. -/
def toFormula : Combination m → Formula m
  | .everywhere => .truth
  | .nowhere => .falsity
  | .wrapped routine _ => .holds routine
  | .rewrapped body _ _ => body.toFormula
  | .not body => .not body.toFormula
  | .join connective left right _ => connective.formula left.toFormula right.toFormula
  | .joinRoutine connective left right => connective.formula left.toFormula (.holds right)

variable [MonadCells m]

/-- The combined predicate. -/
def toPredicate : Combination m → Predicate m
  | .everywhere => .everywhere
  | .nowhere => .nowhere
  | .wrapped routine name => .ofRoutine routine name
  | .rewrapped body identity name => .ofRoutine (body.toPredicate.toRoutine identity) name
  | .not body => body.toPredicate.not
  | .join connective left right identity =>
      connective.predicate left.toPredicate (right.toPredicate.toRoutine identity)
  | .joinRoutine connective left right => connective.predicate left.toPredicate right

/-- The formula with the combined predicate as its only proposition. -/
def toAtom (combination : Combination m) (identity : Identity) : Formula m :=
  .holds (combination.toPredicate.toRoutine identity)

variable [LawfulCells m]

theorem holds_toRoutine (predicate : Predicate m) (identity : Identity) (value : Value) :
    (predicate.toRoutine identity).holds value = predicate.holds value := by
  simp [Routine.holds, Predicate.toRoutine]

theorem evaluate_holds (routine : Routine m) (location state : Value) :
    (Formula.holds routine).evaluate (.program location state) = Value.bool <$> routine.holds state := by
  simp [Formula.holds, Formula.evaluate, Label.holds]

/-- Joined formulas do what a joined predicate does, if their operands do. -/
theorem evaluate_join {left right : Formula m} {label : Label} {predicate : Predicate m}
    {routine : Routine m} {state : Value} (connective : Connective)
    (ofLeft : left.evaluate label = Value.bool <$> predicate.holds state)
    (ofRight : right.evaluate label = Value.bool <$> routine.holds state) :
    (connective.formula left right).evaluate label =
      Value.bool <$> (connective.predicate predicate routine).holds state := by
  cases connective with
  | and =>
      simp only [Connective.formula, Connective.predicate, Formula.evaluate, Predicate.and, ofLeft, ofRight,
        map_eq_pure_bind, bind_assoc, pure_bind, LawfulCells.truth_bool]
      congr 1
      funext flag
      cases flag <;> simp
  | or =>
      simp only [Connective.formula, Connective.predicate, Formula.evaluate, Predicate.or, ofLeft, ofRight,
        map_eq_pure_bind, bind_assoc, pure_bind, LawfulCells.truth_bool]
      congr 1
      funext flag
      cases flag <;> simp
  | implies =>
      simp only [Connective.formula, Connective.predicate, Formula.evaluate, Predicate.implies, ofLeft,
        ofRight, map_eq_pure_bind, bind_assoc, pure_bind, LawfulCells.truth_bool]
      congr 1
      funext flag
      cases flag <;> simp

/-- The formula of a combination gives the truth value of the combined predicate. -/
theorem evaluate_toFormula (combination : Combination m) (location state : Value) :
    combination.toFormula.evaluate (.program location state) =
      Value.bool <$> combination.toPredicate.holds state := by
  induction combination with
  | everywhere => simp [toFormula, toPredicate, Formula.evaluate, Predicate.everywhere]
  | nowhere => simp [toFormula, toPredicate, Formula.evaluate, Predicate.nowhere]
  | wrapped routine name => exact evaluate_holds routine location state
  | rewrapped body identity name ih =>
      rw [toFormula, ih]
      simp only [toPredicate, Predicate.ofRoutine, holds_toRoutine]
  | not body ih =>
      simp only [toFormula, toPredicate, Formula.evaluate, Predicate.not, ih, map_eq_pure_bind, bind_assoc,
        pure_bind, LawfulCells.truth_bool]
  | join connective left right identity ihLeft ihRight =>
      apply evaluate_join connective ihLeft
      rw [ihRight, holds_toRoutine]
  | joinRoutine connective left right ihLeft =>
      exact evaluate_join connective ihLeft (evaluate_holds right location state)

theorem evaluate_toAtom (combination : Combination m) (identity : Identity) (location state : Value) :
    (combination.toAtom identity).evaluate (.program location state) =
      Value.bool <$> combination.toPredicate.holds state := by
  rw [toAtom, evaluate_holds, holds_toRoutine]

end Combination

namespace ProgramGraph

/-- Formulas that have the same values in the labels of programs hold alike in compiled systems. -/
theorem holdsAt_compile_congr (graph : ProgramGraph Result) {formula other : Formula Result}
    (alike : ∀ location state,
      formula.evaluate (.program location state) = other.evaluate (.program location state))
    (configuration : Value) :
    graph.compile.holdsAt (.formula formula) configuration =
      graph.compile.holdsAt (.formula other) configuration := by
  simp only [TransitionSystem.holdsAt, compile]
  cases (configurationOf configuration : Result (Value × Value)) with
  | error fault => rfl
  | ok parts =>
      simp only [Result.ok_bind, Result.pure_eq_ok, Property.holds, Property.evaluate, alike]

end ProgramGraph

namespace Combination

/-- Combining predicates and combining propositions is the same. In the label of a program, the combined
predicate as one proposition and the formula over its parts give the same truth value or fail with the same
fault, with the same changes to dictionaries on the way. So their checks in a compiled system come to the
same verdict or fail alike. -/
theorem combination_agrees :
    (∀ (combination : Combination Live) (identity : Identity) (location state : Value),
      (combination.toAtom identity).evaluate (.program location state) =
          Value.bool <$> combination.toPredicate.holds state ∧
        combination.toFormula.evaluate (.program location state) =
          Value.bool <$> combination.toPredicate.holds state) ∧
    ∀ (combination : Combination Result) (identity : Identity),
      (∀ location state : Value,
        (combination.toAtom identity).evaluate (.program location state) =
            Value.bool <$> combination.toPredicate.holds state ∧
          combination.toFormula.evaluate (.program location state) =
            Value.bool <$> combination.toPredicate.holds state) ∧
      ∀ (graph : ProgramGraph Result) (bound : Nat),
        graph.compile.check (.formula (combination.toAtom identity)) bound =
          graph.compile.check (.formula combination.toFormula) bound := by
  refine ⟨?_, ?_⟩
  · intro combination identity location state
    exact ⟨combination.evaluate_toAtom identity location state,
      combination.evaluate_toFormula location state⟩
  · intro combination identity
    refine ⟨?_, ?_⟩
    · intro location state
      exact ⟨combination.evaluate_toAtom identity location state,
        combination.evaluate_toFormula location state⟩
    · intro graph bound
      apply TransitionSystem.check_congr
      apply graph.holdsAt_compile_congr
      intro location state
      rw [combination.evaluate_toAtom, combination.evaluate_toFormula]

end Combination

end StateSpace
