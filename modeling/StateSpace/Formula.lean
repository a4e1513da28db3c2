import StateSpace.Label
import StateSpace.Unite

/-!
# Formulas

Propositional formulas over the label of a state. Evaluation is from left to right and stops as soon
as the answer is known, so a fault in an operand that is not needed does not arise. Conjunction and
disjunction give the value of the operand that decided them. A formula may hold user-defined nodes,
of which only a name and a way to evaluate them are known.
-/

namespace StateSpace

/-- A user-defined node of a formula. -/
structure CustomNode (m : Type → Type) where
  identity : Identity
  name : String
  evaluate : Label → m Value

/-- A propositional formula. -/
inductive Formula (m : Type → Type) where
  | truth
  | falsity
  | atomic (atom : Atom m)
  | not (body : Formula m)
  | and (left right : Formula m)
  | or (left right : Formula m)
  | implies (left right : Formula m)
  | custom (node : CustomNode m)
  deriving Inhabited

namespace Formula

variable {m : Type → Type}

/-- The formula that a plain value is in the label. -/
def atom (value : Value) : Formula m :=
  .atomic (.plain value)

/-- The formula that a program is at a location. -/
def atLocation (location : Value) : Formula m :=
  .atomic (.atLocation location)

/-- The formula that a condition holds of the program state. -/
def holds (condition : Routine m) : Formula m :=
  .atomic (.holds condition)

/-- The value of a formula in a label. -/
def evaluate [MonadCells m] : Formula m → Label → m Value
  | .truth, _ => pure (.bool true)
  | .falsity, _ => pure (.bool false)
  | .atomic atom, label => do pure (.bool (← label.holds atom))
  | .not body, label => do pure (.bool !(← MonadCells.truth (← body.evaluate label)))
  | .and left right, label => do
      let value ← left.evaluate label
      if ← MonadCells.truth value then right.evaluate label else pure value
  | .or left right, label => do
      let value ← left.evaluate label
      if ← MonadCells.truth value then pure value else right.evaluate label
  | .implies left right, label => do
      let value ← left.evaluate label
      if ← MonadCells.truth value then right.evaluate label else pure (.bool true)
  | .custom node, label => node.evaluate label

/-- The printed form of a formula. -/
def text : Formula m → String
  | .truth => "⊤"
  | .falsity => "⊥"
  | .atomic atom => atom.display
  | .not body => "¬(" ++ body.text ++ ")"
  | .and left right => "(" ++ left.text ++ " ∧ " ++ right.text ++ ")"
  | .or left right => "(" ++ left.text ++ " ∨ " ++ right.text ++ ")"
  | .implies left right => "(" ++ left.text ++ " → " ++ right.text ++ ")"
  | .custom node => node.name

/-- Whether a formula has a printed form, which is so if each of its propositions has one. -/
def isPrintable : Formula m → Bool
  | .truth => true
  | .falsity => true
  | .atomic atom => atom.isPrintable
  | .not body => body.isPrintable
  | .and left right => left.isPrintable && right.isPrintable
  | .or left right => left.isPrintable && right.isPrintable
  | .implies left right => left.isPrintable && right.isPrintable
  | .custom _ => true

/-- The distinct atomic propositions of a formula in order of first occurrence. -/
def atoms : Formula m → Result (List (Atom m))
  | .truth => .ok []
  | .falsity => .ok []
  | .atomic atom => do
      atom.requireHashable
      pure [atom]
  | .not body => body.atoms
  | .and left right => do
      let leftAtoms ← left.atoms
      pure (unite leftAtoms (← right.atoms))
  | .or left right => do
      let leftAtoms ← left.atoms
      pure (unite leftAtoms (← right.atoms))
  | .implies left right => do
      let leftAtoms ← left.atoms
      pure (unite leftAtoms (← right.atoms))
  | .custom node => .error (.unknownNode node.name)

/-- Equality of formulas: the same connectives over equal atoms. A user-defined node equals only
itself. -/
def beq : Formula m → Formula m → Bool
  | .truth, .truth => true
  | .falsity, .falsity => true
  | .atomic left, .atomic right => left == right
  | .not left, .not right => left.beq right
  | .and left right, .and left' right' => left.beq left' && right.beq right'
  | .or left right, .or left' right' => left.beq left' && right.beq right'
  | .implies left right, .implies left' right' => left.beq left' && right.beq right'
  | .custom left, .custom right => left.identity == right.identity
  | _, _ => false

instance : BEq (Formula m) := ⟨beq⟩

/-- Succeeds on the formulas that may be members of a set. -/
def requireHashable : Formula m → Result Unit
  | .truth => .ok ()
  | .falsity => .ok ()
  | .atomic atom => atom.requireHashable
  | .not body => body.requireHashable
  | .and left right => do left.requireHashable; right.requireHashable
  | .or left right => do left.requireHashable; right.requireHashable
  | .implies left right => do left.requireHashable; right.requireHashable
  | .custom _ => .ok ()

end Formula

/-- A property of labels: a formula, or a routine that is asked about the label as a value. -/
inductive Property (m : Type → Type) where
  | formula (body : Formula m)
  | routine (body : Routine m)

namespace Property

variable {m : Type → Type}

/-- The value of a property in a label. -/
def evaluate [MonadCells m] : Property m → Label → m Value
  | .formula body, label => body.evaluate label
  | .routine body, label => body.run label.toValue

/-- Whether a property holds in a label. -/
def holds [MonadCells m] (property : Property m) (label : Label) : m Bool := do
  MonadCells.truth (← property.evaluate label)

/-- The printed form of a property. -/
def text : Property m → String
  | .formula body => body.text
  | .routine body => body.text

/-- Whether a property has a printed form. -/
def isPrintable : Property m → Bool
  | .formula body => body.isPrintable
  | .routine _ => true

/-- Succeeds if a property has a printed form. -/
def requirePrintable (property : Property m) : Result Unit :=
  if property.isPrintable then .ok () else .error .numberTooLong

/-- The literals of the distinct atomic propositions that a property is known to depend on, in
ascending order. Nothing is known of a routine or of a formula whose propositions cannot be
collected. -/
def atomLiterals : Property m → List String
  | .formula body =>
      match body.atoms with
      | .ok atoms => Text.sorted (atoms.map Atom.literal)
      | .error _ => []
  | .routine _ => []

/-- Succeeds if the atomic propositions that are listed for a property have printed forms. -/
def requirePrintableAtoms : Property m → Result Unit
  | .formula body =>
      match body.atoms with
      | .ok atoms => if atoms.all Atom.isPrintable then .ok () else .error .numberTooLong
      | .error _ => .ok ()
  | .routine _ => .ok ()

end Property

/-- The number of distinct elements of a list under an equality, if all of them may be members of a
set. -/
def countDistinct {α : Type} [BEq α] (check : α → Result Unit) (elements : List α) :
    Result Nat := do
  let kept ← elements.foldlM (fun (kept : List α) element => do
    check element
    pure (if kept.any (· == element) then kept else element :: kept)) []
  pure kept.length

end StateSpace
