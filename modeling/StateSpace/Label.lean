import StateSpace.Routine
import StateSpace.Value.Access
import StateSpace.Value.Printable

/-!
# Labels and atomic propositions

The label of a state says which atomic propositions hold in it. An explicit system lists them in a
set or a list. A compiled program cannot list them, because every condition on its variables is one,
so its label answers for a proposition on demand.
-/

namespace StateSpace

/-- An atomic proposition: a plain value, or a condition on the program state. -/
inductive Atom (m : Type → Type) where
  | plain (value : Value)
  | holds (condition : Routine m)

namespace Atom

variable {m : Type → Type}

/-- The proposition that a program is at a location. -/
def atLocation (location : Value) : Atom m :=
  .plain (.atLocation location)

/-- The kind of a proposition, as it appears in messages. -/
def kind : Atom m → String
  | .plain value => value.kind
  | .holds _ => "Holds"

/-- The literal of a proposition. -/
def literal : Atom m → String
  | .plain value => value.literal
  | .holds condition => condition.title

/-- The displayed form of a proposition. -/
def display : Atom m → String
  | .plain value => value.display
  | .holds condition => condition.title

/-- Whether a proposition has a printed form. A condition is printed as the text it was given. -/
def isPrintable : Atom m → Bool
  | .plain value => value.isPrintable
  | .holds _ => true

/-- Equality of propositions. Conditions are equal only if they are the same routine. -/
def beq : Atom m → Atom m → Bool
  | .plain left, .plain right => left == right
  | .holds left, .holds right => left == right
  | _, _ => false

instance : BEq (Atom m) := ⟨beq⟩

/-- Succeeds on the propositions that may be members of a set. -/
def requireHashable : Atom m → Result Unit
  | .plain value => value.requireHashable
  | .holds _ => .ok ()

/-- Whether a list holds a proposition, up to equality. -/
def isIn (atom : Atom m) (atoms : List (Atom m)) : Bool :=
  atoms.any fun other => other == atom

end Atom

/-- The label of a state. -/
inductive Label where
  | set (members : List Value)
  | list (members : List Value)
  /-- The label of a compiled program at a location in a program state. -/
  | program (location assignment : Value)
  deriving Inhabited, Repr

namespace Label

/-- The label that lists the given propositions as a set. -/
def ofSet (members : List Value) : Result Label := do
  pure (.set (← Value.distinct members))

/-- A label as a value, which is what a plain invariant sees. -/
def toValue : Label → Value
  | .set members => .set members
  | .list members => .list members
  | .program location assignment => .programLabel location assignment

/-- Whether a proposition holds in a label. -/
def holds {m : Type → Type} [MonadCells m] : Label → Atom m → m Bool
  | label, .plain value => do
      MonadCells.ofResult ((← MonadCells.view label.toValue).hasMember value)
  | .program _ assignment, .holds condition => condition.holds assignment
  | .set _, .holds _ => pure false
  | .list _, .holds _ => pure false

end Label

end StateSpace
