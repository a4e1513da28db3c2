import StateSpace.Store

/-!
# Routines and predicates

Guards, effects, conditions and plain invariants are functions on values. A `Routine` is such a
function together with what is known about it from outside: the name it was given, the form in which
it is printed, and an identity, because two functions can be compared in no other way. One identity
always names one routine. The functions run in a monad with cells, because an argument may be a
dictionary that a function changes.

A `Predicate` is a truth-valued function with combinators that build the name of a compound predicate
from the names of its parts.
-/

namespace StateSpace

/-- What distinguishes one routine from another. -/
inductive Identity where
  /-- A routine of the library, of which there is one. -/
  | builtin (name : String)
  /-- A routine made on request. -/
  | made (index : Nat)
  deriving DecidableEq, Inhabited, Repr

/-- A function on values, with its identity and its printed forms. -/
structure Routine (m : Type → Type) where
  identity : Identity
  /-- The name it was given. A predicate has none. -/
  name? : Option String := none
  /-- Its printed form. -/
  text : String
  isPredicate : Bool := false
  run : Value → m Value

namespace Routine

variable {m : Type → Type}

/-- The routine of the library with a name. It looks at what its argument holds and changes nothing. -/
def builtin [MonadCells m] (name : String) (run : Value → Result Value) : Routine m where
  identity := .builtin name
  name? := some name
  text := "<function " ++ name ++ ">"
  run value := do MonadCells.ofResult (run (← MonadCells.view value))

/-- The title under which a guard or condition is reported: its name, unless that says nothing, and
otherwise its printed form. -/
def title (routine : Routine m) : String :=
  match routine.name? with
  | some name => if name = "" ∨ name = "<lambda>" then routine.text else name
  | none => routine.text

/-- The name under which a routine enters the name of a compound predicate. -/
def operandName (routine : Routine m) : String :=
  if routine.isPredicate then routine.text else routine.name?.getD "<predicate>"

/-- Two routines are the same if their identities are. -/
instance : BEq (Routine m) := ⟨fun left right => left.identity == right.identity⟩

/-- Whether the result of a routine counts as true. -/
def holds [MonadCells m] (routine : Routine m) (value : Value) : m Bool := do
  MonadCells.truth (← routine.run value)

end Routine

/-- A named truth-valued function on values. -/
structure Predicate (m : Type → Type) where
  name : String := ""
  holds : Value → m Bool

namespace Predicate

variable {m : Type → Type}

/-- The printed form of a predicate. -/
def text (predicate : Predicate m) : String :=
  if predicate.name = "" then "<predicate>" else predicate.name

variable [MonadCells m]

/-- The predicate that holds where a routine gives a true value. -/
def ofRoutine (routine : Routine m) (name : String := "") : Predicate m where
  name := name
  holds := routine.holds

/-- The predicate that holds everywhere. -/
def everywhere : Predicate m where
  name := "⊤"
  holds _ := pure true

/-- The predicate that holds nowhere. -/
def nowhere : Predicate m where
  name := "⊥"
  holds _ := pure false

/-- Negation. -/
def not (predicate : Predicate m) : Predicate m where
  name := "¬" ++ predicate.text
  holds value := do pure !(← predicate.holds value)

/-- Conjunction. The second operand is asked only where the first holds. -/
def and (predicate : Predicate m) (other : Routine m) : Predicate m where
  name := "(" ++ predicate.text ++ " ∧ " ++ other.operandName ++ ")"
  holds value := do if ← predicate.holds value then other.holds value else pure false

/-- Disjunction. The second operand is asked only where the first fails. -/
def or (predicate : Predicate m) (other : Routine m) : Predicate m where
  name := "(" ++ predicate.text ++ " ∨ " ++ other.operandName ++ ")"
  holds value := do if ← predicate.holds value then pure true else other.holds value

/-- Implication, which holds wherever the first operand fails. -/
def implies (predicate : Predicate m) (other : Routine m) : Predicate m where
  name := "(" ++ predicate.text ++ " → " ++ other.operandName ++ ")"
  holds value := do if ← predicate.holds value then other.holds value else pure true

/-- The predicate that a routine is, under its printed form. -/
def ofPrinted (routine : Routine m) : Predicate m where
  name := routine.text
  holds := routine.holds

/-- A predicate as a routine. -/
def toRoutine (predicate : Predicate m) (identity : Identity) : Routine m where
  identity := identity
  text := predicate.text
  isPredicate := true
  run value := do pure (.bool (← predicate.holds value))

end Predicate

end StateSpace
