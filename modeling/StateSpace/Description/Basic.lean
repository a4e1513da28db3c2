import StateSpace.Routine
import StateSpace.Value.Tagged

/-!
# Descriptions

A description is plain data from which something can be built: a function, a formula, a program graph
or a transition system. This module has the access to the parts of a description and the monad in
which things are built from it.
-/

namespace StateSpace.Description

/-- The member of an object with a name. -/
def field? (data : Value) (name : String) : Option Value :=
  match data with
  | .dict entries => Table.find? entries (.str name)
  | _ => none

/-- The member of an object with a name, which must be there. -/
def field (data : Value) (name : String) : Result Value :=
  data.item (.str name)

/-- The items of an array. -/
def items (data : Value) : Result (List Value) :=
  data.elements

/-- The items of an array that is a member of an object. -/
def listField (data : Value) (name : String) : Result (List Value) := do
  items (← field data name)

/-- The two items of an array. -/
def twoOf (data : Value) : Result (Value × Value) :=
  data.asPair

/-- The three items of an array. -/
def threeOf (data : Value) : Result (Value × Value × Value) := do
  match ← items data with
  | [first, second, third] => pure (first, second, third)
  | _ => throw (.unknown "triple")

/-- A text. -/
def text : Value → Result String
  | .str text => .ok text
  | _ => .error (.unknown "text")

/-- A member of an object that is a text. -/
def textField (data : Value) (name : String) : Result String := do
  text (← field data name)

/-- A member of an object that is a text, if it is there. -/
def textField? (data : Value) (name : String) : Result (Option String) :=
  (field? data name).mapM text

/-- A number. -/
def integer (data : Value) : Result Int :=
  match data.asInt? with
  | some number => .ok number
  | none => .error (.unknown "number")

/-- Whether a member of an object is there and counts as true. -/
def flag (data : Value) (name : String) : Bool :=
  match field? data name with
  | some value => value.truthy
  | none => false

/-- The choice with a name. -/
def named {α : Type} (choices : List (String × α)) (name : String) : Result α :=
  match choices.lookup name with
  | some chosen => .ok chosen
  | none => .error (.unknown ("name " ++ name))

/-- What descriptions may refer to: the symbols in tagged notation, the routines of the library, and
the routines that were described before under a name. -/
structure Vocabulary (m : Type → Type) where
  symbols : List Symbol := []
  builtins : List (Routine m) := []
  definitions : List (String × Routine m) := []

/-- Builds something from a description. The state is the number of routines made so far. -/
abbrev Build (m : Type → Type) := StateT Nat m

variable {m : Type → Type} [MonadCells m]

instance : MonadLift Result (Build m) where
  monadLift result := StateT.lift (MonadCells.ofResult result)

/-- The identity of a new routine. -/
def newIdentity : Build m Identity :=
  modifyGet fun made => (.made made, made + 1)

/-- A value in tagged notation. -/
def value (vocabulary : Vocabulary m) (data : Value) : Result Value :=
  Tagged.read vocabulary.symbols data

/-- The values of an array in tagged notation. -/
def values (vocabulary : Vocabulary m) (data : Value) : Result (List Value) := do
  (← items data).mapM (value vocabulary)

/-- A value that functions may change. -/
def shared (vocabulary : Vocabulary m) (data : Value) : Build m Value := do
  StateT.lift (MonadCells.share (← value vocabulary data))

/-- The entries of an array of pairs in tagged notation, as a mapping. -/
def mapping (vocabulary : Vocabulary m) (data : Value) : Result (Table Value) :=
  Tagged.readTable vocabulary.symbols data

/-- The table of an array of pairs, of which the second parts are read in turn. -/
def tableOf {α : Type} (vocabulary : Vocabulary m) (body : Value → Build m α) (data : Value) :
    Build m (Table α) := do
  (← items data).foldlM (fun (table : Table α) entry => do
    let (key, rest) ← twoOf entry
    let key ← value vocabulary key
    let mapped ← body rest
    key.requireHashable
    pure (table.insert key mapped)) []

end StateSpace.Description
