import StateSpace.Value.Access

/-!
# Program states

A program state assigns a value to each variable that a program declares. There are no defaults:
reading or assigning a variable that is not declared is a fault, because a value made up on the way
would corrupt the answer of an invariant check. An update never adds a variable and never changes the
order in which the variables were declared.
-/

namespace StateSpace

/-- An assignment of values to declared variables. -/
structure ProgramState where
  entries : Table Value
  deriving Inhabited, Repr

namespace ProgramState

/-- A program state as a value. -/
def toValue (state : ProgramState) : Value :=
  .state state.entries

/-- The program state that a value is. -/
def ofValue? : Value → Option ProgramState
  | .state entries => some ⟨entries⟩
  | _ => none

/-- The state that declares the given variables. A repeated variable keeps its first place and takes
its last value. -/
def ofPairs (pairs : List (Value × Value)) : Result ProgramState := do
  pure ⟨← Table.ofPairs pairs⟩

/-- The state that a value describes: the variables of a mapping, or those of a sequence of pairs. A
value that counts as false describes no variables. -/
def ofDescription (value : Value) : Result ProgramState := do
  if value.truthy then pure ⟨← value.mergeInto []⟩ else pure ⟨[]⟩

/-- The name that no variable given by name can have. -/
def reservedName : Value := .str "cls"

/-- The state that declares variables given by name. All of them must be texts, and none may have the
reserved name. -/
def ofNames (pairs : List (Value × Value)) : Result ProgramState := do
  let entries ← Table.ofPairs pairs
  if !entries.all fun entry => entry.1.asText?.isSome then
    throw .nameNotText
  else if entries.has reservedName then
    throw .nameReserved
  else
    pure ⟨entries⟩

/-- The declared variables in order. -/
def declared (state : ProgramState) : List Value :=
  state.entries.keys

/-- The values in the order of their variables. -/
def values (state : ProgramState) : List Value :=
  state.entries.map Prod.snd

/-- The fault of using a variable that a state does not declare. -/
def missing (state : ProgramState) (name : Value) : Fault :=
  .missingVariable name state.declared

/-- The value of a variable. -/
def get (state : ProgramState) (name : Value) : Result Value :=
  state.toValue.item name

/-- Whether a variable is declared. -/
def declares (state : ProgramState) (name : Value) : Result Bool :=
  state.toValue.hasMember name

/-- Rebind several variables at once. The first variable that is not declared is reported, and then
nothing is changed. -/
def update (state : ProgramState) (changes : Table Value) : Result ProgramState :=
  match changes.keys.find? fun name => !state.entries.has name with
  | some name => .error (state.missing name)
  | none => .ok ⟨state.entries.merge changes⟩

/-- Succeeds if every one of some names is declared. -/
def requireDeclared (state : ProgramState) (names : List Value) : Result Unit :=
  names.forM fun name => do
    if ← state.declares name then pure () else throw (state.missing name)

/-- Rebind the variables that a value describes. Each of its items must be declared, and each key that
it then describes is bound. -/
def updateFrom (state : ProgramState) (changes : Value) : Result ProgramState := do
  state.requireDeclared (← changes.elements)
  pure ⟨← changes.mergeInto state.entries⟩

/-- Rebind one variable. -/
def set (state : ProgramState) (name value : Value) : Result ProgramState := do
  name.requireHashable
  state.update [(name, value)]

instance : BEq ProgramState := ⟨fun left right => left.toValue == right.toValue⟩

/-- The printed form of a state. -/
def text (state : ProgramState) : String :=
  state.toValue.literal

end ProgramState

end StateSpace
