import StateSpace.Text.Quoted
import StateSpace.Value.Basic

/-!
# Printed forms of values

`Value.literal` is the form in which a value could be written down again, with texts in quotes.
`Value.display` is the form meant for a reader: a text stands for itself and a symbol is shown by its
family and name. Compound values show their parts as literals, except that the variables of a program
state and the location of a location proposition are displayed.
-/

namespace StateSpace

namespace Symbol

/-- A symbol as it is displayed. -/
def display (symbol : Symbol) : String :=
  symbol.family ++ "." ++ symbol.name

end Symbol

namespace Value

/-- The displayed form of a value whose literal is known. -/
def displayAs (value : Value) (literal : String) : String :=
  match value with
  | .str text => text
  | .symbol constant => constant.display
  | _ => literal

/-- The items of a tuple between its parentheses: a lone item keeps a comma. -/
def tupleBody : List String → String
  | [item] => item ++ ","
  | items => ", ".intercalate items

mutual

/-- The literal of a value. -/
def literal : Value → String
  | .null => "None"
  | .bool flag => if flag then "True" else "False"
  | .int number => toString number
  | .str text => Text.quoted text
  | .symbol constant => "<" ++ constant.display ++ ": " ++ Text.quoted constant.text ++ ">"
  | .tuple items => "(" ++ tupleBody (literals items) ++ ")"
  | .list items => "[" ++ ", ".intercalate (literals items) ++ "]"
  | .dict entries => "\x7b" ++ ", ".intercalate (entryLiterals entries) ++ "\x7d"
  | .state entries => "ProgramState(" ++ ", ".intercalate (bindingLiterals entries) ++ ")"
  | .atLocation location => "@" ++ location.displayAs (literal location)
  | .set members =>
      match literals members with
      | [] => "frozenset()"
      | texts => "frozenset(\x7b" ++ ", ".intercalate texts ++ "\x7d)"
  | .programLabel location assignment =>
      "ProgramLabel(location=" ++ literal location ++ ", state=" ++ literal assignment ++ ")"
  | .cell _ => "\x7b...\x7d"
termination_by structural value => value

/-- The literals of the items of a list. -/
def literals : List Value → List String
  | [] => []
  | item :: items => literal item :: literals items
termination_by structural items => items

/-- A dictionary entry with its key and value as literals. -/
def entryLiteral : Value × Value → String
  | (key, value) => literal key ++ ": " ++ literal value
termination_by structural entry => entry

/-- The entries of a dictionary. -/
def entryLiterals : List (Value × Value) → List String
  | [] => []
  | entry :: entries => entryLiteral entry :: entryLiterals entries
termination_by structural entries => entries

/-- A variable of a program state with its value. -/
def bindingLiteral : Value × Value → String
  | (name, value) => name.displayAs (literal name) ++ "=" ++ literal value
termination_by structural entry => entry

/-- The variables of a program state with their values. -/
def bindingLiterals : List (Value × Value) → List String
  | [] => []
  | entry :: entries => bindingLiteral entry :: bindingLiterals entries
termination_by structural entries => entries

end

/-- The displayed form of a value. -/
def display (value : Value) : String :=
  value.displayAs value.literal

end Value

namespace Text

/-- Texts in ascending order of their code points. -/
def sorted (texts : List String) : List String :=
  texts.mergeSort fun left right => left ≤ right

end Text

end StateSpace
