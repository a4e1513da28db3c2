/-!
# Values

States, actions, atomic propositions and the variables of a program are all drawn from one type of
dynamically typed values. A transition system may mix numbers, texts and compound values freely, and
equality between them is decided by `StateSpace.Value.beq`, not by the shape of the terms.

A dictionary that can change is kept in a store, and a value then holds the number of its cell in
place of its entries. Everything below treats a cell as a dictionary of which nothing is known.
-/

namespace StateSpace

/-- A named constant of a finite family, such as one colour of a lamp. It is shown with its family
and name, and it compares, prints in JSON and indexes as its text. -/
structure Symbol where
  family : String
  name : String
  text : String
  deriving DecidableEq, Inhabited, Repr

/-- A dynamically typed value. -/
inductive Value where
  | null
  | bool (flag : Bool)
  | int (number : Int)
  | str (text : String)
  | symbol (constant : Symbol)
  | tuple (items : List Value)
  | list (items : List Value)
  /-- Entries in insertion order. -/
  | dict (entries : List (Value × Value))
  /-- The assignment of a program, in the order in which its variables were declared. -/
  | state (entries : List (Value × Value))
  /-- The proposition that a program is at a location. -/
  | atLocation (location : Value)
  | set (members : List Value)
  /-- The label of a compiled program at a location in a program state. -/
  | programLabel (location assignment : Value)
  /-- A dictionary that is kept in a store, by the number of its cell. -/
  | cell (number : Nat)
  deriving Inhabited, Repr

namespace Value

/-- The number a value counts as, where a truth value counts as zero or one. -/
def asInt? : Value → Option Int
  | .bool flag => some (if flag then 1 else 0)
  | .int number => some number
  | _ => none

/-- The text a value stands for. -/
def asText? : Value → Option String
  | .str text => some text
  | .symbol constant => some constant.text
  | _ => none

/-- The name of the kind of a value, as it appears in messages. -/
def kind : Value → String
  | .null => "NoneType"
  | .bool _ => "bool"
  | .int _ => "int"
  | .str _ => "str"
  | .symbol constant => constant.family
  | .tuple _ => "tuple"
  | .list _ => "list"
  | .dict _ => "dict"
  | .state _ => "ProgramState"
  | .atLocation _ => "AtLocation"
  | .set _ => "frozenset"
  | .programLabel _ _ => "ProgramLabel"
  | .cell _ => "dict"

/-- The truth value of a value: zero, nothing and everything empty count as false. -/
def truthy : Value → Bool
  | .null => false
  | .bool flag => flag
  | .int number => number != 0
  | .str text => text != ""
  | .symbol constant => constant.text != ""
  | .tuple items => !items.isEmpty
  | .list items => !items.isEmpty
  | .dict entries => !entries.isEmpty
  | .state entries => !entries.isEmpty
  | .atLocation _ => true
  | .set members => !members.isEmpty
  | .programLabel _ _ => true
  | .cell _ => true

/-- The pair of an action and the state it leads into, as one value. -/
def pair (first second : Value) : Value :=
  .tuple [first, second]

end Value

end StateSpace
