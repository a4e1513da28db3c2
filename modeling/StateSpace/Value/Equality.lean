import StateSpace.Value.Basic

/-!
# Equality of values

Two values are equal when nothing a system can do tells them apart. A truth value equals the number
it counts as, and a symbol equals its text. Tuples and lists compare item by item, and a tuple never
equals a list. Dictionaries, program states and sets compare by inclusion in both directions, so the
order of insertion does not matter.

Every function recurses on its first argument alone, so closed comparisons compute. Inclusion in both
directions is decided in one pass: each member of the first list is compared once with each member of
the second, and the members of the second that were met are marked.
-/

namespace StateSpace

namespace Value

/-- Whether a value counts as a number. -/
def countsAs (value : Value) (number : Int) : Bool :=
  match value with
  | .int other => other == number
  | .bool flag => (if flag then 1 else 0) == number
  | _ => false

/-- Whether a value stands for a text. -/
def standsFor (value : Value) (text : String) : Bool :=
  match value with
  | .str other => other == text
  | .symbol constant => constant.text == text
  | _ => false

/-- Mark the members of a list that satisfy a test, and tell whether there are any. -/
def markWhere {α : Type} (test : α → Bool) : List (α × Bool) → Bool × List (α × Bool)
  | [] => (false, [])
  | (member, marked) :: members =>
      let met := test member
      let (found, rest) := markWhere test members
      (met || found, (member, marked || met) :: rest)

/-- A list of which no member is marked. -/
def unmarked {α : Type} (members : List α) : List (α × Bool) :=
  members.map fun member => (member, false)

mutual

/-- Equality of values. -/
@[simp]
def beq : Value → Value → Bool
  | .null, other =>
      match other with
      | .null => true
      | _ => false
  | .bool flag, other => other.countsAs (if flag then 1 else 0)
  | .int number, other => other.countsAs number
  | .str text, other => other.standsFor text
  | .symbol constant, other => other.standsFor constant.text
  | .tuple items, other =>
      match other with
      | .tuple items' => beqItems items items'
      | _ => false
  | .list items, other =>
      match other with
      | .list items' => beqItems items items'
      | _ => false
  | .dict entries, other =>
      match other with
      | .dict entries' => matchEntries entries (unmarked entries')
      | _ => false
  | .state entries, other =>
      match other with
      | .state entries' => matchEntries entries (unmarked entries')
      | _ => false
  | .atLocation location, other =>
      match other with
      | .atLocation location' => beq location location'
      | _ => false
  | .set members, other =>
      match other with
      | .set members' => matchItems members (unmarked members')
      | _ => false
  | .programLabel location assignment, other =>
      match other with
      | .programLabel location' assignment' => beq location location' && beq assignment assignment'
      | _ => false
  | .cell number, other =>
      match other with
      | .cell number' => number == number'
      | _ => false
termination_by structural value => value

/-- Equality of two sequences, item by item. -/
@[simp]
def beqItems : List Value → List Value → Bool
  | [], others => others.isEmpty
  | item :: items, others =>
      match others with
      | [] => false
      | other :: others => beq item other && beqItems items others
termination_by structural items => items

/-- Whether each item of the first list equals some item of the second, and each item of the second is
marked or equals some item of the first. -/
@[simp]
def matchItems : List Value → List (Value × Bool) → Bool
  | [], others => others.all Prod.snd
  | item :: items, others =>
      match markWhere (beq item) others with
      | (found, others) => found && matchItems items others
termination_by structural items => items

/-- Equality of two entries, key by key and value by value. -/
@[simp]
def beqEntry : Value × Value → Value × Value → Bool
  | (key, value), other => beq key other.1 && beq value other.2
termination_by structural entry => entry

/-- Whether each entry of the first list equals some entry of the second, and each entry of the second
is marked or equals some entry of the first. -/
@[simp]
def matchEntries : List (Value × Value) → List ((Value × Value) × Bool) → Bool
  | [], others => others.all Prod.snd
  | entry :: entries, others =>
      match markWhere (beqEntry entry) others with
      | (found, others) => found && matchEntries entries others
termination_by structural entries => entries

end

instance : BEq Value := ⟨beq⟩

/-- Whether a list holds a value, up to equality. -/
def isIn (value : Value) (items : List Value) : Bool :=
  items.any fun item => item == value

end Value

end StateSpace
