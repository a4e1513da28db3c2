import StateSpace.Fault
import StateSpace.Value.Equality

/-!
# Values that may be keys

Visited sets, tables and labels find a value by a digest of its parts, and a list or a dictionary has
none because it may change. A value may therefore be a key unless a list or a dictionary is one of
its parts. The parts are asked from left to right, and the first that refuses is the one reported.
-/

namespace StateSpace

namespace Value

mutual

/-- The kind of the first part of a value that keeps it from being a key. -/
@[simp]
def unhashable? : Value → Option String
  | .list _ => some "list"
  | .dict _ => some "dict"
  | .cell _ => some "dict"
  | .tuple items => unhashableItem? items
  | .state entries => unhashableAmong? entries
  | .atLocation location => unhashable? location
  | .programLabel location assignment => (unhashable? location).or (unhashable? assignment)
  | .null | .bool _ | .int _ | .str _ | .symbol _ | .set _ => none
termination_by structural value => value

/-- The first obstacle among the items of a list. -/
@[simp]
def unhashableItem? : List Value → Option String
  | [] => none
  | item :: items => (unhashable? item).or (unhashableItem? items)
termination_by structural items => items

/-- The first obstacle in an entry, the key before the value. -/
@[simp]
def unhashablePart? : Value × Value → Option String
  | (key, value) => (unhashable? key).or (unhashable? value)
termination_by structural entry => entry

/-- The first obstacle among the entries of a program state. -/
@[simp]
def unhashableAmong? : List (Value × Value) → Option String
  | [] => none
  | entry :: entries => (unhashablePart? entry).or (unhashableAmong? entries)
termination_by structural entries => entries

end

/-- Succeeds on the values that may be keys. -/
def requireHashable (value : Value) : Result Unit :=
  match value.unhashable? with
  | some kind => .error (.unhashable kind)
  | none => .ok ()

/-- A value that may be a key. -/
def IsHashable (value : Value) : Prop :=
  value.unhashable? = none

instance (value : Value) : Decidable value.IsHashable :=
  inferInstanceAs (Decidable (_ = _))

theorem requireHashable_eq_ok_iff {value : Value} :
    value.requireHashable = .ok () ↔ value.IsHashable := by
  unfold requireHashable IsHashable
  cases value.unhashable? <;> simp

/-- The distinct members of a list in order of first occurrence, if all of them may be keys. -/
def distinct (members : List Value) : Result (List Value) :=
  members.foldlM (fun kept member => do
    member.requireHashable
    pure (if member.isIn kept then kept else kept ++ [member])) []

end Value

end StateSpace
