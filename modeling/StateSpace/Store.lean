import StateSpace.Table

/-!
# Stores

A dictionary can be changed in place by whoever holds it, and everyone else who holds it sees the
change. A `Store` keeps what such dictionaries hold, and a value refers to a kept dictionary by the
number of its cell. Sharing a value moves every dictionary in it into a cell of its own, and viewing it
puts back what the cells hold by then.

The functions that describe a system run in a monad with cells. `Result` is such a monad in which
nothing is kept: values are shared and viewed as they are, and a change is lost. It is exact for every
system that is searched, because a state that holds a dictionary cannot be visited. `Live` keeps a
store, and a fault does not undo the changes made before it.
-/

namespace StateSpace

namespace Value

mutual

/-- A value with each cell in it replaced. -/
def replaceCells (replacement : Nat → Value) : Value → Value
  | .tuple items => .tuple (replaceInItems replacement items)
  | .list items => .list (replaceInItems replacement items)
  | .dict entries => .dict (replaceInEntries replacement entries)
  | .state entries => .state (replaceInEntries replacement entries)
  | .atLocation location => .atLocation (replaceCells replacement location)
  | .programLabel location assignment =>
      .programLabel (replaceCells replacement location) (replaceCells replacement assignment)
  | .cell number => replacement number
  | value => value
termination_by structural value => value

/-- Each item of a list with its cells replaced. -/
def replaceInItems (replacement : Nat → Value) : List Value → List Value
  | [] => []
  | item :: items => replaceCells replacement item :: replaceInItems replacement items
termination_by structural items => items

/-- An entry with the cells in its value replaced. A key holds no cells. -/
def replaceInEntry (replacement : Nat → Value) : Value × Value → Value × Value
  | (key, value) => (key, replaceCells replacement value)
termination_by structural entry => entry

/-- Each entry of a list with the cells in its value replaced. -/
def replaceInEntries (replacement : Nat → Value) : List (Value × Value) → List (Value × Value)
  | [] => []
  | entry :: entries => replaceInEntry replacement entry :: replaceInEntries replacement entries
termination_by structural entries => entries

end

end Value

/-- What each cell holds, by the number of the cell. -/
structure Store where
  cells : Array (Table Value) := #[]
  deriving Inhabited, Repr

namespace Store

/-- What a cell holds. -/
def contents (store : Store) (number : Nat) : Table Value :=
  store.cells.getD number []

/-- Change what a cell holds. -/
def change (store : Store) (number : Nat) (alter : Table Value → Table Value) : Store :=
  { cells := store.cells.modify number alter }

/-- Keep a dictionary in a new cell. -/
def keep (entries : Table Value) : StateM Store Value :=
  modifyGet fun store => (.cell store.cells.size, { cells := store.cells.push entries })

mutual

/-- A value with each dictionary in it moved into a cell of its own. -/
def share : Value → StateM Store Value
  | .tuple items => do pure (.tuple (← shareItems items))
  | .list items => do pure (.list (← shareItems items))
  | .dict entries => do keep (← shareEntries entries)
  | .state entries => do pure (.state (← shareEntries entries))
  | .atLocation location => do pure (.atLocation (← share location))
  | .programLabel location assignment => do
      let location ← share location
      pure (.programLabel location (← share assignment))
  | value => pure value
termination_by structural value => value

/-- Each item of a list shared. -/
def shareItems : List Value → StateM Store (List Value)
  | [] => pure []
  | item :: items => do
      let first ← share item
      pure (first :: (← shareItems items))
termination_by structural items => items

/-- An entry with its value shared. -/
def shareEntry : Value × Value → StateM Store (Value × Value)
  | (key, value) => do pure (key, ← share value)
termination_by structural entry => entry

/-- Each entry of a list with its value shared. -/
def shareEntries : List (Value × Value) → StateM Store (Table Value)
  | [] => pure []
  | entry :: entries => do
      let first ← shareEntry entry
      pure (first :: (← shareEntries entries))
termination_by structural entries => entries

end

/-- A value with what its cells hold in place of the cells, down to a depth of cells in cells. A cell
that is met again inside itself is left as it is. -/
def viewWithin (store : Store) : Nat → List Nat → Value → Value
  | 0, _, value => value
  | depth + 1, opened, value =>
      value.replaceCells fun number =>
        if number ∈ opened then
          .cell number
        else
          .dict ((store.contents number).map fun (key, value) =>
            (key, viewWithin store depth (number :: opened) value))

/-- A value with what its cells hold in place of the cells. No more cells than there are can be inside
one another. -/
def view (store : Store) (value : Value) : Value :=
  store.viewWithin store.cells.size [] value

end Store

/-- A computation that may keep dictionaries in cells. -/
class MonadCells (m : Type → Type) extends Monad m where
  /-- The outcome of an operation that needs no cells. -/
  ofResult {α : Type} : Result α → m α
  /-- The outcome of a computation, whose fault is not passed on. -/
  attempt {α : Type} : m α → m (Result α)
  /-- A value with its dictionaries moved into cells. -/
  share : Value → m Value
  /-- A value with what its cells hold in place of the cells. -/
  view : Value → m Value
  /-- The dictionary that a cell holds, which may hold further cells. Any other value is unchanged. -/
  inspect : Value → m Value
  /-- Change what a cell holds. -/
  change : Nat → (Table Value → Table Value) → m Unit

instance : MonadCells Result where
  ofResult result := result
  attempt result := .ok result
  share value := .ok value
  view value := .ok value
  inspect value := .ok value
  change _ _ := .ok ()

/-- A computation with a store. -/
abbrev Live := ExceptT Fault (StateM Store)

instance : MonadCells Live where
  ofResult result := ExceptT.mk (pure result)
  attempt computation := ExceptT.lift computation.run
  share value := ExceptT.lift (Store.share value)
  view value := do pure ((← get).view value)
  inspect
    | .cell number => do pure (.dict ((← get).contents number))
    | value => pure value
  change number alter := modify fun store => store.change number alter

namespace MonadCells

variable {m : Type → Type} [MonadCells m]

/-- Stop with a fault. -/
def fail {α : Type} (fault : Fault) : m α :=
  ofResult (.error fault)

/-- The truth value of a value. -/
def truth (value : Value) : m Bool := do
  pure (← inspect value).truthy

/-- A value in which the items of a sequence are inspected too. -/
def inspectItems (value : Value) : m Value := do
  match value with
  | .tuple items => pure (.tuple (← items.mapM inspect))
  | .list items => pure (.list (← items.mapM inspect))
  | _ => inspect value

/-- Whether two values are equal. -/
def equal (left right : Value) : m Bool := do
  let leftValue ← view left
  pure (leftValue == (← view right))

/-- Whether a list holds a value, up to equality. -/
def among (value : Value) : List Value → m Bool
  | [] => pure false
  | item :: items => do
      if ← equal item value then pure true else among value items

/-! ### Computations without cells -/

@[simp]
theorem ofResult_result {α : Type} (result : Result α) : ofResult (m := Result) result = result :=
  rfl

@[simp]
theorem attempt_result {α : Type} (result : Result α) : attempt (m := Result) result = .ok result :=
  rfl

@[simp]
theorem share_result (value : Value) : share (m := Result) value = .ok value :=
  rfl

@[simp]
theorem view_result (value : Value) : view (m := Result) value = .ok value :=
  rfl

@[simp]
theorem inspect_result (value : Value) : inspect (m := Result) value = .ok value :=
  rfl

@[simp]
theorem fail_result {α : Type} (fault : Fault) : (fail fault : Result α) = .error fault :=
  rfl

@[simp]
theorem truth_result (value : Value) : (truth value : Result Bool) = .ok value.truthy :=
  rfl

@[simp]
theorem equal_result (left right : Value) : (equal left right : Result Bool) = .ok (left == right) :=
  rfl

@[simp]
theorem among_result (value : Value) (items : List Value) :
    (among value items : Result Bool) = .ok (value.isIn items) := by
  induction items with
  | nil => rfl
  | cons item items ih =>
      have step : (among value (item :: items) : Result Bool) =
          if item == value then .ok true else among value items := rfl
      rw [step, ih]
      by_cases same : (item == value) = true <;> simp [Value.isIn, same]

end MonadCells

end StateSpace
