import StateSpace.Program.Compiled
import StateSpace.Value.Arithmetic

/-!
# A soda machine

A program graph with two locations. At the start the machine waits for a coin or is refilled, and
after a coin it sells a soda or a beer, or returns the coin if both are sold out. Every coin that the
machine keeps replaces one drink sold, so at the start the coins and drinks together always number
the two capacities together.
-/

namespace StateSpace.SodaMachine

/-- A location of the machine. -/
def location (name text : String) : Symbol :=
  ⟨"Location", name, text⟩

/-- The machine waits for a coin. -/
def start : Symbol := location "START" "start"

/-- A coin was inserted. -/
def select : Symbol := location "SELECT" "select"

/-- The locations of the machine. -/
def locations : List Symbol :=
  [start, select]

/-- Coins held plus drinks in stock. -/
def total (state : Value) : Result Value := do
  let coins ← state.item (.str "coins")
  let sodas ← state.item (.str "sodas")
  let held ← coins.plus sodas
  let beers ← state.item (.str "beers")
  held.plus beers

variable {m : Type → Type} [MonadCells m]

/-- Coins held plus drinks in stock, as a routine. -/
def totalItems : Routine m :=
  .builtin "total_items" total

/-- There is a soda in stock. -/
def hasSoda : Routine m :=
  .builtin "has_soda" fun state => do
    pure (.bool (← (← state.item (.str "sodas")).exceeds (.int 0)))

/-- There is a beer in stock. -/
def hasBeer : Routine m :=
  .builtin "has_beer" fun state => do
    pure (.bool (← (← state.item (.str "beers")).exceeds (.int 0)))

/-- Neither drink is in stock. -/
def soldOut : Routine m :=
  .builtin "sold_out" fun state => do
    if (← state.item (.str "sodas")) == .int 0 then
      pure (.bool ((← state.item (.str "beers")) == .int 0))
    else
      pure (.bool false)

/-- The predicate that coins and drinks together number a given value. -/
def totalPredicate (expected : Value) : Predicate m where
  name := "total==" ++ expected.display
  holds state := do
    pure ((← MonadCells.ofResult (total (← MonadCells.view state))) == expected)

/-- The predicate on the total, if the value has a printed form for its name. -/
def totalIs (expected : Value) : Result (Predicate m) := do
  Value.requirePrintable [expected]
  pure (totalPredicate expected)

/-- The effect of an action, which the action names. -/
def effect (action : String) (updates : List (String × Update m)) : Value × Routine m :=
  (.str action, .assign (.builtin action) updates)

/-- A variable of the machine changed by an operation with one. -/
def stepBy (operation : Value → Value → Result Value) (name : String) : String × Update m :=
  (name, .computed fun state => do
    let value ← MonadCells.ofResult ((← MonadCells.view state).item (.str name))
    MonadCells.ofResult (operation value (.int 1)))

/-- The guarded transitions at each location. -/
def table : Table (List (GuardedTransition m)) :=
  [(.symbol start,
    [⟨.always, .str "coin", .symbol select⟩,
     ⟨.always, .str "refill", .symbol start⟩]),
   (.symbol select,
    [⟨hasSoda, .str "soda", .symbol start⟩,
     ⟨hasBeer, .str "beer", .symbol start⟩,
     ⟨soldOut, .str "ret_coin", .symbol start⟩])]

/-- The effects of the actions of a machine with the given capacities. -/
def effects (maxSodas maxBeers : Value) : Table (Routine m) :=
  [effect "coin" [stepBy Value.plus "coins"],
   effect "refill"
    [("coins", .constant (.int 0)), ("sodas", .constant maxSodas), ("beers", .constant maxBeers)],
   effect "soda" [stepBy Value.minus "sodas"],
   effect "beer" [stepBy Value.minus "beers"],
   effect "ret_coin" [stepBy Value.minus "coins"]]

/-- A program state of the machine. -/
def stock (coins sodas beers : Value) : ProgramState :=
  ⟨[(.str "coins", coins), (.str "sodas", sodas), (.str "beers", beers)]⟩

/-- Whether one of two capacities is negative. -/
def lacksRoom (maxSodas maxBeers : Value) : Result Bool := do
  if ← maxSodas.precedes (.int 0) then pure true else maxBeers.precedes (.int 0)

/-- The machine with the given capacities, which starts with full stock and no coins. A capacity is
kept in the form in which it is given. -/
def graph (maxSodas : Value := .int 2) (maxBeers : Value := .int 2) : Result (ProgramGraph m) := do
  if ← lacksRoom maxSodas maxBeers then
    throw (.negativeCapacity maxSodas maxBeers)
  else
    pure (.ofTable [.symbol start] (stock (.int 0) maxSodas maxBeers) table
      (effects maxSodas maxBeers))

end StateSpace.SodaMachine
