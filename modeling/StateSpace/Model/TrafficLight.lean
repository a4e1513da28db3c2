import StateSpace.TransitionSystem

/-!
# A traffic light

Three colours in a cycle: red, green, yellow. Each state is labelled with its own colour.
-/

namespace StateSpace.TrafficLight

/-- A colour of the light. -/
def color (name text : String) : Symbol :=
  ⟨"Color", name, text⟩

def red : Symbol := color "RED" "red"

def green : Symbol := color "GREEN" "green"

def yellow : Symbol := color "YELLOW" "yellow"

/-- The colours in the order of the cycle. -/
def colors : List Symbol :=
  [red, green, yellow]

/-- The colour that follows each colour. -/
def following : Table Value :=
  [(.symbol red, .symbol green), (.symbol green, .symbol yellow), (.symbol yellow, .symbol red)]

/-- The action that changes the light. -/
def switch : Value := .str "switch"

/-- The traffic light, which starts at red. -/
def system {m : Type → Type} [MonadCells m] : TransitionSystem m where
  initialStates := [.symbol red]
  label state := MonadCells.ofResult (Label.ofSet [state])
  transitions state := .atOnce do
    match ← MonadCells.ofResult (following.lookup state) with
    | some next => pure [.pair switch next]
    | none => MonadCells.fail (.missingKey state)

end StateSpace.TrafficLight
