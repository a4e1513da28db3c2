import StateSpace.Description.Routine
import StateSpace.Formula

/-!
# Descriptions of formulas

A formula is written as an array of the name of a connective and its operands. A property is described
by a formula or by a function on labels.
-/

namespace StateSpace.Description

variable {m : Type → Type} [MonadCells m]

/-- The formula that plain data describes. -/
def formula (vocabulary : Vocabulary m) : Nat → Value → Build m (Formula m)
  | 0, _ => (.error (.unknown "depth") : Result (Formula m))
  | depth + 1, data => do
      match ← items data with
      | [.str "true"] => pure .truth
      | [.str "false"] => pure .falsity
      | [.str "atom", body] => pure (.atom (← value vocabulary body))
      | [.str "at", location] => pure (.atLocation (← value vocabulary location))
      | [.str "holds", condition] => pure (.holds (← routine vocabulary depth condition))
      | [.str "custom", name, result] =>
          let result ← value vocabulary result
          let name ← text name
          pure (.custom { identity := ← newIdentity, name, evaluate := fun _ => pure result })
      | [.str name, body] =>
          let connective ← named [("not", Formula.not), ("~", .not)] name
          pure (connective (← formula vocabulary depth body))
      | [.str name, left, right] =>
          let connective ← named
            [("and", Formula.and), ("&", .and), ("or", .or), ("|", .or), ("implies", .implies)] name
          let left ← formula vocabulary depth left
          pure (connective left (← formula vocabulary depth right))
      | _ => (.error (.unknown "formula") : Result (Formula m))

/-- The property that plain data describes. -/
def property (vocabulary : Vocabulary m) (depth : Nat) (data : Value) : Build m (Property m) := do
  match field? data "formula" with
  | some body => pure (.formula (← formula vocabulary depth body))
  | none => pure (.routine (← routine vocabulary depth (← field data "callable")))

/-- The label that plain data describes. -/
def label (vocabulary : Vocabulary m) (data : Value) : Build m Label := do
  if let some members := field? data "set" then
    Label.ofSet (← values vocabulary members)
  else if let some members := field? data "list" then
    pure (.list (← values vocabulary members))
  else
    let (location, state) ← twoOf (← field data "program")
    let location ← value vocabulary location
    pure (.program location (← shared vocabulary state))

end StateSpace.Description
