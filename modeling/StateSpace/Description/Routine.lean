import StateSpace.Description.Basic
import StateSpace.Description.Expr
import StateSpace.Model.SodaMachine

/-!
# Descriptions of functions

A function is described by an expression, by the name of a routine, or as an assignment. A predicate
is described by functions and connectives. The recursion is bounded by the depth of the descriptions
in one another that is allowed.
-/

namespace StateSpace.Description

variable {m : Type → Type} [MonadCells m]

/-- The function that an expression describes. -/
def function (vocabulary : Vocabulary m) (data : Value) : Result (Value → m Value) := do
  let body ← Expr.ofData vocabulary.symbols data
  pure fun argument => body.evaluate argument

/-- The routine that was described under a name. -/
def definition (vocabulary : Vocabulary m) (name : Value) : Result (Routine m) := do
  match vocabulary.definitions.lookup (← text name) with
  | some routine => pure routine
  | none => throw (.missingKey name)

/-- A predicate as a routine of its own. -/
def newRoutine (predicate : Predicate m) : Build m (Routine m) := do
  pure (predicate.toRoutine (← newIdentity))

/-- The routine of an expression, with the name and the printed form it is given. -/
def ofExpression (vocabulary : Vocabulary m) (data body : Value) : Build m (Routine m) := do
  let name? ← textField? data "name"
  let printed? ← textField? data "repr"
  let run ← function vocabulary body
  pure { identity := ← newIdentity, name?, text := printed?.getD "<fn>", run }

/-- The names to which updates belong, which must be texts. -/
def updateNames (updates : List (Value × Update m)) : Result (List (String × Update m)) :=
  updates.mapM fun (name, update) =>
    match name with
    | .str name => .ok (name, update)
    | _ => .error .nameNotText

mutual

/-- The routine that plain data describes. -/
def routine (vocabulary : Vocabulary m) : Nat → Value → Build m (Routine m)
  | 0, _ => (.error (.unknown "depth") : Result (Routine m))
  | depth + 1, data => do
      if let some body := field? data "expr" then
        ofExpression vocabulary data body
      else if let some name := field? data "builtin" then
        named (vocabulary.builtins.map fun routine => (routine.title, routine)) (← text name)
      else if let some expected := field? data "total_is" then
        newRoutine (← SodaMachine.totalIs (← value vocabulary expected))
      else if let some updates := field? data "assign" then
        let updates ← (← items updates).mapM fun entry => do
          let (name, body) ← twoOf entry
          pure (name, ← update vocabulary depth body)
        let updates ← updateNames updates
        pure (.assign (← newIdentity) updates)
      else if let some body := field? data "pred" then
        predicate vocabulary depth body
      else
        definition vocabulary (← field data "ref")

/-- The update that plain data describes. -/
def update (vocabulary : Vocabulary m) : Nat → Value → Build m (Update m)
  | 0, _ => (.error (.unknown "depth") : Result (Update m))
  | depth + 1, data => do
      match field? data "const" with
      | some constant => pure (.constant (← shared vocabulary constant))
      | none => pure (.computed (← routine vocabulary depth data).run)

/-- The predicate that plain data describes, as a routine. -/
def predicate (vocabulary : Vocabulary m) : Nat → Value → Build m (Routine m)
  | 0, _ => (.error (.unknown "depth") : Result (Routine m))
  | depth + 1, data => do
      match ← items data with
      | [.str "ref", name] => definition vocabulary name
      | [.str "true"] => newRoutine .everywhere
      | [.str "false"] => newRoutine .nowhere
      | [.str "wrap", body] => newRoutine (.ofRoutine (← routine vocabulary depth body))
      | [.str "wrap", body, name] =>
          newRoutine (.ofRoutine (← routine vocabulary depth body) (← text name))
      | [.str "not", body] => newRoutine (.not (.ofPrinted (← predicate vocabulary depth body)))
      | [.str name, left, right] =>
          let connective ← named [("and", Predicate.and), ("or", .or), ("implies", .implies)] name
          let left := Predicate.ofPrinted (← predicate vocabulary depth left)
          newRoutine (connective left (← routine vocabulary depth right))
      | _ => (.error (.unknown "predicate") : Result (Routine m))

end

/-- A vocabulary with the routines that a list of names and functions defines, each of which may refer
to those before it. -/
def define (vocabulary : Vocabulary m) (depth : Nat) (data : Value) : Build m (Vocabulary m) := do
  (← items data).foldlM (fun (vocabulary : Vocabulary m) entry => do
    let (name, body) ← twoOf entry
    let name ← text name
    let routine ← routine vocabulary depth body
    pure { vocabulary with definitions := (name, routine) :: vocabulary.definitions }) vocabulary

end StateSpace.Description
