import StateSpace.Expr
import StateSpace.Value.Tagged

/-!
# Descriptions of expressions

An expression is written as an array of the name of an operation and its operands. Constants are in
tagged notation. There is no expression for an unknown operation or a wrong number of operands.
-/

namespace StateSpace

/-- The operator with a name. -/
def Operator.named? : String → Option Operator
  | "add" => some .add
  | "sub" => some .sub
  | "mul" => some .mul
  | "mod" => some .mod
  | "lt" => some .lt
  | "le" => some .le
  | "gt" => some .gt
  | "ge" => some .ge
  | _ => none

namespace Expr

/-- An operand as it is written, and how to read it as an expression or as a list of changes. What it
is read as depends on the operation. -/
structure Operand where
  data : Value
  expr : Unit → Result Expr
  changes : Unit → Result (List (Constant × Expr))

/-- The operation of two expressions with a name. -/
def binary (name : String) (left right : Expr) : Result Expr :=
  match name with
  | "and" => .ok (.and left right)
  | "or" => .ok (.or left right)
  | "eq" => .ok (.eq left right)
  | "ne" => .ok (.ne left right)
  | _ =>
      match Operator.named? name with
      | some operator => .ok (.arithmetic operator left right)
      | none => .error (.unknown "operation")

/-- The expression of an operation and its operands. -/
def ofOperands (symbols : List Symbol) (name : String) (operands : List Operand) : Result Expr :=
  let constant (operand : Operand) : Constant := Tagged.read symbols operand.data
  match name, operands with
  | "self", [] => .ok .argument
  | "len", [] => .ok .size
  | "const", [value] => .ok (.constant (constant value))
  | "var", [key] => .ok (.lookup (constant key))
  | "get", [key, fallback] => .ok (.lookupD (constant key) (constant fallback))
  | "has", [part] => .ok (.member (constant part))
  | "fail", [message] => .ok (.fail message.data.display)
  | "not", [body] => do pure (.not (← body.expr ()))
  | "set", [key, body] => do pure (.set (constant key) (← body.expr ()))
  | "update", [changes] => do pure (.update (← changes.changes ()))
  | "if", [condition, consequent, alternative] => do
      let condition ← condition.expr ()
      let consequent ← consequent.expr ()
      pure (.cond condition consequent (← alternative.expr ()))
  | "idx", [body, index] => do
      let body ← body.expr ()
      match index.data.asInt? with
      | some index => pure (.component body index)
      | none => throw (.unknown "operation")
  | "tuple", items => do pure (.tuple (← items.mapM fun item => item.expr ()))
  | name, [left, right] => do
      let left ← left.expr ()
      binary name left (← right.expr ())
  | _, _ => .error (.unknown "operation")

mutual

/-- The expression that plain data describes. -/
def ofData (symbols : List Symbol) : Value → Result Expr
  | .list items =>
      match operandsOf symbols items with
      | ⟨.str name, _, _⟩ :: operands => ofOperands symbols name operands
      | _ => .error (.unknown "operation")
  | _ => .error (.unknown "operation")
termination_by structural data => data

/-- The items of an array as operands. -/
def operandsOf (symbols : List Symbol) : List Value → List Operand
  | [] => []
  | item :: items =>
      ⟨item, fun _ => ofData symbols item, fun _ => changesOf symbols item⟩ ::
        operandsOf symbols items
termination_by structural items => items

/-- The changes that an array of pairs describes. -/
def changesOf (symbols : List Symbol) : Value → Result (List (Constant × Expr))
  | .list items => changesAmong symbols items
  | _ => .error (.unknown "operation")
termination_by structural data => data

/-- The changes that each item of an array describes. -/
def changesAmong (symbols : List Symbol) : List Value → Result (List (Constant × Expr))
  | [] => .ok []
  | item :: items => do
      let first ← changeOf symbols item
      pure (first :: (← changesAmong symbols items))
termination_by structural items => items

/-- The change that a pair of a key and an expression describes. -/
def changeOf (symbols : List Symbol) : Value → Result (Constant × Expr)
  | .list items =>
      match operandsOf symbols items with
      | [key, body] => do pure (Tagged.read symbols key.data, ← body.expr ())
      | _ => .error (.unknown "operation")
  | _ => .error (.unknown "operation")
termination_by structural data => data

end

end Expr

end StateSpace
