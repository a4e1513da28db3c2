import StateSpace.Program.Assignment

/-!
# Expressions

A small language for functions on values, in which guards, effects, conditions and transition rules
can be written down as data. An expression is evaluated on one argument. Conjunction and disjunction
stop as soon as the answer is known and give the operand that decided it, and every other operator
evaluates its operands from left to right.

The constants in an expression are read whenever they are needed. A constant that cannot be read is a
fault at that time, and a dictionary among the constants is a new one each time.
-/

namespace StateSpace

/-- An operator on numbers. -/
inductive Operator where
  | add
  | sub
  | mul
  | mod
  | lt
  | le
  | gt
  | ge
  deriving DecidableEq, Inhabited, Repr

/-- The result of an operator. The remainder has the sign of the divisor. -/
def Operator.apply (operator : Operator) (left right : Int) : Result Value :=
  match operator with
  | .add => .ok (.int (left + right))
  | .sub => .ok (.int (left - right))
  | .mul => .ok (.int (left * right))
  | .mod => if right = 0 then .error .moduloZero else .ok (.int (left.fmod right))
  | .lt => .ok (.bool (left < right))
  | .le => .ok (.bool (left ≤ right))
  | .gt => .ok (.bool (right < left))
  | .ge => .ok (.bool (right ≤ left))

/-- A value written in an expression, or the fault of reading it. -/
abbrev Constant := Result Value

/-- A function on values, written as data. -/
inductive Expr where
  /-- The argument. -/
  | argument
  | constant (value : Constant)
  /-- The part of the argument under a key. -/
  | lookup (key : Constant)
  | lookupD (key fallback : Constant)
  /-- Whether the argument has a member. -/
  | member (value : Constant)
  | size
  /-- The argument, a program state, with a variable rebound. -/
  | set (key : Constant) (body : Expr)
  /-- The argument with variables rebound together. -/
  | update (changes : List (Constant × Expr))
  | and (left right : Expr)
  | or (left right : Expr)
  | not (body : Expr)
  | cond (condition consequent alternative : Expr)
  | tuple (items : List Expr)
  /-- A component of a tuple. -/
  | component (body : Expr) (index : Int)
  /-- Fails with a message. -/
  | fail (message : String)
  | eq (left right : Expr)
  | ne (left right : Expr)
  | arithmetic (operator : Operator) (left right : Expr)
  deriving Inhabited

namespace Expr

/-- The component of a tuple at an index. -/
def componentAt (value : Value) (index : Int) : Result Value :=
  match value with
  | .tuple items =>
      if index < 0 then
        .error .badIndex
      else
        match items[index.toNat]? with
        | some item => .ok item
        | none => .error .badIndex
  | _ => .error .badIndex

variable {m : Type → Type} [MonadCells m]

/-- The value of a constant. -/
def readConstant (constant : Constant) : m Value := do
  MonadCells.share (← MonadCells.ofResult constant)

mutual

/-- The value of an expression on an argument. -/
def evaluate (argument : Value) : Expr → m Value
  | .argument => pure argument
  | .constant value => readConstant value
  | .lookup key => do
      let key ← MonadCells.ofResult key
      MonadCells.ofResult ((← MonadCells.inspect argument).item key)
  | .lookupD key fallback => do
      let container ← MonadCells.inspect argument
      MonadCells.ofResult container.requireMapping
      let key ← MonadCells.ofResult key
      let fallback ← readConstant fallback
      MonadCells.ofResult (container.itemD key fallback)
  | .member value => do
      let member ← MonadCells.ofResult value
      pure (.bool (← MonadCells.ofResult ((← MonadCells.view argument).hasMember member)))
  | .size => do
      pure (.int (← MonadCells.ofResult (← MonadCells.inspect argument).size))
  | .set key body => do
      let state ← stateFor "set" argument
      let key ← MonadCells.ofResult key
      let value ← evaluate argument body
      pure (← MonadCells.ofResult (state.set key value)).toValue
  | .update changes => do
      requireUpdatable argument
      updateIn argument (← evaluateChanges argument [] changes)
  | .and left right => do
      let value ← evaluate argument left
      if ← MonadCells.truth value then evaluate argument right else pure value
  | .or left right => do
      let value ← evaluate argument left
      if ← MonadCells.truth value then pure value else evaluate argument right
  | .not body => do pure (.bool !(← MonadCells.truth (← evaluate argument body)))
  | .cond condition consequent alternative => do
      if ← MonadCells.truth (← evaluate argument condition) then
        evaluate argument consequent
      else
        evaluate argument alternative
  | .tuple items => do pure (.tuple (← evaluateItems argument items))
  | .component body index => do
      MonadCells.ofResult (componentAt (← evaluate argument body) index)
  | .fail message => MonadCells.fail (.raised message)
  | .eq left right => do
      let leftValue ← evaluate argument left
      pure (.bool (← MonadCells.equal leftValue (← evaluate argument right)))
  | .ne left right => do
      let leftValue ← evaluate argument left
      pure (.bool !(← MonadCells.equal leftValue (← evaluate argument right)))
  | .arithmetic operator left right => do
      let leftValue ← evaluate argument left
      let rightValue ← evaluate argument right
      match leftValue.asInt?, rightValue.asInt? with
      | some leftNumber, some rightNumber =>
          MonadCells.ofResult (operator.apply leftNumber rightNumber)
      | _, _ => MonadCells.fail .badOperand
termination_by structural expr => expr

/-- The values of a list of expressions. -/
def evaluateItems (argument : Value) : List Expr → m (List Value)
  | [] => pure []
  | item :: items => do
      let first ← evaluate argument item
      pure (first :: (← evaluateItems argument items))
termination_by structural items => items

/-- The key and value of one change. -/
def evaluateChange (argument : Value) : Constant × Expr → m (Value × Value)
  | (key, body) => do
      let key ← MonadCells.ofResult key
      let value ← evaluate argument body
      MonadCells.ofResult key.requireHashable
      pure (key, value)
termination_by structural change => change

/-- The table of the changes, added to those evaluated before. -/
def evaluateChanges (argument : Value) (table : Table Value) :
    List (Constant × Expr) → m (Table Value)
  | [] => pure table
  | change :: changes => do
      let (key, value) ← evaluateChange argument change
      evaluateChanges argument (table.insert key value) changes
termination_by structural changes => changes

end

end Expr

end StateSpace
