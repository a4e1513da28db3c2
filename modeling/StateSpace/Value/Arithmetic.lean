import StateSpace.Fault

/-!
# Arithmetic on values

Sums, differences and comparisons of values of any kind. Truth values count as numbers, and a sum of
two texts, two tuples or two lists joins them.
-/

namespace StateSpace

namespace Value

/-- The sum of two numbers, or two sequences of one kind joined. -/
def plus (left right : Value) : Result Value :=
  match left.asInt?, right.asInt? with
  | some a, some b => .ok (.int (a + b))
  | _, _ =>
      match left.asText?, right.asText? with
      | some a, some b => .ok (.str (a ++ b))
      | some _, none => .error (.notConcatenable "str" right.kind)
      | none, _ =>
          match left, right with
          | .tuple a, .tuple b => .ok (.tuple (a ++ b))
          | .list a, .list b => .ok (.list (a ++ b))
          | .tuple _, other => .error (.notConcatenable "tuple" other.kind)
          | .list _, other => .error (.notConcatenable "list" other.kind)
          | _, _ => .error (.unsupportedOperands "+" left.kind right.kind)

/-- The difference of two numbers. -/
def minus (left right : Value) : Result Value :=
  match left.asInt?, right.asInt? with
  | some a, some b => .ok (.int (a - b))
  | _, _ => .error (.unsupportedOperands "-" left.kind right.kind)

/-- Whether a number is less than another. -/
def precedes (left right : Value) : Result Bool :=
  match left.asInt?, right.asInt? with
  | some a, some b => .ok (decide (a < b))
  | _, _ => .error (.notOrdered "<" left.kind right.kind)

/-- Whether a number is greater than another. -/
def exceeds (left right : Value) : Result Bool :=
  match left.asInt?, right.asInt? with
  | some a, some b => .ok (decide (b < a))
  | _, _ => .error (.notOrdered ">" left.kind right.kind)

end Value

end StateSpace
