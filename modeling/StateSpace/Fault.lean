import StateSpace.Json.Error
import StateSpace.Value.Literal

/-!
# Faults

A system is described by functions that may fail, and the library reports a failure by its cause.
`Fault` lists the causes and `Fault.message` words them. Nothing else in the library words a failure.
-/

namespace StateSpace

/-- Why an operation failed. -/
inductive Fault where
  /-- A value that holds a list or a dictionary was used as a key. -/
  | unhashable (kind : String)
  /-- A program state does not declare a variable. -/
  | missingVariable (name : Value) (declared : List Value)
  /-- A program graph defines no effect for an action. -/
  | undefinedEffect (action : Value)
  /-- A dictionary has no entry for a key. -/
  | missingKey (key : Value)
  /-- A pair was expected and fewer items were found. -/
  | tooFewItems (count : Nat)
  /-- A pair was expected and more items were found. -/
  | tooManyItems
  /-- A pair was expected and a value without items was found. -/
  | notUnpackable (kind : String)
  /-- A sequence was to be read as a table, and the item at a position has no items. -/
  | itemNotPair (position : Nat)
  /-- A sequence was to be read as a table, and the item at a position is not a pair. -/
  | itemOfLength (position length : Nat)
  /-- A variable given by name is not a text. -/
  | nameNotText
  /-- A variable given by name has the name of the type itself. -/
  | nameReserved
  | notSubscriptable (kind : String)
  | badSubscript (container index : String)
  | subscriptOutOfRange (container : String)
  /-- A position is too far from zero to be one in any sequence. -/
  | subscriptTooLarge
  | notIterable (kind : String)
  | withoutLength (kind : String)
  | withoutMembers (kind : String)
  | memberNotText (kind : String)
  | withoutOperation (kind operation : String)
  | unsupportedOperands (operator left right : String)
  | notConcatenable (left right : String)
  | notOrdered (operator left right : String)
  /-- A value has no form in JSON. -/
  | notSerializable (kind : String)
  /-- A dictionary key has no form in JSON. -/
  | badObjectKey (kind : String)
  /-- A text is not JSON. -/
  | malformedText (error : Json.Error)
  /-- A number has too many digits to be written. -/
  | numberTooLong
  /-- A number has too many digits to be read. -/
  | numberTextTooLong (digits : Nat)
  /-- An arithmetic operand is not a number. -/
  | badOperand
  /-- A projection was applied to something that has no such component. -/
  | badIndex
  | moduloZero
  /-- A user function gave up with a message of its own. -/
  | raised (message : String)
  /-- A formula has a node whose structure is not known. -/
  | unknownNode (name : String)
  /-- A proposition was asked of a program label that cannot hold it. -/
  | foreignProposition (kind : String)
  /-- Two paths do not meet. -/
  | disconnected (last next : Value)
  | noInitialStates
  | negativeSteps (count : Int)
  /-- A number of steps is too large to count up to. -/
  | tooManySteps
  | nonPositiveBound (bound : String)
  | negativeCapacity (sodas beers : Value)
  /-- A family of symbols has none with a text. -/
  | noSuchSymbol (family : String) (text : Value)
  /-- A value in tagged notation carries no known tag. -/
  | unknownTag
  /-- A description lacks something or names something that does not exist. -/
  | unknown (what : String)
  deriving Inhabited, Repr

/-- The result of an operation that may fail. -/
abbrev Result (α : Type) := Except Fault α

namespace Fault

/-- The wording of a fault. -/
def message : Fault → String
  | .unhashable kind => "unhashable type: '" ++ kind ++ "'"
  | .missingVariable name declared =>
      "Variable " ++ name.literal ++ " is not declared (declared: " ++
        ", ".intercalate (Text.sorted (declared.map Value.literal)) ++ ")"
  | .undefinedEffect action => "No effect defined for action " ++ action.literal
  | .missingKey key => key.literal
  | .tooFewItems count =>
      "not enough values to unpack (expected 2, got " ++ toString count ++ ")"
  | .tooManyItems => "too many values to unpack (expected 2)"
  | .notUnpackable kind => "cannot unpack non-iterable " ++ kind ++ " object"
  | .itemNotPair position =>
      "cannot convert dictionary update sequence element #" ++ toString position ++
        " to a sequence"
  | .itemOfLength position length =>
      "dictionary update sequence element #" ++ toString position ++ " has length " ++
        toString length ++ "; 2 is required"
  | .nameNotText => "keywords must be strings"
  | .nameReserved => "ProgramState.of() got multiple values for argument 'cls'"
  | .notSubscriptable kind => "'" ++ kind ++ "' object is not subscriptable"
  | .badSubscript container index =>
      if container = "string" then
        "string indices must be integers, not '" ++ index ++ "'"
      else
        container ++ " indices must be integers or slices, not " ++ index
  | .subscriptOutOfRange container => container ++ " index out of range"
  | .subscriptTooLarge => "cannot fit 'int' into an index-sized integer"
  | .notIterable kind => "'" ++ kind ++ "' object is not iterable"
  | .withoutLength kind => "object of type '" ++ kind ++ "' has no len()"
  | .withoutMembers kind => "argument of type '" ++ kind ++ "' is not iterable"
  | .memberNotText kind => "'in <string>' requires string as left operand, not " ++ kind
  | .withoutOperation kind operation =>
      "'" ++ kind ++ "' object has no attribute '" ++ operation ++ "'"
  | .unsupportedOperands operator left right =>
      "unsupported operand type(s) for " ++ operator ++ ": '" ++ left ++ "' and '" ++ right ++ "'"
  | .notConcatenable left right =>
      "can only concatenate " ++ left ++ " (not \"" ++ right ++ "\") to " ++ left
  | .notOrdered operator left right =>
      "'" ++ operator ++ "' not supported between instances of '" ++ left ++ "' and '" ++ right ++
        "'"
  | .notSerializable kind => "Object of type " ++ kind ++ " is not JSON serializable"
  | .badObjectKey kind => "keys must be str, int, float, bool or None, not " ++ kind
  | .malformedText error => error.message
  | .numberTooLong =>
      "Exceeds the limit (4300 digits) for integer string conversion; " ++
        "use sys.set_int_max_str_digits() to increase the limit"
  | .numberTextTooLong digits =>
      "Exceeds the limit (4300 digits) for integer string conversion: value has " ++
        toString digits ++ " digits; use sys.set_int_max_str_digits() to increase the limit"
  | .badOperand => "bad operand"
  | .badIndex => "bad index"
  | .moduloZero => "mod by zero"
  | .raised message => message
  | .unknownNode name => "Unknown proposition type: " ++ name
  | .foreignProposition kind =>
      "Compiled labels contain AtLocation or Holds propositions, not " ++ kind
  | .disconnected last next =>
      "Cannot concatenate: path ends at " ++ last.literal ++ " but next path starts at " ++
        next.literal
  | .noInitialStates => "Cannot start a run: system has no initial states"
  | .negativeSteps count => "max_steps must be non-negative, got " ++ toString count
  | .tooManySteps =>
      "Stop argument for islice() must be None or an integer: 0 <= x <= sys.maxsize."
  | .nonPositiveBound bound => "max_states must be positive, got " ++ bound
  | .negativeCapacity sodas beers =>
      "Capacities must be non-negative, got " ++ sodas.display ++ "/" ++ beers.display
  | .noSuchSymbol family text => text.literal ++ " is not a valid " ++ family
  | .unknownTag => "unknown tag"
  | .unknown what => "no such " ++ what

/-- What faults have in common for someone who handles them without looking at the details. -/
inductive Category where
  | missingVariable
  | undefinedEffect
  | missingKey
  /-- A value of the right kind that is not allowed. -/
  | value
  /-- A position that a sequence does not have. -/
  | position
  | withoutOperation
  | malformedText
  | division
  /-- Raised by a user function. -/
  | raised
  | description
  /-- A value of a kind that is not allowed. -/
  | type
  deriving DecidableEq, Inhabited, Repr

/-- The category of a fault. -/
def category : Fault → Category
  | .missingVariable .. => .missingVariable
  | .undefinedEffect .. => .undefinedEffect
  | .missingKey .. => .missingKey
  | .tooFewItems .. | .tooManyItems | .itemOfLength .. | .disconnected .. | .noInitialStates
  | .negativeSteps .. | .tooManySteps | .nonPositiveBound .. | .negativeCapacity ..
  | .numberTooLong | .numberTextTooLong .. | .noSuchSymbol .. => .value
  | .subscriptOutOfRange .. | .subscriptTooLarge | .badIndex => .position
  | .withoutOperation .. => .withoutOperation
  | .malformedText .. => .malformedText
  | .moduloZero => .division
  | .raised .. => .raised
  | .unknownTag | .unknown .. => .description
  | .unhashable .. | .itemNotPair .. | .notUnpackable .. | .nameNotText | .nameReserved
  | .notSubscriptable .. | .badSubscript .. | .notIterable .. | .withoutLength .. | .withoutMembers ..
  | .memberNotText .. | .unsupportedOperands .. | .notConcatenable .. | .notOrdered ..
  | .notSerializable .. | .badObjectKey .. | .badOperand | .unknownNode .. | .foreignProposition .. => .type

end Fault

end StateSpace
