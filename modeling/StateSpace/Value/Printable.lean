import StateSpace.Fault

/-!
# Values that can be printed

A number has a printed form only if it has at most so many digits, and a compound value only if each
of its parts has one. `Value.literal` is defined for every value, and `Value.printed` is what a reader
is given.
-/

namespace StateSpace

/-- The most digits that a number may have in a text. -/
def maxDigits : Nat := 4300

/-- The least number with too many digits. -/
def numberLimit : Nat := Nat.pow 10 maxDigits

theorem pow_ten_pos (digits : Nat) : 0 < Nat.pow 10 digits :=
  Nat.pow_pos (by decide)

theorem numberLimit_pos : 0 < numberLimit := by
  unfold numberLimit
  exact pow_ten_pos maxDigits

theorem lt_pow_ten (digits : Nat) : digits < Nat.pow 10 digits :=
  Nat.lt_pow_self (by decide)

/-- A number that is no greater than the number of digits allowed is not too long. -/
theorem lt_numberLimit {number : Nat} (small : number ≤ maxDigits) : number < numberLimit := by
  unfold numberLimit
  exact Nat.lt_of_le_of_lt small (lt_pow_ten maxDigits)

namespace Value

mutual

/-- Whether a value has a printed form. -/
def isPrintable : Value → Bool
  | .int number => number.natAbs < numberLimit
  | .tuple items => arePrintable items
  | .list items => arePrintable items
  | .dict entries => areEntriesPrintable entries
  | .state entries => areEntriesPrintable entries
  | .atLocation location => isPrintable location
  | .set members => arePrintable members
  | .programLabel location assignment => isPrintable location && isPrintable assignment
  | .null | .bool _ | .str _ | .symbol _ | .cell _ => true
termination_by structural value => value

/-- Whether each item of a list has a printed form. -/
def arePrintable : List Value → Bool
  | [] => true
  | item :: items => isPrintable item && arePrintable items
termination_by structural items => items

/-- Whether the key and the value of an entry have printed forms. -/
def isEntryPrintable : Value × Value → Bool
  | (key, value) => isPrintable key && isPrintable value
termination_by structural entry => entry

/-- Whether each entry of a list has a printed form. -/
def areEntriesPrintable : List (Value × Value) → Bool
  | [] => true
  | entry :: entries => isEntryPrintable entry && areEntriesPrintable entries
termination_by structural entries => entries

end

/-- Succeeds if all of some values have printed forms. -/
def requirePrintable (values : List Value) : Result Unit :=
  if arePrintable values then .ok () else .error .numberTooLong

/-- The literal of a value, if it can be printed. -/
def printed (value : Value) : Result String := do
  requirePrintable [value]
  pure value.literal

end Value

namespace Fault

/-- The values that the wording of a fault shows. -/
def shown : Fault → List Value
  | .missingVariable name declared => name :: declared
  | .undefinedEffect action => [action]
  | .missingKey key => [key]
  | .disconnected last next => [last, next]
  | .negativeCapacity sodas beers => [sodas, beers]
  | _ => []

/-- The fault that is reported for a fault: its own if it can be worded. -/
def reported (fault : Fault) : Fault :=
  if Value.arePrintable fault.shown then fault else .numberTooLong

end Fault

end StateSpace
