/-!
# Errors of JSON texts

An error names what is wrong with a text and where. Positions count characters: the offset from the
start of the text, the line from one, and the column from one within its line.
-/

namespace StateSpace.Json

/-- What is wrong with a text that is not JSON. -/
inductive Problem where
  | expectedValue
  | expectedName
  | expectedColon
  | expectedComma
  | extraData
  | unterminatedString
  | controlCharacter
  | badEscape
  | badCodeUnit
  | byteOrderMark
  deriving DecidableEq, Inhabited, Repr

/-- The wording of a problem. -/
def Problem.text : Problem → String
  | .expectedValue => "Expecting value"
  | .expectedName => "Expecting property name enclosed in double quotes"
  | .expectedColon => "Expecting ':' delimiter"
  | .expectedComma => "Expecting ',' delimiter"
  | .extraData => "Extra data"
  | .unterminatedString => "Unterminated string starting at"
  | .controlCharacter => "Invalid control character at"
  | .badEscape => "Invalid \\escape"
  | .badCodeUnit => "Invalid \\uXXXX escape"
  | .byteOrderMark => "Unexpected UTF-8 BOM (decode using utf-8-sig)"

/-- A problem at a place in a text. -/
structure Error where
  problem : Problem
  line : Nat
  column : Nat
  offset : Nat
  deriving DecidableEq, Inhabited, Repr

namespace Error

/-- The line and column at which a text stands after some characters. -/
def place (before : List Char) : Nat × Nat :=
  before.foldl
    (fun (line, column) c => if c = '\n' then (line + 1, 1) else (line, column + 1)) (1, 1)

/-- The error of a problem at an offset of a text. -/
def atOffset (problem : Problem) (text : List Char) (offset : Nat) : Error :=
  let (line, column) := place (text.take offset)
  { problem, line, column, offset }

/-- The message of an error. -/
def message (error : Error) : String :=
  error.problem.text ++ ": line " ++ toString error.line ++ " column " ++ toString error.column ++
    " (char " ++ toString error.offset ++ ")"

end Error

end StateSpace.Json
