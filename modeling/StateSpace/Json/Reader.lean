import StateSpace.Table
import StateSpace.Text.Hex

/-!
# Reading JSON

Reads the JSON text of a value built from null, truth values, integers, strings, arrays and objects.
Arrays become lists and objects become dictionaries, in which a repeated name keeps its first place
and takes its last value. An error is reported where the reading stopped, and the position is found
from the number of characters that were left. The number of digits that an integer may have can be
limited.

The reader recurses on a bound that is never reached. A value gives its items one less than it got and
an item gives its value one less again, and between a value and the values in it at least one character
is read. A bound of twice the number of characters and two more is therefore enough for any text.
-/

namespace StateSpace.Json

/-- What stopped the reading. -/
inductive Stop where
  /-- A problem, with a number of characters left. -/
  | malformed (problem : Problem) (remaining : Nat)
  /-- An integer with more digits than are allowed. -/
  | numberTooLong (digits : Nat)
  deriving DecidableEq, Inhabited, Repr

/-- The outcome of reading something from the front of a text. -/
abbrev Reading (α : Type) := Except Stop α

/-- Stop in front of the given characters. -/
def stopAt {α : Type} (problem : Problem) (text : List Char) : Reading α :=
  .error (.malformed problem text.length)

/-- The characters that may stand between the tokens of a text. -/
def isBlank (c : Char) : Bool :=
  c = ' ' || c = '\t' || c = '\n' || c = '\r'

/-- A text without the blanks in front. -/
def skipBlanks (text : List Char) : List Char :=
  text.dropWhile isBlank

/-- The code unit that four hexadecimal digits spell, and what follows them. -/
def codeUnit? : List Char → Option (Nat × List Char)
  | first :: second :: third :: fourth :: rest => do
      let high := (← Text.hexDigit? first) * 16 + (← Text.hexDigit? second)
      let low := (← Text.hexDigit? third) * 16 + (← Text.hexDigit? fourth)
      pure (high * 256 + low, rest)
  | _ => none

/-- A code unit that opens a pair of surrogates. -/
def isHighSurrogate (unit : Nat) : Bool :=
  0xd800 ≤ unit && unit < 0xdc00

/-- A code unit that closes a pair of surrogates. -/
def isLowSurrogate (unit : Nat) : Bool :=
  0xdc00 ≤ unit && unit < 0xe000

/-- The character of a code unit. A surrogate without its partner has none and is replaced. -/
def unitChar (unit : Nat) : Char :=
  if 0xd800 ≤ unit && unit < 0xe000 then '\ufffd' else Char.ofNat unit

/-- The code unit after an escape that starts in front of the given characters. Another character has
to follow the digits, because the string is not closed yet. -/
def readUnit (text : List Char) : Reading (Nat × List Char) :=
  match codeUnit? text.tail with
  | some (unit, rest) => if rest.isEmpty then stopAt .badCodeUnit text else .ok (unit, rest)
  | none => stopAt .badCodeUnit text

/-- The character that one escaped code unit or a pair of them stands for. A second unit is read only
if the string can still be closed after it, and it is left alone if it does not complete a pair. -/
def readUnicode (text : List Char) : Reading (Char × List Char) := do
  let (unit, rest) ← readUnit text
  match rest with
  | '\\' :: 'u' :: digits =>
      if isHighSurrogate unit && !(digits.drop 4).isEmpty then
        match codeUnit? digits with
        | none => stopAt .badCodeUnit ('u' :: digits)
        | some (second, further) =>
            if isLowSurrogate second then
              pure (Char.ofNat (0x10000 + (unit - 0xd800) * 0x400 + (second - 0xdc00)), further)
            else
              pure (unitChar unit, rest)
      else
        pure (unitChar unit, rest)
  | _ => pure (unitChar unit, rest)

/-- The character after a backslash that stands for another one. -/
def shortEscape? : Char → Option Char
  | '\x22' => some '\x22'
  | '\\' => some '\\'
  | '/' => some '/'
  | 'b' => some '\x08'
  | 'f' => some '\x0c'
  | 'n' => some '\n'
  | 'r' => some '\r'
  | 't' => some '\t'
  | _ => none

/-- The character that an escape stands for. The string starts in front of `opening`, and the escape
after its backslash in front of `text`. -/
def readEscape (opening text : List Char) : Reading (Char × List Char) :=
  match text with
  | [] => stopAt .unterminatedString opening
  | c :: rest =>
      if c = 'u' then
        readUnicode text
      else
        match shortEscape? c with
        | some decoded => .ok (decoded, rest)
        | none => stopAt .badEscape ('\\' :: text)

/-- The characters of a string up to its closing quote, and what follows it. -/
def readBody (opening : List Char) : Nat → List Char → Reading (List Char × List Char)
  | 0, _ => stopAt .unterminatedString opening
  | _ + 1, [] => stopAt .unterminatedString opening
  | bound + 1, c :: rest =>
      if c = '\x22' then
        .ok ([], rest)
      else if c = '\\' then do
        let (decoded, rest) ← readEscape opening rest
        let (body, rest) ← readBody opening bound rest
        pure (decoded :: body, rest)
      else if c < ' ' then
        stopAt .controlCharacter (c :: rest)
      else do
        let (body, rest) ← readBody opening bound rest
        pure (c :: body, rest)

/-- The integer that decimal digits spell. -/
def decimal (maxDigits? : Option Nat) (negative : Bool) (digits : List Char) : Reading Int :=
  if maxDigits?.any fun maxDigits => maxDigits < digits.length then
    .error (.numberTooLong digits.length)
  else
    let magnitude : Int := Nat.ofDigitChars 10 digits 0
    .ok (if negative then -magnitude else magnitude)

/-- An integer and what follows it. -/
def readNumber (maxDigits? : Option Nat) (text : List Char) : Reading (Value × List Char) :=
  let (negative, unsigned) :=
    match text with
    | '-' :: rest => (true, rest)
    | _ => (false, text)
  match unsigned with
  | '0' :: rest => .ok (.int 0, rest)
  | c :: _ =>
      if c.isDigit then do
        let number ← decimal maxDigits? negative (unsigned.takeWhile Char.isDigit)
        pure (.int number, unsigned.dropWhile Char.isDigit)
      else
        stopAt .expectedValue text
  | [] => stopAt .expectedValue text

/-- A word with a fixed meaning, or a number. -/
def readScalar (maxDigits? : Option Nat) : List Char → Reading (Value × List Char)
  | 'n' :: 'u' :: 'l' :: 'l' :: rest => .ok (.null, rest)
  | 't' :: 'r' :: 'u' :: 'e' :: rest => .ok (.bool true, rest)
  | 'f' :: 'a' :: 'l' :: 's' :: 'e' :: rest => .ok (.bool false, rest)
  | text => readNumber maxDigits? text

mutual

/-- A value and what follows it. -/
def readValue (maxDigits? : Option Nat) : Nat → List Char → Reading (Value × List Char)
  | 0, text => stopAt .expectedValue text
  | _ + 1, [] => stopAt .expectedValue []
  | bound + 1, c :: rest =>
      if c = '\x22' then do
        let (body, rest) ← readBody (c :: rest) bound rest
        pure (.str (String.ofList body), rest)
      else if c = '[' then
        match skipBlanks rest with
        | ']' :: rest => .ok (.list [], rest)
        | items => do
            let (values, rest) ← readItems maxDigits? bound items
            pure (.list values, rest)
      else if c = '\x7b' then
        match skipBlanks rest with
        | '\x7d' :: rest => .ok (.dict [], rest)
        | members => do
            let (entries, rest) ← readMembers maxDigits? bound [] members
            pure (.dict entries, rest)
      else
        readScalar maxDigits? (c :: rest)
termination_by structural bound => bound

/-- The items of an array up to its closing bracket, and what follows it. -/
def readItems (maxDigits? : Option Nat) : Nat → List Char → Reading (List Value × List Char)
  | 0, text => stopAt .expectedValue text
  | bound + 1, text => do
      let (value, rest) ← readValue maxDigits? bound text
      match skipBlanks rest with
      | ']' :: rest => pure ([value], rest)
      | ',' :: rest => do
          let (values, rest) ← readItems maxDigits? bound (skipBlanks rest)
          pure (value :: values, rest)
      | rest => stopAt .expectedComma rest
termination_by structural bound => bound

/-- The members of an object up to its closing brace, added to those read before, and what follows
the brace. -/
def readMembers (maxDigits? : Option Nat) :
    Nat → Table Value → List Char → Reading (Table Value × List Char)
  | 0, _, text => stopAt .expectedName text
  | bound + 1, entries, text =>
      match text with
      | '\x22' :: name => do
          let (name, rest) ← readBody text bound name
          match skipBlanks rest with
          | ':' :: rest => do
              let (value, rest) ← readValue maxDigits? bound (skipBlanks rest)
              let entries := Table.insert entries (.str (String.ofList name)) value
              match skipBlanks rest with
              | '\x7d' :: rest => pure (entries, rest)
              | ',' :: rest => readMembers maxDigits? bound entries (skipBlanks rest)
              | rest => stopAt .expectedComma rest
          | rest => stopAt .expectedColon rest
      | _ => stopAt .expectedName text
termination_by structural bound => bound

end

/-- The value of a whole text. -/
def readDocument (maxDigits? : Option Nat) (text : List Char) : Reading Value := do
  if text.head? = some '\ufeff' then
    stopAt .byteOrderMark text
  else
    let (value, rest) ← readValue maxDigits? (2 * text.length + 2) (skipBlanks text)
    match skipBlanks rest with
    | [] => pure value
    | rest => stopAt .extraData rest

/-- The value of a JSON text, in which an integer may have at most so many digits. -/
def read (text : String) (maxDigits? : Option Nat := none) : Result Value :=
  match readDocument maxDigits? text.toList with
  | .ok value => .ok value
  | .error (.malformed problem remaining) =>
      .error (.malformedText
        (.atOffset problem text.toList (text.toList.length - remaining)))
  | .error (.numberTooLong digits) => .error (.numberTextTooLong digits)

end StateSpace.Json
