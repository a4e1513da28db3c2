import StateSpace.Fault
import StateSpace.Text.Hex

/-!
# Writing JSON

The JSON text of a value holds ASCII characters only. Characters outside the Basic Multilingual Plane
are written as a pair of surrogates. Tuples and lists become arrays, dictionaries become objects, and
a symbol is written as its text. Without an indent the text is one line, and with an indent every item
stands on a line of its own.
-/

namespace StateSpace.Json

/-- The escape of a code unit of sixteen bits. -/
def unitEscape (unit : Nat) : List Char :=
  '\\' :: 'u' :: Text.hex 4 unit

/-- One character as it stands in a JSON string. -/
def escaped (c : Char) : List Char :=
  if c = '\x22' ∨ c = '\\' then ['\\', c]
  else if c = '\n' then ['\\', 'n']
  else if c = '\r' then ['\\', 'r']
  else if c = '\t' then ['\\', 't']
  else if c = '\x08' then ['\\', 'b']
  else if c = '\x0c' then ['\\', 'f']
  else if ' ' ≤ c ∧ c ≤ '~' then [c]
  else if c.toNat < 0x10000 then unitEscape c.toNat
  else
    unitEscape (0xd800 + (c.toNat - 0x10000) / 0x400) ++
      unitEscape (0xdc00 + (c.toNat - 0x10000) % 0x400)

/-- A text as a JSON string. -/
def quoted (text : String) : List Char :=
  '\x22' :: text.toList.flatMap escaped ++ ['\x22']

/-- The decimal digits of an integer. -/
def digits (number : Int) : List Char :=
  if number < 0 then
    '-' :: Nat.toDigits 10 number.natAbs
  else
    Nat.toDigits 10 number.natAbs

/-- The name under which a dictionary entry stands in an object. -/
def memberName : Value → Result (List Char)
  | .str text => .ok (quoted text)
  | .symbol constant => .ok (quoted constant.text)
  | .null => .ok (quoted "null")
  | .bool flag => .ok (quoted (if flag then "true" else "false"))
  | .int number => .ok (quoted (String.ofList (digits number)))
  | key => .error (.badObjectKey key.kind)

/-- How a text is laid out: on one line, or with so many blanks for each level of nesting. -/
abbrev Layout := Option Nat

namespace Layout

/-- The layout for an indent. A negative indent counts as zero. -/
def ofIndent (indent? : Option Int) : Layout :=
  indent?.map Int.toNat

/-- The break before an item at a level of nesting. -/
def lineBreak (layout : Layout) (level : Nat) : List Char :=
  match layout with
  | none => []
  | some width => '\n' :: List.replicate (width * level) ' '

/-- What stands between two items at a level of nesting. -/
def separator (layout : Layout) (level : Nat) : List Char :=
  match layout with
  | none => [',', ' ']
  | some _ => ',' :: layout.lineBreak level

/-- Items enclosed in brackets, the items one level deeper than the brackets. -/
def enclose (layout : Layout) (level : Nat) (opening closing : Char) :
    List (List Char) → List Char
  | [] => [opening, closing]
  | items =>
      opening :: layout.lineBreak (level + 1) ++
        List.intercalate (layout.separator (level + 1)) items ++
        layout.lineBreak level ++ [closing]

end Layout

mutual

/-- The characters of a value at a level of nesting. -/
def writeAt (layout : Layout) (level : Nat) : Value → Result (List Char)
  | .null => .ok ['n', 'u', 'l', 'l']
  | .bool flag => .ok (if flag then ['t', 'r', 'u', 'e'] else ['f', 'a', 'l', 's', 'e'])
  | .int number => .ok (digits number)
  | .str text => .ok (quoted text)
  | .symbol constant => .ok (quoted constant.text)
  | .tuple items => do
      pure (layout.enclose level '[' ']' (← writeItems layout (level + 1) items))
  | .list items => do
      pure (layout.enclose level '[' ']' (← writeItems layout (level + 1) items))
  | .dict entries => do
      pure (layout.enclose level '\x7b' '\x7d' (← writeMembers layout (level + 1) entries))
  | .state _ => .error (.notSerializable "ProgramState")
  | .atLocation _ => .error (.notSerializable "AtLocation")
  | .set _ => .error (.notSerializable "frozenset")
  | .programLabel _ _ => .error (.notSerializable "ProgramLabel")
  | .cell _ => .error (.notSerializable "dict")
termination_by structural value => value

/-- The characters of each item of a list. -/
def writeItems (layout : Layout) (level : Nat) : List Value → Result (List (List Char))
  | [] => .ok []
  | item :: items => do
      let first ← writeAt layout level item
      pure (first :: (← writeItems layout level items))
termination_by structural items => items

/-- The characters of a dictionary entry. -/
def writeMember (layout : Layout) (level : Nat) : Value × Value → Result (List Char)
  | (key, value) => do
      let name ← memberName key
      pure (name ++ ':' :: ' ' :: (← writeAt layout level value))
termination_by structural entry => entry

/-- The characters of each entry of a dictionary. -/
def writeMembers (layout : Layout) (level : Nat) : List (Value × Value) → Result (List (List Char))
  | [] => .ok []
  | entry :: entries => do
      let first ← writeMember layout level entry
      pure (first :: (← writeMembers layout level entries))
termination_by structural entries => entries

end

/-- The JSON text of a value. -/
def write (value : Value) (layout : Layout := none) : Result String := do
  pure (String.ofList (← writeAt layout 0 value))

end StateSpace.Json
