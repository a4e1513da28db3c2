import StateSpace.Json.Writer
import StateSpace.Label

/-!
# Tagged notation

A notation for values in plain JSON data that keeps all kinds apart. A tuple is written as an array,
and every other kind that JSON does not have is an object with one member, whose name is the tag. The
members of a set are written in ascending order of their literals.
-/

namespace StateSpace.Tagged

/-- An object with one member. -/
def tagged (tag : String) (body : Value) : Value :=
  .dict [(.str tag, body)]

/-- The tag of a family of symbols. -/
def symbolTag (family : String) : String :=
  "$" ++ family.toLower

/-- The one-line JSON text of plain data. -/
def plainText (value : Value) : String :=
  match Json.write value with
  | .ok text => text
  | .error _ => ""

/-- Members of a set in ascending order of their literals and then of their JSON texts. -/
def inOrder (members : List (String × Value)) : List Value :=
  let keyed := members.map fun (literal, body) => ((literal, plainText body), body)
  (keyed.mergeSort fun left right =>
    left.1.1 < right.1.1 || (left.1.1 == right.1.1 && left.1.2 ≤ right.1.2)).map Prod.snd

mutual

/-- A value in tagged notation. -/
def write : Value → Value
  | .null => .null
  | .bool flag => .bool flag
  | .int number => .int number
  | .str text => .str text
  | .symbol constant => tagged (symbolTag constant.family) (.str constant.text)
  | .tuple items => .list (writeItems items)
  | .list items => tagged "$list" (.list (writeItems items))
  | .dict entries => tagged "$dict" (.list (writeEntries entries))
  | .state entries => tagged "$state" (.list (writeEntries entries))
  | .atLocation location => tagged "$at" (write location)
  | .set members => tagged "$set" (.list (inOrder (writeMembers members)))
  | .programLabel location assignment =>
      tagged "$label" (.list [write location, write assignment])
  | .cell _ => tagged "$dict" (.list [])
termination_by structural value => value

/-- Each item of a list in tagged notation. -/
def writeItems : List Value → List Value
  | [] => []
  | item :: items => write item :: writeItems items
termination_by structural items => items

/-- Each member of a set in tagged notation, with its literal. -/
def writeMembers : List Value → List (String × Value)
  | [] => []
  | member :: members => (member.literal, write member) :: writeMembers members
termination_by structural members => members

/-- An entry as an array of its key and value. -/
def writeEntry : Value × Value → Value
  | (key, value) => .list [write key, write value]
termination_by structural entry => entry

/-- Each entry of a mapping as an array. -/
def writeEntries : List (Value × Value) → List Value
  | [] => []
  | entry :: entries => writeEntry entry :: writeEntries entries
termination_by structural entries => entries

end

/-- An atomic proposition in tagged notation. A condition is written by its literal. -/
def writeAtom {m : Type → Type} : Atom m → Value
  | .plain value => write value
  | .holds condition => tagged "$holds" (.str condition.title)

/-- A set of atomic propositions in tagged notation. -/
def writeAtoms {m : Type → Type} (atoms : List (Atom m)) : Value :=
  tagged "$set" (.list (inOrder (atoms.map fun atom => (atom.literal, writeAtom atom))))

/-- The symbol with a tag and a text. -/
def readSymbol (symbols : List Symbol) (tag : String) (text : Value) : Result Value :=
  match symbols.filter fun symbol => symbolTag symbol.family == tag with
  | [] => .error .unknownTag
  | first :: rest =>
      match (first :: rest).find? fun symbol => text == .str symbol.text with
      | some symbol => .ok (.symbol symbol)
      | none => .error (.noSuchSymbol first.family text)

/-- A table with the entry of a pair added, whose parts are plain. -/
def addPair (table : Table Value) (pair : Value) : Result (Table Value) := do
  let (key, value) ← pair.asPair
  pure (table.insert key value)

mutual

/-- The value that is written in tagged notation, with symbols among the given ones. -/
def read (symbols : List Symbol) : Value → Result Value
  | .list items => do pure (.tuple (← readItems symbols items))
  | .dict entries => readObject symbols entries
  | value => .ok value
termination_by structural value => value

/-- The values of each item of an array. -/
def readItems (symbols : List Symbol) : List Value → Result (List Value)
  | [] => .ok []
  | item :: items => do
      let first ← read symbols item
      pure (first :: (← readItems symbols items))
termination_by structural items => items

/-- The value of an object with one member. -/
def readObject (symbols : List Symbol) : List (Value × Value) → Result Value
  | [] => .error .unknownTag
  | entry :: entries => if entries.isEmpty then readMember symbols entry else .error .unknownTag
termination_by structural entries => entries

/-- The value of the only member of an object. -/
def readMember (symbols : List Symbol) : Value × Value → Result Value
  | (tag, body) =>
      match tag.asText?.getD "" with
      | "$list" => do pure (.list (← readSequence symbols body))
      | "$dict" => do pure (.dict (← readTable symbols body))
      | "$state" => do pure (.state (← readTable symbols body))
      | "$at" => do pure (.atLocation (← read symbols body))
      | tag => readSymbol symbols tag body
termination_by structural entry => entry

/-- The values of the items of an array. The items of other data are texts. -/
def readSequence (symbols : List Symbol) : Value → Result (List Value)
  | .list items => readItems symbols items
  | other => other.elements
termination_by structural value => value

/-- The table of an array of entries. The items of other data are texts. -/
def readTable (symbols : List Symbol) : Value → Result (Table Value)
  | .list items => readEntries symbols [] items
  | other => do (← other.elements).foldlM addPair []
termination_by structural value => value

/-- The table of a list of entries, added to those read before. -/
def readEntries (symbols : List Symbol) (table : Table Value) : List Value → Result (Table Value)
  | [] => .ok table
  | item :: items => do
      let _ ← item.asPair
      let (key, value) ← (Value.list (← readSequence symbols item)).asPair
      key.requireHashable
      readEntries symbols (table.insert key value) items
termination_by structural items => items

end

end StateSpace.Tagged
