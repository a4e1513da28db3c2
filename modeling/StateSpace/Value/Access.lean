import StateSpace.Table

/-!
# Access to the parts of values

Operations that look into a value whose kind is not known in advance: its items in order, its
components when it is a pair, the part found under an index or key, its size and its members. Each
reports the kind of value that does not support it.
-/

namespace StateSpace

namespace Value

/-- The single characters of a text, each as a text. -/
def characters (text : String) : List Value :=
  text.toList.map fun c => .str c.toString

/-- The items of a value in order. A text has its characters and a mapping its keys. -/
def items? : Value → Option (List Value)
  | .tuple items => some items
  | .list items => some items
  | .str text => some (characters text)
  | .symbol constant => some (characters constant.text)
  | .dict entries => some (entries.map Prod.fst)
  | .state entries => some (entries.map Prod.fst)
  | .set members => some members
  | _ => none

/-- The items of a value that can be walked through. -/
def elements (value : Value) : Result (List Value) :=
  match value.items? with
  | some items => .ok items
  | none => .error (.notIterable value.kind)

/-- The components of a value with exactly two items. -/
def asPair (value : Value) : Result (Value × Value) :=
  match value.items? with
  | none => .error (.notUnpackable value.kind)
  | some [first, second] => .ok (first, second)
  | some items =>
      if items.length < 2 then .error (.tooFewItems items.length) else .error .tooManyItems

/-- Whether a number can be a position: it fits into a signed machine word. -/
def isPosition (number : Int) : Bool :=
  -(Int.pow 2 63) ≤ number && number < Int.pow 2 63

/-- The item at a position, where negative positions count from the end. -/
def itemAt (container : String) (items : List Value) (index : Value) : Result Value :=
  match index.asInt? with
  | none => .error (.badSubscript container index.kind)
  | some position =>
      if !isPosition position then .error .subscriptTooLarge else
      let offset := if position < 0 then position + items.length else position
      if offset < 0 then
        .error (.subscriptOutOfRange container)
      else
        match items[offset.toNat]? with
        | some item => .ok item
        | none => .error (.subscriptOutOfRange container)

/-- The part of a value found under a key or at a position. -/
def item (container index : Value) : Result Value :=
  match container with
  | .dict entries => do
      match ← Table.lookup entries index with
      | some value => pure value
      | none => throw (.missingKey index)
  | .state entries => do
      match ← Table.lookup entries index with
      | some value => pure value
      | none => throw (.missingVariable index (entries.map Prod.fst))
  | .tuple items => itemAt "tuple" items index
  | .list items => itemAt "list" items index
  | .str text => itemAt "string" (characters text) index
  | .symbol constant => itemAt "string" (characters constant.text) index
  | other => .error (.notSubscriptable other.kind)

/-- The entries of a mapping on which an operation is asked for. -/
def entriesFor (operation : String) : Value → Result (Table Value)
  | .dict entries => .ok entries
  | .state entries => .ok entries
  | other => .error (.withoutOperation other.kind operation)

/-- Succeeds on the values in which a part can be looked up with a default. -/
def requireMapping : Value → Result Unit
  | .dict _ => .ok ()
  | .state _ => .ok ()
  | other => .error (.withoutOperation other.kind "get")

/-- The part of a mapping found under a key, or a default. -/
def itemD (container index fallback : Value) : Result Value :=
  match container with
  | .dict entries => do pure ((← Table.lookup entries index).getD fallback)
  | .state entries => do pure ((← Table.lookup entries index).getD fallback)
  | other => .error (.withoutOperation other.kind "get")

/-- The entries of a sequence of pairs from a position on, added to a table. -/
def tableOfPairs (table : Table Value) (position : Nat) : List Value → Result (Table Value)
  | [] => .ok table
  | pair :: pairs => do
      match pair.items? with
      | none => throw (.itemNotPair position)
      | some [key, value] => do
          key.requireHashable
          tableOfPairs (table.insert key value) (position + 1) pairs
      | some items => throw (.itemOfLength position items.length)

/-- A table with the entries of a value added: those of a mapping, or the pairs of a sequence. -/
def mergeInto (table : Table Value) : Value → Result (Table Value)
  | .dict entries => .ok (table.merge entries)
  | .state entries => .ok (table.merge entries)
  | other => do tableOfPairs table 0 (← other.elements)

/-- The number of items of a value. -/
def size (value : Value) : Result Nat :=
  match value.items? with
  | some items => .ok items.length
  | none => .error (.withoutLength value.kind)

/-- Whether one sequence of characters occurs in another. -/
def occursIn (part : List Char) : List Char → Bool
  | [] => part.isEmpty
  | c :: rest => part.isPrefixOf (c :: rest) || occursIn part rest

/-- Whether a value is a member of another. A mapping has its keys as members, a text its parts, and a
program label the location propositions that are true of it. -/
def hasMember (container member : Value) : Result Bool :=
  match container with
  | .tuple items => .ok (member.isIn items)
  | .list items => .ok (member.isIn items)
  | .set members => do
      member.requireHashable
      pure (member.isIn members)
  | .dict entries => do pure (← Table.lookup entries member).isSome
  | .state entries => do pure (← Table.lookup entries member).isSome
  | .programLabel location _ =>
      match member with
      | .atLocation place => .ok (place == location)
      | other => .error (.foreignProposition other.kind)
  | .str text => hasPart text member
  | .symbol constant => hasPart constant.text member
  | other => .error (.withoutMembers other.kind)
where
  hasPart (text : String) (member : Value) : Result Bool :=
    match member.asText? with
    | some part => .ok (occursIn part.toList text.toList)
    | none => .error (.memberNotText member.kind)

end Value

end StateSpace
