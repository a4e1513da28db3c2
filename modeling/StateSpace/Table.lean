import StateSpace.Value.Hashable

/-!
# Tables

A table maps keys to values of any type and remembers the order in which its keys were first
inserted. Keys are compared by equality of values. Inserting a key that equals a present one keeps
the present key and replaces what it maps to.
-/

namespace StateSpace

/-- Entries in order of first insertion. -/
abbrev Table (α : Type) := List (Value × α)

namespace Table

variable {α β : Type}

/-- The keys in order of first insertion. -/
def keys (table : Table α) : List Value :=
  table.map Prod.fst

/-- What a key maps to. -/
def find? (table : Table α) (key : Value) : Option α :=
  match table with
  | [] => none
  | (present, value) :: rest => if present == key then some value else find? rest key

/-- Whether a key is present. -/
def has (table : Table α) (key : Value) : Bool :=
  table.any fun entry => entry.1 == key

/-- Map a key to a value. -/
def insert (table : Table α) (key : Value) (value : α) : Table α :=
  match table with
  | [] => [(key, value)]
  | (present, old) :: rest =>
      if present == key then (present, value) :: rest else (present, old) :: insert rest key value

/-- Insert the entries of a second table in order, so that those win. -/
def merge (table changes : Table α) : Table α :=
  changes.foldl (fun merged entry => merged.insert entry.1 entry.2) table

/-- The table of a list of entries, if all keys may be keys. -/
def ofPairs (entries : List (Value × α)) : Result (Table α) :=
  entries.foldlM (fun table entry => do
    entry.1.requireHashable
    pure (table.insert entry.1 entry.2)) []

/-- What a key maps to, if the value looked up may be a key. -/
def lookup (table : Table α) (key : Value) : Result (Option α) := do
  key.requireHashable
  pure (table.find? key)

end Table

end StateSpace
