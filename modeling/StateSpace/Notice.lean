import StateSpace.Value.Literal

/-!
# Notices

The library reports what it has done as data. A notice has a level and a text, and whoever runs a
search decides what to do with it. What a check has found is worded before it is given, so a check
fails where a notice of it has no printed form.
-/

namespace StateSpace

/-- How important a notice is. -/
inductive Level where
  | debug
  | info
  | warning
  deriving DecidableEq, Inhabited, Repr

/-- The name of a level. -/
def Level.name : Level → String
  | .debug => "DEBUG"
  | .info => "INFO"
  | .warning => "WARNING"

/-- Something the library has done. -/
inductive Notice where
  /-- A program graph was compiled. -/
  | compiled (initialStates : Nat)
  /-- A search has expanded every reachable state. -/
  | exhausted (expanded : Nat)
  /-- A graph was cut off at its bound. -/
  | truncated (bound : String)
  /-- An invariant fails in a state, and depends on the listed atomic propositions. -/
  | violated (property : String) (state : Value) (steps checked : Nat) (atoms : List String)
  /-- An invariant holds in every reachable state. -/
  | invariant (property : String) (checked : Nat)
  /-- Some of several named invariants fail. -/
  | violatedAmong (names : List Value) (total : Nat)
  deriving Inhabited, Repr

namespace Notice

/-- The level of a notice. -/
def level : Notice → Level
  | .compiled _ => .debug
  | .exhausted _ => .debug
  | .truncated _ => .warning
  | .violated .. => .info
  | .invariant .. => .debug
  | .violatedAmong .. => .info

/-- The atomic propositions at the end of a notice, if there are any. -/
def atomSuffix : List String → String
  | [] => ""
  | atoms => "; atoms: " ++ ", ".intercalate atoms

/-- The text of a notice. -/
def text : Notice → String
  | .compiled initialStates =>
      "Compiled program graph with " ++ toString initialStates ++ " initial states"
  | .exhausted expanded => "Search exhausted after expanding " ++ toString expanded ++ " states"
  | .truncated bound => "Reachability graph truncated at " ++ bound ++ " states"
  | .violated property state steps checked atoms =>
      "Invariant " ++ property ++ " violated in state " ++ state.literal ++ " after " ++
        toString steps ++ " steps (" ++ toString checked ++ " states checked)" ++ atomSuffix atoms
  | .invariant property checked =>
      "Invariant " ++ property ++ " holds in all " ++ toString checked ++ " reachable states"
  | .violatedAmong names total =>
      toString names.length ++ "/" ++ toString total ++ " invariants violated: " ++
        (Value.list names).literal

end Notice

end StateSpace
