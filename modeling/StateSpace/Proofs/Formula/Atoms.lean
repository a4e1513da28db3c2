import StateSpace.Proofs.Formula

/-!
# The atomic propositions of a formula

The propositions of a formula are collected into a set, which keeps one of several equal propositions and
refuses a proposition that may not be a key. `Formula.occurrences` lists all of them as they are met from left
to right. The set holds the first of each group of equal ones (`Formula.atoms_of_overKeys`), and there is such
a set exactly if every proposition may be a key and no node is user-defined (`Formula.exists_atoms_iff`).

Conditions on program states are compared by their identities. A `Naming` says what identities stand for, so
that conditions with one identity are the same.
-/

namespace StateSpace

namespace Atom

variable {m : Type → Type}

theorem beq_plain_iff {value : Value} {other : Atom m} :
    (plain value == other) = true ↔ ∃ value', other = .plain value' ∧ (value == value') = true := by
  cases other with
  | plain value' =>
      constructor
      · intro equal
        exact ⟨value', rfl, equal⟩
      · rintro ⟨_, ⟨rfl⟩, equal⟩
        exact equal
  | holds condition =>
      constructor
      · intro equal
        cases equal
      · rintro ⟨_, ⟨⟩, _⟩

theorem beq_holds_iff {condition : Routine m} {other : Atom m} :
    (holds condition == other) = true ↔
      ∃ condition', other = .holds condition' ∧ condition.identity = condition'.identity := by
  cases other with
  | plain value =>
      constructor
      · intro equal
        cases equal
      · rintro ⟨_, ⟨⟩, _⟩
  | holds condition' =>
      constructor
      · intro equal
        have same : (condition.identity == condition'.identity) = true := equal
        exact ⟨condition', rfl, eq_of_beq same⟩
      · rintro ⟨_, ⟨rfl⟩, same⟩
        change (condition.identity == condition'.identity) = true
        exact beq_iff_eq.mpr same

instance : EquivBEq (Atom m) where
  rfl {atom} := by
    cases atom with
    | plain value => exact beq_plain_iff.mpr ⟨value, rfl, BEq.rfl⟩
    | holds condition => exact beq_holds_iff.mpr ⟨condition, rfl, rfl⟩
  symm {atom other} equal := by
    cases atom with
    | plain value =>
        rcases beq_plain_iff.mp equal with ⟨value', rfl, same⟩
        exact beq_plain_iff.mpr ⟨value, rfl, BEq.symm same⟩
    | holds condition =>
        rcases beq_holds_iff.mp equal with ⟨condition', rfl, same⟩
        exact beq_holds_iff.mpr ⟨condition, rfl, same.symm⟩
  trans {atom middle last} left right := by
    cases atom with
    | plain value =>
        rcases beq_plain_iff.mp left with ⟨value', rfl, same⟩
        rcases beq_plain_iff.mp right with ⟨value'', rfl, same'⟩
        exact beq_plain_iff.mpr ⟨value'', rfl, BEq.trans same same'⟩
    | holds condition =>
        rcases beq_holds_iff.mp left with ⟨condition', rfl, same⟩
        rcases beq_holds_iff.mp right with ⟨condition'', rfl, same'⟩
        exact beq_holds_iff.mpr ⟨condition'', rfl, same.trans same'⟩

theorem isIn_iff {atom : Atom m} {atoms : List (Atom m)} :
    atom.isIn atoms = true ↔ ∃ other ∈ atoms, (other == atom) = true := by
  simp [isIn]

theorem isIn_of_mem {atom : Atom m} {atoms : List (Atom m)} (mem : atom ∈ atoms) :
    atom.isIn atoms = true :=
  isIn_iff.mpr ⟨atom, mem, BEq.rfl⟩

/-- A list holds the first of each group of equal propositions of another list, and nothing else. -/
structure Represents (distinct atoms : List (Atom m)) : Prop where
  sublist : distinct.Sublist atoms
  unequal : distinct.Pairwise fun atom other => (atom == other) = false
  covers : ∀ atom ∈ atoms, atom.isIn distinct = true
  first : ∀ before atom after, atoms = before ++ atom :: after → atom.isIn before = false → atom ∈ distinct

/-- The set of a list keeps the first of each group of equal propositions. -/
theorem represents_unite (atoms : List (Atom m)) : Represents (unite [] atoms) atoms where
  sublist := by
    rcases exists_unite_eq [] atoms with ⟨fresh, united, sublist⟩
    rw [united]
    exact sublist
  unequal := pairwise_unite .nil atoms
  covers := by
    intro atom atom_mem
    rw [isIn, any_unite]
    exact isIn_of_mem atom_mem
  first := by
    rintro before atom after rfl fresh
    have absent : ((unite [] before).any fun other => other == atom) = false := by
      rw [any_unite]
      exact fresh
    rw [unite_append, unite_cons, absent, if_neg Bool.false_ne_true]
    rcases exists_unite_eq (unite [] before ++ [atom]) after with ⟨later, united, _⟩
    rw [united]
    simp

theorem category_of_requireHashable {atom : Atom m} {fault : Fault}
    (refused : atom.requireHashable = .error fault) : fault.category = .type := by
  cases atom with
  | holds condition => cases refused
  | plain value =>
      change value.requireHashable = .error fault at refused
      unfold Value.requireHashable at refused
      split at refused
      · cases refused
        rfl
      · cases refused

end Atom

/-- The routines and the user-defined nodes that identities name. -/
structure Naming (m : Type → Type) where
  routine : Identity → Routine m
  node : Identity → CustomNode m

/-- A condition in a proposition is the routine that its identity names. -/
def Atom.NamedBy {m : Type → Type} (naming : Naming m) : Atom m → Prop
  | .plain _ => True
  | .holds condition => naming.routine condition.identity = condition

theorem Atom.NamedBy.condition_eq {m : Type → Type} {naming : Naming m} {condition condition' : Routine m}
    (named : (Atom.holds condition).NamedBy naming) (named' : (Atom.holds condition').NamedBy naming)
    (same : condition.identity = condition'.identity) : condition = condition' := by
  have ofFirst : naming.routine condition.identity = condition := named
  have ofSecond : naming.routine condition'.identity = condition' := named'
  rw [← ofFirst, ← ofSecond, same]

namespace Formula

variable {m : Type → Type}

/-- Every routine and every user-defined node in a formula is the one that its identity names. -/
def NamedBy (naming : Naming m) : Formula m → Prop
  | .truth => True
  | .falsity => True
  | .atomic atom => atom.NamedBy naming
  | .not body => body.NamedBy naming
  | .and left right => left.NamedBy naming ∧ right.NamedBy naming
  | .or left right => left.NamedBy naming ∧ right.NamedBy naming
  | .implies left right => left.NamedBy naming ∧ right.NamedBy naming
  | .custom node => naming.node node.identity = node

/-- The atomic propositions of a formula from left to right. -/
def occurrences : Formula m → List (Atom m)
  | .truth => []
  | .falsity => []
  | .atomic atom => [atom]
  | .not body => body.occurrences
  | .and left right => left.occurrences ++ right.occurrences
  | .or left right => left.occurrences ++ right.occurrences
  | .implies left right => left.occurrences ++ right.occurrences
  | .custom _ => []

/-- The user-defined nodes of a formula from left to right. -/
def nodes : Formula m → List (CustomNode m)
  | .truth => []
  | .falsity => []
  | .atomic _ => []
  | .not body => body.nodes
  | .and left right => left.nodes ++ right.nodes
  | .or left right => left.nodes ++ right.nodes
  | .implies left right => left.nodes ++ right.nodes
  | .custom node => [node]

theorem overKeys_iff {formula : Formula m} :
    formula.OverKeys ↔
      formula.nodes = [] ∧ ∀ atom ∈ formula.occurrences, atom.requireHashable = .ok () := by
  induction formula with
  | truth => simp [OverKeys, nodes, occurrences]
  | falsity => simp [OverKeys, nodes, occurrences]
  | atomic atom => simp [OverKeys, nodes, occurrences]
  | not body ih => exact ih
  | and left right ihLeft ihRight =>
      simp only [OverKeys, nodes, occurrences, ihLeft, ihRight, List.append_eq_nil_iff, List.forall_mem_append]
      exact and_and_and_comm
  | or left right ihLeft ihRight =>
      simp only [OverKeys, nodes, occurrences, ihLeft, ihRight, List.append_eq_nil_iff, List.forall_mem_append]
      exact and_and_and_comm
  | implies left right ihLeft ihRight =>
      simp only [OverKeys, nodes, occurrences, ihLeft, ihRight, List.append_eq_nil_iff, List.forall_mem_append]
      exact and_and_and_comm
  | custom node => simp [OverKeys, nodes]

theorem NamedBy.of_mem {naming : Naming m} {formula : Formula m} (named : formula.NamedBy naming) :
    ∀ atom ∈ formula.occurrences, atom.NamedBy naming := by
  induction formula with
  | truth => simp [occurrences]
  | falsity => simp [occurrences]
  | atomic atom => exact List.forall_mem_singleton.mpr named
  | not body ih => exact ih named
  | and left right ihLeft ihRight => exact List.forall_mem_append.mpr ⟨ihLeft named.1, ihRight named.2⟩
  | or left right ihLeft ihRight => exact List.forall_mem_append.mpr ⟨ihLeft named.1, ihRight named.2⟩
  | implies left right ihLeft ihRight => exact List.forall_mem_append.mpr ⟨ihLeft named.1, ihRight named.2⟩
  | custom node => simp [occurrences]

/-! ### Collecting the propositions -/

theorem atoms_of_overKeys {formula : Formula m} (overKeys : formula.OverKeys) :
    formula.atoms = .ok (unite [] formula.occurrences) := by
  induction formula with
  | truth => rfl
  | falsity => rfl
  | atomic atom =>
      have hashable : atom.requireHashable = .ok () := overKeys
      rw [atoms, hashable]
      rfl
  | not body ih => exact ih overKeys
  | and left right ihLeft ihRight =>
      rw [atoms, ihLeft overKeys.1, ihRight overKeys.2, occurrences, ← unite_unite_nil]
      rfl
  | or left right ihLeft ihRight =>
      rw [atoms, ihLeft overKeys.1, ihRight overKeys.2, occurrences, ← unite_unite_nil]
      rfl
  | implies left right ihLeft ihRight =>
      rw [atoms, ihLeft overKeys.1, ihRight overKeys.2, occurrences, ← unite_unite_nil]
      rfl
  | custom node => exact overKeys.elim

theorem both_of_united {left right : Result (List (Atom m))} {collected : List (Atom m)}
    (united : (do
      let leftAtoms ← left
      pure (unite leftAtoms (← right))) = .ok collected) :
    (∃ ofLeft, left = .ok ofLeft) ∧ ∃ ofRight, right = .ok ofRight := by
  rcases Result.bind_eq_ok_iff.mp united with ⟨leftAtoms, ofLeft, rest⟩
  rcases Result.bind_eq_ok_iff.mp rest with ⟨rightAtoms, ofRight, _⟩
  exact ⟨⟨leftAtoms, ofLeft⟩, rightAtoms, ofRight⟩

theorem overKeys_of_atoms {formula : Formula m} {collected : List (Atom m)}
    (collects : formula.atoms = .ok collected) : formula.OverKeys := by
  induction formula generalizing collected with
  | truth => trivial
  | falsity => trivial
  | atomic atom =>
      rcases Result.bind_eq_ok_iff.mp collects with ⟨_, hashable, _⟩
      exact hashable
  | not body ih => exact ih collects
  | and left right ihLeft ihRight =>
      rcases both_of_united collects with ⟨⟨_, ofLeft⟩, _, ofRight⟩
      exact ⟨ihLeft ofLeft, ihRight ofRight⟩
  | or left right ihLeft ihRight =>
      rcases both_of_united collects with ⟨⟨_, ofLeft⟩, _, ofRight⟩
      exact ⟨ihLeft ofLeft, ihRight ofRight⟩
  | implies left right ihLeft ihRight =>
      rcases both_of_united collects with ⟨⟨_, ofLeft⟩, _, ofRight⟩
      exact ⟨ihLeft ofLeft, ihRight ofRight⟩
  | custom node => cases collects

/-- The propositions of a formula can be collected exactly if it is one over keys. -/
theorem exists_atoms_iff {formula : Formula m} :
    (∃ collected, formula.atoms = .ok collected) ↔ formula.OverKeys := by
  constructor
  · rintro ⟨collected, collects⟩
    exact overKeys_of_atoms collects
  · intro overKeys
    exact ⟨_, atoms_of_overKeys overKeys⟩

theorem category_of_united {left right : Result (List (Atom m))} {fault : Fault}
    (failed : (do
      let leftAtoms ← left
      pure (unite leftAtoms (← right))) = .error fault)
    (ofLeft : left = .error fault → fault.category = .type)
    (ofRight : right = .error fault → fault.category = .type) : fault.category = .type := by
  rcases Result.bind_eq_error_iff.mp failed with leftFailed | ⟨_, _, rest⟩
  · exact ofLeft leftFailed
  · rcases Result.bind_eq_error_iff.mp rest with rightFailed | ⟨_, _, united⟩
    · exact ofRight rightFailed
    · cases united

theorem category_of_atoms {formula : Formula m} {fault : Fault} (failed : formula.atoms = .error fault) :
    fault.category = .type := by
  induction formula with
  | truth => cases failed
  | falsity => cases failed
  | atomic atom =>
      rcases Result.bind_eq_error_iff.mp failed with refused | ⟨_, _, collected⟩
      · exact Atom.category_of_requireHashable refused
      · cases collected
  | not body ih => exact ih failed
  | and left right ihLeft ihRight => exact category_of_united failed ihLeft ihRight
  | or left right ihLeft ihRight => exact category_of_united failed ihLeft ihRight
  | implies left right ihLeft ihRight => exact category_of_united failed ihLeft ihRight
  | custom node =>
      cases failed
      rfl

theorem atoms_of_not_overKeys {formula : Formula m} (not_overKeys : ¬formula.OverKeys) :
    ∃ fault, formula.atoms = .error fault ∧ fault.category = .type := by
  cases collects : formula.atoms with
  | ok collected => exact absurd (exists_atoms_iff.mp ⟨collected, collects⟩) not_overKeys
  | error fault => exact ⟨fault, rfl, category_of_atoms collects⟩

end Formula

end StateSpace
