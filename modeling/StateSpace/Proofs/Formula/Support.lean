import StateSpace.Proofs.Formula.Atoms

/-!
# The support of a formula

The value of a formula depends on a label only through the propositions that are collected from the formula.
These need not be all that the evaluation asks for, because one of several equal propositions stands for all of
them, and equal propositions need not be the same: one may name a location by a truth value where another has
a number. A label answers alike for both, up to the wording of a fault (`Label.holds_of_beq`). So two labels
that answer alike for the proposition that was collected do so for all that it stands for, and by induction
they give the formula the same value or the same fault.
-/

namespace StateSpace

namespace Value

theorem hasMember_programLabel_of_foreign {value : Value} (foreign : ¬∃ place, value = .atLocation place)
    (location assignment : Value) :
    (programLabel location assignment).hasMember value = .error (.foreignProposition value.kind) := by
  cases value with
  | atLocation place => exact absurd ⟨place, rfl⟩ foreign
  | _ => rfl

/-- The label of a program has one answer for equal values, or refuses both and names the kind of each. -/
theorem hasMember_programLabel_cases {value other : Value} (equal : (value == other) = true)
    (location assignment : Value) :
    (∃ answer, (programLabel location assignment).hasMember value = .ok answer ∧
        (programLabel location assignment).hasMember other = .ok answer) ∨
      (programLabel location assignment).hasMember value = .error (.foreignProposition value.kind) ∧
        (programLabel location assignment).hasMember other = .error (.foreignProposition other.kind) := by
  by_cases placed : ∃ place, value = .atLocation place
  · rcases placed with ⟨place, rfl⟩
    rcases (beq_atLocation_iff place other).mp equal with ⟨place', rfl, same⟩
    have answer : (place' == location) = (place == location) := BEq.congr_left (BEq.symm same)
    exact .inl ⟨place == location, rfl, congrArg Except.ok answer⟩
  · have foreign : ¬∃ place, other = .atLocation place := by
      rintro ⟨place, rfl⟩
      rcases (beq_atLocation_iff place value).mp (BEq.symm equal) with ⟨place', value_eq, _⟩
      exact placed ⟨place', value_eq⟩
    exact .inr ⟨hasMember_programLabel_of_foreign placed location assignment,
      hasMember_programLabel_of_foreign foreign location assignment⟩

end Value

namespace Label

theorem holds_plain (label : Label) (value : Value) :
    (label.holds (.plain value) : Result Bool) = label.toValue.hasMember value := by
  cases label <;> rfl

/-- A label answers alike for equal propositions that may be keys. If it refuses them, it names the kind of
each. -/
theorem holds_of_beq (label : Label) {value other : Value} (hashable : value.IsHashable)
    (equal : (value == other) = true) :
    (label.holds (.plain other) : Result Bool) =
      (label.holds (.plain value) : Result Bool).mapError fun _ => .foreignProposition other.kind := by
  rw [holds_plain, holds_plain]
  cases label with
  | set members =>
      have accepted := Value.requireHashable_eq_ok_iff.mpr hashable
      have accepted' := Value.requireHashable_eq_ok_iff.mpr (hashable.of_beq equal)
      simp only [toValue, Value.hasMember, accepted, accepted', Result.ok_bind, Value.isIn_congr equal]
      rfl
  | list members =>
      simp only [toValue, Value.hasMember, Value.isIn_congr equal]
      rfl
  | program location assignment =>
      rcases Value.hasMember_programLabel_cases equal location assignment with
        ⟨answer, answered, answered'⟩ | ⟨refused, refused'⟩
      · rw [toValue, answered, answered']
        rfl
      · rw [toValue, refused, refused']
        rfl

end Label

namespace Formula

/-- Labels that answer alike for a proposition do so for an equal one. -/
theorem holds_eq_of_beq {naming : Naming Result} {atom other : Atom Result} (named : atom.NamedBy naming)
    (named' : other.NamedBy naming) (accepted : atom.requireHashable = .ok ())
    (equal : (atom == other) = true) {label label' : Label}
    (same : label.holds atom = label'.holds atom) : label.holds other = label'.holds other := by
  cases atom with
  | plain value =>
      rcases Atom.beq_plain_iff.mp equal with ⟨value', rfl, sameValue⟩
      have hashable : value.IsHashable := Value.requireHashable_eq_ok_iff.mp accepted
      rw [label.holds_of_beq hashable sameValue, label'.holds_of_beq hashable sameValue, same]
  | holds condition =>
      rcases Atom.beq_holds_iff.mp equal with ⟨condition', rfl, sameIdentity⟩
      rw [← named.condition_eq named' sameIdentity]
      exact same

theorem evaluate_eq_of_holds_eq {formula : Formula Result} (overKeys : formula.OverKeys)
    {label label' : Label} (agree : ∀ atom ∈ formula.occurrences, label.holds atom = label'.holds atom) :
    formula.evaluate label = formula.evaluate label' := by
  induction formula with
  | truth => rfl
  | falsity => rfl
  | atomic atom => rw [evaluate, evaluate, agree atom (by simp [occurrences])]
  | not body ih => rw [evaluate, evaluate, ih overKeys agree]
  | and left right ihLeft ihRight =>
      rw [occurrences, List.forall_mem_append] at agree
      rw [evaluate, evaluate, ihLeft overKeys.1 agree.1, ihRight overKeys.2 agree.2]
  | or left right ihLeft ihRight =>
      rw [occurrences, List.forall_mem_append] at agree
      rw [evaluate, evaluate, ihLeft overKeys.1 agree.1, ihRight overKeys.2 agree.2]
  | implies left right ihLeft ihRight =>
      rw [occurrences, List.forall_mem_append] at agree
      rw [evaluate, evaluate, ihLeft overKeys.1 agree.1, ihRight overKeys.2 agree.2]
  | custom node => exact overKeys.elim

/-- The collected propositions are the support of a formula. Where all propositions may be keys and no node is
user-defined, they can be collected, and any two labels that answer alike for each of them, by the same truth
value or the same fault, give the formula the same value or the same fault. A formula with a user-defined node
or a proposition that may not be a key, however deep, has no collected propositions. -/
theorem atoms_support (formula : Formula Result) :
    (∀ naming : Naming Result, formula.NamedBy naming → formula.OverKeys →
      ∃ collected, formula.atoms = .ok collected ∧
        ∀ label label' : Label, (∀ atom ∈ collected, label.holds atom = label'.holds atom) →
          formula.evaluate label = formula.evaluate label') ∧
    (formula.nodes ≠ [] ∨ (∃ atom ∈ formula.occurrences, atom.requireHashable ≠ .ok ()) →
      ∃ fault, formula.atoms = .error fault ∧ fault.category = .type) := by
  constructor
  · intro naming named overKeys
    refine ⟨_, atoms_of_overKeys overKeys, ?_⟩
    intro label label' agree
    apply evaluate_eq_of_holds_eq overKeys
    intro atom atom_mem
    have represents := Atom.represents_unite formula.occurrences
    rcases Atom.isIn_iff.mp (represents.covers atom atom_mem) with ⟨first, first_mem, equal⟩
    have occurs := represents.sublist.subset first_mem
    have accepted := (overKeys_iff.mp overKeys).2 first occurs
    exact holds_eq_of_beq (named.of_mem first occurs) (named.of_mem atom atom_mem) accepted equal
      (agree first first_mem)
  · intro obstacle
    apply atoms_of_not_overKeys
    rw [overKeys_iff]
    rintro ⟨plain, accepted⟩
    rcases obstacle with custom | ⟨atom, atom_mem, refused⟩
    · exact custom plain
    · exact refused (accepted atom atom_mem)

end Formula

namespace Doorway

/-- Whether the door is open. -/
def isOpen : Routine Result :=
  .builtin "is_open" fun state => state.item (.str "open")

def naming : Naming Result where
  routine _ := isOpen
  node identity := ⟨identity, "Unknown", fun _ => .ok .null⟩

/-- A formula that names one location by a number and by a truth value. -/
def formula : Formula Result :=
  .and (.or (.not (.atLocation (.int 1))) (.atLocation (.bool true)))
    (.implies (.holds isOpen) (.not (.holds isOpen)))

/-- Two configurations that are told apart by a variable on which the formula does not depend. -/
def inside : Label :=
  .program (.int 1) (.state [(.str "open", .bool true)])

def outside : Label :=
  .program (.bool true) (.state [(.str "lit", .null), (.str "open", .int 7)])

/-- A user-defined node after an operand that decides the formula. -/
def obscured : Formula Result :=
  .and .falsity (.custom (naming.node (.made 0)))

end Doorway

/-- Two propositions stand for all four of a formula. -/
theorem Formula.atoms_support_doorway :
    Doorway.formula.NamedBy Doorway.naming ∧ Doorway.formula.OverKeys ∧
      Doorway.formula.atoms = .ok [.atLocation (.int 1), .holds Doorway.isOpen] ∧
      Doorway.formula.evaluate Doorway.inside = Doorway.formula.evaluate Doorway.outside ∧
      Doorway.obscured.nodes ≠ [] ∧
      ∃ fault, Doorway.obscured.atoms = .error fault ∧ fault.category = .type := by
  have named : Doorway.formula.NamedBy Doorway.naming := ⟨⟨trivial, trivial⟩, rfl, rfl⟩
  have overKeys : Doorway.formula.OverKeys := ⟨⟨rfl, rfl⟩, rfl, rfl⟩
  have listed : Doorway.formula.atoms = .ok [.atLocation (.int 1), .holds Doorway.isOpen] := rfl
  have custom : Doorway.obscured.nodes ≠ [] := List.cons_ne_nil _ _
  refine ⟨named, overKeys, listed, ?_, custom, (atoms_support Doorway.obscured).2 (.inl custom)⟩
  rcases (atoms_support Doorway.formula).1 Doorway.naming named overKeys with ⟨collected, collects, agree⟩
  cases listed.symm.trans collects
  apply agree
  simp only [List.forall_mem_cons, List.not_mem_nil, false_implies, implies_true, and_true]
  exact ⟨rfl, rfl⟩

end StateSpace
