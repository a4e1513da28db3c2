import StateSpace.Formula
import StateSpace.Proofs.Membership
import StateSpace.Proofs.Outcome

/-!
# Meanings of formulas

The value of a formula is found from left to right and need not be a truth value, but where all parts have
values none of this can be seen: the value counts as true exactly if the formula is true. `Formula.Means`
says so for one label, and there is one law for each connective. A formula whose atoms are understood is
then understood by induction, whatever the label is.
-/

namespace StateSpace

namespace Formula

/-- A formula has a value in a label, which counts as true exactly if a proposition does. -/
def Means (formula : Formula Result) (label : Label) (meaning : Prop) : Prop :=
  ∃ value, formula.evaluate label = .ok value ∧ (value.truthy = true ↔ meaning)

namespace Means

variable {formula left right : Formula Result} {label : Label} {meaning leftMeaning rightMeaning : Prop}

theorem truth : Means .truth label True :=
  ⟨.bool true, rfl, by simp [Value.truthy]⟩

theorem falsity : Means .falsity label False :=
  ⟨.bool false, rfl, by simp [Value.truthy]⟩

theorem atomic {atom : Atom Result} {flag : Bool} (holds : label.holds atom = .ok flag) :
    Means (.atomic atom) label (flag = true) :=
  ⟨.bool flag, by simp [evaluate, holds], by simp [Value.truthy]⟩

theorem not (means : Means formula label meaning) : Means (.not formula) label (¬meaning) := by
  rcases means with ⟨value, value_eq, truthy_iff⟩
  refine ⟨.bool !value.truthy, by simp [evaluate, value_eq], ?_⟩
  simp [Value.truthy, ← truthy_iff]

theorem and (ofLeft : Means left label leftMeaning) (ofRight : Means right label rightMeaning) :
    Means (.and left right) label (leftMeaning ∧ rightMeaning) := by
  rcases ofLeft with ⟨value, value_eq, truthy_iff⟩
  rcases ofRight with ⟨value', value_eq', truthy_iff'⟩
  rw [← truthy_iff, ← truthy_iff']
  cases truth : value.truthy with
  | false => exact ⟨value, by simp [evaluate, value_eq, truth], by simp [truth]⟩
  | true => exact ⟨value', by simp [evaluate, value_eq, truth, value_eq'], by simp⟩

theorem or (ofLeft : Means left label leftMeaning) (ofRight : Means right label rightMeaning) :
    Means (.or left right) label (leftMeaning ∨ rightMeaning) := by
  rcases ofLeft with ⟨value, value_eq, truthy_iff⟩
  rcases ofRight with ⟨value', value_eq', truthy_iff'⟩
  rw [← truthy_iff, ← truthy_iff']
  cases truth : value.truthy with
  | false => exact ⟨value', by simp [evaluate, value_eq, truth, value_eq'], by simp⟩
  | true => exact ⟨value, by simp [evaluate, value_eq, truth], by simp [truth]⟩

theorem implies (ofLeft : Means left label leftMeaning) (ofRight : Means right label rightMeaning) :
    Means (.implies left right) label (leftMeaning → rightMeaning) := by
  rcases ofLeft with ⟨value, value_eq, truthy_iff⟩
  rcases ofRight with ⟨value', value_eq', truthy_iff'⟩
  rw [← truthy_iff, ← truthy_iff']
  cases truth : value.truthy with
  | false =>
      refine ⟨.bool true, by simp [evaluate, value_eq, truth], ?_⟩
      simp [Value.truthy]
  | true => exact ⟨value', by simp [evaluate, value_eq, truth, value_eq'], by simp⟩

theorem holds_eq (means : Means formula label meaning) :
    ∃ truth, (Property.formula formula).holds label = .ok truth ∧ (truth = true ↔ meaning) := by
  rcases means with ⟨value, value_eq, truthy_iff⟩
  exact ⟨value.truthy, by simp [Property.holds, Property.evaluate, value_eq], truthy_iff⟩

/-- Formulas with equivalent meanings hold alike. -/
theorem holds_congr {formula' : Formula Result} {label' : Label} {meaning' : Prop}
    (means : Means formula label meaning) (means' : Means formula' label' meaning')
    (equivalent : meaning ↔ meaning') :
    (Property.formula formula).holds label = (Property.formula formula').holds label' := by
  rcases means.holds_eq with ⟨truth, holds_eq, truth_iff⟩
  rcases means'.holds_eq with ⟨truth', holds_eq', truth_iff'⟩
  have agree : truth = true ↔ truth' = true := by rw [truth_iff, truth_iff', equivalent]
  rw [holds_eq, holds_eq', Bool.eq_iff_iff.mpr agree]

end Means

/-- The formulas over propositions that may be members of a set, without user-defined nodes. -/
def OverKeys {m : Type → Type} : Formula m → Prop
  | .truth => True
  | .falsity => True
  | .atomic atom => atom.requireHashable = .ok ()
  | .not body => body.OverKeys
  | .and left right => left.OverKeys ∧ right.OverKeys
  | .or left right => left.OverKeys ∧ right.OverKeys
  | .implies left right => left.OverKeys ∧ right.OverKeys
  | .custom _ => False

/-- The truth of a formula where exactly the listed propositions hold. No condition on a program state is
listed, and a user-defined node is true nowhere. -/
def TrueIn : Formula Result → List Value → Prop
  | .truth, _ => True
  | .falsity, _ => False
  | .atomic (.plain value), members => value.isIn members = true
  | .atomic (.holds _), _ => False
  | .not body, members => ¬body.TrueIn members
  | .and left right, members => left.TrueIn members ∧ right.TrueIn members
  | .or left right, members => left.TrueIn members ∨ right.TrueIn members
  | .implies left right, members => left.TrueIn members → right.TrueIn members
  | .custom _, _ => False

/-- A formula over keys means in a set what its truth among the members says. -/
theorem OverKeys.means {formula : Formula Result} (overKeys : formula.OverKeys) (members : List Value) :
    formula.Means (.set members) (formula.TrueIn members) := by
  induction formula with
  | truth => exact .truth
  | falsity => exact .falsity
  | atomic atom =>
      cases atom with
      | plain value =>
          have hashable : value.requireHashable = .ok () := overKeys
          exact .atomic (by simp [Label.holds, Label.toValue, Value.hasMember, hashable])
      | holds condition =>
          have absent : (Label.set members).holds (.holds condition) = .ok false := rfl
          exact ⟨.bool false, by simp [evaluate, absent], by simp [Value.truthy, TrueIn]⟩
  | not body ih => exact (ih overKeys).not
  | and left right ihLeft ihRight => exact (ihLeft overKeys.1).and (ihRight overKeys.2)
  | or left right ihLeft ihRight => exact (ihLeft overKeys.1).or (ihRight overKeys.2)
  | implies left right ihLeft ihRight => exact (ihLeft overKeys.1).implies (ihRight overKeys.2)
  | custom node => exact overKeys.elim

/-- The truth of a formula depends only on which values are found among the propositions. -/
theorem trueIn_congr {members others : List Value}
    (same : ∀ value : Value, value.isIn members = value.isIn others) (formula : Formula Result) :
    formula.TrueIn members ↔ formula.TrueIn others := by
  induction formula with
  | truth => exact Iff.rfl
  | falsity => exact Iff.rfl
  | atomic atom =>
      cases atom with
      | plain value => simp only [TrueIn, same]
      | holds condition => exact Iff.rfl
  | not body ih => exact not_congr ih
  | and left right ihLeft ihRight => exact and_congr ihLeft ihRight
  | or left right ihLeft ihRight => exact or_congr ihLeft ihRight
  | implies left right ihLeft ihRight => exact imp_congr ihLeft ihRight
  | custom node => exact Iff.rfl

end Formula

end StateSpace
