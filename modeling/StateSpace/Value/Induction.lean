import StateSpace.Value.Basic

/-!
# Induction on values

A value holds lists of values and lists of entries, and the induction principle below speaks of the
members of those lists.
-/

namespace StateSpace

namespace Value

/-- To show something of all values, show it of a compound value from its parts. -/
@[elab_as_elim]
theorem induction {motive : Value → Prop}
    (null : motive .null)
    (bool : ∀ flag, motive (.bool flag))
    (int : ∀ number, motive (.int number))
    (str : ∀ text, motive (.str text))
    (symbol : ∀ constant, motive (.symbol constant))
    (tuple : ∀ items, (∀ item ∈ items, motive item) → motive (.tuple items))
    (list : ∀ items, (∀ item ∈ items, motive item) → motive (.list items))
    (dict : ∀ entries, (∀ entry ∈ entries, motive entry.1 ∧ motive entry.2) →
      motive (.dict entries))
    (state : ∀ entries, (∀ entry ∈ entries, motive entry.1 ∧ motive entry.2) →
      motive (.state entries))
    (atLocation : ∀ location, motive location → motive (.atLocation location))
    (set : ∀ members, (∀ member ∈ members, motive member) → motive (.set members))
    (programLabel : ∀ location assignment, motive location → motive assignment →
      motive (.programLabel location assignment))
    (cell : ∀ number, motive (.cell number))
    (value : Value) : motive value :=
  @Value.rec motive
    (fun items => ∀ item ∈ items, motive item)
    (fun entries => ∀ entry ∈ entries, motive entry.1 ∧ motive entry.2)
    (fun entry => motive entry.1 ∧ motive entry.2)
    null bool int str symbol tuple list dict state atLocation set programLabel cell
    (by simp) (by simp_all) (by simp) (by simp_all) (by simp_all) value

end Value

end StateSpace
