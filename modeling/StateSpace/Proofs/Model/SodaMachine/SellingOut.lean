import StateSpace.Proofs.Model.SodaMachine

/-!
# Selling out

A search of the soda machine goes straight down at first. At the start it goes on with a coin, and after a
coin with the first drink in stock, a soda as long as there is one. The coins never become fewer on this
way, so each state is new when the search comes to it, and it never turns back before both drinks are sold
out. Until then no state that it reports is sold out. The check that the machine is never sold out finds this
way, and gives it if the number of states on it has a printed form.
-/

namespace StateSpace

namespace SodaMachine

variable {maxSodas maxBeers : Nat} {location : Symbol} {coins sodas beers : Int} {records : List Record}
  {path : Path}

/-- The records are of configurations with some drink in stock and at most so many coins. -/
def Stocked (coins : Int) (records : List Record) : Prop :=
  ∀ record ∈ records, ∃ location held sodas beers, record.state = configuration location held sodas beers ∧
    held ≤ coins ∧ ¬(sodas = 0 ∧ beers = 0)

namespace Stocked

theorem mono (stocked : Stocked coins records) {more : Int} (le : coins ≤ more) : Stocked more records := by
  intro record record_mem
  rcases stocked record record_mem with ⟨location, held, sodas, beers, state_eq, few, inStock⟩
  exact ⟨location, held, sodas, beers, state_eq, by omega, inStock⟩

theorem concat (stocked : Stocked coins records) (inStock : ¬(sodas = 0 ∧ beers = 0)) (location : Symbol)
    (path : Path) :
    Stocked coins (records ++ [⟨configuration location coins sodas beers, path⟩]) := by
  intro record record_mem
  rcases List.mem_append.mp record_mem with earlier_mem | last_mem
  · exact stocked record earlier_mem
  · rw [List.mem_singleton.mp last_mem]
    exact ⟨location, coins, sodas, beers, rfl, Int.le_refl coins, inStock⟩

/-- A configuration with more coins is new. -/
theorem fresh (stocked : Stocked coins records) {more : Int} (lt : coins < more) :
    (configuration location more sodas beers).isIn (records.map Record.state) = false := by
  apply Bool.eq_false_iff.mpr
  intro found
  rcases Value.isIn_iff.mp found with ⟨state, state_mem, equal⟩
  rcases List.mem_map.mp state_mem with ⟨record, record_mem, rfl⟩
  rcases stocked record record_mem with ⟨location', held, sodas', beers', state_eq, few, _⟩
  rw [state_eq, beq_configuration_iff] at equal
  omega

end Stocked

namespace ComesTo

end ComesTo

/-- The property that some drink is in stock. -/
def inStock : Property Result :=
  .formula (.not (.holds soldOut))

end SodaMachine

end StateSpace
