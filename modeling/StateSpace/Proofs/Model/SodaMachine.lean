import StateSpace.Model.SodaMachine
import StateSpace.Proofs.Program.Runs
import StateSpace.Proofs.Verdict

/-!
# The soda machine

The states of the machine are known for all capacities. No counter goes below zero, and the coins that the
machine keeps are as many as the drinks it has sold since it was filled, with one more after a coin was
inserted. This is the invariant of each step, and all states that satisfy it are reached by selling sodas
and then beers.
-/

namespace StateSpace.SodaMachine

/-- The program state with so many coins and drinks. -/
def holding (coins sodas beers : Int) : Value :=
  (stock (.int coins) (.int sodas) (.int beers)).toValue

/-- The state of the compiled machine at a location with so many coins and drinks. -/
def configuration (location : Symbol) (coins sodas beers : Int) : Value :=
  .pair (.symbol location) (holding coins sodas beers)

/-- The machine whose capacities are given by numbers. -/
def machine (maxSodas maxBeers : Nat) : ProgramGraph Result :=
  .ofTable [.symbol start] (stock (.int 0) (.int maxSodas) (.int maxBeers)) table
    (effects (.int maxSodas) (.int maxBeers))

theorem graph_eq (maxSodas maxBeers : Nat) :
    graph (.int maxSodas) (.int maxBeers) = .ok (machine maxSodas maxBeers) := by
  have room : ¬(maxSodas : Int) < 0 := by omega
  have room' : ¬(maxBeers : Int) < 0 := by omega
  simp [graph, lacksRoom, Value.precedes, Value.asInt?, machine, room, room']

variable {maxSodas maxBeers : Nat} {location other : Symbol} {coins sodas beers : Int}

theorem beq_configuration_iff {coins' sodas' beers' : Int} :
    (configuration location coins sodas beers == configuration other coins' sodas' beers') = true ↔
      location.text = other.text ∧ coins = coins' ∧ sodas = sodas' ∧ beers = beers' := by
  rw [configuration, configuration, Value.beq_pair_iff]
  refine and_congr ?_ ?_
  · change Value.beq (.symbol _) (.symbol _) = true ↔ _
    simp only [Value.beq, Value.standsFor, beq_iff_eq]
    exact eq_comm
  · change Value.beq (.state _) (.state _) = true ↔ _
    simp [stock, Value.unmarked, Value.markWhere, Value.standsFor, Value.countsAs]
    omega

theorem start_ne_select : start.text ≠ select.text := by
  decide

theorem beq_configuration_eq_false {coins' sodas' beers' : Int}
    (differ : ¬(location.text = other.text ∧ coins = coins' ∧ sodas = sodas' ∧ beers = beers')) :
    (configuration location coins sodas beers == configuration other coins' sodas' beers') = false :=
  Bool.eq_false_iff.mpr (beq_configuration_iff.not.mpr differ)

@[simp]
theorem item_sodas : (holding coins sodas beers).item (.str "sodas") = .ok (.int sodas) :=
  rfl

@[simp]
theorem item_beers : (holding coins sodas beers).item (.str "beers") = .ok (.int beers) :=
  rfl

/-! ### One step -/

theorem lists_start :
    (machine maxSodas maxBeers).compile.Lists (configuration start coins sodas beers)
      [(.str "coin", configuration select (coins + 1) sodas beers),
       (.str "refill", configuration start 0 maxSodas maxBeers)] :=
  rfl

theorem holds_hasSoda :
    hasSoda.holds (holding coins sodas beers) = (.ok (decide (0 < sodas)) : Result Bool) :=
  rfl

theorem holds_hasBeer :
    hasBeer.holds (holding coins sodas beers) = (.ok (decide (0 < beers)) : Result Bool) :=
  rfl

theorem holds_soldOut :
    soldOut.holds (holding coins sodas beers) = (.ok (decide (sodas = 0 ∧ beers = 0)) : Result Bool) := by
  by_cases none : sodas = 0 <;>
    simp [soldOut, Routine.holds, Routine.builtin, Value.beq_int, none, Value.truthy]

theorem lists_select :
    (machine maxSodas maxBeers).compile.Lists (configuration select coins sodas beers)
      ((if 0 < sodas then [(.str "soda", configuration start coins (sodas - 1) beers)] else []) ++
        (if 0 < beers then [(.str "beer", configuration start coins sodas (beers - 1))] else []) ++
        if sodas = 0 ∧ beers = 0 then [(.str "ret_coin", configuration start (coins - 1) sodas beers)]
        else []) := by
  have declared : (machine maxSodas maxBeers).transitions (.symbol select) =
      .ok [⟨hasSoda, .str "soda", .symbol start⟩, ⟨hasBeer, .str "beer", .symbol start⟩,
        ⟨soldOut, .str "ret_coin", .symbol start⟩] := rfl
  have sold : (machine maxSodas maxBeers).apply (.str "soda") (holding coins sodas beers) =
      .ok (holding coins (sodas - 1) beers) := rfl
  have sold' : (machine maxSodas maxBeers).apply (.str "beer") (holding coins sodas beers) =
      .ok (holding coins sodas (beers - 1)) := rfl
  have returned : (machine maxSodas maxBeers).apply (.str "ret_coin") (holding coins sodas beers) =
      .ok (holding (coins - 1) sodas beers) := rfl
  have listed := ProgramGraph.lists_compile_of_succeeds declared (by
    simp only [List.mem_cons, List.not_mem_nil, or_false, forall_eq_or_imp, forall_eq]
    exact ⟨.of_holds holds_hasSoda sold, .of_holds holds_hasBeer sold', .of_holds holds_soldOut returned⟩)
  simp only [List.filterMap_cons, List.filterMap_nil, ProgramGraph.taken, holds_hasSoda, holds_hasBeer,
    holds_soldOut, sold, sold', returned] at listed
  by_cases hasSoda : 0 < sodas <;> by_cases hasBeer : 0 < beers <;>
    by_cases soldOut : sodas = 0 ∧ beers = 0 <;>
      simpa [hasSoda, hasBeer, soldOut, configuration] using listed

/-! ### The reachable states -/

/-- The machine keeps as many coins as it has sold drinks, and one more where a coin was inserted. -/
def Balanced (maxSodas maxBeers : Nat) (state : Value) : Prop :=
  ∃ sodas beers : Nat, sodas ≤ maxSodas ∧ beers ≤ maxBeers ∧
    (state = configuration start (maxSodas + maxBeers - sodas - beers) sodas beers ∨
      state = configuration select (maxSodas + maxBeers - sodas - beers + 1) sodas beers)

theorem balanced_initial : Balanced maxSodas maxBeers (configuration start 0 maxSodas maxBeers) := by
  refine ⟨maxSodas, maxBeers, Nat.le_refl _, Nat.le_refl _, .inl ?_⟩
  congr 1
  omega

theorem Balanced.step {state action target : Value} {pairs : List (Value × Value)}
    (balanced : Balanced maxSodas maxBeers state)
    (listed : (machine maxSodas maxBeers).compile.Lists state pairs) (mem : (action, target) ∈ pairs) :
    Balanced maxSodas maxBeers target := by
  rcases balanced with ⟨sodas, beers, few, few', rfl | rfl⟩
  · rw [listed.unique lists_start] at mem
    simp only [List.mem_cons, Prod.mk.injEq, List.not_mem_nil, or_false] at mem
    rcases mem with ⟨_, rfl⟩ | ⟨_, rfl⟩
    · exact ⟨sodas, beers, few, few', .inr rfl⟩
    · exact balanced_initial
  · rw [listed.unique lists_select] at mem
    simp only [List.mem_append, List.mem_ite_nil_right, List.mem_singleton, Prod.mk.injEq] at mem
    -- a drink was sold for the coin that was just inserted, or there was none and the coin is returned
    rcases mem with (⟨some, _, rfl⟩ | ⟨some, _, rfl⟩) | ⟨_, _, rfl⟩
    · refine ⟨sodas - 1, beers, by omega, few', .inl ?_⟩
      congr 1 <;> omega
    · refine ⟨sodas, beers - 1, few, by omega, .inl ?_⟩
      congr 1 <;> omega
    · refine ⟨sodas, beers, few, few', .inl ?_⟩
      congr 1
      omega

theorem balanced_of_reachable {state : Value}
    (reachable : (machine maxSodas maxBeers).compile.Reachable state) :
    Balanced maxSodas maxBeers state := by
  induction reachable with
  | initial mem =>
      rw [List.mem_singleton.mp mem]
      exact balanced_initial
  | step _ listed mem ih => exact ih.step listed mem

theorem reachable_select
    (reachable : (machine maxSodas maxBeers).compile.Reachable (configuration start coins sodas beers)) :
    (machine maxSodas maxBeers).compile.Reachable (configuration select (coins + 1) sodas beers) :=
  reachable.step lists_start (.head _)

theorem reachable_soda (inStock : 0 < sodas)
    (reachable : (machine maxSodas maxBeers).compile.Reachable (configuration start coins sodas beers)) :
    (machine maxSodas maxBeers).compile.Reachable (configuration start (coins + 1) (sodas - 1) beers) :=
  @TransitionSystem.Reachable.step _ _ (.str "soda") _ _ (reachable_select reachable) lists_select
    (by simp [inStock])

theorem reachable_beer (inStock : 0 < beers)
    (reachable : (machine maxSodas maxBeers).compile.Reachable (configuration start coins sodas beers)) :
    (machine maxSodas maxBeers).compile.Reachable (configuration start (coins + 1) sodas (beers - 1)) :=
  @TransitionSystem.Reachable.step _ _ (.str "beer") _ _ (reachable_select reachable) lists_select
    (by simp [inStock])

/-- The machine can sell down to any stock, first the sodas and then the beers. -/
theorem reachable_start {sodas beers : Nat} (few : sodas ≤ maxSodas) (few' : beers ≤ maxBeers) :
    (machine maxSodas maxBeers).compile.Reachable
      (configuration start (maxSodas + maxBeers - sodas - beers) sodas beers) := by
  -- both inductions go down from full stock, and beers are sold only in the outer one
  induction few' using Nat.decreasingInduction with
  | self =>
      induction few using Nat.decreasingInduction with
      | self =>
          apply TransitionSystem.Reachable.initial
          have empty : (maxSodas + maxBeers - maxSodas - maxBeers : Int) = 0 := by omega
          rw [empty]
          exact .head _
      | of_succ sodas _ ih =>
          convert reachable_soda (by omega) ih using 2 <;> omega
  | of_succ beers _ ih =>
      convert reachable_beer (by omega) ih using 2 <;> omega

theorem reachable_iff {state : Value} :
    (machine maxSodas maxBeers).compile.Reachable state ↔ Balanced maxSodas maxBeers state := by
  constructor
  · exact balanced_of_reachable
  · rintro ⟨sodas, beers, few, few', rfl | rfl⟩
    · exact reachable_start few few'
    · exact reachable_select (reachable_start few few')

/-- All balanced configurations. -/
def configurations (maxSodas maxBeers : Nat) : List Value :=
  (List.range (maxSodas + 1)).flatMap fun sodas : Nat =>
    (List.range (maxBeers + 1)).flatMap fun beers : Nat =>
      [configuration start (maxSodas + maxBeers - sodas - beers) sodas beers,
       configuration select (maxSodas + maxBeers - sodas - beers + 1) sodas beers]

theorem mem_configurations_iff {state : Value} :
    state ∈ configurations maxSodas maxBeers ↔ Balanced maxSodas maxBeers state := by
  simp only [configurations, Balanced, List.mem_flatMap, List.mem_range, Nat.lt_succ_iff, List.mem_cons,
    List.not_mem_nil, or_false, exists_and_left]

theorem machine_finitelyReachable : (machine maxSodas maxBeers).compile.FinitelyReachable :=
  ⟨configurations maxSodas maxBeers, fun _ reachable =>
    Value.isIn_of_mem (mem_configurations_iff.mpr (reachable_iff.mp reachable))⟩

/-- Equal configurations are the same, because the variables are always declared in one order. -/
theorem reachable_eq_of_beq {state other : Value}
    (reachable : (machine maxSodas maxBeers).compile.Reachable state)
    (reachable' : (machine maxSodas maxBeers).compile.Reachable other)
    (equal : (state == other) = true) : state = other := by
  rcases balanced_of_reachable reachable with ⟨sodas, beers, _, _, rfl | rfl⟩ <;>
    rcases balanced_of_reachable reachable' with ⟨sodas', beers', _, _, rfl | rfl⟩ <;>
      rw [beq_configuration_iff] at equal
  · rcases equal with ⟨_, coins_eq, sodas_eq, beers_eq⟩
    rw [coins_eq, sodas_eq, beers_eq]
  · exact absurd equal.1 start_ne_select
  · exact absurd equal.1.symm start_ne_select
  · rcases equal with ⟨_, coins_eq, sodas_eq, beers_eq⟩
    rw [coins_eq, sodas_eq, beers_eq]

theorem machine_regular : (machine maxSodas maxBeers).compile.Regular := by
  refine TransitionSystem.regular_of_eq ?_ ?_ reachable_eq_of_beq
  · intro state reachable
    rcases balanced_of_reachable reachable with ⟨sodas, beers, _, _, rfl | rfl⟩ <;> rfl
  · intro state reachable
    rcases balanced_of_reachable reachable with ⟨sodas, beers, _, _, rfl | rfl⟩
    · exact ⟨_, lists_start⟩
    · exact ⟨_, lists_select⟩

/-- The states that a search of the machine finds, for all capacities. -/
theorem reachableStates_machine (maxSodas maxBeers : Nat) :
    ∃ machine : ProgramGraph Result, graph (.int maxSodas) (.int maxBeers) = .ok machine ∧
      ∃ bound states,
        (∀ more, machine.compile.reachableStates? (bound + more) = .ok (some states)) ∧
        Value.Distinct states ∧
        ∀ state, state ∈ states ↔
          ∃ sodas beers : Nat, sodas ≤ maxSodas ∧ beers ≤ maxBeers ∧
            (state = configuration start (maxSodas + maxBeers - sodas - beers) sodas beers ∨
              state = configuration select (maxSodas + maxBeers - sodas - beers + 1) sodas beers) := by
  refine ⟨machine maxSodas maxBeers, graph_eq maxSodas maxBeers, ?_⟩
  rcases machine_regular.exists_reachableStates machine_finitelyReachable reachable_eq_of_beq with
    ⟨bound, states, ended, distinct, mem_iff⟩
  exact ⟨bound, states, ended, distinct, fun state => (mem_iff state).trans reachable_iff⟩

/-! ### The beginning of a search -/

/-- The initial state, where a path begins and ends. -/
def atOnce (maxSodas maxBeers : Nat) : Counterexample where
  state := configuration start 0 maxSodas maxBeers
  path := .single (configuration start 0 maxSodas maxBeers)

theorem label_configuration :
    (machine maxSodas maxBeers).compile.label (configuration location coins sodas beers) =
      .ok (.program (.symbol location) (holding coins sodas beers)) :=
  rfl

theorem isPrintable_configuration_iff :
    (configuration location coins sodas beers).isPrintable = true ↔
      coins.natAbs < numberLimit ∧ sodas.natAbs < numberLimit ∧ beers.natAbs < numberLimit := by
  simp [configuration, holding, stock, ProgramState.toValue, Value.pair, Value.isPrintable, Value.arePrintable,
    Value.areEntriesPrintable, Value.isEntryPrintable]

theorem exists_reports_atOnce :
    ∃ last, Search.Reports (machine maxSodas maxBeers).compile.transitions
      (machine maxSodas maxBeers).compile.search
      [⟨(atOnce maxSodas maxBeers).state, (atOnce maxSodas maxBeers).path⟩] last :=
  @TransitionSystem.exists_reports_initial _ _ [] rfl rfl

end StateSpace.SodaMachine
