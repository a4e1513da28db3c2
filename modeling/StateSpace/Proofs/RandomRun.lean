import StateSpace.RandomRun
import StateSpace.Proofs.Composition
import StateSpace.Proofs.TableSystem

/-!
# The range of random paths

Whatever a chooser picks, a random path of a well-formed system is valid, and it is as long as was asked
for unless it ends in a state without transitions. Conversely, every such path is the random path of some
chooser, up to equality: the chooser that follows the path and picks, of the items it is offered, the
first that equals the next one on the path.

Both directions are inductions on the number of steps still to go. `Path.Completes` says of the rest of a
path what a random walk makes of it, one step at a time.

The number of steps that can be asked for has a limit, beyond which no path is given at all.
-/

namespace StateSpace

namespace Chooser

/-- The chooser that picks the first item that equals the next target, and the first item of all if there
is none. -/
def following (targets : List Value) : Chooser where
  State := List Value
  initial := targets
  choose targets first others :=
    let position := (first :: others).findIdx fun item => targets.head?.any (item == ·)
    (if inside : position < (first :: others).length then ⟨position, inside⟩ else ⟨0, Nat.succ_pos _⟩,
      targets.tail)

theorem pick_mem (chooser : Chooser) (state : chooser.State) (first : Value) (others : List Value) :
    (chooser.pick state first others).1 ∈ first :: others :=
  List.get_mem _ _

/-- What is picked among pairs is one of them. -/
theorem exists_pick_eq_pair (chooser : Chooser) (state : chooser.State) (first : Value × Value)
    (others : List (Value × Value)) :
    ∃ pair ∈ first :: others,
      (chooser.pick state (.pair first.1 first.2) (others.map fun pair => .pair pair.1 pair.2)).1 =
        .pair pair.1 pair.2 := by
  have picked_mem := chooser.pick_mem state (.pair first.1 first.2)
    (others.map fun pair => .pair pair.1 pair.2)
  rcases List.mem_cons.mp picked_mem with picked_eq | picked_mem
  · exact ⟨first, by simp, picked_eq⟩
  · rcases List.mem_map.mp picked_mem with ⟨pair, pair_mem, picked_eq⟩
    exact ⟨pair, List.mem_cons_of_mem _ pair_mem, picked_eq.symm⟩

theorem pick_following {targets rest : List Value} {target first : Value} {others : List Value}
    (offered : target.isIn (first :: others) = true) :
    ((following targets).pick (target :: rest) first others).2 = rest ∧
      (((following targets).pick (target :: rest) first others).1 == target) = true := by
  have inside : (first :: others).findIdx (fun item => item == target) < (first :: others).length :=
    List.findIdx_lt_length.mpr (Value.isIn_iff.mp offered)
  refine ⟨rfl, ?_⟩
  have picked : ((following targets).pick (target :: rest) first others).1 =
      (first :: others)[(first :: others).findIdx fun item => item == target] := by
    simp only [pick, following, List.head?_cons, Option.any_some, inside, ↓reduceDIte, List.get_eq_getElem]
  rw [picked]
  exact @List.findIdx_getElem _ (fun item => item == target) _ inside

end Chooser

namespace Path

/-- Steps follow the transitions of a system from a state. They are as many as was asked for, or fewer if
the last of them leads into a state without transitions. -/
def Completes (system : TransitionSystem Result) (count : Nat) (current : Value) (steps : List Step) :
    Prop :=
  followsFrom system current steps = .ok true ∧
    (steps.length = count ∨ steps.length < count ∧
      (system.transitions (listed current steps).last).toList = .ok [])

variable {system : TransitionSystem Result}

theorem completes_zero_iff {current : Value} {steps : List Step} :
    Completes system 0 current steps ↔ steps = [] := by
  constructor
  · rintro ⟨_, short | ⟨short, _⟩⟩
    · exact List.length_eq_zero_iff.mp short
    · exact absurd short (Nat.not_lt_zero _)
  · rintro rfl
    exact ⟨by simp [followsFrom], .inl rfl⟩

theorem completes_succ_nil_iff {count : Nat} {current : Value} :
    Completes system (count + 1) current [] ↔ (system.transitions current).toList = .ok [] := by
  simp [Completes, followsFrom, last]

theorem completes_succ_cons_iff {count : Nat} {current : Value} {step : Step} {steps : List Step} :
    Completes system (count + 1) current (step :: steps) ↔
      (system.transitions current).has step.toPair = .ok true ∧
        Completes system count step.state steps := by
  rw [Completes, Completes, followsFrom_cons_iff, last_listed_cons, and_assoc]
  simp

end Path

namespace TransitionSystem

variable {system : TransitionSystem Result}

namespace WellFormed

/-- Equal states have no transitions alike. -/
theorem toList_nil_congr (wellFormed : system.WellFormed) {current other : Value}
    (hasState : system.HasState current) (equal : (current == other) = true)
    (terminal : (system.transitions current).toList = .ok []) :
    (system.transitions other).toList = .ok [] := by
  rcases wellFormed.listed (hasState.congr equal) with ⟨pairs, listed⟩
  have count := Value.length_eq_of_beq_list (wellFormed.congruent hasState equal terminal listed)
  rw [List.length_nil, eq_comm, List.length_eq_zero_iff] at count
  rw [listed, count]

theorem completes_congr (wellFormed : system.WellFormed) {count : Nat} {current other : Value}
    {steps steps' : List Step} (hasState : system.HasState current)
    (equal : (current == other) = true) (same : (steps == steps') = true)
    (completes : Path.Completes system count current steps) :
    Path.Completes system count other steps' := by
  rcases completes with ⟨follows, ends⟩
  refine ⟨wellFormed.followsFrom_congr hasState equal same follows, ?_⟩
  rw [← List.length_eq_of_beq same]
  refine ends.imp_right ?_
  rintro ⟨short, terminal⟩
  have hasLast := wellFormed.hasState_of_followsFrom hasState follows
  exact ⟨short, wellFormed.toList_nil_congr hasLast (Path.last_listed_congr equal same) terminal⟩

end WellFormed

end TransitionSystem

namespace RandomRun

variable {system : TransitionSystem Result} {chooser : Chooser}

/-- A run with a step in front of it, picked among a number of items. -/
def after (run : RandomRun) (step : Step) (size : Nat) : RandomRun :=
  { run with steps := step :: run.steps, sizes := size :: run.sizes }

theorem walk_of_terminal {state : Value} (terminal : (system.transitions state).toList = .ok [])
    (count : Nat) (choice : chooser.State) : walk system chooser (count + 1) choice state = .ok {} := by
  simp [walk, terminal]

theorem walk_of_pick {state first : Value} {others : List Value}
    (listed : (system.transitions state).toList = .ok (first :: others)) {choice next : chooser.State}
    {action target : Value} (picked : chooser.pick choice first others = (.pair action target, next))
    {count : Nat} {run : RandomRun} (walked : walk system chooser count next target = .ok run) :
    walk system chooser (count + 1) choice state =
      .ok (run.after ⟨action, target⟩ (others.length + 1)) := by
  have pair_eq : (Value.pair action target).asPair = .ok (action, target) := rfl
  simp [walk, listed, picked, pair_eq, walked, after]

/-- A walk through a well-formed system does not fail. It follows the transitions for as many steps as it
was asked for, or up to a state without transitions. -/
theorem exists_walk (wellFormed : system.WellFormed) (count : Nat) (choice : chooser.State)
    {state : Value} (hasState : system.HasState state) :
    ∃ run, walk system chooser count choice state = .ok run ∧ run.fault? = none ∧
      Path.Completes system count state run.steps := by
  induction count generalizing choice state with
  | zero => exact ⟨{}, rfl, rfl, Path.completes_zero_iff.mpr rfl⟩
  | succ count ih =>
      rcases wellFormed.listed hasState with ⟨pairs, listed⟩
      cases pairs with
      | nil => exact ⟨{}, walk_of_terminal listed count choice, rfl, Path.completes_succ_nil_iff.mpr listed⟩
      | cons first others =>
          rcases chooser.exists_pick_eq_pair choice first others with ⟨pair, pair_mem, picked_eq⟩
          rcases ih (chooser.pick choice _ _).2
            (wellFormed.hasState_target hasState listed pair_mem) with ⟨run, walked, sound, completes⟩
          refine ⟨_, walk_of_pick listed (Prod.ext picked_eq rfl) walked, sound, ?_⟩
          refine Path.completes_succ_cons_iff.mpr ⟨?_, completes⟩
          exact (wellFormed.has_iff hasState).mpr ⟨_, listed, pair, pair_mem, BEq.rfl, BEq.rfl⟩

/-- A walk that is led along steps takes these steps, up to equality, also if it starts in another value
that equals the state before them. -/
theorem walk_following (wellFormed : system.WellFormed) {targets : List Value} {count : Nat}
    {state current : Value} {steps : List Step} (hasState : system.HasState state)
    (equal : (state == current) = true) (completes : Path.Completes system count current steps) :
    ∃ run, walk system (.following targets) count (steps.map Step.toPair) state = .ok run ∧
      run.fault? = none ∧ (run.steps == steps) = true := by
  induction count generalizing state current steps with
  | zero =>
      rw [Path.completes_zero_iff.mp completes]
      exact ⟨{}, rfl, rfl, rfl⟩
  | succ count ih =>
      have hasCurrent := hasState.congr equal
      cases steps with
      | nil =>
          have terminal := wellFormed.toList_nil_congr hasCurrent (BEq.symm equal)
            (Path.completes_succ_nil_iff.mp completes)
          exact ⟨{}, walk_of_terminal terminal count _, rfl, rfl⟩
      | cons step steps =>
          -- the step leaves the state on the path, so an equal step leaves the state of the walk
          rcases Path.completes_succ_cons_iff.mp completes with ⟨has, completes⟩
          have hasHere := wellFormed.has_congr hasCurrent (BEq.symm equal)
            (Step.beq_iff.mpr ⟨BEq.rfl, BEq.rfl⟩) has
          rcases wellFormed.listed hasState with ⟨pairs, listed⟩
          rw [Successors.has_of_toList listed, Except.ok.injEq] at hasHere
          cases pairs with
          | nil => cases hasHere
          | cons first others =>
              rw [List.map_cons] at hasHere
              rcases @Chooser.pick_following targets (steps.map Step.toPair) _ _ _ hasHere with
                ⟨next_eq, picked_equal⟩
              rcases (Chooser.following targets).exists_pick_eq_pair
                (step.toPair :: steps.map Step.toPair) first others with ⟨pair, pair_mem, picked_eq⟩
              rw [picked_eq] at picked_equal
              rcases Value.beq_pair_iff.mp picked_equal with ⟨sameAction, sameState⟩
              rcases ih (wellFormed.hasState_target hasState listed pair_mem) sameState completes with
                ⟨run, walked, sound, same⟩
              refine ⟨_, walk_of_pick listed (Prod.ext picked_eq next_eq) walked, sound, ?_⟩
              rw [after, List.cons_beq_cons, Bool.and_eq_true]
              exact ⟨Step.beq_iff.mpr ⟨sameAction, sameState⟩, same⟩

theorem forPath_of_walk {first : Value} {others : List Value}
    (initial_eq : system.initialStates = first :: others) {count : Int} (nonneg : 0 ≤ count)
    (within : count ≤ maxSteps) {run : RandomRun}
    (walked : walk system chooser count.toNat (chooser.pick chooser.initial first others).2
      (chooser.pick chooser.initial first others).1 = .ok run) :
    forPath system chooser count =
      .ok (run.after ⟨.null, (chooser.pick chooser.initial first others).1⟩ (others.length + 1)) := by
  simp [forPath, Int.not_lt.mpr nonneg, Int.not_lt.mpr within, take, initial_eq, walked, after]

theorem randomPath_of_walk {first : Value} {others : List Value}
    (initial_eq : system.initialStates = first :: others) {count : Int} (nonneg : 0 ≤ count)
    (within : count ≤ maxSteps) {run : RandomRun} (sound : run.fault? = none)
    (walked : walk system chooser count.toNat (chooser.pick chooser.initial first others).2
      (chooser.pick chooser.initial first others).1 = .ok run) :
    randomPath system chooser count =
      .ok (.listed (chooser.pick chooser.initial first others).1 run.steps) := by
  simp [randomPath, forPath_of_walk initial_eq nonneg within walked, toPath, after, sound]

theorem randomPath_of_empty (empty : system.initialStates = []) {count : Int} (nonneg : 0 ≤ count) :
    randomPath system chooser count = .error .noInitialStates := by
  have taken : ∀ count, take system chooser (count + 1) = .ok { fault? := some .noInitialStates } := by
    intro count
    simp [take, empty]
  by_cases within : count ≤ maxSteps
  · simp [randomPath, forPath, Int.not_lt.mpr nonneg, Int.not_lt.mpr within, taken, toPath]
  · simp [randomPath, forPath, Int.not_lt.mpr nonneg, Int.not_le.mp within, taken, toPath]

theorem randomPath_of_tooMany (nonempty : system.initialStates ≠ []) {count : Int}
    (beyond : maxSteps < count) : randomPath system chooser count = .error .tooManySteps := by
  have nonneg : ¬ count < 0 := by
    have limit : 0 ≤ maxSteps := by decide
    omega
  rcases List.exists_cons_of_ne_nil nonempty with ⟨first, others, initial_eq⟩
  simp [randomPath, forPath, nonneg, beyond, take, initial_eq, walk, toPath]

theorem exists_randomPath (wellFormed : system.WellFormed) (nonempty : system.initialStates ≠ [])
    (chooser : Chooser) {count : Int} (nonneg : 0 ≤ count) (within : count ≤ maxSteps) :
    ∃ state ∈ system.initialStates, ∃ steps,
      randomPath system chooser count = .ok (.listed state steps) ∧
        Path.Completes system count.toNat state steps := by
  rcases List.exists_cons_of_ne_nil nonempty with ⟨first, others, initial_eq⟩
  have picked_mem := chooser.pick_mem chooser.initial first others
  rw [← initial_eq] at picked_mem
  rcases exists_walk wellFormed count.toNat (chooser.pick chooser.initial first others).2
    (TransitionSystem.Reachable.initial picked_mem).hasState with ⟨run, walked, sound, completes⟩
  exact ⟨_, picked_mem, run.steps, randomPath_of_walk initial_eq nonneg within sound walked, completes⟩

/-- A path that is led from its head takes the steps of the path that leads it. -/
theorem exists_randomPath_beq (wellFormed : system.WellFormed) {path : Path} {count : Int}
    (nonneg : 0 ≤ count) (within : count ≤ maxSteps)
    (initial : path.head.isIn system.initialStates = true)
    (completes : Path.Completes system count.toNat path.head path.steps) :
    ∃ chooser found, randomPath system chooser count = .ok found ∧ (found == path) = true := by
  cases initial_eq : system.initialStates with
  | nil =>
      rw [initial_eq] at initial
      cases initial
  | cons first others =>
      let targets := path.head :: path.steps.map Step.toPair
      have offered := initial
      rw [initial_eq] at offered
      rcases @Chooser.pick_following targets (path.steps.map Step.toPair) _ _ _ offered with
        ⟨next_eq, picked_equal⟩
      have picked_mem := (Chooser.following targets).pick_mem targets first others
      rw [← initial_eq] at picked_mem
      rcases @walk_following _ wellFormed targets _ _ _ _
        (TransitionSystem.Reachable.initial picked_mem).hasState picked_equal completes with
        ⟨run, walked, sound, same⟩
      rw [← next_eq] at walked
      refine ⟨.following targets, _, randomPath_of_walk initial_eq nonneg within sound walked, ?_⟩
      refine Path.beq_iff.mpr ⟨picked_equal, ?_⟩
      rw [Path.steps_listed]
      exact same

end RandomRun

/-- The random paths of a well-formed system are, up to equality, the valid paths that are as long as was
asked for or that end in a state without transitions. There is a random path for every chooser, unless the
system has no initial states or more steps are asked for than can be counted. -/
theorem randomPath_range {system : TransitionSystem Result} (wellFormed : system.WellFormed)
    {count : Int} (nonneg : 0 ≤ count) :
    (count ≤ RandomRun.maxSteps → ∀ path : Path,
      (∃ chooser found, randomPath system chooser count = .ok found ∧ (found == path) = true) ↔
        path.isValidIn system = .ok true ∧
          (path.length = count ∨
            path.length < count ∧ (system.transitions path.last).toList = .ok [])) ∧
    (system.initialStates = [] → ∀ chooser,
      randomPath system chooser count = .error .noInitialStates) ∧
    (system.initialStates ≠ [] → ∀ chooser,
      (count ≤ RandomRun.maxSteps → ∃ found, randomPath system chooser count = .ok found) ∧
        (RandomRun.maxSteps < count → randomPath system chooser count = .error .tooManySteps)) := by
  refine ⟨?_, ?_, ?_⟩
  · intro within path
    have completes_iff : path.isValidIn system = .ok true ∧
          (path.length = count ∨
            path.length < count ∧ (system.transitions path.last).toList = .ok []) ↔
        path.head.isIn system.initialStates = true ∧
          Path.Completes system count.toNat path.head path.steps := by
      have exactly : (path.length : Int) = count ↔ path.steps.length = count.toNat := by
        rw [Path.length_eq]
        omega
      have fewer : (path.length : Int) < count ↔ path.steps.length < count.toNat := by
        rw [Path.length_eq]
        omega
      rw [Path.isValidIn_iff, Path.Completes, Path.last_listed, exactly, fewer, and_assoc]
    rw [completes_iff]
    constructor
    · rintro ⟨chooser, found, found_eq, equal⟩
      by_cases empty : system.initialStates = []
      · rw [RandomRun.randomPath_of_empty empty nonneg] at found_eq
        cases found_eq
      · rcases RandomRun.exists_randomPath wellFormed empty chooser nonneg within with
          ⟨state, state_mem, steps, path_eq, completes⟩
        rw [path_eq, Except.ok.injEq] at found_eq
        rw [← found_eq, Path.beq_iff, Path.steps_listed] at equal
        refine ⟨Value.isIn_iff.mpr ⟨state, state_mem, equal.1⟩, ?_⟩
        exact wellFormed.completes_congr (TransitionSystem.Reachable.initial state_mem).hasState
          equal.1 equal.2 completes
    · rintro ⟨initial, completes⟩
      exact RandomRun.exists_randomPath_beq wellFormed nonneg within initial completes
  · intro empty chooser
    exact RandomRun.randomPath_of_empty empty nonneg
  · intro nonempty chooser
    refine ⟨fun within => ?_, RandomRun.randomPath_of_tooMany nonempty⟩
    rcases RandomRun.exists_randomPath wellFormed nonempty chooser nonneg within with
      ⟨state, _, steps, path_eq, _⟩
    exact ⟨_, path_eq⟩

/-- A merging system has a random path that takes the truth value which a transition leads into for the
number that the path names. -/
theorem randomPath_range_merging :
    TransitionSystem.merging.WellFormed ∧ (0 : Int) ≤ 2 ∧ 2 ≤ RandomRun.maxSteps ∧
      ∃ chooser found, randomPath TransitionSystem.merging chooser 2 = .ok found ∧
        (found == Path.listed (.int 0) [⟨.str "set", .int 1⟩, ⟨.str "up", .int 2⟩]) = true := by
  have wellFormed := TransitionSystem.merging_wellLabelled.toWellFormed
  have within : 2 ≤ RandomRun.maxSteps := by decide
  refine ⟨wellFormed, by decide, within, ?_⟩
  exact ((randomPath_range wellFormed (by decide)).1 within _).mpr ⟨rfl, .inl rfl⟩

/-- A system with one state and no transitions. -/
def resting : TransitionSystem Result where
  initialStates := [.int 0]
  label state := do pure ((← Table.lookup [] state).getD (.set []))
  transitions state := .atOnce do pure ((← Table.lookup [] state).getD [])

theorem ofTable_resting : TransitionSystem.ofTable [.int 0] [] [] = .ok resting :=
  rfl

/-- Beyond the number of steps that can be counted, the one path of a resting system is no random path,
though it is valid and ends in a state without transitions. -/
theorem randomPath_resting_uncountable :
    resting.WellFormed ∧ (0 : Int) ≤ 9223372036854775808 ∧
      ¬((∃ chooser found, randomPath resting chooser 9223372036854775808 = .ok found ∧
          (found == Path.single (.int 0)) = true) ↔
        (Path.single (.int 0)).isValidIn resting = .ok true ∧
          (((Path.single (.int 0)).length : Int) = 9223372036854775808 ∨
            ((Path.single (.int 0)).length : Int) < 9223372036854775808 ∧
              (resting.transitions (Path.single (.int 0)).last).toList = .ok [])) := by
  have wellFormed := TransitionSystem.wellFormed_of_ofTable ofTable_resting (by simp [Value.IsHashable])
    (by simp [TransitionSystem.LeadsToKeys])
  refine ⟨wellFormed, by decide, fun equivalent => ?_⟩
  rcases equivalent.mpr ⟨rfl, .inr ⟨by decide, rfl⟩⟩ with ⟨chooser, found, found_eq, _⟩
  have beyond : RandomRun.maxSteps < 9223372036854775808 := by decide
  rw [RandomRun.randomPath_of_tooMany (by simp [resting]) beyond] at found_eq
  cases found_eq

end StateSpace
