import StateSpace.Proofs.RandomRun

/-!
# What a random path asks for

A random path makes one choice for its head and one for each of its steps, and it asks for the transitions
of a state when it tries to leave it. It tries to leave every state that it comes to, except the one in
which it has as many steps as it was asked for. So a path that is cut shorter begins like a longer one
with the same choices, and what happens in its last state does not matter to it.

`RandomRun.Walks` says what a walk does that does not fail, one step at a time, and all of this follows by
induction on it. To see which transitions are asked for, the walk is run in another monad, which keeps a
record of them (`Recording`).
-/

namespace StateSpace

/-- A computation that keeps a record of states. -/
abbrev Recording := ExceptT Fault (StateM (List Value))

namespace Recording

instance : MonadCells Recording where
  ofResult result := ExceptT.mk (pure result)
  attempt computation := ExceptT.lift computation.run
  share value := pure value
  view value := pure value
  inspect value := pure value
  change _ _ := pure ()

/-- Put a state on record. -/
def note (state : Value) : Recording Unit :=
  modify fun record => record ++ [state]

/-- What a computation gives, and the record after it. -/
def outcome {α : Type} (computation : Recording α) (record : List Value) : Result α × List Value :=
  (computation.run.run record).run

variable {α β : Type} (record : List Value)

@[simp]
theorem outcome_pure (value : α) : outcome (pure value) record = (.ok value, record) :=
  rfl

@[simp]
theorem outcome_ofResult (result : Result α) :
    outcome (MonadCells.ofResult result) record = (result, record) :=
  rfl

@[simp]
theorem outcome_attempt (computation : Recording α) :
    outcome (MonadCells.attempt computation) record =
      (.ok (outcome computation record).1, (outcome computation record).2) :=
  rfl

@[simp]
theorem outcome_inspect (value : Value) :
    outcome (MonadCells.inspect value) record = (.ok value, record) :=
  rfl

@[simp]
theorem outcome_note (state : Value) : outcome (note state) record = (.ok (), record ++ [state]) :=
  rfl

theorem outcome_bind (computation : Recording α) (next : α → Recording β) :
    outcome (computation >>= next) record =
      match outcome computation record with
      | (.ok value, record) => outcome (next value) record
      | (.error fault, record) => (.error fault, record) := by
  simp only [outcome, ExceptT.run_bind, StateT.run_bind]
  rcases computation.run.run record with ⟨result, record⟩
  cases result <;> rfl

/-- Stages that come from elsewhere leave the record as it is. -/
theorem outcome_collect (stages : List (Result (List Value))) :
    outcome (Successors.collect (stages.map fun stage => MonadCells.ofResult stage)) record =
      (Successors.collect stages, record) := by
  induction stages with
  | nil => rfl
  | cons stage stages ih =>
      cases stage with
      | error fault => simp [Successors.collect, outcome_bind]
      | ok items =>
          simp only [Successors.collect, List.map_cons, outcome_bind, outcome_ofResult, ih]
          cases Successors.collect stages <;> rfl

end Recording

theorem Path.dropLast_states (path : Path) : path.states.dropLast = path.states.take path.length := by
  rw [List.dropLast_eq_take, states, length_eq]
  simp

theorem Path.states_listed_cons (head : Value) (step : Step) (steps : List Step) :
    (listed head (step :: steps)).states = head :: (listed step.state steps).states := by
  simp [states, Path.head]

namespace TransitionSystem

/-- The system with a record of the states whose transitions are asked for. -/
def recorded (system : TransitionSystem Result) : TransitionSystem Recording where
  initialStates := system.initialStates
  label state := MonadCells.ofResult (system.label state)
  transitions state :=
    ⟨(do Recording.note state; pure []) ::
      (system.transitions state).stages.map fun stage => MonadCells.ofResult stage⟩

theorem outcome_toList_recorded (system : TransitionSystem Result) (state : Value)
    (record : List Value) :
    Recording.outcome (system.recorded.transitions state).toList record =
      ((system.transitions state).toList, record ++ [state]) := by
  simp only [Successors.toList, recorded, Successors.collect, Recording.outcome_bind,
    Recording.outcome_note, Recording.outcome_pure, Recording.outcome_collect]
  cases Successors.collect (system.transitions state).stages <;> rfl

end TransitionSystem

namespace RandomRun

/-- A walk of at most a number of steps from a state, with the chooser in a given state, takes the given
steps by choices among the given numbers of items, and does not fail. -/
inductive Walks (system : TransitionSystem Result) (chooser : Chooser) :
    Nat → chooser.State → Value → List Step → List Nat → Prop where
  /-- It has taken as many steps as it was asked for. -/
  | stop {choice : chooser.State} {state : Value} : Walks system chooser 0 choice state [] []
  /-- It has come to a state without transitions. -/
  | rest {count : Nat} {choice : chooser.State} {state : Value}
      (terminal : (system.transitions state).toList = .ok []) :
      Walks system chooser (count + 1) choice state [] []
  | step {count : Nat} {choice next : chooser.State} {state first item action target : Value}
      {others : List Value} {steps : List Step} {sizes : List Nat}
      (listed : (system.transitions state).toList = .ok (first :: others))
      (picked : chooser.pick choice first others = (item, next))
      (paired : item.asPair = .ok (action, target))
      (goesOn : Walks system chooser count next target steps sizes) :
      Walks system chooser (count + 1) choice state (⟨action, target⟩ :: steps)
        ((others.length + 1) :: sizes)

variable {system other : TransitionSystem Result} {chooser : Chooser} {count : Nat}
  {choice : chooser.State} {state : Value} {steps : List Step} {sizes : List Nat}

theorem walks_of_walk {run : RandomRun} (walked : walk system chooser count choice state = .ok run)
    (sound : run.fault? = none) : Walks system chooser count choice state run.steps run.sizes := by
  induction count generalizing choice state run with
  | zero =>
      cases walked
      exact .stop
  | succ count ih =>
      simp only [walk, MonadCells.attempt_result, Result.ok_bind] at walked
      split at walked
      · cases walked
        cases sound
      · rename_i terminal
        cases walked
        exact .rest terminal
      · rename_i first others listed
        simp only [MonadCells.inspect_result, Result.ok_bind] at walked
        split at walked
        · cases walked
          cases sound
        · rename_i action target paired
          rcases Result.bind_eq_ok_iff.mp walked with ⟨rest, rest_walked, run_eq⟩
          cases run_eq
          exact .step listed rfl paired (ih rest_walked sound)

namespace Walks

theorem walk_eq (walks : Walks system chooser count choice state steps sizes) :
    walk system chooser count choice state = .ok { steps, sizes } := by
  induction walks with
  | stop => rfl
  | rest terminal => exact walk_of_terminal terminal _ _
  | step listed picked paired _ ih => simp [walk, listed, picked, paired, ih]

theorem length_sizes (walks : Walks system chooser count choice state steps sizes) :
    sizes.length = steps.length := by
  induction walks with
  | stop => rfl
  | rest _ => rfl
  | step _ _ _ _ ih => simp [ih]

/-- A shorter walk with the same choices is the beginning of a longer one. -/
theorem take (walks : Walks system chooser count choice state steps sizes) {fewer : Nat}
    (le : fewer ≤ count) :
    Walks system chooser fewer choice state (steps.take fewer) (sizes.take fewer) := by
  induction walks generalizing fewer with
  | stop =>
      cases Nat.le_zero.mp le
      exact .stop
  | rest terminal =>
      cases fewer with
      | zero => exact .stop
      | succ fewer => exact .rest terminal
  | step listed picked paired _ ih =>
      cases fewer with
      | zero => exact .stop
      | succ fewer => exact .step listed picked paired (ih (Nat.le_of_succ_le_succ le))

/-- A walk depends on the transitions of the states that it tries to leave, and on no others. -/
theorem congr (walks : Walks system chooser count choice state steps sizes)
    (agree : ∀ left ∈ (Path.listed state steps).states.take count,
      (other.transitions left).toList = (system.transitions left).toList) :
    Walks other chooser count choice state steps sizes := by
  induction walks with
  | stop => exact .stop
  | @rest _ _ state terminal =>
      apply Walks.rest
      rw [agree state (by simp [Path.states, Path.head])]
      exact terminal
  | step listed picked paired _ ih =>
      rw [Path.states_listed_cons, List.take_succ_cons, List.forall_mem_cons] at agree
      exact .step (agree.1.trans listed) picked paired (ih agree.2)

/-- A walk that keeps a record asks for the transitions of the states that it tries to leave, in order. -/
theorem outcome_walk_recorded (walks : Walks system chooser count choice state steps sizes)
    (record : List Value) :
    Recording.outcome (walk system.recorded chooser count choice state) record =
      (.ok { steps, sizes }, record ++ (Path.listed state steps).states.take count) := by
  induction walks generalizing record with
  | stop => simp [walk]
  | rest terminal =>
      simp [walk, Recording.outcome_bind, TransitionSystem.outcome_toList_recorded, terminal, Path.states,
        Path.head]
  | step listed picked paired _ ih =>
      rw [Path.states_listed_cons, List.take_succ_cons]
      simp only [walk, Recording.outcome_bind, Recording.outcome_attempt, Recording.outcome_inspect,
        Recording.outcome_pure, TransitionSystem.outcome_toList_recorded, listed, picked, paired, ih,
        List.append_assoc, List.singleton_append]

end Walks

/-- A random path of at most a number of steps, with the number of items in each choice: an initial state
that is picked, and a walk from there. -/
inductive Draws (system : TransitionSystem Result) (chooser : Chooser) (count : Nat) :
    Path → List Nat → Prop where
  | mk {first : Value} {others : List Value} {steps : List Step} {sizes : List Nat}
      (within : (count : Int) ≤ maxSteps) (initial_eq : system.initialStates = first :: others)
      (walks : Walks system chooser count (chooser.pick chooser.initial first others).2
        (chooser.pick chooser.initial first others).1 steps sizes) :
      Draws system chooser count (.listed (chooser.pick chooser.initial first others).1 steps)
        ((others.length + 1) :: sizes)

variable {path : Path}

theorem exists_draws_of_randomPath (found : randomPath system chooser count = .ok path) :
    ∃ sizes, Draws system chooser count path sizes := by
  have nonneg : (0 : Int) ≤ count := Int.natCast_nonneg count
  cases initial_eq : system.initialStates with
  | nil =>
      rw [randomPath_of_empty initial_eq nonneg] at found
      cases found
  | cons first others =>
      have within : (count : Int) ≤ maxSteps := by
        by_contra beyond
        rw [randomPath_of_tooMany (by simp [initial_eq]) (Int.not_le.mp beyond)] at found
        cases found
      cases walked : walk system chooser count (chooser.pick chooser.initial first others).2
          (chooser.pick chooser.initial first others).1 with
      | error fault =>
          simp [randomPath, forPath, RandomRun.take, initial_eq, walked, Int.not_lt.mpr nonneg,
            Int.not_lt.mpr within] at found
      | ok run =>
          rw [randomPath, forPath_of_walk initial_eq nonneg within walked, Result.ok_bind] at found
          cases sound : run.fault? with
          | some fault => simp [after, toPath, sound] at found
          | none =>
              simp only [after, toPath, sound, MonadCells.ofResult_result, Except.ok.injEq] at found
              rw [← found]
              exact ⟨_, .mk within initial_eq (walks_of_walk walked sound)⟩

namespace Draws

theorem exists_forPath (draws : Draws system chooser count path sizes) :
    ∃ run, forPath system chooser count = .ok run ∧ run.toPath = .ok path ∧ run.sizes = sizes := by
  rcases draws with @⟨first, others, steps, sizes, within, initial_eq, walks⟩
  have nonneg : (0 : Int) ≤ count := Int.natCast_nonneg count
  exact ⟨_, forPath_of_walk initial_eq nonneg within walks.walk_eq, rfl, rfl⟩

theorem randomPath_eq (draws : Draws system chooser count path sizes) :
    randomPath system chooser count = .ok path := by
  rcases draws.exists_forPath with ⟨run, run_eq, path_eq, _⟩
  rw [randomPath, run_eq, Result.ok_bind]
  exact path_eq

theorem length_sizes (draws : Draws system chooser count path sizes) :
    sizes.length = 1 + path.length := by
  rcases draws with ⟨_, _, walks⟩
  rw [List.length_cons, walks.length_sizes, Path.length, Nat.add_comm]

theorem take (draws : Draws system chooser count path sizes) {fewer : Nat} (le : fewer ≤ count) :
    Draws system chooser fewer (.listed path.head (path.steps.take fewer)) (sizes.take (fewer + 1)) := by
  rcases draws with ⟨within, initial_eq, walks⟩
  rw [Path.steps_listed, List.take_succ_cons]
  exact .mk (Int.le_trans (Int.ofNat_le.mpr le) within) initial_eq (walks.take le)

theorem randomPath_of_agree (draws : Draws system chooser count path sizes)
    (initial_eq' : other.initialStates = system.initialStates)
    (agree : ∀ state ∈ path.states.take count, other.transitions state = system.transitions state) :
    randomPath other chooser count = .ok path := by
  have drawsAlike : Draws other chooser count path sizes := by
    rcases draws with ⟨within, initial_eq, walks⟩
    refine .mk within (initial_eq'.trans initial_eq) (walks.congr ?_)
    intro state state_mem
    rw [agree state state_mem]
  exact drawsAlike.randomPath_eq

/-- A path that is as long as was asked for does not ask for the transitions of its last state, unless it
was there before. -/
theorem randomPath_of_agree_elsewhere (draws : Draws system chooser count path sizes)
    (full : path.length = count) (fresh : path.last.isIn path.states.dropLast = false)
    (initial_eq : other.initialStates = system.initialStates)
    (agree : ∀ state, (state == path.last) = false → other.transitions state = system.transitions state) :
    randomPath other chooser count = .ok path := by
  apply draws.randomPath_of_agree initial_eq
  intro state state_mem
  rw [← full, ← Path.dropLast_states] at state_mem
  apply agree
  rw [Bool.eq_false_iff]
  intro equal
  rw [Value.isIn_iff.mpr ⟨state, state_mem, equal⟩] at fresh
  cases fresh

theorem outcome_randomPath_recorded (draws : Draws system chooser count path sizes) :
    Recording.outcome (randomPath system.recorded chooser count) [] =
      (.ok path, path.states.take count) := by
  rcases draws with @⟨first, others, steps, sizes, within, initial_eq, walks⟩
  have nonneg : (0 : Int) ≤ count := Int.natCast_nonneg count
  have initial_eq' : system.recorded.initialStates = first :: others := initial_eq
  simp only [randomPath, forPath, if_neg (Int.not_lt.mpr nonneg), if_neg (Int.not_lt.mpr within),
    Int.toNat_natCast, RandomRun.take, initial_eq', Recording.outcome_bind, walks.outcome_walk_recorded,
    Recording.outcome_pure, Recording.outcome_ofResult, toPath, List.nil_append]

end Draws

end RandomRun

/-- Random paths are lazy. With the same choices, a path that is cut shorter succeeds if a longer one does
and is its beginning. It makes one choice for its head and one for each step, and it asks for the
transitions of the states that it tries to leave, which are all but the last one of a path that is as long
as was asked for. So it is the same path in every system that agrees on these states, whatever happens in
a last state that it comes to only once. -/
theorem randomPath_lazy {system : TransitionSystem Result} {chooser : Chooser} {count larger : Nat}
    (le : count ≤ larger) {longer : Path} (found : randomPath system chooser larger = .ok longer) :
    ∃ path, randomPath system chooser count = .ok path ∧ path.head = longer.head ∧
      path.steps = longer.steps.take (min count longer.length) ∧
      (∃ run, RandomRun.forPath system chooser count = .ok run ∧ run.sizes.length = 1 + path.length) ∧
      Recording.outcome (randomPath system.recorded chooser count) [] =
        (.ok path, path.states.take count) ∧
      (∀ other : TransitionSystem Result, other.initialStates = system.initialStates →
        (∀ state ∈ path.states.take count, other.transitions state = system.transitions state) →
          randomPath other chooser count = .ok path) ∧
      (path.length = count → path.last.isIn path.states.dropLast = false →
        ∀ other : TransitionSystem Result, other.initialStates = system.initialStates →
          (∀ state, (state == path.last) = false →
            other.transitions state = system.transitions state) →
              randomPath other chooser count = .ok path) := by
  rcases RandomRun.exists_draws_of_randomPath found with ⟨sizes, draws⟩
  have shorter := draws.take le
  rcases shorter.exists_forPath with ⟨run, run_eq, _, sizes_eq⟩
  refine ⟨_, shorter.randomPath_eq, rfl, ?_, ⟨run, run_eq, ?_⟩, shorter.outcome_randomPath_recorded,
    fun other => shorter.randomPath_of_agree,
    fun full fresh other => shorter.randomPath_of_agree_elsewhere full fresh⟩
  · rw [Path.steps_listed, Path.length_eq]
    exact List.take_eq_take_min
  · rw [sizes_eq]
    exact shorter.length_sizes

/-- A merging system that fails in one of its states. -/
def mergingUpToTwo : TransitionSystem Result :=
  { TransitionSystem.merging with
    transitions := fun state =>
      if state == .int 2 then .atOnce (.error (.raised "no transitions"))
      else TransitionSystem.merging.transitions state }

/-- A random path of one step through a merging system, which goes on for ever in the state that this step
leads into. The path is the same if the system fails there. -/
theorem randomPath_lazy_merging :
    randomPath TransitionSystem.merging (.ofScript [0, 2]) (3 : Nat) =
        .ok (.listed (.int 0) [⟨.str "jump", .int 2⟩, ⟨.str "stay", .int 2⟩, ⟨.str "stay", .int 2⟩]) ∧
      1 ≤ 3 ∧ (mergingUpToTwo.transitions (.int 2)).toList = .error (.raised "no transitions") ∧
      randomPath mergingUpToTwo (.ofScript [0, 2]) (1 : Nat) =
        .ok (.listed (.int 0) [⟨.str "jump", .int 2⟩]) := by
  have found : randomPath TransitionSystem.merging (.ofScript [0, 2]) (3 : Nat) =
      .ok (.listed (.int 0) [⟨.str "jump", .int 2⟩, ⟨.str "stay", .int 2⟩, ⟨.str "stay", .int 2⟩]) := rfl
  refine ⟨found, by decide, rfl, ?_⟩
  rcases randomPath_lazy (show 1 ≤ 3 by decide) found with ⟨path, path_eq, _, _, _, _, _, unchanged⟩
  have computed : randomPath TransitionSystem.merging (.ofScript [0, 2]) (1 : Nat) =
      .ok (.listed (.int 0) [⟨.str "jump", .int 2⟩]) := rfl
  rw [computed, Except.ok.injEq] at path_eq
  rw [← path_eq] at unchanged
  apply unchanged rfl rfl mergingUpToTwo rfl
  intro state differs
  have elsewhere : (state == .int 2) = false := differs
  simp [mergingUpToTwo, elsewhere]

end StateSpace
