import StateSpace.Proofs.Reachability
import StateSpace.Proofs.Search.Run

/-!
# Exploration of well-formed systems

In a well-formed system no fault arises, and the rounds of a search can be described without its
counters and its index: a round drops the records of reported states from the top of the stack, reports
the next record and puts the successors of its state in its place. `TransitionSystem.Explores` says so.
It also keeps, for every record, the positions of the choices that led to it: the position of an initial
state, then the position of a transition for each step.

`Search.next_of_stage` relates such rounds to `Search.next`. What holds of every exploration is proved
by induction on its rounds.
-/

namespace StateSpace

/-- A record with the positions of the choices that led to it. -/
structure Placed extends Record where
  positions : List Nat

namespace Placed

/-- The states of a list of records. -/
def states (records : List Placed) : List Value :=
  records.map fun placed => placed.state

@[simp]
theorem states_append (records others : List Placed) :
    states (records ++ others) = states records ++ states others :=
  List.map_append

@[simp]
theorem states_singleton (placed : Placed) : states [placed] = [placed.state] :=
  rfl

theorem map_state_toRecord (records : List Placed) :
    (records.map Placed.toRecord).map Record.state = states records := by
  simp [states]

/-- The records of the transitions that leave the state of a record. -/
def successors (placed : Placed) (pairs : List (Value × Value)) : List Placed :=
  pairs.mapIdx fun position pair =>
    { state := pair.2
      path := placed.path.extend pair.1 pair.2
      positions := placed.positions ++ [position] }

theorem mem_successors_iff {placed successor : Placed} {pairs : List (Value × Value)} :
    successor ∈ placed.successors pairs ↔
      ∃ position pair, pairs[position]? = some pair ∧
        successor = ⟨⟨pair.2, placed.path.extend pair.1 pair.2⟩, placed.positions ++ [position]⟩ := by
  simp only [successors, List.mem_iff_getElem?, List.getElem?_mapIdx, Option.map_eq_some_iff]
  constructor
  · rintro ⟨position, pair, found, rfl⟩
    exact ⟨position, pair, found, rfl⟩
  · rintro ⟨position, pair, found, rfl⟩
    exact ⟨position, pair, found, rfl⟩

theorem map_toRecord_successors (placed : Placed) (pairs : List (Value × Value)) :
    (placed.successors pairs).map Placed.toRecord =
      pairs.map fun pair => ⟨pair.2, placed.path.extend pair.1 pair.2⟩ := by
  apply List.ext_getElem?
  intro position
  simp [successors, Function.comp_def]

end Placed

namespace TransitionSystem

/-- The records of the initial states. -/
def starts (system : TransitionSystem Result) : List Placed :=
  system.initialStates.mapIdx fun position state =>
    { state, path := .single state, positions := [position] }

theorem mem_starts_iff {system : TransitionSystem Result} {placed : Placed} :
    placed ∈ system.starts ↔
      ∃ position state, system.initialStates[position]? = some state ∧
        placed = ⟨⟨state, .single state⟩, [position]⟩ := by
  simp only [starts, List.mem_iff_getElem?, List.getElem?_mapIdx, Option.map_eq_some_iff]
  constructor
  · rintro ⟨position, state, found, rfl⟩
    exact ⟨position, state, found, rfl⟩
  · rintro ⟨position, state, found, rfl⟩
    exact ⟨position, state, found, rfl⟩

theorem map_toRecord_starts (system : TransitionSystem Result) :
    system.starts.map Placed.toRecord = system.initialStates.map fun state => ⟨state, .single state⟩ := by
  apply List.ext_getElem?
  intro position
  simp [starts, Function.comp_def]

/-- After some rounds of a search, the records reported so far and those on the stack. -/
inductive Explores (system : TransitionSystem Result) : List Placed → List Placed → Prop where
  | start : Explores system [] system.starts
  | round {reported dropped rest : List Placed} {placed : Placed} {pairs : List (Value × Value)}
      (earlier : Explores system reported (dropped ++ placed :: rest))
      (dropped_seen : ∀ record ∈ dropped, record.state.isIn (Placed.states reported) = true)
      (fresh : placed.state.isIn (Placed.states reported) = false)
      (listed : system.Lists placed.state pairs) :
      Explores system (reported ++ [placed]) (placed.successors pairs ++ rest)

/-- A record that the rounds so far have put on the stack. -/
def Generates (system : TransitionSystem Result) (reported : List Placed) (placed : Placed) : Prop :=
  placed ∈ system.starts ∨
    ∃ source ∈ reported, ∃ pairs, system.Lists source.state pairs ∧ placed ∈ source.successors pairs

variable {system : TransitionSystem Result}

theorem Generates.append {reported : List Placed} {placed : Placed}
    (generated : system.Generates reported placed) (more : List Placed) :
    system.Generates (reported ++ more) placed := by
  rcases generated with start_mem | ⟨source, source_mem, successor⟩
  · exact .inl start_mem
  · exact .inr ⟨source, List.mem_append_left _ source_mem, successor⟩

namespace Explores

/-- No state is reported twice. -/
theorem distinct {reported pending : List Placed} (explores : system.Explores reported pending) :
    Value.Distinct (Placed.states reported) := by
  induction explores with
  | start => exact List.Pairwise.nil
  | round _ _ fresh _ ih =>
      rw [Placed.states_append, Placed.states_singleton]
      exact Value.distinct_concat.mpr ⟨ih, fresh⟩

/-- Every record has come from an initial state or from a reported record. -/
theorem generates {reported pending : List Placed} (explores : system.Explores reported pending)
    {placed : Placed} (placed_mem : placed ∈ reported ++ pending) :
    system.Generates reported placed := by
  induction explores generalizing placed with
  | start => exact .inl placed_mem
  | @round reported dropped rest source pairs _ _ _ listed ih =>
      rw [List.append_assoc, List.mem_append, List.mem_append, List.mem_append] at placed_mem
      rcases placed_mem with old | same | new | below
      · exact (ih (by simp [old])).append [source]
      · rw [List.mem_singleton.mp same]
        exact (ih (by simp)).append [source]
      · exact .inr ⟨source, by simp, pairs, listed, new⟩
      · exact (ih (by simp [below])).append [source]

/-- What holds of the records of the initial states and passes from a record to its successors holds of
every record. -/
theorem forall_record (holds : Placed → Prop) (initial : ∀ placed ∈ system.starts, holds placed)
    (passes : ∀ {source : Placed} {pairs : List (Value × Value)}, holds source →
      system.Lists source.state pairs → ∀ successor ∈ source.successors pairs, holds successor)
    {reported pending : List Placed} (explores : system.Explores reported pending) {placed : Placed}
    (placed_mem : placed ∈ reported ++ pending) : holds placed := by
  have of_generates : ∀ {reported : List Placed}, (∀ source ∈ reported, holds source) →
      ∀ {placed : Placed}, system.Generates reported placed → holds placed := by
    intro reported reported_hold placed generated
    rcases generated with start_mem | ⟨source, source_mem, pairs, listed, successor_mem⟩
    · exact initial placed start_mem
    · exact passes (reported_hold source source_mem) listed placed successor_mem
  have reported_hold : ∀ source ∈ reported, holds source := by
    clear placed_mem
    induction explores with
    | start => simp
    | @round reported dropped rest source pairs earlier _ _ _ ih =>
        intro record record_mem
        rcases List.mem_append.mp record_mem with old | same
        · exact ih record old
        · rw [List.mem_singleton.mp same]
          exact of_generates ih (earlier.generates (by simp))
  exact of_generates reported_hold (explores.generates placed_mem)

/-- The path of every record is valid and ends in its state. -/
theorem witness {reported pending : List Placed} (explores : system.Explores reported pending)
    {placed : Placed} (placed_mem : placed ∈ reported ++ pending) :
    placed.path.last = placed.state ∧ placed.path.isValidIn system = .ok true := by
  refine explores.forall_record
    (fun placed => placed.path.last = placed.state ∧ placed.path.isValidIn system = .ok true)
    ?_ ?_ placed_mem
  · intro placed start_mem
    rcases mem_starts_iff.mp start_mem with ⟨position, state, found, rfl⟩
    refine ⟨rfl, Path.isValidIn_iff.mpr ⟨?_, ?_⟩⟩
    · exact Value.isIn_of_mem (List.mem_of_getElem? found)
    · simp [Path.single, Path.followsFrom]
  · rintro source pairs ⟨last_eq, valid⟩ listed successor successor_mem
    rcases Placed.mem_successors_iff.mp successor_mem with ⟨position, pair, found, rfl⟩
    refine ⟨rfl, Path.isValidIn_extend_iff.mpr ⟨valid, ?_⟩⟩
    rw [last_eq, Successors.has_of_toList listed, Except.ok.injEq]
    exact Value.isIn_of_mem (List.mem_map_of_mem (List.mem_of_getElem? found))

theorem hasState (wellFormed : system.WellFormed) {reported pending : List Placed}
    (explores : system.Explores reported pending) {placed : Placed}
    (placed_mem : placed ∈ reported ++ pending) : system.HasState placed.state := by
  rcases explores.witness placed_mem with ⟨last_eq, valid⟩
  rw [← last_eq]
  exact wellFormed.hasState_last valid

/-- A record that was put on the stack is still there, or a record of its state was reported. Whatever
relates each reported record to all that are still on the stack relates those two. -/
theorem pending_or_reported (relation : Placed → Placed → Prop) (refl : ∀ placed, relation placed placed)
    (ordered : ∀ {reported pending : List Placed}, system.Explores reported pending →
      ∀ earlier ∈ reported, ∀ later ∈ pending, relation earlier later)
    {reported pending : List Placed} (explores : system.Explores reported pending) {placed : Placed}
    (generated : system.Generates reported placed) :
    placed ∈ pending ∨
      ∃ earlier ∈ reported, (earlier.state == placed.state) = true ∧ relation earlier placed := by
  induction explores generalizing placed with
  | start =>
      rcases generated with start_mem | ⟨source, source_mem, _⟩
      · exact .inl start_mem
      · simp at source_mem
  | @round reported dropped rest source pairs earlier dropped_seen fresh listed ih =>
      -- a record from before this round was dropped, is the one reported, or stays below
      have old : system.Generates reported placed →
          placed ∈ source.successors pairs ++ rest ∨
            ∃ first ∈ reported ++ [source],
              (first.state == placed.state) = true ∧ relation first placed := by
        intro generated
        rcases ih generated with pending_mem | ⟨first, first_mem, equal, related⟩
        · rcases List.mem_append.mp pending_mem with dropped_mem | kept_mem
          · rcases Value.isIn_iff.mp (dropped_seen placed dropped_mem) with ⟨state, state_mem, equal⟩
            rcases List.mem_map.mp state_mem with ⟨first, first_mem, rfl⟩
            exact .inr ⟨first, List.mem_append_left _ first_mem, equal,
              ordered earlier first first_mem placed (List.mem_append_left _ dropped_mem)⟩
          · rcases List.mem_cons.mp kept_mem with rfl | below
            · exact .inr ⟨placed, by simp, BEq.rfl, refl placed⟩
            · exact .inl (List.mem_append_right _ below)
        · exact .inr ⟨first, List.mem_append_left _ first_mem, equal, related⟩
      rcases generated with start_mem | ⟨origin, origin_mem, pairs', listed', placed_mem⟩
      · exact old (.inl start_mem)
      · rcases List.mem_append.mp origin_mem with origin_old | origin_new
        · exact old (.inr ⟨origin, origin_old, pairs', listed', placed_mem⟩)
        · rw [List.mem_singleton.mp origin_new] at listed' placed_mem
          rw [listed'.unique listed] at placed_mem
          exact .inl (List.mem_append_left _ placed_mem)

/-- Once the records on the stack are all of reported states, so is every record that was put there. -/
theorem isIn_of_generates {reported pending : List Placed} (explores : system.Explores reported pending)
    (pending_seen : ∀ placed ∈ pending, placed.state.isIn (Placed.states reported) = true)
    (placed : Placed) (generated : system.Generates reported placed) :
    placed.state.isIn (Placed.states reported) = true := by
  rcases pending_or_reported (fun _ _ => True) (fun _ => trivial) (fun _ _ _ _ _ => trivial)
    explores generated with pending_mem | ⟨earlier, earlier_mem, equal, _⟩
  · exact pending_seen placed pending_mem
  · exact Value.isIn_iff.mpr ⟨earlier.state, List.mem_map_of_mem earlier_mem, equal⟩

theorem isIn_of_initial {reported pending : List Placed} (explores : system.Explores reported pending)
    (pending_seen : ∀ placed ∈ pending, placed.state.isIn (Placed.states reported) = true)
    {state : Value} (mem : state ∈ system.initialStates) : state.isIn (Placed.states reported) = true := by
  rcases List.mem_iff_getElem?.mp mem with ⟨position, found⟩
  apply explores.isIn_of_generates pending_seen ⟨⟨state, .single state⟩, [position]⟩
  exact .inl (mem_starts_iff.mpr ⟨position, state, found, rfl⟩)

theorem isIn_of_transition {reported pending : List Placed} (explores : system.Explores reported pending)
    (pending_seen : ∀ placed ∈ pending, placed.state.isIn (Placed.states reported) = true)
    {placed : Placed} (placed_mem : placed ∈ reported) {pairs : List (Value × Value)}
    (listed : system.Lists placed.state pairs) {pair : Value × Value} (mem : pair ∈ pairs) :
    pair.2.isIn (Placed.states reported) = true := by
  rcases List.mem_iff_getElem?.mp mem with ⟨position, found⟩
  apply explores.isIn_of_generates pending_seen
    ⟨⟨pair.2, placed.path.extend pair.1 pair.2⟩, placed.positions ++ [position]⟩
  exact .inr ⟨placed, placed_mem, pairs, listed,
    Placed.mem_successors_iff.mpr ⟨position, pair, found, rfl⟩⟩

/-- Once the records on the stack are all of reported states, every state of the system was reported. -/
theorem isIn_reported (wellFormed : system.WellFormed) {reported pending : List Placed}
    (explores : system.Explores reported pending)
    (pending_seen : ∀ placed ∈ pending, placed.state.isIn (Placed.states reported) = true)
    {state : Value} (hasState : system.HasState state) :
    state.isIn (Placed.states reported) = true := by
  rcases hasState with ⟨reached, reachable, equal⟩
  rw [← Value.isIn_congr equal]
  clear equal
  induction reachable with
  | initial mem => exact explores.isIn_of_initial pending_seen mem
  | @step state action target pairs source listed mem ih =>
      rcases Value.isIn_iff.mp ih with ⟨value, value_mem, equal⟩
      rcases List.mem_map.mp value_mem with ⟨placed, placed_mem, rfl⟩
      rcases List.mem_iff_getElem?.mp mem with ⟨position, found⟩
      rcases wellFormed.transition_congr source.hasState (BEq.symm equal) listed found with
        ⟨pairs', pair', listed', found', _, equal'⟩
      rw [Value.isIn_congr equal']
      exact explores.isIn_of_transition pending_seen placed_mem listed' (List.mem_of_getElem? found')

theorem isIn_reported_iff (wellFormed : system.WellFormed) {reported pending : List Placed}
    (explores : system.Explores reported pending)
    (pending_seen : ∀ placed ∈ pending, placed.state.isIn (Placed.states reported) = true)
    (state : Value) : state.isIn (Placed.states reported) = true ↔ system.HasState state := by
  constructor
  · intro found
    rcases Value.isIn_iff.mp found with ⟨value, value_mem, equal⟩
    rcases List.mem_map.mp value_mem with ⟨placed, placed_mem, rfl⟩
    exact (explores.hasState wellFormed (List.mem_append_left _ placed_mem)).congr equal
  · exact explores.isIn_reported wellFormed pending_seen

end Explores

end TransitionSystem

namespace Search

variable {system : TransitionSystem Result}

theorem unpack_pairs (pairs : List (Value × Value)) :
    unpack (pairs.map fun pair => .pair pair.1 pair.2) = .ok pairs := by
  induction pairs with
  | nil => rfl
  | cons pair pairs ih =>
      have first : (Value.pair pair.1 pair.2).asPair = .ok pair := rfl
      simp [unpack, ih, first]

theorem expand_of_lists {placed : Placed} {pairs : List (Value × Value)}
    (listed : system.Lists placed.state pairs) :
    expand system.transitions placed.toRecord = .ok ((placed.successors pairs).map Placed.toRecord) := by
  unfold TransitionSystem.Lists at listed
  simp [expand, listed, unpack_pairs, Placed.map_toRecord_successors]

/-- A search that has reported some records and has others on its stack. -/
structure Stage (system : TransitionSystem Result) (search : Search)
    (reported pending : List Placed) : Prop where
  visited_eq : search.visited.members = (Placed.states reported).reverse
  frontier_eq : search.frontier system.transitions = .ok (pending.map Placed.toRecord)
  explores : system.Explores reported pending

theorem stage_search (system : TransitionSystem Result) :
    Stage system system.search [] system.starts where
  visited_eq := rfl
  frontier_eq := by
    simp [frontier, TransitionSystem.search, start, TransitionSystem.map_toRecord_starts]
  explores := .start

theorem Stage.isIn_visited {search : Search} {reported pending : List Placed}
    (stage : Stage system search reported pending) (state : Value) :
    state.isIn search.visited.members = state.isIn (Placed.states reported) := by
  rw [stage.visited_eq, Value.isIn, List.any_reverse, Value.isIn]

/-- What a search reports next was on its stack, below records of reported states. If the transitions of
the reported state can be listed, this is one more round. -/
theorem Stage.of_reported {search following : Search} {record : Record} {reported pending : List Placed}
    (stage : Stage system search reported pending)
    (advances : search.next system.transitions = .reported record following) :
    ∃ placed ∈ pending, placed.toRecord = record ∧
      ∀ pairs, system.Lists placed.state pairs →
        ∃ pending', Stage system following (reported ++ [placed]) pending' := by
  rw [next_of_frontier stage.frontier_eq] at advances
  rcases pop_cases search.visited search.popped (pending.map Placed.toRecord) with
    ⟨_, ended⟩ | ⟨dropped, top, rest, split, seen, ⟨fault, _, failed⟩ | ⟨_, fresh, reported_eq⟩⟩
  · rw [ended] at advances
    cases advances
  · rw [failed] at advances
    cases advances
  · rw [reported_eq, Advance.reported.injEq] at advances
    rcases advances with ⟨rfl, rfl⟩
    rcases List.map_eq_append_iff.mp split with ⟨droppedPlaced, others, rfl, rfl, split'⟩
    rcases List.map_eq_cons_iff.mp split' with ⟨placed, restPlaced, rfl, rfl, rfl⟩
    refine ⟨placed, by simp, rfl, fun pairs listed => ⟨placed.successors pairs ++ restPlaced, ?_, ?_, ?_⟩⟩
    · simp [stage.visited_eq]
    · simp [frontier, expand_of_lists listed]
    · refine stage.explores.round ?_ ?_ listed
      · intro earlier earlier_mem
        rw [← stage.isIn_visited]
        exact seen _ (List.mem_map_of_mem earlier_mem)
      · rw [← stage.isIn_visited]
        exact fresh

/-- A search that ends has only records of reported states on its stack. -/
theorem Stage.seen_of_exhausted {search ended : Search} {reported pending : List Placed}
    (stage : Stage system search reported pending)
    (stops : search.next system.transitions = .exhausted ended) :
    ∀ placed ∈ pending, placed.state.isIn (Placed.states reported) = true := by
  rw [next_of_frontier stage.frontier_eq] at stops
  rcases pop_cases search.visited search.popped (pending.map Placed.toRecord) with
    ⟨seen, _⟩ | ⟨_, _, _, _, _, ⟨_, _, failed⟩ | ⟨_, _, reported_eq⟩⟩
  · intro placed placed_mem
    rw [← stage.isIn_visited]
    exact seen _ (List.mem_map_of_mem placed_mem)
  · rw [failed] at stops
    cases stops
  · rw [reported_eq] at stops
    cases stops

/-- A search that fails without asking for transitions has a record of a state on its stack that cannot be
a key. -/
theorem Stage.unhashable_of_failed {search stopped : Search} {fault : Fault} {reported pending : List Placed}
    (stage : Stage system search reported pending)
    (fails : search.next system.transitions = .failed fault stopped) :
    ∃ placed ∈ pending, placed.state.requireHashable = .error fault := by
  rw [next_of_frontier stage.frontier_eq] at fails
  rcases pop_cases search.visited search.popped (pending.map Placed.toRecord) with
    ⟨_, ended⟩ | ⟨dropped, top, rest, split, _, ⟨_, unhashable, failed⟩ | ⟨_, _, reported_eq⟩⟩
  · rw [ended] at fails
    cases fails
  · rw [failed, Advance.failed.injEq] at fails
    rcases fails with ⟨rfl, rfl⟩
    have top_mem : top ∈ pending.map Placed.toRecord := by simp [split]
    rcases List.mem_map.mp top_mem with ⟨placed, placed_mem, rfl⟩
    exact ⟨placed, placed_mem, unhashable⟩
  · rw [reported_eq] at fails
    cases fails

/-- A search of a well-formed system never fails. It ends when all records on its stack are of reported
states, and otherwise it goes through one more round. -/
theorem next_of_stage (wellFormed : system.WellFormed) {search : Search}
    {reported pending : List Placed} (stage : Stage system search reported pending) :
    (∀ placed ∈ pending, placed.state.isIn (Placed.states reported) = true) ∧
        (∃ ended, search.next system.transitions = .exhausted ended) ∨
      ∃ placed following pending',
        search.next system.transitions = .reported placed.toRecord following ∧
          Stage system following (reported ++ [placed]) pending' := by
  have hasState : ∀ placed ∈ pending, system.HasState placed.state := fun placed placed_mem =>
    stage.explores.hasState wellFormed (List.mem_append_right _ placed_mem)
  cases advances : search.next system.transitions with
  | exhausted ended => exact .inl ⟨stage.seen_of_exhausted advances, ended, rfl⟩
  | failed fault stopped =>
      rcases stage.unhashable_of_failed advances with ⟨placed, placed_mem, unhashable⟩
      rw [Value.requireHashable_eq_ok_iff.mpr (wellFormed.hashable (hasState placed placed_mem))] at unhashable
      cases unhashable
  | reported record following =>
      rcases stage.of_reported advances with ⟨placed, placed_mem, rfl, goesOn⟩
      rcases wellFormed.listed (hasState placed placed_mem) with ⟨pairs, listed⟩
      rcases goesOn pairs listed with ⟨pending', stage'⟩
      exact .inr ⟨placed, following, pending', rfl, stage'⟩

/-- Whatever a search of a well-formed system has reported is an exploration of the system. -/
theorem stage_of_reports (wellFormed : system.WellFormed) {records : List Record} {search : Search}
    (reports : Reports system.transitions system.search records search) :
    ∃ reported pending, reported.map Placed.toRecord = records ∧
      Stage system search reported pending := by
  induction reports with
  | none => exact ⟨[], system.starts, rfl, stage_search system⟩
  | @next records record search search' _ advances ih =>
      rcases ih with ⟨reported, pending, rfl, stage⟩
      rcases next_of_stage wellFormed stage with ⟨_, ended, next_eq⟩ | ⟨placed, following, pending', next_eq, stage'⟩
      · rw [next_eq] at advances
        cases advances
      · rw [next_eq, Advance.reported.injEq] at advances
        rcases advances with ⟨rfl, rfl⟩
        exact ⟨reported ++ [placed], pending', by simp, stage'⟩

end Search

end StateSpace
