import Mathlib.Data.List.Nodup
import StateSpace.Proofs.Search.Positions

/-!
# The blocks of a search

A search is depth first because it reports everything that it finds by way of a state before it turns to
anything else. The records whose paths continue the path of a reported record follow that record without
a gap, and their states are those that can be reached from its state around the states reported before.

Positions turn this into facts about the lexicographic order. The reported positions ascend, and those
that continue given positions are an interval. A path around the states reported before never leaves the
interval: each of its steps puts a record of the interval on the stack, so that the state it leads into
was reported no later than that record, and not before the interval begins.
-/

namespace StateSpace

namespace Positions

theorem le_of_prefix {positions others : List Nat} (begins : positions <+: others) :
    positions ≤ others := by
  rcases begins with ⟨further, rfl⟩
  cases further with
  | nil => rw [List.append_nil]
  | cons position further =>
      simpa using (@List.append_left_lt Nat _ positions [] _ (List.nil_lt_cons position further)).le

theorem prefix_of_between {positions others further : List Nat} (above : positions ≤ others)
    (below : others ≤ positions ++ further) : positions <+: others := by
  by_contra apart
  have less : positions < others := lt_of_le_of_ne above fun same => apart (same ▸ List.prefix_rfl)
  exact absurd (precedes_of_lt less apart further) (not_lt.mpr below)

end Positions

namespace Placed

/-- Among records with ascending positions, those that continue given positions come first. -/
theorem split_continuing {positions : List Nat} {records : List Placed}
    (ascending : records.Pairwise fun placed later => placed.positions < later.positions)
    (above : ∀ placed ∈ records, positions < placed.positions) :
    ∃ continuing others, records = continuing ++ others ∧
      (∀ placed ∈ continuing, positions <+: placed.positions) ∧
      ∀ placed ∈ others, ¬ positions <+: placed.positions := by
  induction records with
  | nil => exact ⟨[], [], rfl, by simp, by simp⟩
  | cons first records ih =>
      rcases List.pairwise_cons.mp ascending with ⟨first_less, ascending⟩
      by_cases begins : positions <+: first.positions
      · rcases ih ascending (fun placed placed_mem => above placed (List.mem_cons_of_mem _ placed_mem))
          with ⟨continuing, others, rfl, begin, apart⟩
        exact ⟨first :: continuing, others, rfl, List.forall_mem_cons.mpr ⟨begins, begin⟩, apart⟩
      · refine ⟨[], first :: records, rfl, by simp, List.forall_mem_cons.mpr ⟨begins, ?_⟩⟩
        rintro placed placed_mem ⟨further, continued⟩
        -- everything that continues the positions comes before the first record that does not
        have before := Positions.precedes_of_lt (above first (by simp)) begins further
        rw [continued] at before
        exact lt_asymm before (first_less placed placed_mem)

end Placed

namespace Path

/-- Whether a path begins with another, up to equality of its head and its steps. -/
def beginsWith (path first : Path) : Bool :=
  first.head == path.head && first.steps.isPrefixOf path.steps

theorem eq_nil_of_isPrefixOf_nil {steps : List Step} (begins : steps.isPrefixOf [] = true) :
    steps = [] := by
  cases steps with
  | nil => rfl
  | cons step steps => simp at begins

theorem isPrefixOf_concat {head : Value} {steps others : List Step} {step : Step}
    (begins : steps.isPrefixOf (others ++ [step]) = true) :
    steps.isPrefixOf others = true ∨ ((listed head steps).last == step.state) = true := by
  induction steps generalizing head others with
  | nil => exact .inl rfl
  | cons first steps ih =>
      cases others with
      | nil =>
          simp only [List.nil_append, List.isPrefixOf_cons_cons, Bool.and_eq_true] at begins
          have same : (first.action == step.action && first.state == step.state) = true := begins.1
          rw [Bool.and_eq_true] at same
          rw [eq_nil_of_isPrefixOf_nil begins.2]
          exact .inr same.2
      | cons other others =>
          simp only [List.cons_append, List.isPrefixOf_cons_cons, Bool.and_eq_true] at begins ⊢
          rw [last_listed_cons]
          rcases @ih first.state others begins.2 with shorter | ended
          · exact .inl ⟨begins.1, shorter⟩
          · exact .inr ended

/-- A path that begins with another begins with it before its last step, or both end in equal states. -/
theorem beginsWith_extend {path first : Path} {action state : Value}
    (begins : (path.extend action state).beginsWith first = true) :
    path.beginsWith first = true ∨ (first.last == state) = true := by
  simp only [beginsWith, Path.extend, Path.head, steps_extended, Bool.and_eq_true] at begins ⊢
  rcases @isPrefixOf_concat first.head _ _ _ begins.2 with shorter | ended
  · exact .inl ⟨begins.1, shorter⟩
  · rw [last_listed] at ended
    exact .inr ended

theorem beginsWith_single {state : Value} {first : Path}
    (begins : (single state).beginsWith first = true) : (first.last == state) = true := by
  simp only [beginsWith, single, Path.head, steps_listed, Bool.and_eq_true] at begins
  rw [last_eq, eq_nil_of_isPrefixOf_nil begins.2]
  exact begins.1

end Path

namespace TransitionSystem

/-- A path of the system leads from one state to another and passes through none of the avoided states. -/
def ReachesAround (system : TransitionSystem Result) (avoided : List Value) (state target : Value) :
    Prop :=
  ∃ path : Path, (path.head == state) = true ∧
    Path.followsFrom system path.head path.steps = .ok true ∧
    (∀ passed ∈ path.states, passed.isIn avoided = false) ∧ (path.last == target) = true

variable {system : TransitionSystem Result}

namespace Explores

theorem ascending {reported pending : List Placed} (explores : system.Explores reported pending) :
    reported.Pairwise fun placed later => placed.positions < later.positions := by
  induction explores with
  | start => exact List.Pairwise.nil
  | @round reported dropped rest source pairs earlier _ _ _ ih =>
      refine List.pairwise_append.mpr ⟨ih, List.pairwise_singleton _ _, ?_⟩
      intro placed placed_mem last last_mem
      rw [List.mem_singleton.mp last_mem]
      exact earlier.ordered.1 placed placed_mem source (by simp)

theorem eq_of_positions {reported pending : List Placed} (explores : system.Explores reported pending)
    {placed other : Placed} (placed_mem : placed ∈ reported) (other_mem : other ∈ reported)
    (same : placed.positions = other.positions) : placed = other := by
  have nodup : (reported.map Placed.positions).Nodup :=
    List.pairwise_map.mpr (explores.ascending.imp fun less => less.ne)
  exact List.inj_on_of_nodup_map nodup placed_mem other_mem same

/-- What holds of the reported initial states, and passes from a reported record to its successors that
were reported, holds of all reported records. -/
theorem reported_induction (holds : Placed → Prop) {reported pending : List Placed}
    (explores : system.Explores reported pending)
    (initial : ∀ placed ∈ reported, placed ∈ system.starts → holds placed)
    (passes : ∀ source ∈ reported, ∀ pairs, system.Lists source.state pairs → holds source →
      ∀ successor ∈ reported, successor ∈ source.successors pairs → holds successor)
    {placed : Placed} (placed_mem : placed ∈ reported) : holds placed := by
  induction count : placed.positions.length using Nat.strong_induction_on generalizing placed with
  | _ count ih =>
      rcases explores.generates (List.mem_append_left _ placed_mem) with
        start_mem | ⟨source, source_mem, pairs, listed, successor_mem⟩
      · exact initial placed placed_mem start_mem
      · have longer : placed.positions.length = source.positions.length + 1 := by
          rcases Placed.mem_successors_iff.mp successor_mem with ⟨position, pair, _, rfl⟩
          simp
        have source_holds := ih source.positions.length (by omega) source_mem rfl
        exact passes source source_mem pairs listed source_holds placed placed_mem successor_mem

theorem positions_ne_nil {reported pending : List Placed} (explores : system.Explores reported pending)
    {placed : Placed} (placed_mem : placed ∈ reported ++ pending) : placed.positions ≠ [] := by
  intro none
  have placedAt := (explores.isAt placed_mem).2
  rw [none] at placedAt
  exact placedAt.elim

/-- What holds of a reported record, and passes to reported successors, holds of all reported records
whose positions continue those of the record. -/
theorem forall_continuing (holds : Placed → Prop) {reported pending : List Placed}
    (explores : system.Explores reported pending) {top : Placed} (top_mem : top ∈ reported)
    (top_holds : holds top)
    (passes : ∀ source ∈ reported, holds source → ∀ pairs, system.Lists source.state pairs →
      ∀ successor ∈ reported, successor ∈ source.successors pairs →
        top.positions <+: successor.positions → holds successor)
    {placed : Placed} (placed_mem : placed ∈ reported) (continues : top.positions <+: placed.positions) :
    holds placed := by
  have same_holds : ∀ placed ∈ reported, top.positions = placed.positions → holds placed := by
    intro placed placed_mem same
    rwa [← explores.eq_of_positions top_mem placed_mem same]
  refine explores.reported_induction (fun placed => top.positions <+: placed.positions → holds placed)
    ?_ ?_ placed_mem continues
  · intro placed placed_mem start_mem continues
    rcases mem_starts_iff.mp start_mem with ⟨position, state, _, rfl⟩
    rcases List.prefix_concat_iff.mp (show top.positions <+: [] ++ [position] from continues) with
      same | shorter
    · exact same_holds _ placed_mem same
    · exact absurd (List.prefix_nil.mp shorter)
        (explores.positions_ne_nil (List.mem_append_left _ top_mem))
  · intro source source_mem pairs listed source_holds placed placed_mem successor_mem continues
    have split := continues
    rcases Placed.mem_successors_iff.mp successor_mem with ⟨position, pair, _, placed_eq⟩
    rw [placed_eq] at split
    rcases List.prefix_concat_iff.mp split with same | shorter
    · exact same_holds placed placed_mem (by rw [placed_eq, same])
    · exact passes source source_mem (source_holds shorter) pairs listed placed placed_mem
        successor_mem continues

/-- Positions that continue others belong to a path that continues the path of those. -/
theorem steps_prefix {reported pending : List Placed} (explores : system.Explores reported pending)
    {top placed : Placed} (top_mem : top ∈ reported) (placed_mem : placed ∈ reported)
    (continues : top.positions <+: placed.positions) :
    placed.path.head = top.path.head ∧ top.path.steps <+: placed.path.steps := by
  refine explores.forall_continuing
    (fun placed => placed.path.head = top.path.head ∧ top.path.steps <+: placed.path.steps)
    top_mem ⟨rfl, List.prefix_rfl⟩ ?_ placed_mem continues
  rintro source _ ⟨head_eq, steps⟩ pairs _ successor _ successor_mem _
  rcases Placed.mem_successors_iff.mp successor_mem with ⟨position, pair, _, rfl⟩
  refine ⟨head_eq, ?_⟩
  rw [Path.extend, Path.steps_extended]
  exact steps.trans (List.prefix_append _ _)

theorem eq_of_last {reported pending : List Placed} (explores : system.Explores reported pending)
    {top placed : Placed} (top_mem : top ∈ reported) (placed_mem : placed ∈ reported)
    (equal : (top.path.last == placed.state) = true) : top = placed := by
  rw [(explores.isAt (List.mem_append_left _ top_mem)).1] at equal
  exact explores.distinct.eq_of_beq top_mem placed_mem equal

/-- A path that begins with the path of another record, even if only up to equality, belongs to
positions that continue those of the record. -/
theorem continues_of_beginsWith {reported pending : List Placed}
    (explores : system.Explores reported pending) {top placed : Placed} (top_mem : top ∈ reported)
    (placed_mem : placed ∈ reported) (begins : placed.path.beginsWith top.path = true) :
    top.positions <+: placed.positions := by
  have of_last : ∀ placed ∈ reported, (top.path.last == placed.state) = true →
      top.positions <+: placed.positions := by
    intro placed placed_mem equal
    cases explores.eq_of_last top_mem placed_mem equal
    exact List.prefix_rfl
  refine explores.reported_induction
    (fun placed => placed.path.beginsWith top.path = true → top.positions <+: placed.positions)
    ?_ ?_ placed_mem begins
  · intro placed placed_mem start_mem begins
    rcases mem_starts_iff.mp start_mem with ⟨position, state, _, rfl⟩
    exact of_last _ placed_mem (Path.beginsWith_single begins)
  · intro source _ pairs _ source_continues placed placed_mem successor_mem begins
    rcases Placed.mem_successors_iff.mp successor_mem with ⟨position, pair, _, rfl⟩
    rcases Path.beginsWith_extend begins with before | ended
    · exact (source_continues before).trans (List.prefix_append _ _)
    · exact of_last _ placed_mem ended

/-- Once the records on the stack are all of reported states, a record that was put there has a state
that was reported with no greater positions. -/
theorem exists_reported_le {reported pending : List Placed}
    (explores : system.Explores reported pending)
    (pending_seen : ∀ placed ∈ pending, placed.state.isIn (Placed.states reported) = true)
    {placed : Placed} (generated : system.Generates reported placed) :
    ∃ first ∈ reported, (first.state == placed.state) = true ∧ first.positions ≤ placed.positions := by
  rcases explores.pending_or_reported_le generated with pending_mem | found
  · rcases Value.isIn_iff.mp (pending_seen placed pending_mem) with ⟨state, state_mem, equal⟩
    rcases List.mem_map.mp state_mem with ⟨first, first_mem, rfl⟩
    exact ⟨first, first_mem, equal, (explores.ordered.1 first first_mem placed pending_mem).le⟩
  · exact found

section Split

variable {earlier later pending : List Placed} {top : Placed}

theorem mem_of_le (explores : system.Explores (earlier ++ top :: later) pending) {placed : Placed}
    (placed_mem : placed ∈ earlier ++ top :: later) (le : top.positions ≤ placed.positions) :
    placed ∈ top :: later := by
  rcases List.mem_append.mp placed_mem with before | rest
  · have less := (List.pairwise_append.mp explores.ascending).2.2 placed before top (by simp)
    exact absurd le (not_le.mpr less)
  · exact rest

theorem le_of_mem (explores : system.Explores (earlier ++ top :: later) pending) {placed : Placed}
    (placed_mem : placed ∈ top :: later) : top.positions ≤ placed.positions := by
  rcases List.mem_cons.mp placed_mem with rfl | after
  · exact le_rfl
  · exact ((List.pairwise_cons.mp (List.pairwise_append.mp explores.ascending).2.1).1 placed after).le

theorem fresh_of_mem (explores : system.Explores (earlier ++ top :: later) pending) {placed : Placed}
    (placed_mem : placed ∈ top :: later) : placed.state.isIn (Placed.states earlier) = false := by
  have distinct := explores.distinct
  rw [Placed.states_append, Value.Distinct, List.pairwise_append] at distinct
  refine Bool.eq_false_iff.mpr fun found => ?_
  rcases Value.isIn_iff.mp found with ⟨state, state_mem, equal⟩
  rw [distinct.2.2 state state_mem placed.state (List.mem_map_of_mem placed_mem)] at equal
  cases equal

/-- A record that continues another is reached from it around the states reported before. -/
theorem reachesAround_of_continues (wellFormed : system.WellFormed)
    (explores : system.Explores (earlier ++ top :: later) pending) {placed : Placed}
    (placed_mem : placed ∈ earlier ++ top :: later) (continues : top.positions <+: placed.positions) :
    system.ReachesAround (Placed.states earlier) top.state placed.state := by
  refine explores.forall_continuing
    (fun placed => system.ReachesAround (Placed.states earlier) top.state placed.state)
    (by simp) ?_ ?_ placed_mem continues
  · refine ⟨.single top.state, BEq.rfl, ?_, ?_, BEq.rfl⟩
    · simp [Path.single, Path.followsFrom]
    · simpa [Path.states, Path.single, Path.head] using explores.fresh_of_mem (by simp)
  · rintro source source_mem ⟨path, head_equal, follows, around, last_equal⟩ pairs listed successor
      successor_mem successor_of continues
    have fresh := explores.fresh_of_mem (explores.mem_of_le successor_mem (Positions.le_of_prefix continues))
    have hasState := explores.hasState wellFormed (List.mem_append_left _ source_mem)
    rcases Placed.mem_successors_iff.mp successor_of with ⟨position, pair, found, rfl⟩
    rcases wellFormed.transition_congr hasState (BEq.symm last_equal) listed found with
      ⟨others, other, listed', found', action_equal, target_equal⟩
    refine ⟨path.extend pair.1 pair.2, head_equal, ?_, ?_, BEq.rfl⟩
    · have moves : (system.transitions path.last).has (.pair pair.1 pair.2) = .ok true :=
        (wellFormed.has_iff (hasState.congr (BEq.symm last_equal))).mpr
          ⟨others, listed', other, List.mem_of_getElem? found', BEq.symm action_equal,
            BEq.symm target_equal⟩
      rw [Path.extend, Path.steps_extended, Path.head, Path.followsFrom_append_iff, Path.last_listed,
        Path.followsFrom_cons_iff]
      exact ⟨follows, moves, rfl⟩
    · rw [Path.states_extend]
      exact List.forall_mem_append.mpr ⟨around, by simpa using fresh⟩

/-- A path around the states reported before a record, from a state that continues the record, ends in
one that does. -/
theorem continues_of_followsFrom (wellFormed : system.WellFormed)
    (explores : system.Explores (earlier ++ top :: later) pending)
    (pending_seen : ∀ placed ∈ pending,
      placed.state.isIn (Placed.states (earlier ++ top :: later)) = true)
    {current : Value} {steps : List Step} {placed : Placed} (placed_mem : placed ∈ earlier ++ top :: later)
    (continues : top.positions <+: placed.positions) (equal : (placed.state == current) = true)
    (follows : Path.followsFrom system current steps = .ok true)
    (around : ∀ step ∈ steps, step.state.isIn (Placed.states earlier) = false) :
    ∃ last ∈ earlier ++ top :: later, top.positions <+: last.positions ∧
      (last.state == (Path.listed current steps).last) = true := by
  induction steps generalizing current placed with
  | nil => exact ⟨placed, placed_mem, continues, equal⟩
  | cons step steps ih =>
      rw [Path.followsFrom_cons_iff] at follows
      have hasState := explores.hasState wellFormed (List.mem_append_left _ placed_mem)
      rcases (wellFormed.has_iff (hasState.congr equal)).mp follows.1 with
        ⟨pairs, listed, pair, pair_mem, _, reaches⟩
      rcases List.mem_iff_getElem?.mp pair_mem with ⟨position, found⟩
      rcases wellFormed.transition_congr (hasState.congr equal) (BEq.symm equal) listed found with
        ⟨others, other, listed', found', _, target_equal⟩
      -- the same transition from the record put a record on the stack that continues it
      rcases explores.exists_reported_le pending_seen (.inr ⟨placed, placed_mem, others, listed',
        Placed.mem_successors_iff.mpr ⟨position, other, found', rfl⟩⟩) with
        ⟨next, next_mem, next_equal, next_le⟩
      have next_step : (next.state == step.state) = true :=
        BEq.trans next_equal (BEq.trans (BEq.symm target_equal) reaches)
      have next_later : next ∈ top :: later := by
        rcases List.mem_append.mp next_mem with before | rest
        · have seen : next.state.isIn (Placed.states earlier) = true :=
            Value.isIn_of_mem (List.mem_map_of_mem before)
          rw [Value.isIn_congr next_step, around step (by simp)] at seen
          cases seen
        · exact rest
      have next_continues : top.positions <+: next.positions := by
        rcases continues with ⟨further, continued⟩
        have bounded : next.positions ≤ top.positions ++ (further ++ [position]) := by
          rw [← List.append_assoc, continued]
          exact next_le
        exact Positions.prefix_of_between (explores.le_of_mem next_later) bounded
      rw [Path.last_listed_cons]
      exact ih next_mem next_continues next_step follows.2
        fun later_step later_mem => around later_step (List.mem_cons_of_mem _ later_mem)

/-- The records whose paths continue the path of a reported record come right after it, and lead into
the states that are reached from its state around the states reported before. -/
theorem block (wellFormed : system.WellFormed)
    (explores : system.Explores (earlier ++ top :: later) pending)
    (pending_seen : ∀ placed ∈ pending,
      placed.state.isIn (Placed.states (earlier ++ top :: later)) = true) :
    ∃ below after, later = below ++ after ∧
      (∀ inner ∈ top :: below,
        inner.path.head = top.path.head ∧ top.path.steps <+: inner.path.steps) ∧
      (∀ other ∈ earlier ++ after, other.path.beginsWith top.path = false) ∧
      ∀ state : Value, state.isIn (Placed.states (top :: below)) = true ↔
        system.ReachesAround (Placed.states earlier) top.state state := by
  have later_ascending := List.pairwise_cons.mp (List.pairwise_append.mp explores.ascending).2.1
  rcases Placed.split_continuing later_ascending.2 later_ascending.1 with
    ⟨below, after, rfl, continuing, apart⟩
  have top_mem : top ∈ earlier ++ top :: (below ++ after) := by simp
  have inner_mem : ∀ inner ∈ top :: below, inner ∈ earlier ++ top :: (below ++ after) := by
    intro inner inner_mem
    rw [← List.cons_append]
    exact List.mem_append_right _ (List.mem_append_left _ inner_mem)
  have inner_continues : ∀ inner ∈ top :: below, top.positions <+: inner.positions :=
    List.forall_mem_cons.mpr ⟨List.prefix_rfl, continuing⟩
  refine ⟨below, after, rfl, ?_, ?_, ?_⟩
  · intro inner inner_of
    exact explores.steps_prefix top_mem (inner_mem inner inner_of) (inner_continues inner inner_of)
  · intro other other_mem
    refine Bool.eq_false_iff.mpr fun begins => ?_
    rcases List.mem_append.mp other_mem with before | rest
    · have continues := explores.continues_of_beginsWith top_mem (by simp [before]) begins
      have less := (List.pairwise_append.mp explores.ascending).2.2 other before top (by simp)
      exact absurd (Positions.le_of_prefix continues) (not_le.mpr less)
    · exact apart other rest (explores.continues_of_beginsWith top_mem (by simp [rest]) begins)
  · intro state
    constructor
    · intro found
      rcases Value.isIn_iff.mp found with ⟨value, value_mem, equal⟩
      rcases List.mem_map.mp value_mem with ⟨inner, inner_of, rfl⟩
      rcases explores.reachesAround_of_continues wellFormed (inner_mem inner inner_of)
        (inner_continues inner inner_of) with ⟨path, head_equal, follows, around, last_equal⟩
      exact ⟨path, head_equal, follows, around, BEq.trans last_equal equal⟩
    · rintro ⟨path, head_equal, follows, around, last_equal⟩
      rcases explores.continues_of_followsFrom wellFormed pending_seen top_mem List.prefix_rfl
        (BEq.symm head_equal) follows (fun step step_mem =>
          around step.state (List.mem_cons_of_mem _ (List.mem_map_of_mem step_mem))) with
        ⟨last, last_mem, continues, equal⟩
      rw [Path.last_listed] at equal
      refine Value.isIn_iff.mpr ⟨last.state, List.mem_map_of_mem ?_, BEq.trans equal last_equal⟩
      have last_later := explores.mem_of_le last_mem (Positions.le_of_prefix continues)
      rw [← List.cons_append] at last_later
      rcases List.mem_append.mp last_later with inner | outer
      · exact inner
      · exact absurd continues (apart last outer)

end Split

end Explores

/-- The search is depth first. Once it has ended, the records whose paths continue the path of a reported
record are a block that starts with the record: no path outside the block begins with that path, not even
up to equality. The states of the block are those that can be reached from the state of the record around
all states reported before it. -/
theorem explore_blocks (wellFormed : system.WellFormed) (finite : system.FinitelyReachable) :
    ∃ bound, ∀ more, (system.explore (bound + more)).ending = .exhausted ∧
      ∀ earlier record later,
        (system.explore (bound + more)).records = earlier ++ record :: later →
        ∃ below after, later = below ++ after ∧
          (∀ inner ∈ record :: below,
            inner.path.head = record.path.head ∧ record.path.steps <+: inner.path.steps) ∧
          (∀ other ∈ earlier ++ after, other.path.beginsWith record.path = false) ∧
          ∀ state : Value, state.isIn ((record :: below).map Record.state) = true ↔
            system.ReachesAround (earlier.map Record.state) record.state state := by
  rcases explore_exhausted wellFormed finite with ⟨bound, reported, pending, explores, seen, ended⟩
  refine ⟨bound, fun more => ⟨(ended more).2, ?_⟩⟩
  intro earlier record later records_eq
  rw [(ended more).1] at records_eq
  rcases List.map_eq_append_iff.mp records_eq with ⟨earlierPlaced, rest, rfl, rfl, rest_eq⟩
  rcases List.map_eq_cons_iff.mp rest_eq with ⟨top, laterPlaced, rfl, rfl, rfl⟩
  rcases explores.block wellFormed seen with ⟨below, after, rfl, inside, outside, states_iff⟩
  refine ⟨below.map Placed.toRecord, after.map Placed.toRecord, List.map_append, ?_, ?_, ?_⟩
  · rw [← List.map_cons]
    exact List.forall_mem_map.mpr inside
  · rw [← List.map_append]
    exact List.forall_mem_map.mpr outside
  · rw [← List.map_cons, Placed.map_state_toRecord, Placed.map_state_toRecord]
    exact states_iff

/-- In a merging system the last state belongs to the block of the second, although the first one leads
there too. -/
theorem explore_blocks_merging :
    merging.WellFormed ∧ merging.FinitelyReachable ∧
      (merging.explore 4).states = [.int 0, .int 1, .int 2] ∧
      merging.ReachesAround [.int 0] (.int 1) (.int 2) := by
  refine ⟨merging_wellLabelled.toWellFormed, merging_finitelyReachable, rfl, ?_⟩
  rcases explore_blocks merging_wellLabelled.toWellFormed merging_finitelyReachable with ⟨bound, blocks⟩
  have same : merging.explore (bound + 4) = merging.explore 4 := by
    rw [Nat.add_comm]
    exact Search.run_add_of_exhausted rfl bound
  have block := (blocks 4).2
  rw [same] at block
  rcases block [⟨.int 0, .single (.int 0)⟩] _ [_] rfl with
    ⟨below, after, later_eq, _, outside, states_iff⟩
  cases below with
  | nil =>
      have begins := outside _ (List.mem_append_right _ (later_eq ▸ List.mem_singleton_self _))
      exact absurd begins (by decide)
  | cons inner below =>
      rw [List.cons_append, List.cons.injEq] at later_eq
      refine (states_iff (.int 2)).mp ?_
      rw [← later_eq.1]
      rfl

end TransitionSystem

end StateSpace
