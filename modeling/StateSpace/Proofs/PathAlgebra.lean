import Mathlib.Data.List.Forall2
import StateSpace.Proofs.Reachability

/-!
# The algebra of paths

Two paths are joined where the second starts in the last state of the first. They need only meet up to
equality of values: the joined path keeps the last state of the first and drops the head of the second.
So most laws of joining and of walking backwards hold up to equality of paths and not beyond.

What holds as it stands is said about `Path.join`, which joins any two paths. The rest follows as
joining and walking backwards respect equality (`Path.join_congr`, `Path.reversed_congr`). The steps of a
path walked backwards are found by going through its steps once, with the state before each of them
(`Path.steps_reversed_cons`), and the inductions follow this.
-/

namespace StateSpace

namespace Step

theorem beq_iff {step other : Step} :
    (step == other) = true ↔
      (step.action == other.action) = true ∧ (step.state == other.state) = true :=
  Bool.and_eq_true_iff

instance : ReflBEq Step where
  rfl := beq_iff.mpr ⟨BEq.rfl, BEq.rfl⟩

/-- Lists of steps are equal if they are as long and equal step by step. -/
theorem beq_list_iff {steps steps' : List Step} :
    (steps == steps') = true ↔ List.Forall₂ (fun step step' => (step == step') = true) steps steps' := by
  induction steps generalizing steps' with
  | nil => cases steps' <;> simp
  | cons step steps ih =>
      cases steps' with
      | nil => simp
      | cons step' steps' => simp [ih]

end Step

namespace Path

theorem beq_iff {path other : Path} :
    (path == other) = true ↔
      (path.head == other.head) = true ∧ (path.steps == other.steps) = true := by
  change (path.length == other.length && path.head == other.head && path.steps == other.steps) = true ↔ _
  rw [Bool.and_eq_true, Bool.and_eq_true, beq_iff_eq, Path.length_eq, Path.length_eq]
  constructor
  · rintro ⟨⟨_, sameHead⟩, sameSteps⟩
    exact ⟨sameHead, sameSteps⟩
  · rintro ⟨sameHead, sameSteps⟩
    exact ⟨⟨List.length_eq_of_beq sameSteps, sameHead⟩, sameSteps⟩

theorem beq_of_eq {path other : Path} (head_eq : path.head = other.head)
    (steps_eq : path.steps = other.steps) : (path == other) = true := by
  apply beq_iff.mpr
  rw [head_eq, steps_eq]
  exact ⟨BEq.rfl, BEq.rfl⟩

/-! ### Last states -/

theorem last_listed_append (head : Value) (steps further : List Step) :
    (listed head (steps ++ further)).last = (listed (listed head steps).last further).last := by
  induction steps generalizing head with
  | nil => rfl
  | cons step steps ih =>
      rw [List.cons_append, last_listed_cons, last_listed_cons]
      exact ih step.state

theorem last_listed_congr {head head' : Value} {steps steps' : List Step}
    (equal : (head == head') = true) (same : (steps == steps') = true) :
    ((listed head steps).last == (listed head' steps').last) = true := by
  rw [Step.beq_list_iff] at same
  induction same generalizing head head' with
  | nil => exact equal
  | @cons step step' steps steps' first _ ih =>
      rw [last_listed_cons, last_listed_cons]
      exact ih (Step.beq_iff.mp first).2

theorem last_congr {path other : Path} (same : (path == other) = true) :
    (path.last == other.last) = true := by
  rw [← last_listed path, ← last_listed other]
  exact last_listed_congr (beq_iff.mp same).1 (beq_iff.mp same).2

/-! ### Walking backwards -/

theorem reversed_listed (path : Path) : (listed path.head path.steps).reversed = path.reversed := by
  simp only [reversed, last_listed, actions, states, steps_listed, head]

theorem reversed_eq (path : Path) : path.reversed = listed path.last path.reversed.steps := by
  rw [reversed, steps_listed]

/-- The first step of a path is the last one backwards, and leads into the head. -/
theorem steps_reversed_cons (head : Value) (step : Step) (steps : List Step) :
    (listed head (step :: steps)).reversed.steps =
      (listed step.state steps).reversed.steps ++ [⟨step.action, head⟩] := by
  simp [reversed, states, actions, Path.head]

theorem head_reversed (path : Path) : path.reversed.head = path.last :=
  rfl

theorem last_reversed (path : Path) : path.reversed.last = path.head := by
  rw [← reversed_listed path]
  cases path.steps with
  | nil => rfl
  | cons step steps => simp [last_eq, steps_reversed_cons]

theorem states_reversed (path : Path) : path.reversed.states = path.states.reverse := by
  rw [← reversed_listed path, states, states, head_reversed]
  generalize path.head = head
  induction path.steps generalizing head with
  | nil => rfl
  | cons step steps ih =>
      rw [last_listed_cons, steps_reversed_cons, List.map_append, ← List.cons_append, ih step.state]
      simp

theorem actions_reversed (path : Path) : path.reversed.actions = path.actions.reverse := by
  rw [← reversed_listed path, actions, actions]
  generalize path.head = head
  induction path.steps generalizing head with
  | nil => rfl
  | cons step steps ih =>
      rw [steps_reversed_cons, List.map_append, ih step.state]
      simp

theorem steps_reversed_append (head : Value) (steps further : List Step) :
    (listed head (steps ++ further)).reversed.steps =
      (listed (listed head steps).last further).reversed.steps ++ (listed head steps).reversed.steps := by
  induction steps generalizing head with
  | nil => simp [reversed, last, actions]
  | cons step steps ih =>
      rw [List.cons_append, steps_reversed_cons, steps_reversed_cons, last_listed_cons, ih step.state,
        List.append_assoc]

theorem steps_reversed_reversed (path : Path) : path.reversed.reversed.steps = path.steps := by
  rw [← reversed_listed path]
  generalize path.head = head
  induction path.steps generalizing head with
  | nil => rfl
  | cons step steps ih =>
      -- backwards, the first step comes after all others, and twice backwards before them again
      have once : (listed head (step :: steps)).reversed = listed (listed step.state steps).last
          ((listed step.state steps).reversed.steps ++ [⟨step.action, head⟩]) := by
        rw [reversed_eq, steps_reversed_cons, last_listed_cons]
      rw [once, steps_reversed_append, ← reversed_eq, last_reversed, ih step.state]
      rfl

theorem steps_reversed_congr {head head' : Value} {steps steps' : List Step}
    (equal : (head == head') = true) (same : (steps == steps') = true) :
    ((listed head steps).reversed.steps == (listed head' steps').reversed.steps) = true := by
  rw [Step.beq_list_iff] at same ⊢
  induction same generalizing head head' with
  | nil => exact .nil
  | @cons step step' steps steps' first _ ih =>
      rcases Step.beq_iff.mp first with ⟨sameAction, sameState⟩
      rw [steps_reversed_cons, steps_reversed_cons]
      apply List.rel_append (ih sameState)
      exact .cons (Step.beq_iff.mpr ⟨sameAction, equal⟩) .nil

theorem reversed_congr {path other : Path} (same : (path == other) = true) :
    (path.reversed == other.reversed) = true := by
  refine beq_iff.mpr ⟨last_congr same, ?_⟩
  rw [← reversed_listed path, ← reversed_listed other]
  exact steps_reversed_congr (beq_iff.mp same).1 (beq_iff.mp same).2

/-! ### Joining -/

variable (path middle other : Path)

theorem head_join : (path.join other).head = path.head :=
  rfl

theorem steps_join : (path.join other).steps = path.steps ++ other.steps :=
  steps_listed _ _

theorem last_join : (path.join other).last = (listed path.last other.steps).last := by
  rw [join, last_listed_append, last_listed]

theorem join_assoc : (path.join middle).join other = path.join (middle.join other) := by
  simp only [join, head, steps_listed, List.append_assoc]

/-- Two paths joined and walked backwards. The second starts where the first ends, whatever its own head
was. -/
theorem reversed_join :
    (path.join other).reversed = (listed path.last other.steps).reversed.join path.reversed := by
  have steps_eq : (path.join other).reversed.steps =
      (listed path.last other.steps).reversed.steps ++ path.reversed.steps := by
    rw [join, steps_reversed_append, last_listed, reversed_listed]
  rw [reversed_eq, steps_eq, last_join, join, head_reversed]

variable {path middle other}

theorem join_congr {path' other' : Path} (same : (path == path') = true)
    (same' : (other == other') = true) : (path.join other == path'.join other') = true := by
  rw [beq_iff, Step.beq_list_iff] at same same' ⊢
  refine ⟨same.1, ?_⟩
  rw [steps_join, steps_join]
  exact List.rel_append same.2 same'.2

/-- A path may be given any head that equals its own. -/
theorem beq_listed_head {head : Value} (equal : (path.head == head) = true) :
    (path == listed head path.steps) = true := by
  refine beq_iff.mpr ⟨equal, ?_⟩
  rw [steps_listed]
  exact BEq.rfl

theorem last_join_of_meets (meets : (other.head == path.last) = true) :
    ((path.join other).last == other.last) = true := by
  rw [last_join]
  exact BEq.symm (last_congr (beq_listed_head meets))

/-- Paths that were to be joined do not meet. -/
def Disconnected (result : Result Path) : Prop :=
  ∃ last next, result = .error (.disconnected last next)

theorem concat_of_meets (meets : (other.head == path.last) = true) :
    path.concat other = .ok (path.join other) := by
  rw [concat, if_pos meets]

theorem concat_of_parts (parts : (other.head == path.last) = false) :
    path.concat other = .error (.disconnected path.last other.head) := by
  rw [concat, parts]
  rfl

theorem concat_eq_ok_iff {joined : Path} :
    path.concat other = .ok joined ↔
      (other.head == path.last) = true ∧ path.join other = joined := by
  cases meets : other.head == path.last with
  | false => simp [concat_of_parts meets]
  | true => simp [concat_of_meets meets]

theorem disconnected_concat_iff :
    Disconnected (path.concat other) ↔ (other.head == path.last) = false := by
  cases meets : other.head == path.last with
  | false => simp [Disconnected, concat_of_parts meets]
  | true => simp [Disconnected, concat_of_meets meets]

theorem disconnected_bind_of_parts (parts : (other.head == path.last) = false)
    (next : Path → Result Path) : Disconnected (path.concat other >>= next) := by
  rw [concat_of_parts parts]
  exact ⟨_, _, rfl⟩

theorem concat_assoc (path middle other : Path) :
    (∃ joined, (path.concat middle >>= fun first => first.concat other) = .ok joined ∧
        (middle.concat other >>= fun rest => path.concat rest) = .ok joined) ∨
      Disconnected (path.concat middle >>= fun first => first.concat other) ∧
        Disconnected (middle.concat other >>= fun rest => path.concat rest) := by
  cases meets : middle.head == path.last with
  | false =>
      refine .inr ⟨disconnected_bind_of_parts meets _, ?_⟩
      cases meets' : other.head == middle.last with
      | false => exact disconnected_bind_of_parts meets' _
      | true =>
          rw [concat_of_meets meets', Result.ok_bind]
          exact disconnected_concat_iff.mpr meets
  | true =>
      -- what ends like the middle path is met by the same paths, also if the middle path has no steps
      have ends : (other.head == (path.join middle).last) = (other.head == middle.last) :=
        BEq.congr_right (last_join_of_meets meets)
      cases meets' : other.head == middle.last with
      | false =>
          refine .inr ⟨?_, disconnected_bind_of_parts meets' _⟩
          rw [concat_of_meets meets, Result.ok_bind]
          exact disconnected_concat_iff.mpr (ends.trans meets')
      | true =>
          refine .inl ⟨(path.join middle).join other, ?_, ?_⟩
          · rw [concat_of_meets meets, Result.ok_bind]
            exact concat_of_meets (ends.trans meets')
          · rw [concat_of_meets meets', Result.ok_bind, join_assoc]
            exact concat_of_meets meets

theorem single_concat (path : Path) :
    ∃ joined, (single path.head).concat path = .ok joined ∧ (joined == path) = true := by
  refine ⟨_, concat_of_meets BEq.rfl, ?_⟩
  exact beq_of_eq rfl (steps_join _ _)

theorem concat_single (path : Path) :
    ∃ joined, path.concat (single path.last) = .ok joined ∧ (path == joined) = true := by
  refine ⟨_, concat_of_meets BEq.rfl, ?_⟩
  refine beq_of_eq rfl ?_
  rw [steps_join, single, steps_listed, List.append_nil]

theorem reversed_reversed (path : Path) : (path.reversed.reversed == path) = true :=
  beq_of_eq (last_reversed path) (steps_reversed_reversed path)

/-- Two paths that meet also meet backwards, in the other order. -/
theorem reversed_concat {joined : Path} (defined : path.concat other = .ok joined) :
    ∃ back, other.reversed.concat path.reversed = .ok back ∧ (back == joined.reversed) = true := by
  rcases concat_eq_ok_iff.mp defined with ⟨meets, rfl⟩
  have meets' : (path.reversed.head == other.reversed.last) = true := by
    rw [head_reversed, last_reversed]
    exact BEq.symm meets
  refine ⟨_, concat_of_meets meets', ?_⟩
  rw [reversed_join]
  exact join_congr (reversed_congr (beq_listed_head meets)) (beq_of_eq rfl rfl)

/-- The laws of joining paths and of walking them backwards. Two paths are joined exactly if the second
starts in the last state of the first, and otherwise the fault names both states. Three paths are joined
from the left exactly if they are from the right, with equal results. Paths of a single state are neutral.
Walking backwards undoes itself and turns joined paths around. -/
theorem concat_laws (path middle other : Path) :
    ((∃ joined, path.concat middle = .ok joined) ↔ (middle.head == path.last) = true) ∧
    (path.concat middle = .error (.disconnected path.last middle.head) ↔
      (middle.head == path.last) = false) ∧
    ((∃ joined joined', (path.concat middle >>= fun first => first.concat other) = .ok joined ∧
        (middle.concat other >>= fun rest => path.concat rest) = .ok joined' ∧
        (joined == joined') = true) ∨
      Disconnected (path.concat middle >>= fun first => first.concat other) ∧
        Disconnected (middle.concat other >>= fun rest => path.concat rest)) ∧
    (∃ joined, (single path.head).concat path = .ok joined ∧ (joined == path) = true) ∧
    (∃ joined, path.concat (single path.last) = .ok joined ∧ (path == joined) = true) ∧
    (path.reversed.reversed == path) = true ∧
    ∀ joined, path.concat other = .ok joined →
      ∃ back, other.reversed.concat path.reversed = .ok back ∧ (back == joined.reversed) = true := by
  refine ⟨?_, ?_, ?_, single_concat path, concat_single path, reversed_reversed path,
    fun joined => reversed_concat⟩
  · simp [concat_eq_ok_iff]
  · exact ⟨fun failed => disconnected_concat_iff.mp ⟨_, _, failed⟩, concat_of_parts⟩
  · rcases concat_assoc path middle other with ⟨joined, fromLeft, fromRight⟩ | fail
    · exact .inl ⟨joined, joined, fromLeft, fromRight, beq_of_eq rfl rfl⟩
    · exact .inr fail

/-- A path into a truth value meets a path from the number that equals it, with or without a path of that
number alone between them. Turned around, the number stands where the joined path has the truth value. -/
theorem concat_laws_merging :
    (∃ joined, ((listed (.int 0) [⟨.str "set", .bool true⟩]).concat (single (.int 1)) >>= fun first =>
        first.concat (listed (.int 1) [⟨.str "up", .int 2⟩])) = .ok joined) ∧
      (listed (.int 0) [⟨.str "set", .bool true⟩]).concat (listed (.int 1) [⟨.str "up", .int 2⟩]) =
        .ok (listed (.int 0) [⟨.str "set", .bool true⟩, ⟨.str "up", .int 2⟩]) ∧
      ∃ back, (listed (.int 2) [⟨.str "up", .int 1⟩]).concat
          (listed (.bool true) [⟨.str "set", .int 0⟩]) = .ok back ∧
        (back == listed (.int 2) [⟨.str "up", .bool true⟩, ⟨.str "set", .int 0⟩]) = true := by
  rcases concat_laws (listed (.int 0) [⟨.str "set", .bool true⟩]) (single (.int 1))
    (listed (.int 1) [⟨.str "up", .int 2⟩]) with ⟨_, _, associative, _, _, _, turned⟩
  refine ⟨?_, rfl, turned _ rfl⟩
  rcases associative with ⟨joined, _, fromLeft, _⟩ | ⟨⟨last, next, failed⟩, _⟩
  · exact ⟨joined, fromLeft⟩
  · cases failed

end Path

end StateSpace
