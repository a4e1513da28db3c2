import StateSpace.PathPool
import StateSpace.Proofs.Outcome

/-!
# Pools of paths and plain lists

What a pool keeps of a path depends on how the path was made and on what was read before. What it answers
does not: a pool answers as if every path were a head and a plain list of steps. `PathPool.Represents` says
which plain paths a pool stands for, with every list that is known being the right one.
`PathPool.perform_matches` says that each operation keeps this and answers alike, and
`PathPool.history_represents` follows for every sequence of operations.
-/

namespace StateSpace

/-- A path as a head and the list of its steps. -/
structure PlainPath where
  head : Value
  steps : List Step

namespace PlainPath

/-- The state of the final step, or the head if there are no steps. -/
def last (path : PlainPath) : Value :=
  (path.steps.getLast?.map Step.state).getD path.head

/-- The head and the states that the steps lead into, in order. -/
def states (path : PlainPath) : List Value :=
  path.head :: path.steps.map Step.state

/-- The actions of the steps, in order. -/
def actions (path : PlainPath) : List Value :=
  path.steps.map Step.action

/-- One step more, at the end. -/
def extend (path : PlainPath) (action state : Value) : PlainPath :=
  ⟨path.head, path.steps ++ [⟨action, state⟩]⟩

/-- From the last state back to the head, each action between the same two states. -/
def reversed (path : PlainPath) : PlainPath :=
  ⟨path.last, (List.zipWith Step.mk path.actions path.states).reverse⟩

/-- Equal heads and equal steps. -/
def equals (path other : PlainPath) : Bool :=
  path.head == other.head && path.steps == other.steps

/-- The path with a number. -/
def find (paths : List PlainPath) (number : Nat) : Result PlainPath :=
  match paths[number]? with
  | some path => .ok path
  | none => .error (.unknown "path")

/-- The path that is made from others. -/
def made (paths : List PlainPath) : PathPool.Maker → Result PlainPath
  | .single state => .ok ⟨state, []⟩
  | .listed head steps => .ok ⟨head, steps⟩
  | .ofPairs head pairs => do pure ⟨head, ← pairs.mapM Step.ofPair⟩
  | .extend path action state => do pure ((← find paths path).extend action state)
  | .concat path other => do
      let path ← find paths path
      let next ← find paths other
      if next.head == path.last then
        .ok ⟨path.head, path.steps ++ next.steps⟩
      else
        .error (.disconnected path.last next.head)
  | .reversed path => do pure (← find paths path).reversed

/-- The answer to a question about paths. -/
def answer (paths : List PlainPath) : PathPool.Question → Result PathPool.Answer
  | .head path => do pure (.value (← find paths path).head)
  | .last path => do pure (.value (← find paths path).last)
  | .length path => do pure (.count (← find paths path).steps.length)
  | .steps path => do pure (.steps (← find paths path).steps)
  | .states path => do pure (.values (← find paths path).states)
  | .actions path => do pure (.values (← find paths path).actions)
  | .equal path other => do
      let path ← find paths path
      pure (.truth (path.equals (← find paths other)))

variable (plain other : PlainPath)

theorem last_listed : (Path.listed plain.head plain.steps).last = plain.last := by
  rw [Path.last_eq, Path.steps_listed]
  rfl

theorem steps_reversed_listed :
    (Path.listed plain.head plain.steps).reversed.steps = plain.reversed.steps := by
  simp only [Path.reversed, Path.actions, Path.states, Path.head, Path.steps_listed, reversed, actions,
    states, List.map_reverse, List.map_zip_eq_zipWith]
  rfl

theorem equals_of_length_ne (differ : plain.steps.length ≠ other.steps.length) :
    plain.equals other = false := by
  have unequal : (plain.steps == other.steps) = false :=
    Bool.eq_false_iff.mpr fun equal => differ (List.length_eq_of_beq equal)
  rw [equals, unequal, Bool.and_false]

/-- Equality of listed paths, which looks at the lengths first, is that of heads and steps. -/
theorem beq_listed :
    (Path.listed plain.head plain.steps == Path.listed other.head other.steps) = plain.equals other := by
  change (plain.steps.length == other.steps.length && plain.head == other.head &&
    (Path.listed plain.head plain.steps).steps == (Path.listed other.head other.steps).steps) = _
  rw [Path.steps_listed, Path.steps_listed]
  by_cases same : plain.steps.length = other.steps.length
  · simp [same, equals]
  · simp [same, equals_of_length_ne plain other same]

end PlainPath

/-- An origin gives certain steps, where the other paths are plain ones. A list that is known is the right
one. -/
def Origin.Gives (paths : List PlainPath) (steps : List Step) : Origin → Prop
  | .listed steps' => steps = steps'
  | .extended parent step known =>
      (∃ earlier, paths[parent]? = some earlier ∧ steps = earlier.steps ++ [step]) ∧
        ∀ steps' ∈ known, steps' = steps

theorem Origin.Gives.append {paths : List PlainPath} {steps : List Step} {origin : Origin}
    (gives : origin.Gives paths steps) (more : List PlainPath) : origin.Gives (paths ++ more) steps := by
  cases origin with
  | listed => exact gives
  | extended parent step known =>
      rcases gives with ⟨⟨earlier, found, steps_eq⟩, known_eq⟩
      refine ⟨⟨earlier, ?_, steps_eq⟩, known_eq⟩
      rw [List.getElem?_append_left (List.getElem?_eq_some_iff.mp found).1, found]

namespace PooledPath

/-- A path of a pool stands for a plain path. -/
structure Represents (paths : List PlainPath) (path : PooledPath) (plain : PlainPath) : Prop where
  head_eq : path.head = plain.head
  length_eq : path.length = plain.steps.length
  gives : path.origin.Gives paths plain.steps

variable {paths : List PlainPath} {path : PooledPath} {plain : PlainPath}

theorem Represents.append (represents : path.Represents paths plain) (more : List PlainPath) :
    path.Represents (paths ++ more) plain :=
  { represents with gives := represents.gives.append more }

theorem Represents.last_eq (represents : path.Represents paths plain) : path.last = plain.last := by
  rcases represents with ⟨head_eq, _, gives⟩
  unfold PooledPath.last PlainPath.last
  rw [← head_eq]
  cases origin : path.origin with
  | listed steps =>
      rw [origin] at gives
      simp [Path.last_eq, Path.head, show plain.steps = steps from gives]
  | extended parent step known =>
      rw [origin] at gives
      rcases gives with ⟨⟨earlier, _, steps_eq⟩, _⟩
      simp [steps_eq]

theorem Represents.remember (represents : path.Represents paths plain) :
    (path.remember plain.steps).Represents paths plain := by
  rcases path with ⟨head, length, origin⟩
  cases origin with
  | listed steps => exact represents
  | extended parent step known =>
      rcases represents with ⟨head_eq, length_eq, continues, _⟩
      exact ⟨head_eq, length_eq, continues, by simp⟩

end PooledPath

namespace PathPool

/-- A pool stands for plain paths, number by number. -/
structure Represents (pool : PathPool) (plains : List PlainPath) : Prop where
  size_eq : pool.paths.size = plains.length
  each : ∀ {number : Nat} {path : PooledPath} {plain : PlainPath}, pool.paths[number]? = some path →
    plains[number]? = some plain → path.Represents plains plain

theorem represents_empty : empty.Represents [] where
  size_eq := rfl
  each _ found := by simp at found

variable {pool : PathPool} {plains : List PlainPath}

namespace Represents

theorem exists_path (represents : pool.Represents plains) {number : Nat} {plain : PlainPath}
    (found : plains[number]? = some plain) : ∃ path, pool.paths[number]? = some path := by
  have bound := (List.getElem?_eq_some_iff.mp found).1
  rw [← represents.size_eq] at bound
  exact ⟨_, Array.getElem?_eq_getElem bound⟩

/-- The way back finds all steps, wherever the first list is that is known. -/
theorem stepsThen_eq (represents : pool.Represents plains) {number : Nat} {plain : PlainPath}
    (found : plains[number]? = some plain) (further : List Step) :
    pool.stepsThen number further = plain.steps ++ further := by
  fun_induction stepsThen pool number further generalizing plain with
  | case1 number further missing =>
      rcases represents.exists_path found with ⟨path, path_found⟩
      rw [missing] at path_found
      cases path_found
  | case2 number further path path_found steps origin =>
      have gives := (represents.each path_found found).gives
      rw [origin] at gives
      rw [show plain.steps = steps from gives]
  | case3 number further path path_found parent step steps origin =>
      have gives := (represents.each path_found found).gives
      rw [origin] at gives
      rw [gives.2 steps rfl]
  | case4 number further path path_found parent step origin _ ih =>
      have gives := (represents.each path_found found).gives
      rw [origin] at gives
      rcases gives with ⟨⟨earlier, parent_found, steps_eq⟩, _⟩
      rw [ih parent_found, steps_eq, List.append_assoc, List.singleton_append]

theorem remember (represents : pool.Represents plains) {number : Nat} {plain : PlainPath}
    (found : plains[number]? = some plain) : (pool.remember number plain.steps).Represents plains where
  size_eq := by simpa [PathPool.remember] using represents.size_eq
  each := by
    intro number' path' plain' path_found' found'
    simp only [PathPool.remember, Array.getElem?_modify] at path_found'
    split at path_found'
    · subst number'
      rcases Option.map_eq_some_iff.mp path_found' with ⟨path, path_found, rfl⟩
      rw [found] at found'
      cases found'
      exact (represents.each path_found found).remember
    · exact represents.each path_found' found'

theorem add (represents : pool.Represents plains) {path : PooledPath} {plain : PlainPath}
    (added : path.Represents plains plain)
    (continues : ∀ parent ∈ path.origin.parent?, parent < pool.paths.size) :
    (pool.add path continues).Represents (plains ++ [plain]) where
  size_eq := by simpa [PathPool.add] using represents.size_eq
  each := by
    intro number path' plain' path_found found
    simp only [PathPool.add, Array.getElem?_push] at path_found
    split at path_found
    · rename_i last
      cases path_found
      rw [last, represents.size_eq, List.getElem?_concat_length] at found
      cases found
      exact added.append [plain]
    · rename_i notLast
      have bound := (Array.getElem?_eq_some_iff.mp path_found).1
      rw [represents.size_eq] at bound
      rw [List.getElem?_append_left bound] at found
      exact (represents.each path_found found).append [plain]

/-- A number is one of a path in the pool and of the plain path that it stands for, or of neither. -/
theorem find_cases (represents : pool.Represents plains) (number : Nat) :
    (∃ path plain, pool.find number = (.ok path : Result PooledPath) ∧ pool.paths[number]? = some path ∧
      PlainPath.find plains number = .ok plain ∧ plains[number]? = some plain) ∨
      pool.find number = (.error (.unknown "path") : Result PooledPath) ∧
        PlainPath.find plains number = .error (.unknown "path") := by
  cases found : plains[number]? with
  | none =>
      have missing : pool.paths[number]? = none := by
        rw [Array.getElem?_eq_none_iff, represents.size_eq]
        exact List.getElem?_eq_none_iff.mp found
      exact .inr ⟨by simp [PathPool.find, missing], by simp [PlainPath.find, found]⟩
  | some plain =>
      rcases represents.exists_path found with ⟨path, path_found⟩
      exact .inl ⟨path, plain, by simp [PathPool.find, path_found], path_found,
        by simp [PlainPath.find, found], rfl⟩

/-- What is read of a path is the plain path. -/
theorem read_eq (represents : pool.Represents plains) {number : Nat} {plain : PlainPath}
    (found : plains[number]? = some plain) :
    pool.read number = (.ok (.listed plain.head plain.steps, pool.remember number plain.steps) :
      Result (Path × PathPool)) := by
  rcases represents.exists_path found with ⟨path, path_found⟩
  simp [PathPool.read, PathPool.find, path_found, represents.stepsThen_eq found,
    (represents.each path_found found).head_eq]

end Represents

/-- Both fail alike, or both give the same result and what is left of one stands for what is left of the
other. -/
inductive Matches {α : Type} : Result (α × PathPool) → Result (α × List PlainPath) → Prop where
  | ok {result : α} {pool : PathPool} {plains : List PlainPath} (represents : pool.Represents plains) :
      Matches (.ok (result, pool)) (.ok (result, plains))
  | error (fault : Fault) : Matches (.error fault) (.error fault)

namespace Represents

/-- To match after a path was looked up, match for every path and the plain path that it stands for. -/
theorem matches_find (represents : pool.Represents plains) (number : Nat) {α : Type}
    {next : PooledPath → Result (α × PathPool)} {next' : PlainPath → Result (α × List PlainPath)}
    (goesOn : ∀ path plain, plains[number]? = some plain → path.Represents plains plain →
      Matches (next path) (next' plain)) :
    Matches (pool.find number >>= next) (PlainPath.find plains number >>= next') := by
  rcases represents.find_cases number with
    ⟨path, plain, find_eq, path_found, find_eq', found⟩ | ⟨missing, missing'⟩
  · rw [find_eq, find_eq']
    exact goesOn path plain found (represents.each path_found found)
  · rw [missing, missing']
    exact .error _

/-- To match after a path was read, match for every plain path and every pool that stands for the same
paths. -/
theorem matches_read (represents : pool.Represents plains) (number : Nat) {α : Type}
    {next : Path × PathPool → Result (α × PathPool)} {next' : PlainPath → Result (α × List PlainPath)}
    (goesOn : ∀ plain pool', pool'.Represents plains →
      Matches (next (.listed plain.head plain.steps, pool')) (next' plain)) :
    Matches (pool.read number >>= next) (PlainPath.find plains number >>= next') := by
  rcases represents.find_cases number with ⟨_, plain, _, _, find_eq, found⟩ | ⟨missing, missing'⟩
  · rw [represents.read_eq found, find_eq]
    exact goesOn plain _ (represents.remember found)
  · have unread : pool.read number = (.error (.unknown "path") : Result (Path × PathPool)) := by
      simp [PathPool.read, missing]
    rw [unread, missing']
    exact .error _

/-- A pool keeps a path under the number that plain paths give it. -/
theorem matches_keep (represents : pool.Represents plains) {path : Path} {plain : PlainPath}
    (head_eq : path.head = plain.head) (steps_eq : path.steps = plain.steps) :
    Matches (.ok (pool.keep path)) (.ok (plains.length, plains ++ [plain])) := by
  have stands : PooledPath.Represents plains ⟨path.head, path.steps.length, .listed path.steps⟩ plain :=
    ⟨head_eq, by rw [steps_eq], steps_eq.symm⟩
  rw [← represents.size_eq]
  exact .ok (represents.add stands _)

/-- A path that continues another is kept with the number of that path and one step, and stands for the
plain path with that step at its end. -/
theorem matches_extend (represents : pool.Represents plains) (number : Nat) (action state : Value) :
    Matches (pool.extend number action state)
      (PlainPath.find plains number >>= fun plain =>
        .ok (plains.length, plains ++ [plain.extend action state])) := by
  unfold PathPool.extend
  rcases represents.find_cases number with
    ⟨path, plain, _, path_found, find_eq, found⟩ | ⟨missing, missing'⟩
  · split
    · rename_i absent
      rw [absent] at path_found
      cases path_found
    · rename_i parent parent_found
      have stands := represents.each parent_found found
      have extended : PooledPath.Represents plains
          ⟨parent.head, parent.length + 1, .extended number ⟨action, state⟩ none⟩
          (plain.extend action state) := by
        refine ⟨stands.head_eq, ?_, ⟨plain, found, rfl⟩, by simp⟩
        simp [PlainPath.extend, stands.length_eq]
      rw [find_eq, ← represents.size_eq]
      exact .ok (represents.add extended _)
  · split
    · rw [missing']
      exact .error _
    · rename_i parent parent_found
      simp [PathPool.find, parent_found] at missing

end Represents

/-- Without cells a path is viewed as it is. -/
theorem mapM_view_listed (head : Value) (steps : List Step) :
    ((Path.listed head steps).mapM MonadCells.view : Result Path) = .ok (.listed head steps) := by
  have unchanged : (Step.mapM MonadCells.view : Step → Result Step) = fun step => pure (id step) := by
    funext step
    simp [Step.mapM]
  rw [Path.mapM, unchanged, List.mapM_pure]
  simp [Path.head]

/-- Making a path adds the plain path that is made from those that the pool stands for. -/
theorem make_matches (represents : pool.Represents plains) (maker : Maker) :
    Matches (pool.make maker)
      (PlainPath.made plains maker >>= fun plain => .ok (plains.length, plains ++ [plain])) := by
  cases maker with
  | single state => exact represents.matches_keep rfl rfl
  | listed head steps => exact represents.matches_keep rfl (Path.steps_listed head steps)
  | ofPairs head pairs =>
      have inspected : (pairs.mapM MonadCells.inspect : Result (List Value)) = .ok pairs := by
        have unchanged : (MonadCells.inspect : Value → Result Value) = fun value => pure (id value) := rfl
        rw [unchanged, List.mapM_pure, List.map_id]
        rfl
      simp only [make, PlainPath.made, Path.ofPairs, inspected, Result.ok_bind, MonadCells.ofResult_result]
      cases pairs.mapM Step.ofPair with
      | error fault => exact .error fault
      | ok steps => exact represents.matches_keep rfl (Path.steps_listed head steps)
  | extend number action state =>
      simp only [make, PlainPath.made, bind_assoc]
      exact represents.matches_extend number action state
  | concat number other =>
      simp only [make, PathPool.concat, PlainPath.made, bind_assoc]
      refine represents.matches_read number fun plain pool' represents' => ?_
      refine represents'.matches_read other fun plain' pool'' represents'' => ?_
      simp only [mapM_view_listed, Result.ok_bind, MonadCells.ofResult_result, Path.concat, Path.head,
        PlainPath.last_listed]
      split
      · exact represents''.matches_keep rfl (by simp [Path.join])
      · exact .error _
  | reversed number =>
      simp only [make, PathPool.reversed, PlainPath.made, bind_assoc]
      refine represents.matches_read number fun plain pool' represents' => ?_
      exact represents'.matches_keep plain.last_listed plain.steps_reversed_listed

/-- A question is answered like the same question about plain paths, and changes none of them. -/
theorem ask_matches (represents : pool.Represents plains) (question : Question) :
    Matches (pool.ask question)
      (PlainPath.answer plains question >>= fun answer => .ok (answer, plains)) := by
  cases question with
  | head number =>
      simp only [ask, PlainPath.answer, bind_assoc]
      refine represents.matches_find number fun path plain _ stands => ?_
      rw [stands.head_eq]
      exact .ok represents
  | last number =>
      simp only [ask, PlainPath.answer, bind_assoc]
      refine represents.matches_find number fun path plain _ stands => ?_
      rw [stands.last_eq]
      exact .ok represents
  | length number =>
      simp only [ask, PlainPath.answer, bind_assoc]
      refine represents.matches_find number fun path plain _ stands => ?_
      rw [stands.length_eq]
      exact .ok represents
  | steps number =>
      simp only [ask, PlainPath.answer, bind_assoc]
      refine represents.matches_read number fun plain pool' represents' => ?_
      rw [Path.steps_listed]
      exact .ok represents'
  | states number =>
      simp only [ask, PlainPath.answer, bind_assoc]
      refine represents.matches_read number fun plain pool' represents' => ?_
      rw [Path.states, Path.steps_listed]
      exact .ok represents'
  | actions number =>
      simp only [ask, PlainPath.answer, bind_assoc]
      refine represents.matches_read number fun plain pool' represents' => ?_
      rw [Path.actions, Path.steps_listed]
      exact .ok represents'
  | equal number other =>
      simp only [ask, PathPool.equal, PlainPath.answer, bind_assoc]
      refine represents.matches_find number fun path plain found stands => ?_
      refine represents.matches_find other fun path' plain' found' stands' => ?_
      rw [stands.length_eq, stands'.length_eq, stands.head_eq, stands'.head_eq]
      split
      · rename_i differ
        rw [plain.equals_of_length_ne plain' (by simpa using differ)]
        exact .ok represents
      · rw [MonadCells.equal_result, Result.ok_bind]
        split
        · have represents' := represents.remember found
          rw [represents.read_eq found, Result.ok_bind, represents'.read_eq found', Result.ok_bind]
          simp only [mapM_view_listed, Result.ok_bind, PlainPath.beq_listed]
          exact .ok (represents'.remember found')
        · rename_i differ
          rw [PlainPath.equals, Bool.eq_false_iff.mpr differ, Bool.false_and]
          exact .ok represents

/-- Something that is done with paths. -/
inductive Operation where
  | make (maker : Maker)
  | ask (question : Question)

/-- What comes back from an operation. -/
inductive Reply where
  | made (number : Nat)
  | answered (answer : Answer)

/-- One operation on a pool, with what comes back from it. Also a question may change what the pool knows. -/
def perform (pool : PathPool) : Operation → Result (Reply × PathPool)
  | .make maker => do
      let (number, pool) ← pool.make maker
      pure (.made number, pool)
  | .ask question => do
      let (answer, pool) ← pool.ask question
      pure (.answered answer, pool)

/-- What comes back from operations one after the other, and what is left in the end. An operation that
fails changes nothing. -/
def history {State : Type} (step : State → Operation → Result (Reply × State)) :
    State → List Operation → List (Result Reply) × State
  | state, [] => ([], state)
  | state, operation :: operations =>
      match step state operation with
      | .ok (reply, next) => (history step next operations).map (.ok reply :: ·) id
      | .error fault => (history step state operations).map (.error fault :: ·) id

/-- The history of a pool that is empty at first. -/
def run (operations : List Operation) : List (Result Reply) × PathPool :=
  history perform empty operations

/-- What a pool answers to a question. -/
def answer (pool : PathPool) (question : Question) : Result Answer :=
  Prod.fst <$> pool.ask question

theorem history_append {State : Type} (step : State → Operation → Result (Reply × State)) (state : State)
    (earlier later : List Operation) :
    (history step state (earlier ++ later)).2 = (history step (history step state earlier).2 later).2 := by
  induction earlier generalizing state with
  | nil => rfl
  | cons operation earlier ih =>
      simp only [List.cons_append, history]
      split <;> simp [ih]

end PathPool

namespace PlainPath

open PathPool

/-- One operation on plain paths. A question leaves them as they are. -/
def perform (paths : List PlainPath) : Operation → Result (Reply × List PlainPath)
  | .make maker => do
      let path ← made paths maker
      pure (.made paths.length, paths ++ [path])
  | .ask question => do
      let answer ← answer paths question
      pure (.answered answer, paths)

/-- The history of plain paths, of which there are none at first. -/
def run (operations : List Operation) : List (Result Reply) × List PlainPath :=
  history perform [] operations

variable {paths larger : List PlainPath}

/-- An operation leaves all paths as they are, and may add one. -/
theorem prefix_of_perform {operation : Operation} {reply : Reply}
    (performed : perform paths operation = .ok (reply, larger)) : paths <+: larger := by
  cases operation with
  | make maker =>
      rcases Result.bind_eq_ok_iff.mp performed with ⟨path, _, kept⟩
      cases kept
      exact List.prefix_append _ _
  | ask question =>
      rcases Result.bind_eq_ok_iff.mp performed with ⟨answer, _, kept⟩
      cases kept
      exact List.prefix_refl _

theorem prefix_history (paths : List PlainPath) (operations : List Operation) :
    paths <+: (history perform paths operations).2 := by
  induction operations generalizing paths with
  | nil => exact List.prefix_refl paths
  | cons operation operations ih =>
      unfold history
      split
      · rename_i performed
        exact (prefix_of_perform performed).trans (ih _)
      · exact ih paths

theorem find_of_prefix (le : paths <+: larger) {number : Nat} {path : PlainPath}
    (found : find paths number = .ok path) : find larger number = .ok path := by
  rcases le with ⟨more, rfl⟩
  unfold find at found ⊢
  split at found
  · rename_i found'
    cases found
    rw [List.getElem?_append_left (List.getElem?_eq_some_iff.mp found').1, found']
  · cases found

/-- A question that has an answer has the same answer when there are more paths. -/
theorem answer_of_prefix (le : paths <+: larger) {question : Question} {result : Answer}
    (answered : answer paths question = .ok result) : answer larger question = .ok result := by
  cases question with
  | equal number other =>
      rcases Result.bind_eq_ok_iff.mp answered with ⟨path, found, rest⟩
      rcases Result.bind_eq_ok_iff.mp rest with ⟨path', found', result_eq⟩
      rw [answer, find_of_prefix le found, Result.ok_bind, find_of_prefix le found', Result.ok_bind]
      exact result_eq
  | _ =>
      rcases Result.bind_eq_ok_iff.mp answered with ⟨path, found, result_eq⟩
      rw [answer, find_of_prefix le found, Result.ok_bind]
      exact result_eq

end PlainPath

namespace PathPool

variable {pool : PathPool} {plains : List PlainPath}

/-- What matches still matches once the results are wrapped in the same way. -/
theorem Matches.map {α β : Type} {result : Result (α × PathPool)} {result' : Result (α × List PlainPath)}
    (matched : Matches result result') (wrap : α → β) :
    Matches (result >>= fun (value, pool) => .ok (wrap value, pool))
      (result' >>= fun (value, plains) => .ok (wrap value, plains)) := by
  cases matched with
  | ok represents => exact .ok represents
  | error fault => exact .error fault

theorem perform_matches (represents : pool.Represents plains) (operation : Operation) :
    Matches (pool.perform operation) (PlainPath.perform plains operation) := by
  cases operation with
  | make maker =>
      have matched := (make_matches represents maker).map Reply.made
      rw [bind_assoc] at matched
      exact matched
  | ask question =>
      have matched := (ask_matches represents question).map Reply.answered
      rw [bind_assoc] at matched
      exact matched

theorem answer_eq (represents : pool.Represents plains) (question : Question) :
    pool.answer question = PlainPath.answer plains question := by
  have matched := ask_matches represents question
  unfold answer
  generalize (pool.ask question : Result (Answer × PathPool)) = result at matched
  cases answered : PlainPath.answer plains question with
  | error fault =>
      rw [answered, Result.error_bind] at matched
      cases matched
      rfl
  | ok answer =>
      rw [answered, Result.ok_bind] at matched
      cases matched
      rfl

/-- A sequence of operations on a pool is answered like the same sequence on the plain paths that it stands
for. -/
theorem history_represents (represents : pool.Represents plains) (operations : List Operation) :
    (history perform pool operations).1 = (history PlainPath.perform plains operations).1 ∧
      (history perform pool operations).2.Represents (history PlainPath.perform plains operations).2 := by
  induction operations generalizing pool plains with
  | nil => exact ⟨rfl, represents⟩
  | cons operation operations ih =>
      have matched := perform_matches represents operation
      unfold history
      generalize pool.perform operation = result at matched
      generalize PlainPath.perform plains operation = result' at matched
      cases matched with
      | @ok reply _ _ represents' =>
          rcases ih represents' with ⟨replies_eq, stands⟩
          exact ⟨by simp [replies_eq], stands⟩
      | error fault =>
          rcases ih represents with ⟨replies_eq, stands⟩
          exact ⟨by simp [replies_eq], stands⟩

/-- A pool refines plain paths under every history. Whatever was made and read before, in whatever order,
each operation gets the reply that it gets from plain paths, and so does each question about each path. The
plain paths of the pool are never changed, so what was answered once is answered for ever. -/
theorem run_refines (earlier later : List Operation) :
    (run (earlier ++ later)).1 = (PlainPath.run (earlier ++ later)).1 ∧
      (∀ question, (run (earlier ++ later)).2.answer question =
        PlainPath.answer (PlainPath.run (earlier ++ later)).2 question) ∧
      (PlainPath.run earlier).2 <+: (PlainPath.run (earlier ++ later)).2 ∧
      ∀ question result, (run earlier).2.answer question = .ok result →
        (run (earlier ++ later)).2.answer question = .ok result := by
  have grows : (PlainPath.run earlier).2 <+: (PlainPath.run (earlier ++ later)).2 := by
    rw [PlainPath.run, PlainPath.run, history_append]
    exact PlainPath.prefix_history _ later
  rcases history_represents represents_empty earlier with ⟨_, stands⟩
  rcases history_represents represents_empty (earlier ++ later) with ⟨replies_eq, stands'⟩
  refine ⟨replies_eq, answer_eq stands', grows, ?_⟩
  intro question result answered
  rw [run, answer_eq stands] at answered
  rw [run, answer_eq stands']
  exact PlainPath.answer_of_prefix grows answered

end PathPool

end StateSpace
