import StateSpace.Path
import StateSpace.Store

/-!
# Pools of paths

Paths that are made from one another share their steps. A pool keeps its paths by number. A path that was
made from a list of steps keeps the list, and a path that continues another keeps the number of that path
and one more step. The list of all steps of such a path is put together when it is read, from the nearest
path on the way back whose list is known, and it is kept from then on.

A path continues only a path that was there before it, so every way back ends. This is part of the type.
-/

namespace StateSpace

/-- Where the steps of a path in a pool are found. -/
inductive Origin where
  /-- They are listed. -/
  | listed (steps : List Step)
  /-- They are those of another path and one more. The list of all of them is known once it was read. -/
  | extended (parent : Nat) (step : Step) (known : Option (List Step))
  deriving Inhabited, Repr

/-- The number of the path that is continued. -/
def Origin.parent? : Origin → Option Nat
  | .listed _ => none
  | .extended parent _ _ => some parent

/-- A path in a pool. -/
structure PooledPath where
  head : Value
  length : Nat
  origin : Origin
  deriving Inhabited, Repr

namespace PooledPath

/-- The final state, for which no steps are put together. -/
def last (path : PooledPath) : Value :=
  match path.origin with
  | .listed steps => (Path.listed path.head steps).last
  | .extended _ step _ => step.state

/-- The path whose list of steps is known. -/
def remember (path : PooledPath) (steps : List Step) : PooledPath :=
  match path.origin with
  | .listed _ => path
  | .extended parent step _ => { path with origin := .extended parent step (some steps) }

theorem parent?_remember (path : PooledPath) (steps : List Step) :
    (path.remember steps).origin.parent? = path.origin.parent? := by
  unfold remember
  split
  · rfl
  · simp [*, Origin.parent?]

end PooledPath

/-- Paths by number. -/
structure PathPool where
  paths : Array PooledPath
  /-- A path continues only a path with a smaller number. -/
  ordered : ∀ (number : Nat) (path : PooledPath), paths[number]? = some path →
    ∀ parent ∈ path.origin.parent?, parent < number

namespace PathPool

/-- The pool without paths. -/
def empty : PathPool where
  paths := #[]
  ordered := by
    intro number path found
    rw [Array.getElem?_empty] at found
    cases found

instance : Inhabited PathPool := ⟨empty⟩

/-- The pool with one more path, under the next number. -/
def add (pool : PathPool) (path : PooledPath)
    (continues : ∀ parent ∈ path.origin.parent?, parent < pool.paths.size) : PathPool where
  paths := pool.paths.push path
  ordered := by
    intro number path' found
    rw [Array.getElem?_push] at found
    split at found
    · cases found
      subst number
      exact continues
    · exact pool.ordered number path' found

/-- The pool in which the list of steps of a path is known. -/
def remember (pool : PathPool) (number : Nat) (steps : List Step) : PathPool where
  paths := pool.paths.modify number fun path => path.remember steps
  ordered := by
    intro number' path' found
    rw [Array.getElem?_modify] at found
    split at found
    · rcases Option.map_eq_some_iff.mp found with ⟨path, path_found, rfl⟩
      rw [PooledPath.parent?_remember]
      exact pool.ordered number' path path_found
    · exact pool.ordered number' path' found

/-- The steps of a path followed by further steps. The way back ends where the list of steps is known. -/
def stepsThen (pool : PathPool) (number : Nat) (further : List Step) : List Step :=
  match found : pool.paths[number]? with
  | none => further
  | some path =>
      match origin : path.origin with
      | .listed steps => steps ++ further
      | .extended _ _ (some steps) => steps ++ further
      | .extended parent step none =>
          have _earlier : parent < number :=
            pool.ordered number path found parent (by simp [origin, Origin.parent?])
          pool.stepsThen parent (step :: further)
termination_by number

/-- Keep a path by a list of its steps. -/
def keep (pool : PathPool) (path : Path) : Nat × PathPool :=
  (pool.paths.size, pool.add ⟨path.head, path.steps.length, .listed path.steps⟩ (by simp [Origin.parent?]))

variable {m : Type → Type} [MonadCells m]

/-- The path with a number. -/
def find (pool : PathPool) (number : Nat) : m PooledPath :=
  match pool.paths[number]? with
  | some path => pure path
  | none => MonadCells.fail (.unknown "path")

/-- A path with its steps, which are known from then on. -/
def read (pool : PathPool) (number : Nat) : m (Path × PathPool) := do
  let path ← pool.find number
  let steps := pool.stepsThen number []
  pure (.listed path.head steps, pool.remember number steps)

/-- Keep the path that continues another by one step. No steps are copied. -/
def extend (pool : PathPool) (number : Nat) (action state : Value) : m (Nat × PathPool) :=
  match found : pool.paths[number]? with
  | none => MonadCells.fail (.unknown "path")
  | some parent =>
      pure (pool.paths.size,
        pool.add ⟨parent.head, parent.length + 1, .extended number ⟨action, state⟩ none⟩ (by
          simpa [Origin.parent?] using (Array.getElem?_eq_some_iff.mp found).1))

/-- Keep two paths joined where the second starts in the last state of the first. -/
def concat (pool : PathPool) (number other : Nat) : m (Nat × PathPool) := do
  let (path, pool) ← pool.read number
  let (next, pool) ← pool.read other
  let _ ← MonadCells.ofResult
    ((← path.mapM MonadCells.view).concat (← next.mapM MonadCells.view))
  pure (pool.keep (path.join next))

/-- Keep a path walked backwards. -/
def reversed (pool : PathPool) (number : Nat) : m (Nat × PathPool) := do
  let (path, pool) ← pool.read number
  pure (pool.keep path.reversed)

/-- Whether two paths are equal. Their steps are read only if the lengths and the heads are equal. -/
def equal (pool : PathPool) (number other : Nat) : m (Bool × PathPool) := do
  let path ← pool.find number
  let next ← pool.find other
  if path.length != next.length then
    pure (false, pool)
  else if ← MonadCells.equal path.head next.head then
    let (path, pool) ← pool.read number
    let (next, pool) ← pool.read other
    pure ((← path.mapM MonadCells.view) == (← next.mapM MonadCells.view), pool)
  else
    pure (false, pool)

/-- A way to make a path. -/
inductive Maker where
  | single (state : Value)
  | listed (head : Value) (steps : List Step)
  | ofPairs (head : Value) (pairs : List Value)
  | extend (path : Nat) (action state : Value)
  | concat (path other : Nat)
  | reversed (path : Nat)
  deriving Inhabited, Repr

/-- What can be asked about paths. -/
inductive Question where
  | head (path : Nat)
  | last (path : Nat)
  | length (path : Nat)
  | steps (path : Nat)
  | states (path : Nat)
  | actions (path : Nat)
  | equal (path other : Nat)
  deriving Inhabited, Repr

/-- What a pool answers. -/
inductive Answer where
  | value (value : Value)
  | count (number : Nat)
  | steps (steps : List Step)
  | values (values : List Value)
  | truth (holds : Bool)
  deriving Inhabited, Repr

/-- The number of a new path, and the pool with it. -/
def make (pool : PathPool) : Maker → m (Nat × PathPool)
  | .single state => pure (pool.keep (.single state))
  | .listed head steps => pure (pool.keep (.listed head steps))
  | .ofPairs head pairs => do
      let path ← MonadCells.ofResult (Path.ofPairs head (← pairs.mapM MonadCells.inspect))
      pure (pool.keep path)
  | .extend path action state => pool.extend path action state
  | .concat path other => pool.concat path other
  | .reversed path => pool.reversed path

/-- The answer to a question, and the pool after it. -/
def ask (pool : PathPool) : Question → m (Answer × PathPool)
  | .head path => do pure (.value (← pool.find path).head, pool)
  | .last path => do pure (.value (← pool.find path).last, pool)
  | .length path => do pure (.count (← pool.find path).length, pool)
  | .steps path => do
      let (path, pool) ← pool.read path
      pure (.steps path.steps, pool)
  | .states path => do
      let (path, pool) ← pool.read path
      pure (.values path.states, pool)
  | .actions path => do
      let (path, pool) ← pool.read path
      pure (.values path.actions, pool)
  | .equal path other => do
      let (holds, pool) ← pool.equal path other
      pure (.truth holds, pool)

end PathPool

end StateSpace
