import StateSpace.Value.Digest

/-!
# Sets of values

A set keeps its members in a list, the latest first, together with an index that finds a member by its
digest. The index is a tree whose branches are chosen by the bits of a digest, so a look-up compares a
value with the few members that share its branch. `ValueSet.has_eq` says that the index changes no
answer, and everything else about a set is read off its members.
-/

namespace StateSpace

/-- Values arranged by the low bits of their digests. -/
inductive DigestTree where
  | leaf (values : List Value)
  | fork (even odd : DigestTree)

namespace DigestTree

/-- The tree of a depth that holds nothing. -/
def empty : Nat → DigestTree
  | 0 => .leaf []
  | depth + 1 =>
      let half := empty depth
      .fork half half

/-- Whether a tree holds a value with a digest, up to equality. -/
def has (value : Value) (digest : Nat) : DigestTree → Bool
  | .leaf values => value.isIn values
  | .fork even odd =>
      if digest % 2 = 0 then has value (digest / 2) even else has value (digest / 2) odd

/-- Add a value with a digest. -/
def insert (value : Value) (digest : Nat) : DigestTree → DigestTree
  | .leaf values => .leaf (value :: values)
  | .fork even odd =>
      if digest % 2 = 0 then
        .fork (insert value (digest / 2) even) odd
      else
        .fork even (insert value (digest / 2) odd)

theorem has_empty (value : Value) (digest depth : Nat) : (empty depth).has value digest = false := by
  induction depth generalizing digest with
  | zero => rfl
  | succ depth ih => simp [empty, has, ih]

theorem has_insert (value other : Value) (digest otherDigest : Nat) (tree : DigestTree)
    (agree : (value == other) = true → digest = otherDigest) :
    (tree.insert value digest).has other otherDigest =
      (value == other || tree.has other otherDigest) := by
  induction tree generalizing digest otherDigest with
  | leaf values => simp [insert, has, Value.isIn]
  | fork even odd ihEven ihOdd =>
      have agree' : (value == other) = true → digest / 2 = otherDigest / 2 :=
        fun equal => by rw [agree equal]
      have parity : digest % 2 ≠ otherDigest % 2 → (value == other) = false := by
        intro differ
        rw [← Bool.not_eq_true]
        intro equal
        exact differ (by rw [agree equal])
      by_cases left : digest % 2 = 0 <;> by_cases right : otherDigest % 2 = 0
      · simp [insert, has, left, right, ihEven _ _ agree']
      · simp [insert, has, left, right, parity (by omega)]
      · simp [insert, has, left, right, parity (by omega)]
      · simp [insert, has, left, right, ihOdd _ _ agree']

end DigestTree

/-- A finite set of values. -/
structure ValueSet where
  /-- The members, the latest first. -/
  members : List Value
  index : DigestTree
  /-- The index finds exactly the members. -/
  index_has : ∀ value : Value, index.has value value.digest = value.isIn members

namespace ValueSet

/-- The number of bits of a digest that the index looks at. -/
def indexDepth : Nat := 14

/-- The set without members. -/
def empty : ValueSet where
  members := []
  index := .empty indexDepth
  index_has value := DigestTree.has_empty value value.digest indexDepth

instance : Inhabited ValueSet := ⟨empty⟩

/-- Whether a value is a member, up to equality. -/
def has (set : ValueSet) (value : Value) : Bool :=
  set.index.has value value.digest

/-- Add a value in front of the members. -/
def insert (set : ValueSet) (value : Value) : ValueSet where
  members := value :: set.members
  index := set.index.insert value value.digest
  index_has other := by
    rw [DigestTree.has_insert value other value.digest other.digest set.index Value.digest_eq_of_beq,
      set.index_has]
    rfl

/-- The set of the values of a list. -/
def ofList (values : List Value) : ValueSet :=
  values.foldl insert empty

@[simp]
theorem members_empty : empty.members = [] :=
  rfl

@[simp]
theorem members_insert (set : ValueSet) (value : Value) :
    (set.insert value).members = value :: set.members :=
  rfl

theorem has_eq (set : ValueSet) (value : Value) : set.has value = value.isIn set.members :=
  set.index_has value

theorem members_ofList (values : List Value) : (ofList values).members = values.reverse := by
  have general : ∀ set : ValueSet, (values.foldl insert set).members = values.reverse ++ set.members := by
    induction values with
    | nil => simp
    | cons value values ih => simp [ih]
  simpa [ofList] using general empty

end ValueSet

end StateSpace
