/-!
# Lists without equal elements

A set that keeps the order in which its elements were added is a list in which no two elements are equal. The
equality need not be that of Lean: of several equal elements the first is kept. All laws below ask for an
equivalence and no more.
-/

namespace StateSpace

variable {α : Type} [BEq α]

/-- Add the elements of a second list that the first does not hold, up to equality. -/
def unite (left right : List α) : List α :=
  right.foldl (fun united element =>
    if united.any (· == element) then united else united ++ [element]) left

theorem unite_cons (left right : List α) (element : α) :
    unite left (element :: right) =
      unite (if left.any (· == element) then left else left ++ [element]) right :=
  rfl

theorem unite_append (left middle right : List α) :
    unite left (middle ++ right) = unite (unite left middle) right :=
  List.foldl_append

/-- What is added to a list follows it, in the order in which it was given. -/
theorem exists_unite_eq (left right : List α) :
    ∃ fresh, unite left right = left ++ fresh ∧ fresh.Sublist right := by
  induction right generalizing left with
  | nil => exact ⟨[], by simp [unite], .slnil⟩
  | cons element right ih =>
      rw [unite_cons]
      cases left.any (· == element) with
      | true =>
          rcases ih left with ⟨fresh, united, sublist⟩
          exact ⟨fresh, united, sublist.cons element⟩
      | false =>
          rcases ih (left ++ [element]) with ⟨fresh, united, sublist⟩
          exact ⟨element :: fresh, by simpa using united, sublist.cons_cons element⟩

theorem mem_of_mem_unite {element : α} {left right : List α} (mem : element ∈ unite left right) :
    element ∈ left ∨ element ∈ right := by
  rcases exists_unite_eq left right with ⟨fresh, united, sublist⟩
  rw [united, List.mem_append] at mem
  exact mem.imp_right fun fresh_mem => sublist.subset fresh_mem

theorem pairwise_unite {left : List α}
    (unequal : left.Pairwise fun element other => (element == other) = false) (right : List α) :
    (unite left right).Pairwise fun element other => (element == other) = false := by
  induction right generalizing left with
  | nil => exact unequal
  | cons element right ih =>
      rw [unite_cons]
      cases present : left.any (· == element) with
      | true => exact ih unequal
      | false =>
          have apart : ∀ other ∈ left, (other == element) = false := by
            simpa using present
          apply ih
          simpa [List.pairwise_append] using ⟨unequal, apart⟩

variable [EquivBEq α]

/-- Equal elements are in the same lists. -/
theorem any_beq_congr {element other : α} (equal : (element == other) = true) (elements : List α) :
    elements.any (· == element) = elements.any (· == other) := by
  congr 1
  funext member
  exact BEq.congr_right equal

theorem any_unite (element : α) (left right : List α) :
    (unite left right).any (· == element) = (left.any (· == element) || right.any (· == element)) := by
  induction right generalizing left with
  | nil => simp [unite]
  | cons first right ih =>
      rw [unite_cons, ih, List.any_cons, ← Bool.or_assoc]
      congr 1
      cases present : left.any (· == first) with
      | false => simp
      | true =>
          -- what equals an element that was there is there as well
          cases equal : first == element with
          | false => simp
          | true => simp only [if_true, Bool.or_true, ← any_beq_congr equal, present]

theorem unite_assoc (left middle right : List α) :
    unite left (unite middle right) = unite (unite left middle) right := by
  induction right generalizing middle with
  | nil => rfl
  | cons element right ih =>
      rw [unite_cons, unite_cons, ih]
      cases present : middle.any (· == element) with
      | true => rw [if_pos rfl, any_unite, present, Bool.or_true, if_pos rfl]
      | false =>
          rw [if_neg Bool.false_ne_true, unite_append]
          rfl

/-- Uniting the sets of two lists gives the set of both. -/
theorem unite_unite_nil (left right : List α) :
    unite (unite [] left) (unite [] right) = unite [] (left ++ right) := by
  rw [unite_assoc, unite_append]
  rfl

end StateSpace
