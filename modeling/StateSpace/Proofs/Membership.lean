import Mathlib.Data.List.Forall2
import StateSpace.Unite
import StateSpace.Value.Equivalence

/-!
# Membership up to equality

A search compares states by equality of values, so whether a state was visited is a question of
membership up to that equality. This file gives the laws of `Value.isIn` and of lists of pairwise
unequal values. The last result is the counting argument behind termination: pairwise unequal values
that are all found in a list are no more than the list is long.
-/

namespace StateSpace

namespace Value

theorem isIn_iff {value : Value} {items : List Value} :
    value.isIn items = true ↔ ∃ item ∈ items, (item == value) = true := by
  simp [isIn]

theorem isIn_of_mem {value : Value} {items : List Value} (mem : value ∈ items) :
    value.isIn items = true :=
  isIn_iff.mpr ⟨value, mem, BEq.rfl⟩

theorem isIn_append (value : Value) (items others : List Value) :
    value.isIn (items ++ others) = (value.isIn items || value.isIn others) :=
  List.any_append

/-- Equal values are in the same lists. -/
theorem isIn_congr {value other : Value} (equal : (value == other) = true) (items : List Value) :
    value.isIn items = other.isIn items :=
  any_beq_congr equal items

theorem isIn_mono {value : Value} {items others : List Value} (subset : items ⊆ others)
    (found : value.isIn items = true) : value.isIn others = true := by
  rcases isIn_iff.mp found with ⟨item, item_mem, equal⟩
  exact isIn_iff.mpr ⟨item, subset item_mem, equal⟩

/-- Equal sequences hold equal values at each position. -/
theorem getElem?_of_beq_list {items others : List Value}
    (same : (Value.list items == .list others) = true) {position : Nat} {item : Value}
    (found : items[position]? = some item) :
    ∃ other, others[position]? = some other ∧ (item == other) = true := by
  change beqItems items others = true at same
  induction items generalizing others position with
  | nil => simp at found
  | cons first items ih =>
      cases others with
      | nil => simp at same
      | cons first' others =>
          simp only [beqItems, Bool.and_eq_true] at same
          cases position with
          | zero =>
              cases found
              exact ⟨first', rfl, same.1⟩
          | succ position =>
              simp only [List.getElem?_cons_succ] at found ⊢
              exact ih found same.2

theorem length_eq_of_beq_list {items others : List Value}
    (same : (Value.list items == .list others) = true) : items.length = others.length := by
  change beqItems items others = true at same
  induction items generalizing others with
  | nil =>
      cases others with
      | nil => rfl
      | cons first' others => simp at same
  | cons first items ih =>
      cases others with
      | nil => simp at same
      | cons first' others =>
          simp only [beqItems, Bool.and_eq_true] at same
          simp [ih same.2]

theorem beq_list_iff_forall₂ {items others : List Value} :
    (Value.list items == .list others) = true ↔
      List.Forall₂ (fun item other => (item == other) = true) items others := by
  change beqItems items others = true ↔ _
  induction items generalizing others with
  | nil => simp [List.forall₂_nil_left_iff]
  | cons item items ih =>
      cases others with
      | nil => simp
      | cons other others =>
          simp only [beqItems, Bool.and_eq_true, List.forall₂_cons, ih]
          exact Iff.rfl

theorem beq_int (number other : Int) : (int number == .int other) = decide (number = other) := by
  rw [Bool.eq_iff_iff, decide_eq_true_iff]
  exact (beq_int_iff number _).trans (by simp [asInt?, eq_comm])

theorem beq_pair_iff {first second first' second' : Value} :
    (pair first second == pair first' second') = true ↔
      (first == first') = true ∧ (second == second') = true := by
  change beq (pair first second) (pair first' second') = true ↔
    beq first first' = true ∧ beq second second' = true
  simp [pair]

theorem pair_inj {first second first' second' : Value} :
    pair first second = pair first' second' ↔ first = first' ∧ second = second' := by
  simp [pair]

/-- What equals a pair is a pair. -/
theorem beq_pair_left_iff {first second value : Value} :
    (pair first second == value) = true ↔
      ∃ first' second', value = pair first' second' ∧
        (first == first') = true ∧ (second == second') = true := by
  constructor
  · intro equal
    rcases (beq_tuple_iff [first, second] value).mp equal with ⟨items, rfl, same⟩
    have count := @length_eq_of_beq_list [first, second] items same
    match items, count with
    | [first', second'], _ => exact ⟨first', second', rfl, beq_pair_iff.mp equal⟩
  · rintro ⟨first', second', rfl, equal⟩
    exact beq_pair_iff.mpr equal

/-- The values of a list are pairwise unequal. -/
def Distinct (values : List Value) : Prop :=
  values.Pairwise fun value other => (value == other) = false

instance (values : List Value) : Decidable (Distinct values) :=
  inferInstanceAs (Decidable (List.Pairwise _ _))

theorem distinct_concat {values : List Value} {value : Value} :
    Distinct (values ++ [value]) ↔ Distinct values ∧ value.isIn values = false := by
  simp [Distinct, List.pairwise_append, isIn]

theorem Distinct.nodup {values : List Value} (distinct : Distinct values) : values.Nodup := by
  apply distinct.imp
  rintro value _ unequal rfl
  simp at unequal

/-- Where the keys of a list are pairwise unequal, members with equal keys are the same. -/
theorem Distinct.eq_of_beq {α : Type} {members : List α} {key : α → Value}
    (distinct : Distinct (members.map key)) {member other : α} (member_mem : member ∈ members)
    (other_mem : other ∈ members) (equal : (key member == key other) = true) : member = other := by
  induction members with
  | nil => simp at member_mem
  | cons first members ih =>
      rw [Distinct, List.map_cons, List.pairwise_cons] at distinct
      have unequal : ∀ later ∈ members, (key first == key later) = false :=
        fun later later_mem => distinct.1 (key later) (List.mem_map_of_mem later_mem)
      rcases List.mem_cons.mp member_mem with rfl | member_later
      · rcases List.mem_cons.mp other_mem with rfl | other_later
        · rfl
        · simp [unequal other other_later] at equal
      · rcases List.mem_cons.mp other_mem with rfl | other_later
        · rw [BEq.comm] at equal
          simp [unequal member member_later] at equal
        · exact ih distinct.2 member_later other_later

/-- Of pairwise unequal values, only one is found when looking for an equal one. -/
theorem Distinct.filter_beq {values : List Value} (distinct : Distinct values) {value key : Value}
    (value_mem : value ∈ values) (equal : (value == key) = true) :
    values.filter (fun other => other == key) = [value] := by
  rcases List.append_of_mem value_mem with ⟨before, after, rfl⟩
  rw [Distinct, List.pairwise_append, List.pairwise_cons] at distinct
  rcases distinct with ⟨_, ⟨unequal_after, _⟩, unequal_before⟩
  have none_before : before.filter (fun other => other == key) = [] := by
    refine List.filter_eq_nil_iff.mpr fun other other_mem found => ?_
    have unequal := unequal_before other other_mem value (by simp)
    rw [BEq.trans found (BEq.symm equal)] at unequal
    cases unequal
  have none_after : after.filter (fun other => other == key) = [] := by
    refine List.filter_eq_nil_iff.mpr fun other other_mem found => ?_
    have unequal := unequal_after other other_mem
    rw [BEq.trans equal (BEq.symm found)] at unequal
    cases unequal
  simp [List.filter_append, none_before, none_after, equal]

/-- Of two lists of pairwise unequal values that hold the same values up to equality, one equals a
permutation of the other. -/
theorem Distinct.exists_perm {values others : List Value} (distinct : Distinct values)
    (distinct' : Distinct others) (found : ∀ value ∈ values, value.isIn others = true)
    (found' : ∀ other ∈ others, other.isIn values = true) :
    ∃ arranged, others.Perm arranged ∧ (Value.list values == .list arranged) = true := by
  induction values generalizing others with
  | nil =>
      have none : others = [] := List.eq_nil_iff_forall_not_mem.mpr fun other other_mem => by
        simpa [isIn] using found' other other_mem
      exact ⟨[], by rw [none], rfl⟩
  | cons value values ih =>
      rw [Distinct, List.pairwise_cons] at distinct
      rcases isIn_iff.mp (found value (by simp)) with ⟨partner, partner_mem, equal⟩
      rcases List.append_of_mem partner_mem with ⟨before, after, rfl⟩
      have middle : (before ++ partner :: after).Perm (partner :: (before ++ after)) := List.perm_middle
      have apart : Distinct (partner :: (before ++ after)) :=
        (middle.pairwise_iff fun unequal => by rwa [BEq.comm]).mp distinct'
      rw [Distinct, List.pairwise_cons] at apart
      have rest_found : ∀ other ∈ values, other.isIn (before ++ after) = true := by
        intro other other_mem
        rcases isIn_iff.mp (found other (List.mem_cons_of_mem _ other_mem)) with ⟨item, item_mem, same⟩
        rcases List.mem_cons.mp (middle.mem_iff.mp item_mem) with rfl | rest
        · have unequal := distinct.1 other other_mem
          rw [BEq.trans (BEq.symm equal) same] at unequal
          cases unequal
        · exact isIn_iff.mpr ⟨item, rest, same⟩
      have rest_found' : ∀ other ∈ before ++ after, other.isIn values = true := by
        intro other other_mem
        rcases isIn_iff.mp (found' other (middle.mem_iff.mpr (List.mem_cons_of_mem _ other_mem))) with
          ⟨item, item_mem, same⟩
        rcases List.mem_cons.mp item_mem with rfl | rest
        · have unequal := apart.1 other other_mem
          rw [BEq.trans equal same] at unequal
          cases unequal
        · exact isIn_iff.mpr ⟨item, rest, same⟩
      rcases ih distinct.2 apart.2 rest_found rest_found' with ⟨arranged, perm, matched⟩
      refine ⟨partner :: arranged, middle.trans (perm.cons partner), ?_⟩
      change beqItems (value :: values) (partner :: arranged) = true
      rw [beqItems, Bool.and_eq_true]
      exact ⟨BEq.symm equal, matched⟩

/-- Pairwise unequal values that are all found in a list are no more than the list is long. -/
theorem Distinct.length_le {values : List Value} (distinct : Distinct values) (cover : List Value)
    (covered : ∀ value ∈ values, value.isIn cover = true) : values.length ≤ cover.length := by
  induction values generalizing cover with
  | nil => simp
  | cons value values ih =>
      rw [Distinct, List.pairwise_cons] at distinct
      rcases isIn_iff.mp (covered value (by simp)) with ⟨match', match_mem, match_equal⟩
      have shorter : (cover.filter fun item => !(item == value)).length < cover.length := by
        refine List.length_filter_lt_length_iff_exists.mpr ⟨match', match_mem, ?_⟩
        simp [match_equal]
      have rest := ih distinct.2 (cover.filter fun item => !(item == value)) (by
        intro other other_mem
        rcases isIn_iff.mp (covered other (List.mem_cons_of_mem _ other_mem)) with
          ⟨item, item_mem, equal⟩
        refine isIn_iff.mpr ⟨item, List.mem_filter.mpr ⟨item_mem, ?_⟩, equal⟩
        have unequal := distinct.1 other other_mem
        rw [← BEq.congr_right equal, BEq.comm] at unequal
        simp [unequal])
      simp only [List.length_cons]
      omega

end Value

end StateSpace
