import Mathlib.Data.List.Forall2
import StateSpace.Fault

/-!
# Outcomes of operations in sequence

The laws by which a sequence of operations that may fail is taken apart. They are stated for `Result`,
in which the functions of a searched system run. One operation on each item of a list succeeds if it does so
on every item (`Result.mapM_eq_ok_iff`), and otherwise has the fault of the first item on which it fails
(`Result.mapM_eq_error_iff`).
-/

namespace StateSpace

namespace Result

variable {α β γ : Type}

@[simp]
theorem ok_bind (value : α) (next : α → Result β) :
    ((Except.ok value : Result α) >>= next) = next value :=
  rfl

@[simp]
theorem error_bind (fault : Fault) (next : α → Result β) :
    ((Except.error fault : Result α) >>= next) = .error fault :=
  rfl

@[simp]
theorem pure_eq_ok (value : α) : (pure value : Result α) = .ok value :=
  rfl

/-- A sequence of two operations succeeds if the first does and the second does on its result. -/
theorem bind_eq_ok_iff {first : Result α} {next : α → Result β} {result : β} :
    (first >>= next) = .ok result ↔ ∃ value, first = .ok value ∧ next value = .ok result := by
  cases first <;> simp

/-- A sequence of two operations fails if the first does, or if the second does on its result. -/
theorem bind_eq_error_iff {first : Result α} {next : α → Result β} {fault : Fault} :
    (first >>= next) = .error fault ↔
      first = .error fault ∨ ∃ value, first = .ok value ∧ next value = .error fault := by
  cases first <;> simp

theorem map_eq_error_iff {result : Result α} {view : α → β} {fault : Fault} :
    result.map view = .error fault ↔ result = .error fault := by
  cases result <;> simp [Except.map]

theorem map_mapM (items : List α) (operation : α → Result β) (view : β → γ) :
    (items.mapM operation).map (List.map view) = items.mapM fun item => (operation item).map view := by
  induction items with
  | nil => rfl
  | cons item items ih =>
      rw [List.mapM_cons, List.mapM_cons, ← ih]
      cases operation item with
      | error fault => rfl
      | ok value => cases items.mapM operation <;> rfl

/-- Operations in sequence that have one fault in common have that fault unless all of them succeed. -/
theorem mapM_eq_ite {items : List α} {operation : α → Result β} {succeeds : α → Prop}
    [DecidablePred succeeds] {value : α → β} {fault : Fault}
    (outcome : ∀ item ∈ items,
      operation item = if succeeds item then .ok (value item) else .error fault) :
    items.mapM operation =
      if ∀ item ∈ items, succeeds item then .ok (items.map value) else .error fault := by
  induction items with
  | nil => rfl
  | cons item items ih =>
      rw [List.forall_mem_cons] at outcome
      rw [List.mapM_cons, outcome.1, ih outcome.2]
      by_cases first : succeeds item
      · by_cases rest : ∀ item ∈ items, succeeds item
        · rw [if_pos first, if_pos rest, if_pos (List.forall_mem_cons.mpr ⟨first, rest⟩)]
          rfl
        · rw [if_pos first, if_neg rest, if_neg fun all => rest (List.forall_mem_cons.mp all).2]
          rfl
      · rw [if_neg first, if_neg fun all => first (List.forall_mem_cons.mp all).1]
        rfl

/-- The first item of a list that fails does so with the fault, and all items before it have results. -/
def FirstFails (function : α → Result β) (items : List α) (fault : Fault) : Prop :=
  ∃ earlier item later, items = earlier ++ item :: later ∧
    (∀ other ∈ earlier, ∃ value, function other = .ok value) ∧ function item = .error fault

theorem not_firstFails_nil {function : α → Result β} {fault : Fault} : ¬FirstFails function [] fault := by
  rintro ⟨earlier, item, later, items_eq, _⟩
  simp at items_eq

theorem firstFails_cons_iff {function : α → Result β} {item : α} {items : List α} {fault : Fault} :
    FirstFails function (item :: items) fault ↔
      function item = .error fault ∨
        (∃ value, function item = .ok value) ∧ FirstFails function items fault := by
  constructor
  · rintro ⟨earlier, failing, later, items_eq, succeed, fails⟩
    cases earlier with
    | nil =>
        simp only [List.nil_append, List.cons.injEq] at items_eq
        rcases items_eq with ⟨rfl, rfl⟩
        exact .inl fails
    | cons first earlier =>
        simp only [List.cons_append, List.cons.injEq] at items_eq
        rcases items_eq with ⟨rfl, rfl⟩
        rw [List.forall_mem_cons] at succeed
        exact .inr ⟨succeed.1, earlier, failing, later, rfl, succeed.2, fails⟩
  · rintro (fails | ⟨succeeds, earlier, failing, later, rfl, succeed, fails⟩)
    · exact ⟨[], item, items, rfl, by simp, fails⟩
    · refine ⟨item :: earlier, failing, later, rfl, ?_, fails⟩
      exact List.forall_mem_cons.mpr ⟨succeeds, succeed⟩

theorem firstFails_congr {function : α → Result β} {function' : α → Result γ} {items : List α} {fault : Fault}
    (succeed : ∀ item, (∃ value, function item = .ok value) ↔ ∃ value, function' item = .ok value)
    (fail : ∀ item, function item = .error fault ↔ function' item = .error fault) :
    FirstFails function items fault ↔ FirstFails function' items fault := by
  simp only [FirstFails, succeed, fail]

theorem exists_firstFails {function : α → Result β} {items : List α}
    (fails : ∃ item ∈ items, ∃ fault, function item = .error fault) :
    ∃ fault, FirstFails function items fault := by
  induction items with
  | nil =>
      rcases fails with ⟨item, item_mem, _⟩
      simp at item_mem
  | cons first items ih =>
      cases outcome : function first with
      | error fault => exact ⟨fault, firstFails_cons_iff.mpr (.inl outcome)⟩
      | ok value =>
          have later : ∃ item ∈ items, ∃ fault, function item = .error fault := by
            simpa [outcome] using fails
          rcases ih later with ⟨fault, firstFails⟩
          exact ⟨fault, firstFails_cons_iff.mpr (.inr ⟨⟨value, outcome⟩, firstFails⟩)⟩

theorem mapM_eq_error_iff {function : α → Result β} {items : List α} {fault : Fault} :
    items.mapM function = .error fault ↔ FirstFails function items fault := by
  induction items with
  | nil =>
      apply iff_of_false
      · intro failed
        cases failed
      · exact not_firstFails_nil
  | cons item items ih =>
      rw [List.mapM_cons, firstFails_cons_iff, ← ih]
      cases function item with
      | error raised => simp
      | ok value => cases items.mapM function <;> simp

theorem mapM_eq_ok_iff {function : α → Result β} {items : List α} {results : List β} :
    items.mapM function = .ok results ↔
      List.Forall₂ (fun item result => function item = .ok result) items results := by
  induction items generalizing results with
  | nil => simp [eq_comm]
  | cons item items ih =>
      simp only [List.mapM_cons, bind_eq_ok_iff, pure_eq_ok, Except.ok.injEq, ih]
      constructor
      · rintro ⟨value, value_eq, values, values_eq, rfl⟩
        exact .cons value_eq values_eq
      · intro related
        cases related with
        | cons value_eq values_eq => exact ⟨_, value_eq, _, values_eq, rfl⟩

theorem exists_mapM_eq_ok_iff {function : α → Result β} {items : List α} :
    (∃ results, items.mapM function = .ok results) ↔ ∀ item ∈ items, ∃ result, function item = .ok result := by
  induction items with
  | nil => simp
  | cons item items ih =>
      rw [List.forall_mem_cons, ← ih]
      simp only [mapM_eq_ok_iff]
      constructor
      · rintro ⟨results, related⟩
        cases related with
        | cons first rest => exact ⟨⟨_, first⟩, ⟨_, rest⟩⟩
      · rintro ⟨⟨result, first⟩, ⟨results, rest⟩⟩
        exact ⟨result :: results, .cons first rest⟩

theorem forall_mem_of_mapM {function : α → Result β} {items : List α} {results : List β}
    (made : items.mapM function = .ok results) {holds : β → Prop}
    (each : ∀ item ∈ items, ∀ result, function item = .ok result → holds result) :
    ∀ result ∈ results, holds result := by
  rw [mapM_eq_ok_iff] at made
  induction made with
  | nil => simp
  | @cons item result items results first _ ih =>
      rw [List.forall_mem_cons] at each ⊢
      exact ⟨each.1 result first, ih each.2⟩

/-- Two operations have related results, or faults of one category. -/
inductive Alike (related : α → β → Prop) : Result α → Result β → Prop where
  | ok {value : α} {other : β} (same : related value other) : Alike related (.ok value) (.ok other)
  | error {fault other : Fault} (same : fault.category = other.category) :
      Alike related (.error fault) (.error other)

end Result

end StateSpace
