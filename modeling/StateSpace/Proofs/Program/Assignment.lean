import StateSpace.Expr
import StateSpace.Proofs.Program.StateEquality
import StateSpace.Proofs.Program.Variables

/-!
# Simultaneous assignments

An assignment evaluates its updates one after the other, all of them in the program state before, and then
rebinds the variables together. So it has at most one of two faults. If an update fails, the first that does
so decides, and whether the variables are declared is never asked. Otherwise the assignment is an update of
the program state by the values (`Routine.assign_run_eq_update`), and the laws of updates apply: each
variable is read by one look-up, and the order of the names does not matter.
-/

namespace StateSpace

namespace Routine

variable {updates : List (String × Update Result)} {state : ProgramState}

theorem distinct_names (distinct : (updates.map Prod.fst).Nodup) :
    Value.Distinct (updates.map fun entry => .str entry.1) := by
  rw [List.Nodup, List.pairwise_map] at distinct
  apply List.pairwise_map.mpr
  apply distinct.imp
  intro entry other unequal
  apply Bool.eq_false_iff.mpr
  intro same
  have sameText := (Value.beq_str_iff entry.1 _).mp same
  simp only [Value.asText?, Option.some.injEq] at sameText
  exact unequal sameText.symm

/-- No update is lost if the names are distinct. -/
theorem updateTable_of_nodup (distinct : (updates.map Prod.fst).Nodup) :
    updateTable updates = updates.map fun entry => (.str entry.1, entry.2) := by
  apply Table.merge_of_distinct
  simpa [Table.keys, Function.comp_def] using distinct_names distinct

theorem assign_run_eq (identity : Identity) (distinct : (updates.map Prod.fst).Nodup)
    (state : ProgramState) :
    (assign identity updates).run state.toValue = (do
      let values ← updates.mapM fun entry => do
        pure (Value.str entry.1, ← entry.2.evaluate state.toValue)
      pure (← state.update values).toValue) := by
  rw [assign_run_toValue, updateTable_of_nodup distinct, evaluateUpdates_eq_mapM, List.mapM_map]
  rfl

/-- The first update that fails decides. -/
theorem assign_run_of_firstFails (identity : Identity) (distinct : (updates.map Prod.fst).Nodup)
    {fault : Fault}
    (fails : Result.FirstFails (fun entry => entry.2.evaluate state.toValue) updates fault) :
    (assign identity updates).run state.toValue = .error fault := by
  have failed : (updates.mapM fun entry => do
      pure (Value.str entry.1, ← entry.2.evaluate state.toValue)) = .error fault := by
    apply Result.mapM_eq_error_iff.mpr
    refine (Result.firstFails_congr ?_ ?_).mp fails
    · intro entry
      simp [Result.bind_eq_ok_iff]
    · intro entry
      simp [Result.bind_eq_error_iff]
  rw [assign_run_eq identity distinct, failed, Result.error_bind]

/-- The changes that updates come to if they have the given values. -/
def changes (updates : List (String × Update Result)) (valueOf : String × Update Result → Value) :
    Table Value :=
  updates.map fun entry => (.str entry.1, valueOf entry)

section Values

variable {valueOf : String × Update Result → Value}

theorem keys_changes : (changes updates valueOf).keys = updates.map fun entry => .str entry.1 := by
  simp [changes, Table.keys]

theorem changes_isProper (distinct : (updates.map Prod.fst).Nodup) :
    (changes updates valueOf).IsProper where
  hashable := by
    rw [keys_changes, List.forall_mem_map]
    intro entry _
    rfl
  distinct := by
    rw [keys_changes]
    exact distinct_names distinct

theorem has_changes_iff {name : Value} :
    (changes updates valueOf).has name = true ↔
      ∃ entry ∈ updates, (Value.str entry.1 == name) = true := by
  rw [Table.has_eq_isIn_keys, keys_changes, Value.isIn_iff]
  simp

theorem item_changes (distinct : (updates.map Prod.fst).Nodup) {entry : String × Update Result}
    (entry_mem : entry ∈ updates) {name : Value} (same : (Value.str entry.1 == name) = true) :
    (Value.dict (changes updates valueOf)).item name = .ok (valueOf entry) := by
  have textHashable : (Value.str entry.1).IsHashable := rfl
  have hashable : name.IsHashable := textHashable.of_beq same
  have found : (changes updates valueOf).find? name = some (valueOf entry) := by
    apply (Table.find?_eq_some_iff (changes_isProper distinct).distinct).mpr
    exact ⟨.str entry.1, List.mem_map_of_mem entry_mem, same⟩
  simp [Value.item, Table.lookup_of_isHashable hashable, found]

/-- Where all updates have values, an assignment is an update of the program state by these values. -/
theorem assign_run_eq_update (identity : Identity) (distinct : (updates.map Prod.fst).Nodup)
    (evaluates : ∀ entry ∈ updates, entry.2.evaluate state.toValue = .ok (valueOf entry)) :
    (assign identity updates).run state.toValue =
      (state.update (changes updates valueOf)).map ProgramState.toValue := by
  have evaluated : (updates.mapM fun entry => do
      pure (Value.str entry.1, ← entry.2.evaluate state.toValue)) = .ok (changes updates valueOf) := by
    rw [Result.mapM_eq_ok_iff, changes, List.forall₂_map_right_iff, List.forall₂_same]
    intro entry entry_mem
    rw [evaluates entry entry_mem]
    rfl
  rw [assign_run_eq identity distinct, evaluated, Result.ok_bind]
  cases state.update (changes updates valueOf) <;> rfl

/-- An assignment is refused exactly if it names a variable that is not declared. -/
theorem exists_update_changes_eq_missing_iff (valueOf : String × Update Result → Value) :
    (∃ name, state.update (changes updates valueOf) = .error (state.missing name)) ↔
      ∃ entry ∈ updates, state.declares (.str entry.1) = .ok false := by
  constructor
  · rintro ⟨name, failed⟩
    rcases ProgramState.update_eq_error_iff.mp failed with ⟨before, first, later, keys_eq, _, undeclared, _⟩
    have first_mem : first ∈ (changes updates valueOf).keys := by
      rw [keys_eq]
      simp
    rw [keys_changes] at first_mem
    rcases List.mem_map.mp first_mem with ⟨entry, entry_mem, rfl⟩
    exact ⟨entry, entry_mem, by rw [ProgramState.declares_str, undeclared]⟩
  · rintro ⟨entry, entry_mem, undeclared⟩
    rw [ProgramState.declares_str, Except.ok.injEq] at undeclared
    have named : (changes updates valueOf).has (.str entry.1) = true :=
      has_changes_iff.mpr ⟨entry, entry_mem, BEq.rfl⟩
    rcases ProgramState.update_of_undeclared named undeclared with ⟨first, _, _, failed⟩
    exact ⟨first, failed⟩

theorem has_of_mem_keys_changes (valueOf : String × Update Result → Value)
    (declared : ¬∃ entry ∈ updates, state.declares (.str entry.1) = .ok false) :
    ∀ key ∈ (changes updates valueOf).keys, state.entries.has key = true := by
  rw [keys_changes, List.forall_mem_map]
  intro entry entry_mem
  apply Bool.eq_true_of_not_eq_false
  intro absent
  exact declared ⟨entry, entry_mem, by rw [ProgramState.declares_str, absent]⟩

/-- Where the names stand in another order, the assignment gives the same program state, or is refused too. -/
theorem update_changes_perm (valueOf : String × Update Result → Value) (proper : state.entries.IsProper)
    (distinct : (updates.map Prod.fst).Nodup) {order : List (String × Update Result)}
    (perm : updates.Perm order) :
    (∃ after, state.update (changes updates valueOf) = .ok after ∧
        state.update (changes order valueOf) = .ok after) ∨
      ∃ name name', state.update (changes updates valueOf) = .error (state.missing name) ∧
        state.update (changes order valueOf) = .error (state.missing name') := by
  by_cases undeclared : ∃ entry ∈ updates, state.declares (.str entry.1) = .ok false
  · have undeclared' : ∃ entry ∈ order, state.declares (.str entry.1) = .ok false := by
      simpa only [perm.mem_iff] using undeclared
    rcases (exists_update_changes_eq_missing_iff valueOf).mpr undeclared with ⟨name, failed⟩
    rcases (exists_update_changes_eq_missing_iff valueOf).mpr undeclared' with ⟨name', failed'⟩
    exact .inr ⟨name, name', failed, failed'⟩
  · have present : ∀ key ∈ (changes updates valueOf).keys, state.entries.has key = true :=
      has_of_mem_keys_changes valueOf undeclared
    have changed : (changes updates valueOf).Perm (changes order valueOf) := perm.map _
    have present' : ∀ key ∈ (changes order valueOf).keys, state.entries.has key = true := by
      intro key key_mem
      exact present key ((changed.map Prod.fst).mem_iff.mpr key_mem)
    have merged := Table.merge_perm proper.distinct (changes_isProper distinct).distinct changed present
    refine .inl ⟨_, ProgramState.update_eq_ok_iff.mpr ⟨present, rfl⟩, ?_⟩
    rw [← merged]
    exact ProgramState.update_eq_ok_iff.mpr ⟨present', rfl⟩

end Values

/-- An assignment to distinct names is simultaneous. If all updates have values in the program state, it is
refused exactly if it names a variable that is not declared, and otherwise gives each variable that it names
the value of its update in the program state before, and leaves all other variables as they were. In any order
of the names it gives an equal program state or is refused too. If an update fails, the fault is that of the
first one that does so, whether the variables are declared or not. -/
theorem assign_simultaneous (identity : Identity) (distinct : (updates.map Prod.fst).Nodup)
    (proper : state.entries.IsProper) :
    ((∀ entry ∈ updates, ∃ value, entry.2.evaluate state.toValue = .ok value) →
      ((∃ name, (assign identity updates).run state.toValue =
          .error (.missingVariable name state.declared)) ↔
        ∃ entry ∈ updates, state.declares (.str entry.1) = .ok false) ∧
      ((¬∃ entry ∈ updates, state.declares (.str entry.1) = .ok false) →
        ∃ after : ProgramState, (assign identity updates).run state.toValue = .ok after.toValue ∧
          after.declared = state.declared ∧
          (∀ entry ∈ updates, ∀ name, (Value.str entry.1 == name) = true →
            after.get name = entry.2.evaluate state.toValue) ∧
          ∀ name, (∀ entry ∈ updates, (Value.str entry.1 == name) = false) →
            after.get name = state.get name) ∧
      ∀ other order, updates.Perm order →
        (∃ after after' : ProgramState, (assign identity updates).run state.toValue = .ok after.toValue ∧
          (assign other order).run state.toValue = .ok after'.toValue ∧ (after == after') = true) ∨
        ∃ name name', (assign identity updates).run state.toValue =
            .error (.missingVariable name state.declared) ∧
          (assign other order).run state.toValue = .error (.missingVariable name' state.declared)) ∧
    ((∃ entry ∈ updates, ∃ fault, entry.2.evaluate state.toValue = .error fault) →
      ∃ fault, Result.FirstFails (fun entry => entry.2.evaluate state.toValue) updates fault ∧
        (assign identity updates).run state.toValue = .error fault) := by
  refine ⟨fun evaluate => ?_, fun fails => ?_⟩
  · choose! valueOf evaluates using evaluate
    have ran := assign_run_eq_update identity distinct evaluates
    refine ⟨?_, ?_, ?_⟩
    · rw [← exists_update_changes_eq_missing_iff valueOf, ran]
      apply exists_congr
      intro name
      exact Result.map_eq_error_iff
    · intro declared
      have updated := ProgramState.update_eq_ok_iff.mpr
        ⟨has_of_mem_keys_changes valueOf declared, rfl⟩
      have read := ProgramState.get_update (changes_isProper distinct) updated
      refine ⟨_, by rw [ran, updated]; rfl, ProgramState.declared_update updated, ?_, ?_⟩
      · intro entry entry_mem name same
        have named : (changes updates valueOf).has name = true :=
          has_changes_iff.mpr ⟨entry, entry_mem, same⟩
        rw [read name, if_pos named, item_changes distinct entry_mem same,
          evaluates entry entry_mem]
      · intro name unnamed
        have absent : ¬(changes updates valueOf).has name = true := by
          rw [has_changes_iff]
          rintro ⟨entry, entry_mem, same⟩
          simp [unnamed entry entry_mem] at same
        rw [read name, if_neg absent]
    · intro other order perm
      have distinct' : (order.map Prod.fst).Nodup := (perm.map Prod.fst).nodup_iff.mp distinct
      have evaluates' : ∀ entry ∈ order, entry.2.evaluate state.toValue = .ok (valueOf entry) :=
        fun entry entry_mem => evaluates entry (perm.mem_iff.mpr entry_mem)
      rw [ran, assign_run_eq_update other distinct' evaluates']
      rcases update_changes_perm valueOf proper distinct perm with
        ⟨after, updated, updated'⟩ | ⟨name, name', failed, failed'⟩
      · exact .inl ⟨after, after, by rw [updated]; rfl, by rw [updated']; rfl, BEq.rfl⟩
      · exact .inr ⟨name, name', by rw [failed]; rfl, by rw [failed']; rfl⟩
  · rcases Result.exists_firstFails fails with ⟨fault, firstFails⟩
    exact ⟨fault, firstFails, assign_run_of_firstFails identity distinct firstFails⟩

end Routine

namespace Rotation

/-- An update that takes the value of a variable. -/
def copied (name : String) : Update Result :=
  .computed fun state => (Expr.lookup (.ok (.str name))).evaluate state

/-- Three variables handed on in a circle. -/
def updates : List (String × Update Result) :=
  [("x", copied "y"), ("y", copied "z"), ("z", copied "x")]

/-- The first update names a variable that is not declared, and the second reads one. -/
def misdirected : List (String × Update Result) :=
  [("w", .constant .null), ("x", copied "v")]

def state : ProgramState where
  entries := [(.str "x", .int 1), (.str "y", .int 2), (.str "z", .int 3)]

end Rotation

/-- No value is lost in a rotation. Where a variable is missing when it is read, it is not asked whether the
named ones are declared. -/
theorem Routine.assign_simultaneous_rotation :
    (Rotation.updates.map Prod.fst).Nodup ∧ (Rotation.misdirected.map Prod.fst).Nodup ∧
      Rotation.state.entries.IsProper ∧
      (∃ after : ProgramState,
        (assign (.made 0) Rotation.updates).run Rotation.state.toValue = .ok after.toValue ∧
        after.get (.str "x") = .ok (.int 2) ∧ after.get (.str "y") = .ok (.int 3) ∧
        after.get (.str "z") = .ok (.int 1)) ∧
      (assign (.made 1) Rotation.misdirected).run Rotation.state.toValue =
        .error (Rotation.state.missing (.str "v")) := by
  have distinct : (Rotation.updates.map Prod.fst).Nodup := by decide
  have distinct' : (Rotation.misdirected.map Prod.fst).Nodup := by decide
  have proper : Rotation.state.entries.IsProper := by decide
  have evaluate : ∀ entry ∈ Rotation.updates,
      ∃ value, entry.2.evaluate Rotation.state.toValue = .ok value := by
    simp only [Rotation.updates, List.forall_mem_cons, List.not_mem_nil, false_implies, implies_true,
      and_true]
    exact ⟨⟨_, rfl⟩, ⟨_, rfl⟩, _, rfl⟩
  have declared : ¬∃ entry ∈ Rotation.updates, Rotation.state.declares (.str entry.1) = .ok false := by
    rintro ⟨entry, entry_mem, undeclared⟩
    simp only [Rotation.updates, List.mem_cons, List.not_mem_nil, or_false] at entry_mem
    rcases entry_mem with rfl | rfl | rfl <;> cases undeclared
  refine ⟨distinct, distinct', proper, ?_, ?_⟩
  · rcases ((assign_simultaneous (.made 0) distinct proper).1 evaluate).2.1 declared with
      ⟨after, ran, _, named, _⟩
    refine ⟨after, ran, ?_, ?_, ?_⟩
    · exact named ("x", Rotation.copied "y") (by simp [Rotation.updates]) (.str "x") BEq.rfl
    · exact named ("y", Rotation.copied "z") (by simp [Rotation.updates]) (.str "y") BEq.rfl
    · exact named ("z", Rotation.copied "x") (by simp [Rotation.updates]) (.str "z") BEq.rfl
  · have fails : ∃ entry ∈ Rotation.misdirected,
        ∃ fault, entry.2.evaluate Rotation.state.toValue = .error fault :=
      ⟨("x", Rotation.copied "v"), by simp [Rotation.misdirected], _, rfl⟩
    rcases (assign_simultaneous (.made 1) distinct' proper).2 fails with ⟨fault, first, ran⟩
    rw [ran]
    simp only [Rotation.misdirected, Result.firstFails_cons_iff, Result.not_firstFails_nil, and_false,
      or_false] at first
    rcases first with failed | ⟨_, failed⟩
    · cases failed
    · cases failed
      rfl

end StateSpace
