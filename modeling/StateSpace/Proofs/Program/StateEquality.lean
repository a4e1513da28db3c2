import StateSpace.Proofs.Program.Updates
import StateSpace.ValueSet

/-!
# Equality of program states

A search forgets which of several equal states it has met, so equal program states must not be told apart by
anything that is done with them. Equality of values is an equivalence that ignores the order of insertion at
every depth (`Value.Reordered.beq`). For program states it comes down to look-ups
(`Table.sameEntries_iff_find?`), and as reading, counting and updating are known by look-ups too, all of them
agree on equal states.
-/

namespace StateSpace

namespace Value

/-- Values that differ in the order of entries only, in any number of dictionaries and program states and at
any depth. To reorder something inside an entry, the entry is brought to the front. -/
inductive Reordered : Value → Value → Prop where
  | refl (value : Value) : Reordered value value
  | trans {value middle last : Value} (first : Reordered value middle) (second : Reordered middle last) :
      Reordered value last
  | dict {entries others : List (Value × Value)} (perm : entries.Perm others) :
      Reordered (.dict entries) (.dict others)
  | state {entries others : List (Value × Value)} (perm : entries.Perm others) :
      Reordered (.state entries) (.state others)
  | inTuple (before after : List Value) {item item' : Value} (inside : Reordered item item') :
      Reordered (.tuple (before ++ item :: after)) (.tuple (before ++ item' :: after))
  | inList (before after : List Value) {item item' : Value} (inside : Reordered item item') :
      Reordered (.list (before ++ item :: after)) (.list (before ++ item' :: after))
  | inDict (entries : List (Value × Value)) {key key' value value' : Value}
      (inKey : Reordered key key') (inValue : Reordered value value') :
      Reordered (.dict ((key, value) :: entries)) (.dict ((key', value') :: entries))
  | inState (entries : List (Value × Value)) {key key' value value' : Value}
      (inKey : Reordered key key') (inValue : Reordered value value') :
      Reordered (.state ((key, value) :: entries)) (.state ((key', value') :: entries))

theorem beqItems_replace (before after : List Value) {item item' : Value} (same : beq item item' = true) :
    beqItems (before ++ item :: after) (before ++ item' :: after) = true := by
  induction before with
  | nil =>
      rw [List.nil_append, List.nil_append, beqItems, Bool.and_eq_true]
      exact ⟨same, beqItems_refl fun item _ => beq_refl item⟩
  | cons first before ih =>
      rw [List.cons_append, List.cons_append, beqItems, Bool.and_eq_true]
      exact ⟨beq_refl first, ih⟩

theorem beqEntry_refl (entry : Value × Value) : beqEntry entry entry = true :=
  (beqEntry_iff entry entry).mpr ⟨beq_refl entry.1, beq_refl entry.2⟩

theorem sameEntries_of_perm {entries others : List (Value × Value)} (perm : entries.Perm others) :
    SameEntries entries others := by
  constructor
  · intro entry entry_mem
    exact ⟨entry, perm.mem_iff.mp entry_mem, beqEntry_refl entry⟩
  · intro other other_mem
    exact ⟨other, perm.mem_iff.mpr other_mem, beqEntry_refl other⟩

theorem sameEntries_cons {entry entry' : Value × Value} (same : beqEntry entry entry' = true)
    (entries : List (Value × Value)) : SameEntries (entry :: entries) (entry' :: entries) := by
  constructor
  · intro other other_mem
    rcases List.mem_cons.mp other_mem with rfl | rest
    · exact ⟨entry', by simp, same⟩
    · exact ⟨other, List.mem_cons_of_mem _ rest, beqEntry_refl other⟩
  · intro other other_mem
    rcases List.mem_cons.mp other_mem with rfl | rest
    · exact ⟨entry, by simp, same⟩
    · exact ⟨other, List.mem_cons_of_mem _ rest, beqEntry_refl other⟩

/-- The order of insertion does not matter to equality. -/
theorem Reordered.beq {value other : Value} (reordered : value.Reordered other) :
    value.beq other = true := by
  induction reordered with
  | refl value => exact beq_refl value
  | trans _ _ first second => exact beq_trans first second
  | dict perm => exact (beq_dict_iff _ _).mpr ⟨_, rfl, sameEntries_of_perm perm⟩
  | state perm => exact (beq_state_iff _ _).mpr ⟨_, rfl, sameEntries_of_perm perm⟩
  | inTuple before after _ ih => exact (beq_tuple_iff _ _).mpr ⟨_, rfl, beqItems_replace before after ih⟩
  | inList before after _ ih => exact (beq_list_iff _ _).mpr ⟨_, rfl, beqItems_replace before after ih⟩
  | inDict entries _ _ inKey inValue =>
      have same := (beqEntry_iff (_, _) (_, _)).mpr ⟨inKey, inValue⟩
      exact (beq_dict_iff _ _).mpr ⟨_, rfl, sameEntries_cons same entries⟩
  | inState entries _ _ inKey inValue =>
      have same := (beqEntry_iff (_, _) (_, _)).mpr ⟨inKey, inValue⟩
      exact (beq_state_iff _ _).mpr ⟨_, rfl, sameEntries_cons same entries⟩

end Value

namespace Table

variable {table other : Table Value}

theorem length_le_of_sameEntries (distinct : Value.Distinct table.keys)
    (within : ∀ entry ∈ table, ∃ entry' ∈ other, Value.beqEntry entry entry' = true) :
    table.length ≤ other.length := by
  have covered : ∀ key ∈ table.keys, key.isIn other.keys = true := by
    intro key key_mem
    rcases List.mem_map.mp key_mem with ⟨entry, entry_mem, rfl⟩
    rcases within entry entry_mem with ⟨entry', entry_mem', same⟩
    exact Value.isIn_iff.mpr
      ⟨entry'.1, List.mem_map_of_mem entry_mem', BEq.symm ((Value.beqEntry_iff _ _).mp same).1⟩
  simpa [keys] using distinct.length_le other.keys covered

theorem sameEntries_symm (same : Value.SameEntries table other) : Value.SameEntries other table :=
  same.symm fun _ _ => ⟨fun _ => Value.beq_symm, fun _ => Value.beq_symm⟩

theorem length_eq_of_sameEntries (distinct : Value.Distinct table.keys)
    (distinct' : Value.Distinct other.keys) (same : Value.SameEntries table other) :
    table.length = other.length :=
  Nat.le_antisymm (length_le_of_sameEntries distinct same.1)
    (length_le_of_sameEntries distinct' (sameEntries_symm same).1)

/-- The same keys are present in equal mappings. -/
theorem has_eq_of_sameEntries (same : Value.SameEntries table other) (key : Value) :
    table.has key = other.has key := by
  have included : ∀ {table other : Table Value}, Value.SameEntries table other →
      table.has key = true → other.has key = true := by
    intro table other same present
    rcases List.any_eq_true.mp present with ⟨entry, entry_mem, equal⟩
    rcases same.1 entry entry_mem with ⟨entry', entry_mem', sameEntry⟩
    have sameKey := ((Value.beqEntry_iff _ _).mp sameEntry).1
    exact List.any_eq_true.mpr ⟨entry', entry_mem', BEq.trans (BEq.symm sameKey) equal⟩
  exact Bool.eq_iff_iff.mpr ⟨included same, included (sameEntries_symm same)⟩

/-- Equal changes to equal mappings give equal mappings. -/
theorem merge_congr {changes changes' : Table Value} (proper : table.IsProper) (proper' : other.IsProper)
    (changes_proper : changes.IsProper) (changes_proper' : changes'.IsProper)
    (same : Value.SameEntries table other) (sameChanges : Value.SameEntries changes changes') :
    Value.SameEntries (table.merge changes) (other.merge changes') := by
  rw [sameEntries_iff_find? (proper.merge changes_proper.hashable).distinct
    (proper'.merge changes_proper'.hashable).distinct]
  intro key
  have agree := (sameEntries_iff_find? proper.distinct proper'.distinct).mp same key
  have agreeChanges :=
    (sameEntries_iff_find? changes_proper.distinct changes_proper'.distinct).mp sameChanges key
  rw [find?_merge, find?_merge, latest_eq_find? changes_proper.distinct,
    latest_eq_find? changes_proper'.distinct]
  generalize changes.find? key = changed, changes'.find? key = changed' at agreeChanges
  cases agreeChanges with
  | some equal => exact .some equal
  | none => exact agree

end Table

namespace ProgramState

instance : EquivBEq ProgramState where
  rfl {state} := BEq.rfl (a := state.toValue)
  symm {state _} same := BEq.symm (a := state.toValue) same
  trans {state middle _} left right := BEq.trans (a := state.toValue) (b := middle.toValue) left right

variable {state other : ProgramState}

theorem beq_iff_sameEntries :
    (state == other) = true ↔ Value.SameEntries state.entries other.entries := by
  refine (Value.beq_state_iff state.entries other.toValue).trans ?_
  constructor
  · rintro ⟨entries, same_eq, same⟩
    cases same_eq
    exact same
  · intro same
    exact ⟨_, rfl, same⟩

theorem get_congr (proper : state.entries.IsProper) (proper' : other.entries.IsProper)
    (same : Value.SameEntries state.entries other.entries) {name : Value} (hashable : name.IsHashable) :
    (∃ value value', state.get name = .ok value ∧ other.get name = .ok value' ∧
        (value == value') = true) ∨
      state.get name = .error (state.missing name) ∧ other.get name = .error (other.missing name) := by
  have agree := (Table.sameEntries_iff_find? proper.distinct proper'.distinct).mp same name
  rw [get_of_isHashable hashable, get_of_isHashable hashable]
  generalize state.entries.find? name = found, other.entries.find? name = found' at agree
  cases agree with
  | some equal => exact .inl ⟨_, _, rfl, rfl, equal⟩
  | none => exact .inr ⟨rfl, rfl⟩

theorem declares_congr (same : Value.SameEntries state.entries other.entries) (name : Value) :
    state.declares name = other.declares name := by
  have present := Table.has_eq_of_sameEntries same name
  rw [Table.has_eq_isSome_find?, Table.has_eq_isSome_find?] at present
  simp only [declares, toValue, Value.hasMember, Table.lookup]
  cases name.requireHashable with
  | error fault => rfl
  | ok _ => simp [present]

/-- If all variables that changes name are declared, so are those that equal changes name, in an equal
state. -/
theorem names_declared_congr {changes changes' : Table Value}
    (same : Value.SameEntries state.entries other.entries)
    (sameChanges : Value.SameEntries changes changes')
    (declared : ∀ name ∈ changes.keys, state.entries.has name = true) :
    ∀ name ∈ changes'.keys, other.entries.has name = true := by
  intro name name_mem
  rcases List.mem_map.mp name_mem with ⟨entry', entry_mem', rfl⟩
  rcases sameChanges.2 entry' entry_mem' with ⟨entry, entry_mem, sameEntry⟩
  have sameName := ((Value.beqEntry_iff _ _).mp sameEntry).1
  rw [← Table.has_eq_of_sameEntries same, ← Table.has_congr sameName]
  exact declared entry.1 (List.mem_map_of_mem entry_mem)

theorem update_congr (proper : state.entries.IsProper) (proper' : other.entries.IsProper)
    {changes changes' : Table Value} (changes_proper : changes.IsProper)
    (changes_proper' : changes'.IsProper) (same : Value.SameEntries state.entries other.entries)
    (sameChanges : Value.SameEntries changes changes') :
    (∃ after after', state.update changes = .ok after ∧ other.update changes' = .ok after' ∧
        (after == after') = true) ∨
      ∃ name name', state.update changes = .error (state.missing name) ∧
        other.update changes' = .error (other.missing name') := by
  cases updated : state.update changes with
  | ok after =>
      rcases update_eq_ok_iff.mp updated with ⟨declared, rfl⟩
      have declared' := names_declared_congr same sameChanges declared
      refine .inl ⟨_, _, rfl, update_eq_ok_iff.mpr ⟨declared', rfl⟩, beq_iff_sameEntries.mpr ?_⟩
      exact Table.merge_congr proper proper' changes_proper changes_proper' same sameChanges
  | error fault =>
      cases updated' : other.update changes' with
      | ok after' =>
          have declared := names_declared_congr (Table.sameEntries_symm same)
            (Table.sameEntries_symm sameChanges) (update_eq_ok_iff.mp updated').1
          rw [update_eq_ok_iff.mpr ⟨declared, rfl⟩] at updated
          cases updated
      | error fault' =>
          rcases update_eq_error_iff.mp updated with ⟨_, name, _, _, _, _, rfl⟩
          rcases update_eq_error_iff.mp updated' with ⟨_, name', _, _, _, _, rfl⟩
          exact .inr ⟨name, name', rfl, rfl⟩

end ProgramState

/-- Equal mappings are of one kind and have equal entries. -/
theorem Value.sameEntries_of_mapping {mapping mapping' : Value} {changes changes' : Table Value}
    (entries_eq : mapping.mapping? = some changes) (entries_eq' : mapping'.mapping? = some changes')
    (same : (mapping == mapping') = true) : SameEntries changes changes' := by
  cases mapping with
  | dict entries =>
      rcases (beq_dict_iff entries mapping').mp same with ⟨entries', rfl, sameEntries⟩
      cases entries_eq
      cases entries_eq'
      exact sameEntries
  | state entries =>
      rcases (beq_state_iff entries mapping').mp same with ⟨entries', rfl, sameEntries⟩
      cases entries_eq
      cases entries_eq'
      exact sameEntries
  | _ => cases entries_eq

namespace ProgramState

/-- Equality of program states is sound for telling apart what was visited. It is an equivalence, and it
ignores the order of insertion, in the states and in all values inside them. Equal states are both accepted
as keys or both refused, and no set has one of them without the other. They are read alike: each variable has
equal values in both or is missing in both, and they have equally many. Equal changes turn them into equal
states, or both refuse the changes for a variable that is not declared. -/
theorem beq_congruence :
    Equivalence (fun state other : ProgramState => (state == other) = true) ∧
    (∀ state other : ProgramState, state.toValue.Reordered other.toValue → (state == other) = true) ∧
    ∀ state other : ProgramState, state.entries.IsProper → other.entries.IsProper →
      (state == other) = true →
      (state.toValue.requireHashable = .ok () ∧ other.toValue.requireHashable = .ok () ∨
        ∃ kind kind', state.toValue.requireHashable = .error (.unhashable kind) ∧
          other.toValue.requireHashable = .error (.unhashable kind')) ∧
      (∀ visited : ValueSet, visited.has state.toValue = visited.has other.toValue) ∧
      (∀ name : Value, name.IsHashable →
        (∃ value value', state.get name = .ok value ∧ other.get name = .ok value' ∧
          (value == value') = true) ∨
        state.get name = .error (state.missing name) ∧ other.get name = .error (other.missing name)) ∧
      state.toValue.size = other.toValue.size ∧
      (∀ name : Value, state.declares name = other.declares name) ∧
      ∀ (mapping mapping' : Value) (changes changes' : Table Value),
        mapping.mapping? = some changes → changes.IsProper →
        mapping'.mapping? = some changes' → changes'.IsProper → (mapping == mapping') = true →
        (∃ after after', state.updateFrom mapping = .ok after ∧ other.updateFrom mapping' = .ok after' ∧
          (after == after') = true) ∨
        ∃ name name', state.updateFrom mapping = .error (state.missing name) ∧
          other.updateFrom mapping' = .error (other.missing name') := by
  refine ⟨⟨fun _ => BEq.rfl, BEq.symm, BEq.trans⟩, fun _ _ reordered => reordered.beq, ?_⟩
  intro state other proper proper' equal
  have same := beq_iff_sameEntries.mp equal
  refine ⟨Value.requireHashable_cases equal, ?_, fun name => get_congr proper proper' same, ?_,
    declares_congr same, ?_⟩
  · intro visited
    rw [ValueSet.has_eq, ValueSet.has_eq]
    exact Value.isIn_congr equal visited.members
  · have counts := Table.length_eq_of_sameEntries proper.distinct proper'.distinct same
    simp only [Value.size, toValue, Value.items?, List.length_map, counts]
  · intro mapping mapping' changes changes' entries_eq changes_proper entries_eq' changes_proper' sameMapping
    rw [updateFrom_eq_update entries_eq changes_proper.hashable,
      updateFrom_eq_update entries_eq' changes_proper'.hashable]
    have sameChanges := Value.sameEntries_of_mapping entries_eq entries_eq' sameMapping
    exact update_congr proper proper' changes_proper changes_proper' same sameChanges

/-- A state with a number and a text as variables, and a dictionary as one of the values. -/
def numbered : ProgramState where
  entries := [(.int 1, .dict [(.str "a", .list [.bool true]), (.str "b", .null)]),
    (.str "red", .tuple [.int 0])]

/-- The same assignment in another order, with a truth value for each number and a symbol for the text. -/
def flagged : ProgramState where
  entries := [(.symbol ⟨"Color", "RED", "red"⟩, .tuple [.bool false]),
    (.bool true, .dict [(.str "b", .null), (.str "a", .list [.int 1])])]

theorem beq_congruence_flagged :
    numbered.entries.IsProper ∧ flagged.entries.IsProper ∧ (numbered == flagged) = true ∧
      (∃ kind kind', numbered.toValue.requireHashable = .error (.unhashable kind) ∧
        flagged.toValue.requireHashable = .error (.unhashable kind')) ∧
      ∃ after after', numbered.updateFrom (.dict [(.bool true, .int 0)]) = .ok after ∧
        flagged.updateFrom (.dict [(.int 1, .bool false)]) = .ok after' ∧ (after == after') = true := by
  have proper : numbered.entries.IsProper := by decide
  have proper' : flagged.entries.IsProper := by decide
  have equal : (numbered == flagged) = true := by decide
  rcases beq_congruence with ⟨_, _, congruent⟩
  rcases congruent numbered flagged proper proper' equal with ⟨refused, _, _, _, _, updates⟩
  refine ⟨proper, proper', equal, ?_, ?_⟩
  · rcases refused with ⟨accepted, _⟩ | refused
    · cases accepted
    · exact refused
  · rcases updates (.dict [(.bool true, .int 0)]) (.dict [(.int 1, .bool false)]) _ _ rfl (by decide) rfl
      (by decide) (by decide) with updated | ⟨_, _, failed, _⟩
    · exact updated
    · cases failed

end ProgramState

end StateSpace
