import StateSpace.Program.State
import StateSpace.Proofs.Table

/-!
# Updates of program states

An update either rebinds all the variables that it names or reports the first of them that is not declared.
The variables and their order stay as they are, so what an update gives is known from what is read
afterwards, and the laws of updates are laws of look-ups: two results are the same if every variable is read
alike from both (`Table.eq_of_keys_eq`).
-/

namespace StateSpace

/-- The entries of a mapping, which is a dictionary or a program state. -/
def Value.mapping? : Value → Option (Table Value)
  | .dict entries => some entries
  | .state entries => some entries
  | _ => none

namespace Table

variable {α : Type}

/-- The first key with a property, once a key was inserted. A property of keys does not tell equal ones
apart. -/
theorem find?_keys_insert {property : Value → Bool}
    (respects : ∀ {key other : Value}, (key == other) = true → property key = property other)
    (table : Table α) (key : Value) (value : α) :
    (keys (table.insert key value)).find? property =
      (table.keys.find? property).or (if property key then some key else none) := by
  cases present : table.has key with
  | false =>
      rw [keys_insert_of_not_has present, List.find?_append, List.find?_singleton]
  | true =>
      rw [keys_insert_of_has present]
      cases first : table.keys.find? property with
      | some found => rfl
      | none =>
          rw [has_eq_isIn_keys, Value.isIn_iff] at present
          rcases present with ⟨other, other_mem, same⟩
          have unmet := List.find?_eq_none.mp first other other_mem
          rw [respects same] at unmet
          rw [if_neg unmet, Option.or_none]

theorem find?_keys_merge {property : Value → Bool}
    (respects : ∀ {key other : Value}, (key == other) = true → property key = property other)
    (table changes : Table α) :
    (table.merge changes).keys.find? property =
      (table.keys.find? property).or (changes.keys.find? property) := by
  induction changes generalizing table with
  | nil => simp [merge, keys]
  | cons entry changes ih =>
      rw [merge_cons, ih, find?_keys_insert respects, Option.or_assoc]
      cases met : property entry.1 <;> simp [keys, met]

/-- Rebinding present keys twice is rebinding them once, with the changes merged. -/
theorem merge_merge {table changes further : Table α} (proper : table.IsProper)
    (changes_proper : changes.IsProper) (further_proper : further.IsProper)
    (present : ∀ key ∈ changes.keys, table.has key = true)
    (present' : ∀ key ∈ further.keys, table.has key = true) :
    (table.merge changes).merge further = table.merge (changes.merge further) := by
  have kept : (table.merge changes).keys = table.keys := keys_merge_of_has present
  have kept' : ((table.merge changes).merge further).keys = table.keys := by
    refine (keys_merge_of_has fun key key_mem => ?_).trans kept
    rw [has_eq_of_keys_eq kept]
    exact present' key key_mem
  have all : ∀ key ∈ (changes.merge further).keys, table.has key = true := by
    intro key key_mem
    rcases List.mem_map.mp key_mem with ⟨entry, entry_mem, rfl⟩
    exact (forall_mem_merge (table.has · = true) (fun _ => True)
      (fun entry entry_mem => ⟨present _ (List.mem_map_of_mem entry_mem), trivial⟩)
      (fun entry entry_mem => ⟨present' _ (List.mem_map_of_mem entry_mem), trivial⟩) entry entry_mem).1
  apply eq_of_keys_eq
  · rw [kept']
    exact proper.distinct
  · rw [kept', keys_merge_of_has all]
  · intro key
    have merged := changes_proper.merge further_proper.hashable
    rw [find?_merge, find?_merge, find?_merge, latest_eq_find? merged.distinct, find?_merge,
      latest_eq_find? changes_proper.distinct, Option.or_assoc]

/-- Present keys may be rebound in any order. -/
theorem merge_perm {table changes order : Table α} (distinct : Value.Distinct table.keys)
    (changes_distinct : Value.Distinct changes.keys) (perm : changes.Perm order)
    (present : ∀ key ∈ changes.keys, table.has key = true) :
    table.merge order = table.merge changes := by
  have present' : ∀ key ∈ order.keys, table.has key = true := by
    intro key key_mem
    exact present key ((perm.map Prod.fst).mem_iff.mpr key_mem)
  apply eq_of_keys_eq
  · rw [keys_merge_of_has present']
    exact distinct
  · rw [keys_merge_of_has present, keys_merge_of_has present']
  · intro key
    rw [find?_merge, find?_merge, latest_eq_find? changes_distinct,
      latest_eq_find? (distinct_of_perm perm changes_distinct), find?_perm changes_distinct perm]

end Table

namespace ProgramState

variable {state after : ProgramState} {changes further : Table Value}

/-! ### What is read -/

theorem get_of_isHashable {name : Value} (hashable : name.IsHashable) (state : ProgramState) :
    state.get name =
      match state.entries.find? name with
      | some value => .ok value
      | none => .error (state.missing name) := by
  simp only [get, toValue, Value.item, Table.lookup_of_isHashable hashable, Result.ok_bind]
  cases state.entries.find? name <;> rfl

theorem get_of_unhashable {name : Value} {kind : String} (obstacle : name.unhashable? = some kind)
    (state : ProgramState) : state.get name = .error (.unhashable kind) := by
  simp [get, toValue, Value.item, Table.lookup, Value.requireHashable, obstacle]

theorem get_eq_ok_iff {name value : Value} :
    state.get name = .ok value ↔ name.IsHashable ∧ state.entries.find? name = some value := by
  cases obstacle : name.unhashable? with
  | some kind => simp [get_of_unhashable obstacle, Value.IsHashable, obstacle]
  | none =>
      have hashable : name.IsHashable := obstacle
      rw [get_of_isHashable hashable]
      cases state.entries.find? name <;> simp [hashable]

theorem declares_of_isHashable {name : Value} (hashable : name.IsHashable) (state : ProgramState) :
    state.declares name = .ok (state.entries.has name) := by
  simp [declares, toValue, Value.hasMember, Table.lookup_of_isHashable hashable,
    Table.has_eq_isSome_find?]

theorem declares_str (state : ProgramState) (name : String) :
    state.declares (.str name) = .ok (state.entries.has (.str name)) := by
  have hashable : (Value.str name).IsHashable := rfl
  exact declares_of_isHashable hashable state

theorem declares_eq_of_declared_eq {other : ProgramState} (same : state.declared = other.declared)
    (name : Value) : state.declares name = other.declares name := by
  have sameHas := Table.has_eq_of_keys_eq same name
  rw [Table.has_eq_isSome_find?, Table.has_eq_isSome_find?] at sameHas
  simp only [declares, toValue, Value.hasMember, Table.lookup]
  cases name.requireHashable with
  | error fault => rfl
  | ok _ => simp [sameHas]

theorem exists_get_of_declares {name : Value} (declares : state.declares name = .ok true) :
    ∃ value, state.get name = .ok value := by
  simp only [ProgramState.declares, toValue, Value.hasMember, Result.bind_eq_ok_iff, Result.pure_eq_ok,
    Except.ok.injEq] at declares
  rcases declares with ⟨found, lookup_eq, isSome⟩
  rcases Option.isSome_iff_exists.mp isSome with ⟨value, rfl⟩
  exact ⟨value, by simp [get, toValue, Value.item, lookup_eq]⟩

/-! ### Outcomes of updates -/

theorem update_eq_ok_iff :
    state.update changes = .ok after ↔
      (∀ name ∈ changes.keys, state.entries.has name = true) ∧
        ⟨state.entries.merge changes⟩ = after := by
  unfold update
  cases first : changes.keys.find? fun name => !state.entries.has name with
  | none =>
      have declared : ∀ name ∈ changes.keys, state.entries.has name = true := by
        simpa using List.find?_eq_none.mp first
      simp only [Except.ok.injEq]
      exact ⟨fun updated => ⟨declared, updated⟩, And.right⟩
  | some name =>
      have undeclared := List.find?_some first
      have name_mem := List.mem_of_find?_eq_some first
      constructor
      · intro updated
        cases updated
      · rintro ⟨declared, _⟩
        simp [declared name name_mem] at undeclared

/-- An update that fails reports the first variable that is not declared. -/
theorem update_eq_error_iff {fault : Fault} :
    state.update changes = .error fault ↔
      ∃ before name later, changes.keys = before ++ name :: later ∧
        (∀ earlier ∈ before, state.entries.has earlier = true) ∧
        state.entries.has name = false ∧ fault = state.missing name := by
  unfold update
  constructor
  · intro failed
    cases first : changes.keys.find? fun name => !state.entries.has name with
    | none =>
        rw [first] at failed
        cases failed
    | some name =>
        rw [first] at failed
        cases failed
        rcases List.find?_eq_some_iff_append.mp first with ⟨undeclared, before, later, keys_eq, declared⟩
        exact ⟨before, name, later, keys_eq, by simpa using declared, by simpa using undeclared, rfl⟩
  · rintro ⟨before, name, later, keys_eq, declared, undeclared, rfl⟩
    have first : changes.keys.find? (fun name => !state.entries.has name) = some name :=
      List.find?_eq_some_iff_append.mpr
        ⟨by simpa using undeclared, before, later, keys_eq, by simpa using declared⟩
    rw [first]

/-- An update keeps the declared variables and their order. -/
theorem declared_update (updated : state.update changes = .ok after) : after.declared = state.declared := by
  rcases update_eq_ok_iff.mp updated with ⟨present, rfl⟩
  exact Table.keys_merge_of_has present

/-- An update that names a variable that is not declared is refused for the first such variable. -/
theorem update_of_undeclared {name : Value} (named : changes.has name = true)
    (undeclared : state.entries.has name = false) :
    ∃ first ∈ changes.keys, state.entries.has first = false ∧
      state.update changes = .error (state.missing first) := by
  rw [Table.has_eq_isIn_keys, Value.isIn_iff] at named
  rcases named with ⟨key, key_mem, same⟩
  cases updated : state.update changes with
  | ok after =>
      have declared := (update_eq_ok_iff.mp updated).1 key key_mem
      rw [Table.has_congr same, undeclared] at declared
      cases declared
  | error fault =>
      rcases update_eq_error_iff.mp updated with ⟨before, first, later, keys_eq, _, undeclared, rfl⟩
      exact ⟨first, by simp [keys_eq], undeclared, rfl⟩

theorem requireDeclared_eq {names : List Value} (hashable : ∀ name ∈ names, name.IsHashable)
    (state : ProgramState) :
    state.requireDeclared names =
      match names.find? fun name => !state.entries.has name with
      | some name => .error (state.missing name)
      | none => .ok () := by
  induction names with
  | nil => rfl
  | cons name names ih =>
      rw [List.forall_mem_cons] at hashable
      have step : state.requireDeclared (name :: names) =
          if state.entries.has name then state.requireDeclared names else .error (state.missing name) := by
        simp only [requireDeclared, List.forM_eq_forM, List.forM_cons, declares_of_isHashable hashable.1,
          Result.ok_bind]
        cases state.entries.has name <;> rfl
      rw [step, ih hashable.2]
      cases declared : state.entries.has name <;> simp [List.find?, declared]

/-- Dictionaries and program states update alike. -/
theorem updateFrom_eq_update {mapping : Value} (entries_eq : mapping.mapping? = some changes)
    (hashable : ∀ key ∈ changes.keys, key.IsHashable) (state : ProgramState) :
    state.updateFrom mapping = state.update changes := by
  have elements_eq : mapping.elements = .ok changes.keys := by
    cases mapping <;> cases entries_eq <;> rfl
  have merged : mapping.mergeInto state.entries = .ok (state.entries.merge changes) := by
    cases mapping <;> cases entries_eq <;> rfl
  rw [updateFrom, elements_eq, Result.ok_bind, requireDeclared_eq hashable, update, merged]
  cases changes.keys.find? fun name => !state.entries.has name <;> rfl

theorem set_eq_ok_iff {name value : Value} :
    state.set name value = .ok after ↔
      name.IsHashable ∧ state.entries.has name = true ∧ ⟨state.entries.insert name value⟩ = after := by
  have updated : state.update [(name, value)] = .ok after ↔
      state.entries.has name = true ∧ ⟨state.entries.insert name value⟩ = after := by
    simpa [Table.keys, Table.merge] using @update_eq_ok_iff state after [(name, value)]
  unfold set Value.requireHashable Value.IsHashable
  cases name.unhashable? with
  | none => simpa using updated
  | some kind => simp

/-- Setting variables one after the other is an update with all of them, the last of equal ones counting. -/
theorem foldlM_set_eq_ok_iff {order : List (Value × Value)} :
    order.foldlM (fun state entry => state.set entry.1 entry.2) state = .ok after ↔
      (∀ entry ∈ order, entry.1.IsHashable ∧ state.entries.has entry.1 = true) ∧
        ⟨state.entries.merge order⟩ = after := by
  induction order generalizing state with
  | nil => cases state; simp [Table.merge]
  | cons entry order ih =>
      rw [List.foldlM_cons, Result.bind_eq_ok_iff, List.forall_mem_cons, Table.merge_cons]
      constructor
      · rintro ⟨next, isSet, rest⟩
        rcases set_eq_ok_iff.mp isSet with ⟨hashable, present, rfl⟩
        rcases ih.mp rest with ⟨others, after_eq⟩
        refine ⟨⟨⟨hashable, present⟩, fun other other_mem => ?_⟩, after_eq⟩
        have kept := Table.has_eq_of_keys_eq (Table.keys_insert_of_has present entry.2)
        rw [← kept]
        exact others other other_mem
      · rintro ⟨⟨⟨hashable, present⟩, others⟩, after_eq⟩
        refine ⟨_, set_eq_ok_iff.mpr ⟨hashable, present, rfl⟩, ih.mpr ⟨?_, after_eq⟩⟩
        intro other other_mem
        rw [Table.has_eq_of_keys_eq (Table.keys_insert_of_has present entry.2)]
        exact others other other_mem

/-! ### Laws of updates -/

/-- A variable that an update names has its new value afterwards, and every other one what it had. -/
theorem get_update (changes_proper : changes.IsProper) (updated : state.update changes = .ok after)
    (name : Value) :
    after.get name = if changes.has name then (Value.dict changes).item name else state.get name := by
  have declared := declared_update updated
  rcases update_eq_ok_iff.mp updated with ⟨_, rfl⟩
  by_cases hashable : name.IsHashable
  · have looked : (state.entries.merge changes).find? name =
        (changes.find? name).or (state.entries.find? name) := by
      rw [Table.find?_merge, Table.latest_eq_find? changes_proper.distinct]
    simp only [get_of_isHashable hashable, looked, missing, declared, Table.has_eq_isSome_find?,
      Value.item, Table.lookup_of_isHashable hashable, Result.ok_bind]
    cases changes.find? name <;> rfl
  · -- what may not be a key equals no key, and is refused before anything is looked up
    have absent : changes.has name = false := by
      rw [← Bool.not_eq_true, Table.has_eq_isIn_keys, Value.isIn_iff]
      rintro ⟨key, key_mem, same⟩
      exact hashable ((changes_proper.hashable key key_mem).of_beq same)
    rw [absent, if_neg Bool.false_ne_true]
    cases obstacle : name.unhashable? with
    | some kind => rw [get_of_unhashable obstacle, get_of_unhashable obstacle]
    | none => exact absurd obstacle hashable

/-- One update after another is one update with the changes merged, and fails for the same variable. -/
theorem update_merge (proper : state.entries.IsProper) (changes_proper : changes.IsProper)
    (further_proper : further.IsProper) :
    state.update (changes.merge further) = state.update changes >>= fun next => next.update further := by
  have respects : ∀ {key other : Value}, (key == other) = true →
      (!state.entries.has key) = !state.entries.has other :=
    fun same => congrArg _ (Table.has_congr same _)
  cases updated : state.update changes with
  | error fault =>
      rcases update_eq_error_iff.mp updated with ⟨before, name, later, keys_eq, declared, undeclared, rfl⟩
      have first : changes.keys.find? (fun name => !state.entries.has name) = some name :=
        List.find?_eq_some_iff_append.mpr
          ⟨by simp [undeclared], before, later, keys_eq, by simpa using declared⟩
      rw [update, Table.find?_keys_merge respects, first]
      rfl
  | ok next =>
      have kept := declared_update updated
      rcases update_eq_ok_iff.mp updated with ⟨present, rfl⟩
      have none_first : changes.keys.find? (fun name => !state.entries.has name) = none := by
        simpa using present
      rw [Result.ok_bind, update, update, Table.find?_keys_merge respects, none_first, Option.none_or]
      simp only [Table.has_eq_of_keys_eq kept, missing, kept]
      cases first : further.keys.find? fun name => !state.entries.has name with
      | some name => rfl
      | none =>
          have present' : ∀ name ∈ further.keys, state.entries.has name = true := by
            simpa using List.find?_eq_none.mp first
          simp only [Table.merge_merge proper changes_proper further_proper present present']

theorem foldlM_set_eq_update (proper : state.entries.IsProper) (changes_proper : changes.IsProper)
    {order : List (Value × Value)} (perm : changes.Perm order) :
    order.foldlM (fun state entry => state.set entry.1 entry.2) state = .ok after ↔
      state.update changes = .ok after := by
  rw [foldlM_set_eq_ok_iff, update_eq_ok_iff]
  have names : (∀ entry ∈ order, entry.1.IsHashable ∧ state.entries.has entry.1 = true) ↔
      ∀ name ∈ changes.keys, state.entries.has name = true := by
    simp only [← perm.mem_iff, Table.keys, List.forall_mem_map]
    constructor
    · intro each entry entry_mem
      exact (each entry entry_mem).2
    · intro each entry entry_mem
      exact ⟨changes_proper.hashable _ (List.mem_map_of_mem entry_mem), each entry entry_mem⟩
  rw [names]
  refine and_congr_right fun present => ?_
  rw [Table.merge_perm proper.distinct changes_proper.distinct perm present]

theorem set_set {name name' : Value} (same : (name == name') = true) (value value' : Value) :
    (state.set name value >>= fun next => next.set name' value') = .ok after ↔
      state.set name value' = .ok after := by
  simp only [Result.bind_eq_ok_iff, set_eq_ok_iff]
  constructor
  · rintro ⟨_, ⟨hashable, present, rfl⟩, _, _, rfl⟩
    exact ⟨hashable, present, by rw [Table.insert_insert same]⟩
  · rintro ⟨hashable, present, rfl⟩
    refine ⟨_, ⟨hashable, present, rfl⟩, hashable.of_beq same, ?_, by rw [Table.insert_insert same]⟩
    rw [Table.has_eq_of_keys_eq (Table.keys_insert_of_has present value), ← Table.has_congr same]
    exact present

theorem set_comm (proper : state.entries.IsProper) {name other : Value}
    (unequal : (name == other) = false) (value value' : Value) :
    (state.set name value >>= fun next => next.set other value') = .ok after ↔
      (state.set other value' >>= fun next => next.set name value) = .ok after := by
  have twice : ∀ first second : Value × Value,
      (state.set first.1 first.2 >>= fun next => next.set second.1 second.2) =
        [first, second].foldlM (fun state entry => state.set entry.1 entry.2) state := by
    intro first second
    simp only [List.foldlM_cons, List.foldlM_nil, bind_pure]
  rw [twice (name, value) (other, value'), twice (other, value') (name, value), foldlM_set_eq_ok_iff,
    foldlM_set_eq_ok_iff]
  have perm : List.Perm [(name, value), (other, value')] [(other, value'), (name, value)] := .swap _ _ _
  have distinct : Value.Distinct (Table.keys [(name, value), (other, value')]) := by
    simpa [Table.keys, Value.Distinct] using unequal
  simp only [perm.mem_iff]
  refine and_congr_right fun each => ?_
  have present : ∀ key ∈ Table.keys [(name, value), (other, value')], state.entries.has key = true := by
    simp_all [Table.keys]
  rw [Table.merge_perm proper.distinct distinct perm present]

theorem set_get {name value : Value} (read : state.get name = .ok value) :
    state.set name value = .ok state := by
  rcases get_eq_ok_iff.mp read with ⟨hashable, found⟩
  refine set_eq_ok_iff.mpr ⟨hashable, ?_, by rw [Table.insert_of_find? found]⟩
  rw [Table.has_eq_isSome_find?, found, Option.isSome_some]

/-- The laws of updates, for any program state and any changes. A mapping updates by its entries, whether it
is a dictionary or a program state. An update fails exactly if it names a variable that is not declared, and
reports the first one. Otherwise it gives the variables in the same order, with the new values for those that
it names and the old ones for all others. One update after another is one with the changes merged, the later
ones winning. An update is the same as setting its variables one after the other, in any order. Of two values
set for equal variables the last one counts, variables that are unequal may be set in either order, and
setting a variable to the value that it has changes nothing. Where two ways give a result, it is the same to
the order of the variables, and not only an equal one. -/
theorem update_laws {state : ProgramState} (proper : state.entries.IsProper) {changes further : Table Value}
    (changes_proper : changes.IsProper) (further_proper : further.IsProper) :
    (∀ mapping : Value, mapping.mapping? = some changes →
      state.updateFrom mapping = state.update changes) ∧
    (∀ fault, state.update changes = .error fault ↔
      ∃ before name later, changes.keys = before ++ name :: later ∧
        (∀ earlier ∈ before, state.declares earlier = .ok true) ∧ state.declares name = .ok false ∧
        fault = .missingVariable name state.declared) ∧
    (∀ after, state.update changes = .ok after →
      after.declared = state.declared ∧
      ∀ name, after.get name =
        if changes.has name then (Value.dict changes).item name else state.get name) ∧
    state.update (changes.merge further) = (state.update changes >>= fun next => next.update further) ∧
    (∀ order : List (Value × Value), changes.Perm order →
      ∀ after, order.foldlM (fun next entry => next.set entry.1 entry.2) state = .ok after ↔
        state.update changes = .ok after) ∧
    (∀ name name' value value' after, (name == name') = true →
      ((state.set name value >>= fun next => next.set name' value') = .ok after ↔
        state.set name value' = .ok after)) ∧
    (∀ name other value value' after, (name == other) = false →
      ((state.set name value >>= fun next => next.set other value') = .ok after ↔
        (state.set other value' >>= fun next => next.set name value) = .ok after)) ∧
    ∀ name value, state.get name = .ok value → state.set name value = .ok state := by
  refine ⟨fun mapping entries_eq => updateFrom_eq_update entries_eq changes_proper.hashable state, ?_,
    fun after updated => ⟨declared_update updated, get_update changes_proper updated⟩,
    update_merge proper changes_proper further_proper,
    fun order perm after => foldlM_set_eq_update proper changes_proper perm,
    fun name name' value value' after same => set_set same value value',
    fun name other value value' after unequal => set_comm proper unequal value value',
    fun name value => set_get⟩
  intro fault
  rw [update_eq_error_iff]
  refine exists_congr fun before => exists_congr fun name => exists_congr fun later => ?_
  refine and_congr_right fun keys_eq => ?_
  have hashable := changes_proper.hashable
  rw [keys_eq, List.forall_mem_append, List.forall_mem_cons] at hashable
  have declared_iff : (∀ earlier ∈ before, state.declares earlier = .ok true) ↔
      ∀ earlier ∈ before, state.entries.has earlier = true := by
    refine forall₂_congr fun earlier earlier_mem => ?_
    rw [declares_of_isHashable (hashable.1 earlier earlier_mem), Except.ok.injEq]
  rw [declared_iff, declares_of_isHashable hashable.2.1, Except.ok.injEq]
  rfl

/-- A state whose variables are a number, a text and a tuple. -/
def mixed : ProgramState where
  entries := [(.int 1, .str "low"), (.str "red", .list []), (.tuple [.null], .int 0)]

/-- New values for the number and the text, which are named by a truth value and a symbol that equal them. -/
def renamed : Table Value :=
  [(.symbol ⟨"Color", "RED", "red"⟩, .int 6), (.bool true, .int 5)]

theorem update_laws_mixed :
    mixed.entries.IsProper ∧ renamed.IsProper ∧ Table.IsProper [(.str "red", Value.int 7)] ∧
      (mixed.set (.bool true) (.int 5) >>= fun next => next.set (.symbol ⟨"Color", "RED", "red"⟩) (.int 6)) =
        .ok ⟨[(.int 1, .int 5), (.str "red", .int 6), (.tuple [.null], .int 0)]⟩ ∧
      (mixed.update renamed >>= fun next => next.update [(.str "red", .int 7)]) =
        .ok ⟨[(.int 1, .int 5), (.str "red", .int 7), (.tuple [.null], .int 0)]⟩ := by
  have proper : mixed.entries.IsProper := by decide
  have renamed_proper : renamed.IsProper := by decide
  have further_proper : Table.IsProper [(.str "red", Value.int 7)] := by decide
  rcases update_laws proper renamed_proper further_proper with ⟨_, _, _, merged, ordered, _⟩
  refine ⟨proper, renamed_proper, further_proper, ?_, merged ▸ rfl⟩
  exact (ordered _ (.swap _ _ _) _).mpr rfl

end ProgramState

end StateSpace
