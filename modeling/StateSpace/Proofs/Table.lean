import StateSpace.Proofs.Membership
import StateSpace.Proofs.Outcome
import StateSpace.Table

/-!
# Tables by what is looked up in them

A table is a list of entries, and what matters about it is what is found under each key. Insertion and
merging are described by what is found afterwards (`Table.find?_insert`, `Table.find?_merge`) and by the keys,
of which those that are present stay as they are.

A table that was built has no two equal keys. These tables are the proper ones, and
`Table.isProper_iff_ofPairs` says that all of them can be built. Proper tables are told apart by look-ups:
with the same keys they are the same if each key is mapped alike (`Table.eq_of_keys_eq`), and as mappings
they are equal if whatever is looked up is found in both or in neither, with equal values
(`Table.sameEntries_iff_find?`).
-/

namespace StateSpace

namespace Table

variable {α β : Type}

/-! ### Look-ups -/

theorem find?_congr {key other : Value} (equal : (key == other) = true) (table : Table α) :
    table.find? key = table.find? other := by
  induction table with
  | nil => rfl
  | cons entry table ih =>
      rcases entry with ⟨present, value⟩
      simp only [find?, ih, BEq.congr_right equal]

theorem mem_of_find? {table : Table α} {key : Value} {value : α} (found : table.find? key = some value) :
    ∃ present, (present, value) ∈ table ∧ (present == key) = true := by
  induction table with
  | nil => simp [find?] at found
  | cons entry table ih =>
      rcases entry with ⟨present, first⟩
      by_cases same : (present == key) = true
      · simp only [find?, same, ↓reduceIte, Option.some.injEq] at found
        exact ⟨present, by simp [found], same⟩
      · simp only [find?, same, Bool.false_eq_true, ↓reduceIte] at found
        rcases ih found with ⟨other, other_mem, same'⟩
        exact ⟨other, List.mem_cons_of_mem _ other_mem, same'⟩

theorem mem_of_mem_find? {table : Table (List α)} {key : Value} {item : α}
    (mem : item ∈ (table.find? key).getD []) : ∃ entry ∈ table, item ∈ entry.2 := by
  cases found : table.find? key with
  | none => simp [found] at mem
  | some items =>
      rw [found, Option.getD_some] at mem
      rcases mem_of_find? found with ⟨present, entry_mem, _⟩
      exact ⟨_, entry_mem, mem⟩

theorem lookup_of_isHashable {key : Value} (hashable : key.IsHashable) (table : Table α) :
    table.lookup key = .ok (table.find? key) := by
  unfold Value.IsHashable at hashable
  simp [lookup, Value.requireHashable, hashable]

theorem has_eq_isIn_keys (table : Table α) (key : Value) : table.has key = key.isIn table.keys := by
  simp [has, keys, Value.isIn, List.any_map, Function.comp_def]

theorem has_eq_isSome_find? (table : Table α) (key : Value) :
    table.has key = (table.find? key).isSome := by
  induction table with
  | nil => rfl
  | cons entry table ih =>
      rcases entry with ⟨present, value⟩
      simp only [has, List.any_cons, find?] at ih ⊢
      by_cases same : (present == key) = true
      · simp [same]
      · simpa [same] using ih

theorem has_eq_of_keys_eq {table : Table α} {other : Table β} (same : table.keys = other.keys)
    (key : Value) : table.has key = other.has key := by
  rw [has_eq_isIn_keys, has_eq_isIn_keys, same]

theorem has_congr {key other : Value} (equal : (key == other) = true) (table : Table α) :
    table.has key = table.has other := by
  rw [has_eq_isIn_keys, has_eq_isIn_keys, Value.isIn_congr equal]

theorem has_of_mem {table : Table α} {entry : Value × α} (mem : entry ∈ table) :
    table.has entry.1 = true := by
  rw [has_eq_isIn_keys]
  exact Value.isIn_of_mem (List.mem_map_of_mem mem)

/-! ### Insertion -/

theorem find?_insert (table : Table α) (key other : Value) (value : α) :
    (table.insert key value).find? other = if key == other then some value else table.find? other := by
  induction table with
  | nil => rfl
  | cons entry table ih =>
      rcases entry with ⟨present, first⟩
      by_cases same : (present == key) = true
      · have agree : (present == other) = (key == other) := BEq.congr_left same
        simp only [insert, same, ↓reduceIte, find?, agree]
        split <;> rfl
      · simp only [insert, same, Bool.false_eq_true, ↓reduceIte, find?, ih]
        by_cases found : (present == other) = true
        · have unequal : (key == other) = false := by
            rw [← Bool.not_eq_true]
            intro equal
            exact same (BEq.trans found (BEq.symm equal))
          simp [found, unequal]
        · simp [found]

theorem keys_insert_of_has {table : Table α} {key : Value} (present : table.has key = true) (value : α) :
    (table.insert key value).keys = table.keys := by
  induction table with
  | nil => simp [has] at present
  | cons entry table ih =>
      rcases entry with ⟨first, old⟩
      by_cases same : (first == key) = true
      · simp [insert, same, keys]
      · have later : has table key = true := by simpa [has, same] using present
        have rest := ih later
        simp only [keys] at rest
        simp [insert, same, keys, rest]

/-- A key that is not present is added at the end. -/
theorem insert_of_not_has {table : Table α} {key : Value} (absent : table.has key = false) (value : α) :
    table.insert key value = table ++ [(key, value)] := by
  induction table with
  | nil => rfl
  | cons entry table ih =>
      rcases entry with ⟨first, old⟩
      rw [has, List.any_cons, Bool.or_eq_false_iff] at absent
      rw [insert, absent.1, ih absent.2]
      rfl

theorem keys_insert_of_not_has {table : Table α} {key : Value} (absent : table.has key = false) (value : α) :
    (table.insert key value).keys = table.keys ++ [key] := by
  simp [insert_of_not_has absent, keys]

theorem forall_mem_insert {ofKey : Value → Prop} {ofValue : α → Prop} {table : Table α} {key : Value}
    {value : α} (already : ∀ entry ∈ table, ofKey entry.1 ∧ ofValue entry.2) (forKey : ofKey key)
    (forValue : ofValue value) : ∀ entry ∈ table.insert key value, ofKey entry.1 ∧ ofValue entry.2 := by
  induction table with
  | nil => simp [insert, forKey, forValue]
  | cons entry table ih =>
      rcases entry with ⟨first, old⟩
      rw [List.forall_mem_cons] at already
      by_cases same : (first == key) = true
      · simp only [insert, same, ↓reduceIte]
        exact List.forall_mem_cons.mpr ⟨⟨already.1.1, forValue⟩, already.2⟩
      · simp only [insert, same, Bool.false_eq_true, ↓reduceIte]
        exact List.forall_mem_cons.mpr ⟨already.1, ih already.2⟩

/-- Of two values for equal keys the last one counts. -/
theorem insert_insert {key other : Value} (same : (key == other) = true) (table : Table α)
    (value value' : α) :
    (table.insert key value).insert other value' = table.insert key value' := by
  induction table with
  | nil => simp [insert, same]
  | cons entry table ih =>
      rcases entry with ⟨present, old⟩
      cases here : present == key with
      | true => simp [insert, here, BEq.trans here same]
      | false =>
          have elsewhere : (present == other) = false := by
            rw [← BEq.congr_right same]
            exact here
          simp [insert, here, elsewhere, ih]

theorem insert_of_find? {table : Table α} {key : Value} {value : α}
    (found : table.find? key = some value) : table.insert key value = table := by
  induction table with
  | nil => cases found
  | cons entry table ih =>
      rcases entry with ⟨present, old⟩
      cases here : present == key with
      | true =>
          simp only [find?, here, ↓reduceIte, Option.some.injEq] at found
          simp [insert, here, found]
      | false =>
          simp only [find?, here, Bool.false_eq_true, ↓reduceIte] at found
          simp [insert, here, ih found]

/-! ### Merging -/

/-- What the last of the entries with a key maps to. -/
def latest (entries : List (Value × α)) (key : Value) : Option α :=
  (entries.reverse.find? fun entry => entry.1 == key).map Prod.snd

theorem latest_cons (entry : Value × α) (entries : List (Value × α)) (key : Value) :
    latest (entry :: entries) key =
      (latest entries key).or (if entry.1 == key then some entry.2 else none) := by
  simp only [latest, List.reverse_cons, List.find?_append, Option.map_or]
  by_cases same : (entry.1 == key) = true <;> simp [List.find?, same]

theorem merge_cons (table : Table α) (entry : Value × α) (changes : Table α) :
    table.merge (entry :: changes) = (table.insert entry.1 entry.2).merge changes :=
  rfl

/-- Of entries that were merged into a table, the last one with a key counts. -/
theorem find?_merge (table changes : Table α) (key : Value) :
    (table.merge changes).find? key = (latest changes key).or (table.find? key) := by
  induction changes generalizing table with
  | nil => rfl
  | cons entry changes ih =>
      rw [merge_cons, ih, find?_insert, latest_cons, Option.or_assoc]
      split <;> rfl

/-- Rebinding present keys changes neither the keys nor their order. -/
theorem keys_merge_of_has {table changes : Table α}
    (present : ∀ key ∈ changes.keys, table.has key = true) : (table.merge changes).keys = table.keys := by
  induction changes generalizing table with
  | nil => rfl
  | cons entry changes ih =>
      rw [keys, List.map_cons, List.forall_mem_cons] at present
      have kept := keys_insert_of_has present.1 entry.2
      have rest : ∀ key ∈ keys changes, (table.insert entry.1 entry.2).has key = true := by
        intro key key_mem
        rw [has_eq_of_keys_eq kept]
        exact present.2 key key_mem
      exact (ih rest).trans kept

theorem forall_mem_merge (ofKey : Value → Prop) (ofValue : α → Prop) {table changes : Table α}
    (already : ∀ entry ∈ table, ofKey entry.1 ∧ ofValue entry.2)
    (added : ∀ entry ∈ changes, ofKey entry.1 ∧ ofValue entry.2) :
    ∀ entry ∈ table.merge changes, ofKey entry.1 ∧ ofValue entry.2 := by
  induction changes generalizing table with
  | nil => exact already
  | cons entry changes ih =>
      rw [List.forall_mem_cons] at added
      exact ih (forall_mem_insert already added.1.1 added.1.2) added.2

theorem has_merge (table changes : Table α) (key : Value) :
    (table.merge changes).has key = (table.has key || changes.has key) := by
  induction changes generalizing table with
  | nil => simp [merge, has]
  | cons entry changes ih =>
      have inserted : (table.insert entry.1 entry.2).has key = (table.has key || entry.1 == key) := by
        rw [has_eq_isSome_find?, has_eq_isSome_find?, find?_insert]
        by_cases same : (entry.1 == key) = true <;> simp [same]
      have rest := ih (table.insert entry.1 entry.2)
      rw [inserted, Bool.or_assoc] at rest
      exact rest

/-- Entries with keys that are neither present nor equal to one another are added as they are. -/
theorem merge_of_distinct {table changes : Table α} (distinct : Value.Distinct (keys (table ++ changes))) :
    table.merge changes = table ++ changes := by
  induction changes generalizing table with
  | nil => simp [merge]
  | cons entry changes ih =>
      have split : table ++ entry :: changes = (table ++ [entry]) ++ changes := by simp
      have first : Value.Distinct (keys (table ++ [entry])) := by
        rw [split, keys, List.map_append] at distinct
        exact (List.pairwise_append.mp distinct).1
      rw [keys, List.map_append, List.map_singleton, Value.distinct_concat] at first
      have absent : table.has entry.1 = false := by
        rw [has_eq_isIn_keys]
        exact first.2
      rw [merge_cons, insert_of_not_has absent, split]
      exact ih (split ▸ distinct)

/-! ### Building -/

/-- A table is built from entries whose keys may be keys, by merging them into the empty table. -/
theorem ofPairs_eq_ok_iff {entries : List (Value × α)} {table : Table α} :
    ofPairs entries = .ok table ↔
      (∀ key ∈ keys entries, key.IsHashable) ∧ merge [] entries = table := by
  have general : ∀ start : Table α, entries.foldlM (fun table entry => do
      entry.1.requireHashable
      pure (table.insert entry.1 entry.2)) start = .ok table ↔
        (∀ key ∈ keys entries, key.IsHashable) ∧ merge start entries = table := by
    induction entries with
    | nil => simp [merge, keys]
    | cons entry entries ih =>
        intro start
        cases obstacle : entry.1.unhashable? with
        | some kind => simp [Value.requireHashable, Value.IsHashable, keys, obstacle]
        | none =>
            simpa [Value.requireHashable, Value.IsHashable, keys, obstacle, merge_cons] using ih _
  exact general []

/-- A table as it is built: its keys may be keys, and no two of them are equal. -/
structure IsProper (table : Table α) : Prop where
  hashable : ∀ key ∈ table.keys, key.IsHashable
  distinct : Value.Distinct table.keys

instance (table : Table α) : Decidable table.IsProper :=
  decidable_of_iff ((∀ key ∈ table.keys, key.IsHashable) ∧ Value.Distinct table.keys)
    ⟨fun parts => ⟨parts.1, parts.2⟩, fun proper => ⟨proper.hashable, proper.distinct⟩⟩

namespace IsProper

theorem of_keys_eq {table : Table α} {other : Table β} (proper : other.IsProper)
    (same : table.keys = other.keys) : table.IsProper where
  hashable := same ▸ proper.hashable
  distinct := same ▸ proper.distinct

theorem insert {table : Table α} (proper : table.IsProper) {key : Value} (hashable : key.IsHashable)
    (value : α) : (table.insert key value).IsProper := by
  cases present : table.has key with
  | true => exact proper.of_keys_eq (keys_insert_of_has present value)
  | false =>
      have keys_eq := keys_insert_of_not_has present value
      constructor
      · rw [keys_eq, List.forall_mem_append]
        exact ⟨proper.hashable, by simpa using hashable⟩
      · rw [keys_eq, Value.distinct_concat, ← has_eq_isIn_keys]
        exact ⟨proper.distinct, present⟩

theorem merge {table changes : Table α} (proper : table.IsProper)
    (hashable : ∀ key ∈ changes.keys, key.IsHashable) : (table.merge changes).IsProper := by
  induction changes generalizing table with
  | nil => exact proper
  | cons entry changes ih =>
      rw [keys, List.map_cons, List.forall_mem_cons] at hashable
      exact ih (proper.insert hashable.1 entry.2) hashable.2

end IsProper

/-- The proper tables are those that can be built, for instance from their own entries. -/
theorem isProper_iff_ofPairs {table : Table α} : table.IsProper ↔ ofPairs table = .ok table := by
  rw [ofPairs_eq_ok_iff]
  constructor
  · intro proper
    exact ⟨proper.hashable, merge_of_distinct proper.distinct⟩
  · rintro ⟨hashable, built⟩
    have empty : IsProper ([] : Table α) := ⟨by simp [keys], List.Pairwise.nil⟩
    rw [← built]
    exact empty.merge hashable

/-! ### Tables without equal keys -/

theorem find?_eq_some_iff {table : Table α} (distinct : Value.Distinct table.keys) {key : Value}
    {value : α} :
    table.find? key = some value ↔ ∃ present, (present, value) ∈ table ∧ (present == key) = true := by
  constructor
  · exact mem_of_find?
  · rintro ⟨present, entry_mem, same⟩
    have here : table.has key = true := by
      rw [← has_congr same]
      exact has_of_mem entry_mem
    rw [has_eq_isSome_find?] at here
    rcases Option.isSome_iff_exists.mp here with ⟨value', found⟩
    rcases mem_of_find? found with ⟨present', entry_mem', same'⟩
    have entries_eq : (present', value') = (present, value) :=
      distinct.eq_of_beq entry_mem' entry_mem (BEq.trans same' (BEq.symm same))
    rw [found, (Prod.mk.inj entries_eq).2]

theorem find?_of_mem {table : Table α} (distinct : Value.Distinct table.keys) {entry : Value × α}
    (mem : entry ∈ table) : table.find? entry.1 = some entry.2 :=
  (find?_eq_some_iff distinct).mpr ⟨entry.1, mem, BEq.rfl⟩

theorem latest_eq_find? {table : Table α} (distinct : Value.Distinct table.keys) (key : Value) :
    latest table key = table.find? key := by
  have merged := find?_merge [] table key
  rw [merge_of_distinct (by simpa using distinct)] at merged
  simpa [find?] using merged.symm

theorem distinct_of_perm {table other : Table α} (perm : table.Perm other)
    (distinct : Value.Distinct table.keys) : Value.Distinct other.keys :=
  ((perm.map Prod.fst).pairwise_iff fun unequal => by rwa [BEq.comm]).mp distinct

/-- The order of the entries does not matter to a look-up. -/
theorem find?_perm {table other : Table α} (distinct : Value.Distinct table.keys) (perm : table.Perm other)
    (key : Value) : table.find? key = other.find? key := by
  have distinct' := distinct_of_perm perm distinct
  apply Option.ext
  intro value
  rw [find?_eq_some_iff distinct, find?_eq_some_iff distinct']
  simp only [perm.mem_iff]

/-- Tables with the same keys that map each of them alike are the same. -/
theorem eq_of_keys_eq {table other : Table α} (distinct : Value.Distinct table.keys)
    (same : table.keys = other.keys) (agree : ∀ key, table.find? key = other.find? key) :
    table = other := by
  have distinct' : Value.Distinct other.keys := same ▸ distinct
  apply List.ext_getElem?
  intro position
  have here : (table[position]?).map Prod.fst = (other[position]?).map Prod.fst := by
    simpa only [keys, List.getElem?_map] using congrArg (fun keys => keys[position]?) same
  cases found : table[position]? with
  | none => simpa [found] using here.symm
  | some entry =>
      cases found' : other[position]? with
      | none => simp [found, found'] at here
      | some entry' =>
          simp only [found, found', Option.map_some, Option.some.injEq] at here
          have value_eq : some entry.2 = some entry'.2 := by
            rw [← find?_of_mem distinct (List.mem_of_getElem? found), here, agree,
              find?_of_mem distinct' (List.mem_of_getElem? found')]
          rw [Prod.ext here (Option.some.inj value_eq)]

/-- Two mappings are equal if whatever is looked up is found in both or in neither, with equal values. -/
theorem sameEntries_iff_find? {table other : Table Value} (distinct : Value.Distinct table.keys)
    (distinct' : Value.Distinct other.keys) :
    Value.SameEntries table other ↔
      ∀ key, Option.Rel (fun value value' => (value == value') = true) (table.find? key)
        (other.find? key) := by
  constructor
  · rintro ⟨within, covered⟩ key
    cases found : table.find? key with
    | some value =>
        rcases mem_of_find? found with ⟨present, entry_mem, same⟩
        rcases within _ entry_mem with ⟨⟨present', value'⟩, entry_mem', equal⟩
        rcases (Value.beqEntry_iff _ _).mp equal with ⟨sameKey, sameValue⟩
        have found' : other.find? key = some value' :=
          (find?_eq_some_iff distinct').mpr ⟨present', entry_mem', BEq.trans (BEq.symm sameKey) same⟩
        rw [found']
        exact .some sameValue
    | none =>
        cases found' : other.find? key with
        | none => exact .none
        | some value' =>
            rcases mem_of_find? found' with ⟨present', entry_mem', same'⟩
            rcases covered _ entry_mem' with ⟨⟨present, value⟩, entry_mem, equal⟩
            have sameKey := ((Value.beqEntry_iff _ _).mp equal).1
            rw [(find?_eq_some_iff distinct).mpr ⟨present, entry_mem, BEq.trans sameKey same'⟩] at found
            cases found
  · intro agree
    constructor
    · intro entry entry_mem
      have related := agree entry.1
      rw [find?_of_mem distinct entry_mem] at related
      generalize found' : other.find? entry.1 = looked at related
      cases related with
      | some sameValue =>
          rcases mem_of_find? found' with ⟨present', entry_mem', same'⟩
          exact ⟨_, entry_mem', (Value.beqEntry_iff _ _).mpr ⟨BEq.symm same', sameValue⟩⟩
    · intro entry' entry_mem'
      have related := agree entry'.1
      rw [find?_of_mem distinct' entry_mem'] at related
      generalize found : table.find? entry'.1 = looked at related
      cases related with
      | some sameValue =>
          rcases mem_of_find? found with ⟨present, entry_mem, same⟩
          exact ⟨_, entry_mem, (Value.beqEntry_iff _ _).mpr ⟨same, sameValue⟩⟩

end Table

end StateSpace
