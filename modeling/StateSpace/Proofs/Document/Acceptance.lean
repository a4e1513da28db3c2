import StateSpace.Proofs.Document.Restoring

/-!
# Which documents are accepted

Nothing checks the shape of a document before it is read. What is accepted follows from looking up members
and walking through items, and these accept more than what is ever written: a text without characters and a
dictionary without entries can be walked through, and list no steps.

Plain data that is read without a decoder is accepted if everything that is read is found in it
(`Path.FoundIn`), and what can be found is decided by the kinds of values alone. A fault comes either from a
value of the wrong kind or from a dictionary that lacks a key.
-/

namespace StateSpace

/-- The fault of using a value in a way that its kind does not allow. -/
inductive Fault.IsMismatch : Fault → Prop where
  | notSubscriptable (kind : String) : IsMismatch (.notSubscriptable kind)
  | badSubscript (container index : String) : IsMismatch (.badSubscript container index)
  | notIterable (kind : String) : IsMismatch (.notIterable kind)

namespace Value

/-- A dictionary with each of the names as a key. -/
def HasNames (data : Value) (names : List String) : Prop :=
  ∃ entries : Table Value, data = .dict entries ∧ ∀ name ∈ names, entries.has (.str name) = true

/-- A dictionary without a name as a key. -/
def Lacks (data : Value) (name : String) : Prop :=
  ∃ entries : Table Value, data = .dict entries ∧ entries.has (.str name) = false

/-- What stands for the steps of a path: a list of dictionaries with an action and a state each, or something
else without items. -/
def ListsSteps : Value → Prop
  | .list items => ∀ item ∈ items, item.HasNames ["action", "state"]
  | .str text => text = ""
  | .dict entries => entries = []
  | _ => False

variable {data : Value} {name : String} {value : Value} {fault : Fault}

/-! ### Looking up and walking through plain data -/

theorem item_eq_ok_iff (plain : data.IsPlain) :
    data.item (.str name) = .ok value ↔
      ∃ entries : Table Value, data = .dict entries ∧ entries.find? (.str name) = some value := by
  cases plain with
  | null | bool | int | str | list => simp [item, itemAt, asInt?]
  | @object members _ _ =>
      rw [Json.object_eq, item_dict]
      cases found : Table.find? (members.map Json.memberEntry) (.str name) <;> simp [found]

theorem fault_of_item (plain : data.IsPlain) (failed : data.item (.str name) = .error fault) :
    fault.IsMismatch ∨ data.Lacks name ∧ fault = .missingKey (.str name) := by
  cases plain with
  | null | bool | int =>
      cases failed
      exact .inl (.notSubscriptable _)
  | str | list =>
      cases failed
      exact .inl (.badSubscript _ _)
  | @object members _ _ =>
      rw [Json.object_eq, item_dict] at failed
      cases found : Table.find? (members.map Json.memberEntry) (.str name) with
      | some value => simp [found] at failed
      | none =>
          simp only [found, Option.elim_none, Except.error.injEq] at failed
          exact .inr ⟨⟨_, Json.object_eq _, by simp [Table.has_eq_isSome_find?, found]⟩, failed.symm⟩

theorem exists_item_iff (plain : data.IsPlain) :
    (∃ value, data.item (.str name) = .ok value) ↔ data.HasNames [name] := by
  simp only [item_eq_ok_iff plain, HasNames, List.forall_mem_singleton, Table.has_eq_isSome_find?,
    Option.isSome_iff_exists]
  constructor
  · rintro ⟨value, entries, data_eq, found⟩
    exact ⟨entries, data_eq, value, found⟩
  · rintro ⟨entries, data_eq, value, found⟩
    exact ⟨value, entries, data_eq, found⟩

theorem hasNames_pair_iff {first second : String} :
    data.HasNames [first, second] ↔ data.HasNames [first] ∧ data.HasNames [second] := by
  constructor
  · rintro ⟨entries, rfl, present⟩
    exact ⟨⟨entries, rfl, by simp [present]⟩, ⟨entries, rfl, by simp [present]⟩⟩
  · rintro ⟨⟨entries, rfl, present⟩, ⟨entries', data_eq, present'⟩⟩
    cases data_eq
    exact ⟨entries, rfl, by simpa using ⟨present first (by simp), present' second (by simp)⟩⟩

theorem IsPlain.of_item (plain : data.IsPlain) (found : data.item (.str name) = .ok value) :
    value.IsPlain := by
  rcases (item_eq_ok_iff plain).mp found with ⟨entries, data_eq, found'⟩
  cases plain with
  | null | bool | int | str | list => cases data_eq
  | object _ members_plain =>
      cases data_eq
      rcases Table.mem_of_find? found' with ⟨present, entry_mem, _⟩
      rcases List.mem_map.mp entry_mem with ⟨member, member_mem, entry_eq⟩
      cases entry_eq
      exact members_plain member member_mem

/-- Walking through plain data that is no list gives texts. -/
theorem elements_cases {items : List Value} (plain : data.IsPlain) (walked : data.elements = .ok items) :
    data = .list items ∧ (∀ item ∈ items, item.IsPlain) ∨
      (∀ item ∈ items, ∃ text, item = .str text) ∧ (data.ListsSteps ↔ items = []) := by
  cases plain with
  | null | bool | int => cases walked
  | str text =>
      cases walked
      refine .inr ⟨by simp [characters], ?_⟩
      simp [ListsSteps, characters]
  | list items_plain =>
      cases walked
      exact .inl ⟨rfl, items_plain⟩
  | @object members _ _ =>
      cases walked
      refine .inr ⟨?_, ?_⟩
      · rw [List.forall_mem_map]
        intro entry entry_mem
        rcases List.mem_map.mp entry_mem with ⟨member, _, rfl⟩
        exact ⟨member.1, rfl⟩
      · simp [ListsSteps, object]

theorem ListsSteps.exists_elements (lists : data.ListsSteps) : ∃ items, data.elements = .ok items := by
  unfold ListsSteps at lists
  split at lists
  · exact ⟨_, rfl⟩
  · exact ⟨_, rfl⟩
  · exact ⟨_, rfl⟩
  · exact lists.elim

theorem fault_of_elements (failed : data.elements = .error fault) : fault.IsMismatch := by
  unfold elements at failed
  split at failed
  · cases failed
  · cases failed
    exact .notIterable _

end Value

/-! ### Steps -/

namespace Step

variable {data : Value}

/-- The parts of a step are what is looked up in plain data. -/
def FoundIn (step : Step) (data : Value) : Prop :=
  data.item (.str "action") = .ok step.action ∧ data.item (.str "state") = .ok step.state

theorem ofDocument_eq_ok_iff {step : Step} :
    ofDocument .unchanged data = .ok step ↔ step.FoundIn data := by
  simp only [ofDocument, Decoder.unchanged, Result.bind_eq_ok_iff, Result.pure_eq_ok, Except.ok.injEq,
    exists_eq_left', FoundIn]
  constructor
  · rintro ⟨action, action_eq, state, state_eq, rfl⟩
    exact ⟨action_eq, state_eq⟩
  · rintro ⟨action_eq, state_eq⟩
    exact ⟨_, action_eq, _, state_eq, rfl⟩

theorem exists_ofDocument_iff (plain : data.IsPlain) :
    (∃ step, ofDocument .unchanged data = .ok step) ↔ data.HasNames ["action", "state"] := by
  rw [Value.hasNames_pair_iff, ← Value.exists_item_iff plain, ← Value.exists_item_iff plain]
  simp only [ofDocument_eq_ok_iff]
  constructor
  · rintro ⟨step, action_eq, state_eq⟩
    exact ⟨⟨_, action_eq⟩, ⟨_, state_eq⟩⟩
  · rintro ⟨⟨action, action_eq⟩, ⟨state, state_eq⟩⟩
    exact ⟨⟨action, state⟩, action_eq, state_eq⟩

theorem fault_of_ofDocument {fault : Fault} (plain : data.IsPlain)
    (failed : ofDocument .unchanged data = .error fault) :
    fault.IsMismatch ∨ ∃ name, data.Lacks name ∧ fault = .missingKey (.str name) := by
  simp only [ofDocument, Decoder.unchanged, Result.bind_eq_error_iff, Result.ok_bind, Result.pure_eq_ok,
    reduceCtorEq, and_false, exists_false, or_false] at failed
  rcases failed with failed | ⟨_, _, failed⟩
  · exact (Value.fault_of_item plain failed).imp_right fun lacks => ⟨_, lacks⟩
  · exact (Value.fault_of_item plain failed).imp_right fun lacks => ⟨_, lacks⟩

end Step

/-! ### Paths -/

namespace Path

variable {data : Value}

/-- A document from which a path is read: a dictionary with a head and what stands for the steps. -/
def IsDocument (data : Value) : Prop :=
  ∃ (entries : Table Value) (steps : Value), data = .dict entries ∧ entries.has (.str "head") = true ∧
    entries.find? (.str "steps") = some steps ∧ steps.ListsSteps

/-- The parts of a path are what is looked up in plain data. -/
def FoundIn (path : Path) (data : Value) : Prop :=
  data.item (.str "head") = .ok path.head ∧
    ∃ steps items, data.item (.str "steps") = .ok steps ∧ steps.elements = .ok items ∧
      List.Forall₂ Step.FoundIn path.steps items

/-- The parts of a document in which something is looked up: the whole document and the items in the list of
its steps. -/
inductive Part (data : Value) : Value → Prop where
  | whole : Part data data
  | step {items : List Value} {item : Value} (found : data.item (.str "steps") = .ok (.list items))
      (mem : item ∈ items) : Part data item

theorem ofDocument_eq_ok_iff {path : Path} :
    ofDocument .unchanged data = .ok path ↔
      ∃ head steps items read, data.item (.str "head") = .ok head ∧ data.item (.str "steps") = .ok steps ∧
        steps.elements = .ok items ∧ items.mapM (Step.ofDocument .unchanged) = .ok read ∧
        .listed head read = path := by
  simp only [ofDocument, Decoder.unchanged, Result.bind_eq_ok_iff, Result.ok_bind, Result.pure_eq_ok,
    Except.ok.injEq, exists_and_left]

theorem foundIn_of_ofDocument {path : Path} (read : ofDocument .unchanged data = .ok path) :
    path.FoundIn data := by
  rcases ofDocument_eq_ok_iff.mp read with
    ⟨head, steps, items, steps', head_eq, steps_eq, walked, read_eq, rfl⟩
  refine ⟨head_eq, steps, items, steps_eq, walked, ?_⟩
  simp only [Result.mapM_eq_ok_iff, Step.ofDocument_eq_ok_iff] at read_eq
  rw [steps_listed]
  exact read_eq.flip

/-- What can be walked through stands for steps if each item describes a step. -/
theorem listsSteps_iff {steps : Value} {items : List Value} (plain : steps.IsPlain)
    (walked : steps.elements = .ok items) :
    steps.ListsSteps ↔ ∀ item ∈ items, ∃ step, Step.ofDocument .unchanged item = .ok step := by
  rcases Value.elements_cases plain walked with ⟨rfl, items_plain⟩ | ⟨texts, lists_iff⟩
  · exact forall₂_congr fun item mem => (Step.exists_ofDocument_iff (items_plain item mem)).symm
  · rw [lists_iff]
    constructor
    · rintro rfl
      simp
    · intro each
      rw [List.eq_nil_iff_forall_not_mem]
      intro item item_mem
      rcases texts item item_mem with ⟨text, rfl⟩
      rcases (Step.exists_ofDocument_iff (.str text)).mp (each _ item_mem) with ⟨entries, item_eq, _⟩
      cases item_eq

theorem exists_ofDocument_iff (plain : data.IsPlain) :
    (∃ path, ofDocument .unchanged data = .ok path) ↔ IsDocument data := by
  constructor
  · rintro ⟨path, read⟩
    rcases ofDocument_eq_ok_iff.mp read with
      ⟨head, steps, items, steps', head_eq, steps_eq, walked, read_eq, _⟩
    rcases (Value.item_eq_ok_iff plain).mp head_eq with ⟨entries, rfl, found⟩
    rcases (Value.item_eq_ok_iff plain).mp steps_eq with ⟨_, entries_eq, found'⟩
    cases entries_eq
    refine ⟨entries, steps, rfl, by simp [Table.has_eq_isSome_find?, found], found', ?_⟩
    rw [listsSteps_iff (plain.of_item steps_eq) walked]
    exact Result.exists_mapM_eq_ok_iff.mp ⟨steps', read_eq⟩
  · rintro ⟨entries, steps, rfl, present, found, lists⟩
    rw [Table.has_eq_isSome_find?, Option.isSome_iff_exists] at present
    rcases present with ⟨head, found'⟩
    have head_eq := (Value.item_eq_ok_iff plain).mpr ⟨entries, rfl, found'⟩
    have steps_eq := (Value.item_eq_ok_iff plain).mpr ⟨entries, rfl, found⟩
    rcases lists.exists_elements with ⟨items, walked⟩
    rw [listsSteps_iff (plain.of_item steps_eq) walked, ← Result.exists_mapM_eq_ok_iff] at lists
    rcases lists with ⟨read, read_eq⟩
    exact ⟨_, ofDocument_eq_ok_iff.mpr ⟨head, steps, items, read, head_eq, steps_eq, walked, read_eq, rfl⟩⟩

theorem fault_of_ofDocument {fault : Fault} (plain : data.IsPlain)
    (failed : ofDocument .unchanged data = .error fault) :
    fault.IsMismatch ∨
      ∃ part name, Part data part ∧ part.Lacks name ∧ fault = .missingKey (.str name) := by
  simp only [ofDocument, Decoder.unchanged, Result.bind_eq_error_iff, Result.ok_bind, Result.pure_eq_ok,
    reduceCtorEq, and_false, exists_false, or_false] at failed
  rcases failed with failed | ⟨_, _, failed | ⟨steps, steps_eq, failed | ⟨items, walked, failed⟩⟩⟩
  · exact (Value.fault_of_item plain failed).imp_right fun lacks => ⟨data, _, .whole, lacks⟩
  · exact (Value.fault_of_item plain failed).imp_right fun lacks => ⟨data, _, .whole, lacks⟩
  · exact .inl (Value.fault_of_elements failed)
  · rcases Result.mapM_eq_error_iff.mp failed with ⟨earlier, item, later, rfl, _, failed⟩
    have item_mem : item ∈ earlier ++ item :: later := by simp
    rcases Value.elements_cases (plain.of_item steps_eq) walked with ⟨rfl, items_plain⟩ | ⟨texts, _⟩
    · rcases Step.fault_of_ofDocument (items_plain item item_mem) failed with mismatch | ⟨name, lacks⟩
      · exact .inl mismatch
      · exact .inr ⟨item, name, .step steps_eq item_mem, lacks⟩
    · rcases texts item item_mem with ⟨text, rfl⟩
      rcases Step.fault_of_ofDocument (.str text) failed with mismatch | ⟨name, ⟨_, item_eq, _⟩, _⟩
      · exact .inl mismatch
      · cases item_eq

end Path

/-! ### Counterexamples -/

namespace Counterexample

variable {data : Value}

/-- A document from which a counterexample is read: a dictionary with a state and a document from which a path
is read. -/
def IsDocument (data : Value) : Prop :=
  ∃ (entries : Table Value) (path : Value), data = .dict entries ∧ entries.has (.str "state") = true ∧
    entries.find? (.str "path") = some path ∧ Path.IsDocument path

/-- The parts of a counterexample are what is looked up in plain data. -/
def FoundIn (counterexample : Counterexample) (data : Value) : Prop :=
  data.item (.str "state") = .ok counterexample.state ∧
    ∃ path, data.item (.str "path") = .ok path ∧ counterexample.path.FoundIn path

/-- The parts of a document in which something is looked up: the whole document and the parts of its path. -/
inductive Part (data : Value) : Value → Prop where
  | whole : Part data data
  | path {path part : Value} (found : data.item (.str "path") = .ok path) (part_of : Path.Part path part) :
      Part data part

theorem ofDocument_eq_ok_iff {counterexample : Counterexample} :
    ofDocument .unchanged data = .ok counterexample ↔
      data.item (.str "state") = .ok counterexample.state ∧
        ∃ path, data.item (.str "path") = .ok path ∧
          Path.ofDocument .unchanged path = .ok counterexample.path := by
  simp only [ofDocument, Decoder.unchanged, Result.bind_eq_ok_iff, Result.ok_bind, Result.pure_eq_ok,
    Except.ok.injEq]
  constructor
  · rintro ⟨state, state_eq, path, path_eq, read, read_eq, rfl⟩
    exact ⟨state_eq, path, path_eq, read_eq⟩
  · rintro ⟨state_eq, path, path_eq, read_eq⟩
    exact ⟨_, state_eq, path, path_eq, _, read_eq, rfl⟩

theorem foundIn_of_ofDocument {counterexample : Counterexample}
    (read : ofDocument .unchanged data = .ok counterexample) : counterexample.FoundIn data := by
  rcases ofDocument_eq_ok_iff.mp read with ⟨state_eq, path, path_eq, read_eq⟩
  exact ⟨state_eq, path, path_eq, Path.foundIn_of_ofDocument read_eq⟩

theorem exists_ofDocument_iff (plain : data.IsPlain) :
    (∃ counterexample, ofDocument .unchanged data = .ok counterexample) ↔ IsDocument data := by
  constructor
  · rintro ⟨counterexample, read⟩
    rcases ofDocument_eq_ok_iff.mp read with ⟨state_eq, path, path_eq, read_eq⟩
    rcases (Value.item_eq_ok_iff plain).mp state_eq with ⟨entries, rfl, found⟩
    rcases (Value.item_eq_ok_iff plain).mp path_eq with ⟨_, entries_eq, found'⟩
    cases entries_eq
    exact ⟨entries, path, rfl, by simp [Table.has_eq_isSome_find?, found], found',
      (Path.exists_ofDocument_iff (plain.of_item path_eq)).mp ⟨_, read_eq⟩⟩
  · rintro ⟨entries, path, rfl, present, found, accepted⟩
    rw [Table.has_eq_isSome_find?, Option.isSome_iff_exists] at present
    rcases present with ⟨state, found'⟩
    have path_eq := (Value.item_eq_ok_iff plain).mpr ⟨entries, rfl, found⟩
    rcases (Path.exists_ofDocument_iff (plain.of_item path_eq)).mpr accepted with ⟨read, read_eq⟩
    exact ⟨⟨state, read⟩, ofDocument_eq_ok_iff.mpr
      ⟨(Value.item_eq_ok_iff plain).mpr ⟨entries, rfl, found'⟩, path, path_eq, read_eq⟩⟩

theorem fault_of_ofDocument {fault : Fault} (plain : data.IsPlain)
    (failed : ofDocument .unchanged data = .error fault) :
    fault.IsMismatch ∨
      ∃ part name, Part data part ∧ part.Lacks name ∧ fault = .missingKey (.str name) := by
  simp only [ofDocument, Decoder.unchanged, Result.bind_eq_error_iff, Result.ok_bind, Result.pure_eq_ok,
    reduceCtorEq, and_false, exists_false, or_false] at failed
  rcases failed with failed | ⟨_, _, failed | ⟨path, path_eq, failed⟩⟩
  · exact (Value.fault_of_item plain failed).imp_right fun lacks => ⟨data, _, .whole, lacks⟩
  · exact (Value.fault_of_item plain failed).imp_right fun lacks => ⟨data, _, .whole, lacks⟩
  · rcases Path.fault_of_ofDocument (plain.of_item path_eq) failed with
      mismatch | ⟨part, name, part_of, lacks⟩
    · exact .inl mismatch
    · exact .inr ⟨part, name, .path path_eq part_of, lacks⟩

end Counterexample

/-! ### Entries that are not read -/

/-- A dictionary with an entry added, or changed, under a key that is none of the names. -/
inductive Value.AddsEntry (names : List String) : Value → Value → Prop where
  | intro (entries : Table Value) {key : Value} (unread : ∀ name ∈ names, (key == .str name) = false)
      (value : Value) : AddsEntry names (.dict entries) (.dict (entries.insert key value))

/-- A document of a path with an entry added, or changed, that is not read: next to the head and the steps, or
next to the action and the state of a step in a list. -/
inductive Path.AddsEntry : Value → Value → Prop where
  | whole {data other : Value} (adds : Value.AddsEntry ["head", "steps"] data other) : AddsEntry data other
  | step {entries : Table Value} {earlier later : List Value} {item other : Value}
      (found : entries.find? (.str "steps") = some (.list (earlier ++ item :: later)))
      (adds : Value.AddsEntry ["action", "state"] item other) :
      AddsEntry (.dict entries) (.dict (entries.insert (.str "steps") (.list (earlier ++ other :: later))))

/-- A document of a counterexample with an entry added, or changed, that is not read: next to the state and
the path, such as the length, or in the document of the path. -/
inductive Counterexample.AddsEntry : Value → Value → Prop where
  | whole {data other : Value} (adds : Value.AddsEntry ["state", "path"] data other) : AddsEntry data other
  | path {entries : Table Value} {path other : Value} (found : entries.find? (.str "path") = some path)
      (adds : Path.AddsEntry path other) :
      AddsEntry (.dict entries) (.dict (entries.insert (.str "path") other))

section AddsEntry

variable {data other : Value}

theorem Value.item_insert (entries : Table Value) {key : Value} {name : String} (value : Value) :
    (Value.dict (entries.insert key value)).item (.str name) =
      if key == .str name then .ok value else (Value.dict entries).item (.str name) := by
  rw [item_dict, item_dict, Table.find?_insert]
  split <;> rfl

theorem Value.AddsEntry.item_eq {names : List String} (adds : AddsEntry names data other) {name : String}
    (mem : name ∈ names) : other.item (.str name) = data.item (.str name) := by
  cases adds with
  | intro entries unread value => simp [item_insert, unread name mem]

theorem Step.ofDocument_of_addsEntry (decode : Decoder)
    (adds : Value.AddsEntry ["action", "state"] data other) :
    ofDocument decode other = ofDocument decode data := by
  rw [ofDocument, adds.item_eq (by simp), adds.item_eq (by simp)]
  rfl

theorem Path.ofDocument_of_addsEntry (decode : Decoder) (adds : AddsEntry data other) :
    ofDocument decode other = ofDocument decode data := by
  cases adds with
  | whole adds =>
      rw [ofDocument, adds.item_eq (by simp), adds.item_eq (by simp)]
      rfl
  | @step entries earlier later item other found adds =>
      have head_eq : (Value.dict (entries.insert (.str "steps") (.list (earlier ++ other :: later)))).item
          (.str "head") = (Value.dict entries).item (.str "head") := by
        simp [Value.item_insert, Value.beq_str_str_iff]
      have steps_eq : (Value.dict entries).item (.str "steps") = .ok (.list (earlier ++ item :: later)) := by
        simp [Value.item_dict, found]
      rw [ofDocument, ofDocument, head_eq, steps_eq, Value.item_insert]
      simp [Value.elements, Value.items?, Step.ofDocument_of_addsEntry decode adds]

theorem Counterexample.ofDocument_of_addsEntry (decode : Decoder) (adds : AddsEntry data other) :
    ofDocument decode other = ofDocument decode data := by
  cases adds with
  | whole adds =>
      rw [ofDocument, adds.item_eq (by simp), adds.item_eq (by simp)]
      rfl
  | @path entries path other found adds =>
      have state_eq : (Value.dict (entries.insert (.str "path") other)).item (.str "state") =
          (Value.dict entries).item (.str "state") := by
        simp [Value.item_insert, Value.beq_str_str_iff]
      have path_eq : (Value.dict entries).item (.str "path") = .ok path := by
        simp [Value.item_dict, found]
      rw [ofDocument, ofDocument, state_eq, path_eq, Value.item_insert]
      simp [Path.ofDocument_of_addsEntry decode adds]

end AddsEntry

/-- A path is read from plain data if it is a dictionary with a head and with steps that are a list of
dictionaries with an action and a state each, an empty text or an empty dictionary, and a counterexample if it
is a dictionary with a state and such a path. Then the parts of the path are those that are found. Otherwise
the fault is that a value is of the wrong kind, or a key that a dictionary lacks. Entries that are not read
make no difference. -/
theorem ofDocument_accepts_exactly {data : Value} (plain : data.IsPlain) :
    ((∃ path, Path.ofDocument .unchanged data = .ok path) ↔ Path.IsDocument data) ∧
    (∀ path, Path.ofDocument .unchanged data = .ok path → path.FoundIn data) ∧
    (∀ fault, Path.ofDocument .unchanged data = .error fault →
      fault.IsMismatch ∨
        ∃ part name, Path.Part data part ∧ part.Lacks name ∧ fault = .missingKey (.str name)) ∧
    ((∃ counterexample, Counterexample.ofDocument .unchanged data = .ok counterexample) ↔
      Counterexample.IsDocument data) ∧
    (∀ counterexample, Counterexample.ofDocument .unchanged data = .ok counterexample →
      counterexample.FoundIn data) ∧
    (∀ fault, Counterexample.ofDocument .unchanged data = .error fault →
      fault.IsMismatch ∨
        ∃ part name, Counterexample.Part data part ∧ part.Lacks name ∧ fault = .missingKey (.str name)) ∧
    (∀ other, Path.AddsEntry data other →
      Path.ofDocument .unchanged other = Path.ofDocument .unchanged data) ∧
    ∀ other, Counterexample.AddsEntry data other →
      Counterexample.ofDocument .unchanged other = Counterexample.ofDocument .unchanged data := by
  refine ⟨Path.exists_ofDocument_iff plain, fun path read => Path.foundIn_of_ofDocument read,
    fun fault failed => Path.fault_of_ofDocument plain failed,
    Counterexample.exists_ofDocument_iff plain,
    fun counterexample read => Counterexample.foundIn_of_ofDocument read,
    fun fault failed => Counterexample.fault_of_ofDocument plain failed, ?_, ?_⟩
  · intro other adds
    exact Path.ofDocument_of_addsEntry _ adds
  · intro other adds
    exact Counterexample.ofDocument_of_addsEntry _ adds

/-- A document of a counterexample whose path has an empty text for its steps. It is no document of a path,
as it has no head. -/
def lenient : Value :=
  object [("state", .int 1), ("path", object [("note", .null), ("steps", .str ""), ("head", .int 0)])]

/-- The same with a length that is no number. -/
def lenientWithLength : Value :=
  object [("state", .int 1), ("path", object [("note", .null), ("steps", .str ""), ("head", .int 0)]),
    ("length", .list [])]

theorem ofDocument_accepts_exactly_lenient :
    lenient.IsPlain ∧ (∃ counterexample, Counterexample.ofDocument .unchanged lenient = .ok counterexample) ∧
    (¬∃ path, Path.ofDocument .unchanged lenient = .ok path) ∧
    (∀ fault, Path.ofDocument .unchanged lenient = .error fault →
      fault.IsMismatch ∨
        ∃ part name, Path.Part lenient part ∧ part.Lacks name ∧ fault = .missingKey (.str name)) ∧
    Counterexample.AddsEntry lenient lenientWithLength ∧
    Counterexample.ofDocument .unchanged lenientWithLength = Counterexample.ofDocument .unchanged lenient := by
  have plain : lenient.IsPlain := by
    have path_plain : (object [("note", .null), ("steps", .str ""), ("head", .int 0)]).IsPlain :=
      .object (by simp) (by simp [Value.IsPlain.null, Value.IsPlain.str, Value.IsPlain.int])
    exact .object (by simp) (by simp [path_plain, Value.IsPlain.int])
  have adds : Counterexample.AddsEntry lenient lenientWithLength :=
    .whole (@Value.AddsEntry.intro _ _ (.str "length") (by decide) (.list []))
  rcases ofDocument_accepts_exactly plain with
    ⟨acceptsPath, _, refusesPath, accepts, _, _, _, addsNothing⟩
  refine ⟨plain, accepts.mpr ?_, ?_, refusesPath, adds, addsNothing _ adds⟩
  · exact ⟨_, _, rfl, by decide, rfl, _, _, rfl, by decide, rfl, rfl⟩
  · rw [acceptsPath]
    rintro ⟨_, _, data_eq, present, _⟩
    cases data_eq
    revert present
    decide

end StateSpace
