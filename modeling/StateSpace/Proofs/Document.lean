import StateSpace.Proofs.Document.Restoring

/-!
# Documents that are read back

A counterexample that was stored as a JSON text is an equal counterexample when it is read again, as long as
the encoder and the decoder keep the states and actions in it. It is restored from its document like anything
else that has a form as plain data, so what is left to show is that the document is plain data, which a JSON
text keeps as it is.
-/

namespace StateSpace

/-- An item is written as plain data, from which an equal item is read. -/
def RoundTrips {α : Type} [BEq α] (write : α → Result Value) (read : Value → Result α) (item : α) : Prop :=
  ∃ data other, write item = .ok data ∧ data.IsPlain ∧ read data = .ok other ∧ (other == item) = true

/-- Besides being restored, an item that makes a round trip is written as plain data. -/
theorem roundTrips_iff {α : Type} [BEq α] {write : α → Result Value} {read : Value → Result α} {item : α} :
    RoundTrips write read item ↔
      Restores write read item ∧ ∀ data, write item = .ok data → data.IsPlain := by
  constructor
  · rintro ⟨data, other, data_eq, plain, other_eq, same⟩
    refine ⟨⟨data, other, data_eq, other_eq, same⟩, ?_⟩
    intro data' data_eq'
    rw [data_eq] at data_eq'
    cases data_eq'
    exact plain
  · rintro ⟨⟨data, other, data_eq, other_eq, same⟩, plain⟩
    exact ⟨data, other, data_eq, plain data data_eq, other_eq, same⟩

section RoundTrips

variable {encode : Encoder} {decode : Decoder}

theorem Step.isPlain_toDocument {step : Step} {data : Value}
    (action : ∀ data, encode step.action = .ok data → data.IsPlain)
    (state : ∀ data, encode step.state = .ok data → data.IsPlain)
    (written : step.toDocument encode = .ok data) : data.IsPlain := by
  simp only [toDocument, Result.bind_eq_ok_iff, Result.pure_eq_ok, Except.ok.injEq] at written
  rcases written with ⟨actionData, action_eq, stateData, state_eq, rfl⟩
  exact .object (by simp) (by simp [action _ action_eq, state _ state_eq])

theorem Path.isPlain_toDocument {path : Path} {data : Value}
    (plain : ∀ value ∈ path.states ++ path.actions, ∀ data, encode value = .ok data → data.IsPlain)
    (written : path.toDocument encode = .ok data) : data.IsPlain := by
  rw [forall_mem_values_iff] at plain
  simp only [toDocument, Result.bind_eq_ok_iff, Result.pure_eq_ok, Except.ok.injEq] at written
  rcases written with ⟨headData, head_eq, stepData, steps_eq, rfl⟩
  have steps_plain : ∀ data ∈ stepData, data.IsPlain :=
    Result.forall_mem_of_mapM steps_eq fun step mem _ =>
      Step.isPlain_toDocument (plain.2 step mem).1 (plain.2 step mem).2
  exact .object (by simp) (by simpa [plain.1 _ head_eq] using Value.IsPlain.list steps_plain)

theorem Path.roundTrips {path : Path} (states : ∀ state ∈ path.states, RoundTrips encode decode state)
    (actions : ∀ action ∈ path.actions, RoundTrips encode decode action) :
    RoundTrips (toDocument encode) (ofDocument decode) path := by
  have each : ∀ value ∈ path.states ++ path.actions, RoundTrips encode decode value :=
    List.forall_mem_append.mpr ⟨states, actions⟩
  simp only [roundTrips_iff] at each ⊢
  exact ⟨Path.restores fun value mem => (each value mem).1,
    fun data => Path.isPlain_toDocument fun value mem => (each value mem).2⟩

theorem Counterexample.roundTrips {counterexample : Counterexample}
    (state : RoundTrips encode decode counterexample.state)
    (path : RoundTrips (Path.toDocument encode) (Path.ofDocument decode) counterexample.path) :
    RoundTrips (toDocument encode) (ofDocument decode) counterexample := by
  rw [roundTrips_iff] at state path ⊢
  refine ⟨restores state.1 path.1, ?_⟩
  intro data written
  simp only [toDocument, Result.bind_eq_ok_iff, Result.pure_eq_ok, Except.ok.injEq] at written
  rcases written with ⟨stateData, state_eq, pathData, path_eq, rfl⟩
  exact .object (by simp)
    (by simp [state.2 _ state_eq, path.2 _ path_eq, Value.IsPlain.int])

end RoundTrips

namespace Counterexample

/-- A counterexample can be stored as a JSON text in every layout and is read back as an equal one, if each
state and action in it is encoded as plain data that is decoded into an equal value. -/
theorem ofJson_toJson {encode : Encoder} {decode : Decoder} {counterexample : Counterexample}
    (kept : ∀ value ∈
      counterexample.state :: (counterexample.path.states ++ counterexample.path.actions),
        RoundTrips encode decode value) (indent? : Option Int) :
    ∃ text read, counterexample.toJson encode indent? = .ok text ∧ ofJson decode text = .ok read ∧
      (read == counterexample) = true := by
  rw [List.forall_mem_cons, List.forall_mem_append] at kept
  rcases kept with ⟨state, states, actions⟩
  rcases roundTrips state (Path.roundTrips states actions) with
    ⟨data, read, data_eq, plain, read_eq, same⟩
  rcases Json.exists_write plain (.ofIndent indent?) with ⟨text, text_eq, text_read⟩
  refine ⟨text, read, ?_, ?_, same⟩
  · rw [toJson, data_eq]
    exact text_eq
  · rw [ofJson, text_read]
    exact read_eq

/-- Tuples as lists, and other values as they are. -/
def listTuples : Encoder
  | .tuple items => .ok (.list items)
  | value => .ok value

/-- A counterexample with texts that need all kinds of escapes, a negative number and empty containers. -/
def awkward : Counterexample where
  state := .tuple [.int (-120), .str "a\n\x22é😀\x00"]
  path := .listed (.tuple [])
    [⟨object [("", .list [.null, .list []]), ("é", object []), ("flag", .bool true)],
      .tuple [.int (-120), .str "a\n\x22é😀\x00"]⟩]

theorem ofJson_toJson_awkward :
    (∀ value ∈ awkward.state :: (awkward.path.states ++ awkward.path.actions),
      RoundTrips listTuples Decoder.tuples value) ∧
    ∃ text read, awkward.toJson listTuples (some (-3)) = .ok text ∧
      ofJson Decoder.tuples text = .ok read ∧ (read == awkward) = true := by
  have kept : ∀ value ∈ awkward.state :: (awkward.path.states ++ awkward.path.actions),
      RoundTrips listTuples Decoder.tuples value := by
    have state : RoundTrips listTuples Decoder.tuples awkward.state :=
      ⟨_, _, rfl, .list (by simp [Value.IsPlain.int, Value.IsPlain.str]), rfl, BEq.rfl⟩
    have head : RoundTrips listTuples Decoder.tuples (.tuple []) :=
      ⟨_, _, rfl, .list (by simp), rfl, BEq.rfl⟩
    have action : RoundTrips listTuples Decoder.tuples
        (object [("", .list [.null, .list []]), ("é", object []), ("flag", .bool true)]) := by
      refine ⟨_, _, rfl, .object (by simp) ?_, rfl, BEq.rfl⟩
      have empty : (Value.list []).IsPlain := .list (by simp)
      have emptyObject : (object []).IsPlain := .object (by simp) (by simp)
      have list : (Value.list [.null, .list []]).IsPlain := .list (by simp [Value.IsPlain.null, empty])
      simp [list, emptyObject, Value.IsPlain.bool]
    simpa [awkward, Path.states, Path.actions, Path.head] using ⟨state, head, state, action⟩
  exact ⟨kept, ofJson_toJson kept _⟩

end Counterexample

end StateSpace
