import StateSpace.Proofs.Json.RoundTrip
import StateSpace.Proofs.PathAlgebra
import StateSpace.Proofs.PathPool
import StateSpace.Proofs.Table

/-!
# Documents there and back

A path that is written as a document is read back as an equal path, and a document that is laid out like a
written path is read and written again as an equal document. Both say of two functions that one restores what
the other was given, and `Restores` says this of a single item, since an encoder and a decoder are inverse
to each other on some values only.

Whether a written document equals another one is decided by what is looked up in them
(`Value.HasExactly.beq_object_iff`), so the order of the members does not matter.
-/

namespace StateSpace

/-- An item is turned into another form, from which an equal item is made. -/
def Restores {α β : Type} [BEq α] (there : α → Result β) (back : β → Result α) (item : α) : Prop :=
  ∃ form other, there item = .ok form ∧ back form = .ok other ∧ (other == item) = true

theorem Restores.mapM {α β : Type} [BEq α] {there : α → Result β} {back : β → Result α} {items : List α}
    (restores : ∀ item ∈ items, Restores there back item) :
    ∃ forms others, items.mapM there = .ok forms ∧ forms.mapM back = .ok others ∧
      forms.length = items.length ∧
      List.Forall₂ (fun other item => (other == item) = true) others items := by
  induction items with
  | nil => exact ⟨[], [], rfl, rfl, rfl, .nil⟩
  | cons item items ih =>
      rw [List.forall_mem_cons] at restores
      rcases restores with ⟨⟨form, other, form_eq, other_eq, same⟩, restores⟩
      rcases ih restores with ⟨forms, others, forms_eq, others_eq, length_eq, sameOthers⟩
      refine ⟨form :: forms, other :: others, ?_, ?_, by simp [length_eq], .cons same sameOthers⟩
      · simp [form_eq, forms_eq]
      · simp [other_eq, others_eq]

/-! ### Objects -/

theorem Value.item_dict (entries : Table Value) (name : String) :
    (Value.dict entries).item (.str name) =
      (entries.find? (.str name)).elim (.error (.missingKey (.str name))) .ok := by
  have hashable : IsHashable (.str name) := rfl
  rw [Value.item, Table.lookup_of_isHashable hashable, Result.ok_bind]
  cases entries.find? (.str name) <;> rfl

theorem item_object_cons (name other : String) (value : Value) (members : List (String × Value)) :
    (object ((name, value) :: members)).item (.str other) =
      if name = other then .ok value else (object members).item (.str other) := by
  rw [Json.object_eq, Json.object_eq, Value.item_dict, Value.item_dict, List.map_cons, Json.memberEntry]
  simp only [Table.find?, Value.beq_str_str_iff]
  split <;> rfl

theorem distinct_keys_object {members : List (String × Value)} (nodup : (members.map Prod.fst).Nodup) :
    Value.Distinct (Table.keys (members.map Json.memberEntry)) := by
  rw [Table.keys, List.map_map, Value.Distinct, List.pairwise_map]
  refine (List.pairwise_map.mp nodup).imp fun {member other} differ => ?_
  rw [← Bool.not_eq_true]
  exact fun same => differ (Value.beq_str_str_iff.mp same)

/-- Objects with equal members in the same order have equal values under each key. -/
theorem find?_object_congr {members others : List (String × Value)}
    (same : List.Forall₂ (fun member other => member.1 = other.1 ∧ (member.2 == other.2) = true)
      members others) (key : Value) :
    Option.Rel (fun value value' => (value == value') = true)
      (Table.find? (members.map Json.memberEntry) key) (Table.find? (others.map Json.memberEntry) key) := by
  induction same with
  | nil => exact .none
  | @cons member other members others first _ ih =>
      rw [List.map_cons, List.map_cons, Json.memberEntry, Json.memberEntry, first.1, Table.find?,
        Table.find?]
      split
      · exact .some first.2
      · exact ih

/-- A dictionary that has exactly the given members, in any order: what is looked up in it is found as in the
object with these members. -/
def Value.HasExactly (data : Value) (members : List (String × Value)) : Prop :=
  ∃ entries : Table Value, data = .dict entries ∧ entries.IsProper ∧
    ∀ key, entries.find? key = Table.find? (members.map Json.memberEntry) key

namespace Value.HasExactly

variable {data : Value} {members : List (String × Value)}

theorem item_eq (exactly : data.HasExactly members) (name : String) :
    data.item (.str name) = (object members).item (.str name) := by
  rcases exactly with ⟨entries, rfl, _, find_eq⟩
  rw [Json.object_eq, item_dict, item_dict, find_eq]

/-- A written object equals a document if it has equal values under each key. -/
theorem beq_object_iff (exactly : data.HasExactly members) {others : List (String × Value)}
    (nodup : (others.map Prod.fst).Nodup) :
    (object others == data) = true ↔
      ∀ key, Option.Rel (fun value value' => (value == value') = true)
        (Table.find? (others.map Json.memberEntry) key)
        (Table.find? (members.map Json.memberEntry) key) := by
  rcases exactly with ⟨entries, rfl, proper, find_eq⟩
  have same_iff : (object others == .dict entries) = true ↔
      SameEntries (others.map Json.memberEntry) entries := by
    rw [Json.object_eq]
    exact (beq_dict_iff _ _).trans (by simp)
  rw [same_iff, Table.sameEntries_iff_find? (distinct_keys_object nodup) proper.distinct]
  simp only [find_eq]

theorem beq_object (exactly : data.HasExactly members) {others : List (String × Value)}
    (nodup : (others.map Prod.fst).Nodup)
    (same : List.Forall₂ (fun other member => other.1 = member.1 ∧ (other.2 == member.2) = true)
      others members) : (object others == data) = true :=
  (exactly.beq_object_iff nodup).mpr (find?_object_congr same)

end Value.HasExactly

/-! ### Steps -/

section Documents

variable {encode : Encoder} {decode : Decoder}

namespace Step

theorem restores {step : Step} (action : Restores encode decode step.action)
    (state : Restores encode decode step.state) : Restores (toDocument encode) (ofDocument decode) step := by
  rcases action with ⟨actionData, action', action_eq, action_eq', sameAction⟩
  rcases state with ⟨stateData, state', state_eq, state_eq', sameState⟩
  refine ⟨_, ⟨action', state'⟩, by rw [toDocument, action_eq, state_eq]; rfl, ?_,
    beq_iff.mpr ⟨sameAction, sameState⟩⟩
  simp [ofDocument, item_object_cons, action_eq', state_eq']

/-- The parts of a step, as they are, laid out like a written step. -/
def LaidOutAs (step : Step) (data : Value) : Prop :=
  data.HasExactly [("action", step.action), ("state", step.state)]

theorem LaidOutAs.restores {step : Step} {data : Value} (laidOut : step.LaidOutAs data)
    (action : Restores decode encode step.action) (state : Restores decode encode step.state) :
    Restores (ofDocument decode) (toDocument encode) data := by
  rcases action with ⟨action', actionData, action_eq, action_eq', sameAction⟩
  rcases state with ⟨state', stateData, state_eq, state_eq', sameState⟩
  refine ⟨⟨action', state'⟩, _, ?_, by rw [toDocument, action_eq', state_eq']; rfl, ?_⟩
  · simp [ofDocument, laidOut.item_eq, item_object_cons, action_eq, state_eq]
  · exact laidOut.beq_object (by simp) (by simp [sameAction, sameState])

theorem forall_restores {steps : List Step} {items : List Value}
    (laidOut : List.Forall₂ LaidOutAs steps items)
    (each : ∀ step ∈ steps, Restores decode encode step.action ∧ Restores decode encode step.state) :
    ∀ item ∈ items, Restores (ofDocument decode) (toDocument encode) item := by
  induction laidOut with
  | nil => simp
  | @cons step item steps items first _ ih =>
      rw [List.forall_mem_cons] at each ⊢
      exact ⟨first.restores each.1.1 each.1.2, ih each.2⟩

end Step

/-! ### Paths -/

namespace Path

theorem forall_mem_values_iff {path : Path} {holds : Value → Prop} :
    (∀ value ∈ path.states ++ path.actions, holds value) ↔
      holds path.head ∧ ∀ step ∈ path.steps, holds step.action ∧ holds step.state := by
  simp only [states, actions, List.cons_append, List.forall_mem_cons, List.forall_mem_append,
    List.forall_mem_map]
  exact and_congr_right fun _ =>
    ⟨fun each step mem => ⟨each.2 step mem, each.1 step mem⟩,
      fun each => ⟨fun step mem => (each step mem).2, fun step mem => (each step mem).1⟩⟩

theorem restores {path : Path} (kept : ∀ value ∈ path.states ++ path.actions, Restores encode decode value) :
    Restores (toDocument encode) (ofDocument decode) path := by
  rw [forall_mem_values_iff] at kept
  rcases kept with ⟨⟨headData, head, head_eq, head_eq', sameHead⟩, each⟩
  rcases Restores.mapM fun step mem => Step.restores (each step mem).1 (each step mem).2 with
    ⟨stepData, steps, steps_eq, steps_eq', _, sameSteps⟩
  refine ⟨_, .listed head steps, by rw [toDocument, head_eq, Result.ok_bind, steps_eq]; rfl, ?_,
    beq_iff.mpr ⟨sameHead, ?_⟩⟩
  · simp [ofDocument, item_object_cons, head_eq', Value.elements, Value.items?, steps_eq']
  · rw [steps_listed]
    exact Step.beq_list_iff.mpr sameSteps

/-- The parts of a path, as they are, laid out like a written path. -/
def LaidOutAs (path : Path) (data : Value) : Prop :=
  ∃ items, data.HasExactly [("head", path.head), ("steps", .list items)] ∧
    List.Forall₂ Step.LaidOutAs path.steps items

/-- A document laid out like a written path describes a path with as many steps, which is written as an equal
document. -/
theorem LaidOutAs.exists_read {path : Path} {data : Value} (laidOut : path.LaidOutAs data)
    (kept : ∀ value ∈ path.states ++ path.actions, Restores decode encode value) :
    ∃ read written, ofDocument decode data = .ok read ∧ read.toDocument encode = .ok written ∧
      read.length = path.length ∧ (written == data) = true := by
  rcases laidOut with ⟨items, exactly, stepsLaidOut⟩
  rw [forall_mem_values_iff] at kept
  rcases kept with ⟨⟨head, headData, head_eq, head_eq', sameHead⟩, each⟩
  rcases Restores.mapM (Step.forall_restores stepsLaidOut each) with
    ⟨steps, stepData, steps_eq, steps_eq', length_eq, sameSteps⟩
  refine ⟨.listed head steps, object [("head", headData), ("steps", .list stepData)], ?_, ?_, ?_,
    exactly.beq_object (by simp) ?_⟩
  · simp [ofDocument, exactly.item_eq, item_object_cons, head_eq, Value.elements, Value.items?, steps_eq]
  · rw [toDocument, steps_listed, Path.head, head_eq', Result.ok_bind, steps_eq']
    rfl
  · rw [Path.length, length_eq, Path.length_eq, stepsLaidOut.length_eq]
  · simp [sameHead, Value.beq_list_iff_forall₂.mpr sameSteps]

end Path

/-! ### Counterexamples -/

namespace Counterexample

theorem restores {counterexample : Counterexample} (state : Restores encode decode counterexample.state)
    (path : Restores (Path.toDocument encode) (Path.ofDocument decode) counterexample.path) :
    Restores (toDocument encode) (ofDocument decode) counterexample := by
  rcases state with ⟨stateData, state', state_eq, state_eq', sameState⟩
  rcases path with ⟨pathData, path', path_eq, path_eq', samePath⟩
  refine ⟨_, ⟨state', path'⟩, by rw [toDocument, state_eq, Result.ok_bind, path_eq]; rfl, ?_,
    Bool.and_eq_true_iff.mpr ⟨sameState, samePath⟩⟩
  simp [ofDocument, item_object_cons, state_eq', path_eq']

/-- The parts of a counterexample, as they are, laid out like a written counterexample with the given
length. -/
def LaidOutAs (counterexample : Counterexample) (length data : Value) : Prop :=
  ∃ path, data.HasExactly [("state", counterexample.state), ("path", path), ("length", length)] ∧
    counterexample.path.LaidOutAs path

/-- The length is not read, so it is the one part of a document that may come back changed. -/
theorem LaidOutAs.exists_read {counterexample : Counterexample} {length data : Value}
    (laidOut : counterexample.LaidOutAs length data)
    (kept : ∀ value ∈
      counterexample.state :: (counterexample.path.states ++ counterexample.path.actions),
        Restores decode encode value) :
    ∃ read written, ofDocument decode data = .ok read ∧ read.toDocument encode = .ok written ∧
      ((written == data) = true ↔ (length == .int counterexample.path.length) = true) := by
  rw [List.forall_mem_cons] at kept
  rcases laidOut with ⟨pathData, exactly, pathLaidOut⟩
  rcases kept.1 with ⟨state, stateData, state_eq, state_eq', sameState⟩
  rcases pathLaidOut.exists_read kept.2 with ⟨path, pathData', path_eq, path_eq', length_eq, samePath⟩
  refine ⟨⟨state, path⟩, object [("state", stateData), ("path", pathData'),
    ("length", .int counterexample.path.length)], ?_, ?_, ?_⟩
  · simp [ofDocument, exactly.item_eq, item_object_cons, state_eq, path_eq]
  · simp [toDocument, state_eq', path_eq', length_eq]
  · constructor
    · intro same
      have found := (exactly.beq_object_iff (by simp)).mp same (.str "length")
      have sameLength : (Value.int counterexample.path.length == length) = true := by
        simpa [Table.find?, Json.memberEntry, Value.beq_str_str_iff] using found
      exact BEq.symm sameLength
    · intro sameLength
      exact exactly.beq_object (by simp) (by simp [sameState, samePath, BEq.symm sameLength])

end Counterexample

end Documents

/-- Paths and counterexamples come back equal from their documents, whichever way they were built, if the
decoder undoes the encoder on each state and action. Documents that are laid out like written ones come back
equal from what they describe, if the encoder undoes the decoder on each value in them and, in a
counterexample, the length is the number of steps. -/
theorem documents_restored (encode : Encoder) (decode : Decoder) :
    (∀ path : Path, (∀ value ∈ path.states ++ path.actions, Restores encode decode value) →
      Restores (Path.toDocument encode) (Path.ofDocument decode) path) ∧
    (∀ (operations : List PathPool.Operation) (number : Nat) (plain : PlainPath),
      (PlainPath.run operations).2[number]? = some plain →
      (∀ value ∈ plain.states ++ plain.actions, Restores encode decode value) →
      ∃ path pool written read,
        (PathPool.run operations).2.read number = (.ok (path, pool) : Result (Path × PathPool)) ∧
        path.toDocument encode = .ok written ∧ Path.ofDocument decode written = .ok read ∧
        (read == .listed plain.head plain.steps) = true) ∧
    (∀ counterexample : Counterexample,
      (∀ value ∈ counterexample.state :: (counterexample.path.states ++ counterexample.path.actions),
        Restores encode decode value) →
      Restores (Counterexample.toDocument encode) (Counterexample.ofDocument decode) counterexample) ∧
    (∀ (path : Path) (data : Value), path.LaidOutAs data →
      (∀ value ∈ path.states ++ path.actions, Restores decode encode value) →
      Restores (Path.ofDocument decode) (Path.toDocument encode) data) ∧
    ∀ (counterexample : Counterexample) (length data : Value), counterexample.LaidOutAs length data →
      (∀ value ∈ counterexample.state :: (counterexample.path.states ++ counterexample.path.actions),
        Restores decode encode value) →
      ∃ read written, Counterexample.ofDocument decode data = .ok read ∧
        read.toDocument encode = .ok written ∧
        ((written == data) = true ↔ (length == .int counterexample.path.length) = true) := by
  refine ⟨fun path kept => Path.restores kept, ?_, ?_, ?_, ?_⟩
  · intro operations number plain found kept
    have represents := (PathPool.history_represents PathPool.represents_empty operations).2
    have restores : Restores (Path.toDocument encode) (Path.ofDocument decode)
        (.listed plain.head plain.steps) := by
      apply Path.restores
      simpa only [Path.states, Path.actions, Path.steps_listed, Path.head, PlainPath.states,
        PlainPath.actions] using kept
    rcases restores with ⟨written, read, written_eq, read_eq, same⟩
    exact ⟨_, _, written, read, represents.read_eq found, written_eq, read_eq, same⟩
  · intro counterexample kept
    rw [List.forall_mem_cons] at kept
    exact Counterexample.restores kept.1 (Path.restores kept.2)
  · intro path data laidOut kept
    rcases laidOut.exists_read kept with ⟨read, written, read_eq, written_eq, _, same⟩
    exact ⟨read, written, read_eq, written_eq, same⟩
  · intro counterexample length data laidOut kept
    exact laidOut.exists_read kept

/-- A path that was built by extending another, over values that are kept when lists are made tuples. -/
def detour : Path :=
  .extended (.listed (.tuple [.int 1]) []) ⟨.str "go", .tuple []⟩

/-- The same path as the second one of a pool that was asked about it. -/
def detourMade : List PathPool.Operation :=
  [.make (.single (.tuple [.int 1])), .make (.extend 0 (.str "go") (.tuple [])), .ask (.states 1)]

/-- A document laid out like a written path, with the members of each object in another order. -/
def rearranged : Value :=
  object [("steps", .list [object [("state", .tuple []), ("action", .str "go")]]),
    ("head", .tuple [.int 1])]

/-- A document laid out like a written counterexample that tells a wrong length. -/
def overlong : Value :=
  object [("path", rearranged), ("state", .tuple []), ("length", .int 2)]

theorem detour_kept {there back : Value → Result Value}
    (unchanged : ∀ value ∈ [Value.tuple [.int 1], .tuple [], .str "go"],
      there value = .ok value ∧ back value = .ok value) :
    ∀ value ∈ Value.tuple [] :: (detour.states ++ detour.actions), Restores there back value := by
  intro value value_mem
  have listed : value ∈ [Value.tuple [.int 1], .tuple [], .str "go"] := by
    simpa [detour, Path.states, Path.actions, Path.head, Path.steps, Path.stepsThen, or_left_comm]
      using value_mem
  exact ⟨value, value, (unchanged value listed).1, (unchanged value listed).2, BEq.rfl⟩

theorem detour_laidOutAs : detour.LaidOutAs rearranged := by
  refine ⟨_, ⟨_, rfl, by decide, Table.find?_perm (by decide) (.swap _ _ _)⟩, .cons ?_ .nil⟩
  exact ⟨_, rfl, by decide, Table.find?_perm (by decide) (.swap _ _ _)⟩

theorem documents_restored_detour :
    (∀ value ∈ Value.tuple [] :: (detour.states ++ detour.actions),
      Restores Encoder.unchanged Decoder.tuples value ∧
        Restores Decoder.tuples Encoder.unchanged value) ∧
    Restores (Path.toDocument Encoder.unchanged) (Path.ofDocument Decoder.tuples) detour ∧
    (∃ path pool written read,
      (PathPool.run detourMade).2.read 1 = (.ok (path, pool) : Result (Path × PathPool)) ∧
      path.toDocument Encoder.unchanged = .ok written ∧
      Path.ofDocument Decoder.tuples written = .ok read ∧ (read == detour) = true) ∧
    Restores (Counterexample.toDocument Encoder.unchanged) (Counterexample.ofDocument Decoder.tuples)
      ⟨.tuple [], detour⟩ ∧
    (detour.LaidOutAs rearranged ∧
      Restores (Path.ofDocument Decoder.tuples) (Path.toDocument Encoder.unchanged) rearranged) ∧
    Counterexample.LaidOutAs ⟨.tuple [], detour⟩ (.int 2) overlong ∧
    ∃ read written, Counterexample.ofDocument Decoder.tuples overlong = .ok read ∧
      read.toDocument Encoder.unchanged = .ok written ∧ (written == overlong) = false := by
  have there : ∀ value ∈ Value.tuple [] :: (detour.states ++ detour.actions),
      Restores Encoder.unchanged Decoder.tuples value :=
    detour_kept (by simp [Encoder.unchanged, Decoder.tuples, Value.freezeLists])
  have back : ∀ value ∈ Value.tuple [] :: (detour.states ++ detour.actions),
      Restores Decoder.tuples Encoder.unchanged value :=
    detour_kept (by simp [Encoder.unchanged, Decoder.tuples, Value.freezeLists])
  have laidOut : Counterexample.LaidOutAs ⟨.tuple [], detour⟩ (.int 2) overlong :=
    ⟨_, ⟨_, rfl, by decide, Table.find?_perm (by decide) (.swap _ _ _)⟩, detour_laidOutAs⟩
  rcases documents_restored Encoder.unchanged Decoder.tuples with
    ⟨ofPath, ofPool, ofCounterexample, ofPathDocument, ofDocument⟩
  refine ⟨fun value value_mem => ⟨there value value_mem, back value value_mem⟩,
    ofPath _ (List.forall_mem_cons.mp there).2,
    ofPool detourMade 1 ⟨_, _⟩ rfl (List.forall_mem_cons.mp there).2,
    ofCounterexample _ there, ⟨detour_laidOutAs, ofPathDocument _ _ detour_laidOutAs
      (List.forall_mem_cons.mp back).2⟩, laidOut, ?_⟩
  rcases ofDocument _ _ _ laidOut back with ⟨read, written, read_eq, written_eq, same_iff⟩
  refine ⟨read, written, read_eq, written_eq, ?_⟩
  rw [← Bool.not_eq_true, same_iff]
  decide

end StateSpace
