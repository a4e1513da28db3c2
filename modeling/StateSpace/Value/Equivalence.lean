import StateSpace.Value.Hashable
import StateSpace.Value.Induction

/-!
# Equality is an equivalence

Equality of values is reflexive, symmetric and transitive on all values, and of two equal values both
may be keys or neither may. A visited set and a table may therefore forget which of several equal
values they were given.
-/

namespace StateSpace

namespace Value

theorem countsAs_iff (value : Value) (number : Int) :
    value.countsAs number = true ↔ value.asInt? = some number := by
  cases value <;> simp [countsAs, asInt?]

theorem standsFor_iff (value : Value) (text : String) :
    value.standsFor text = true ↔ value.asText? = some text := by
  cases value <;> simp [standsFor, asText?]

/-! ### Inclusion of lists -/

theorem markWhere_eq {α : Type} (test : α → Bool) (members : List (α × Bool)) :
    markWhere test members =
      (members.any fun member => test member.1,
        members.map fun member => (member.1, member.2 || test member.1)) := by
  induction members with
  | nil => rfl
  | cons member members ih => simp [markWhere, ih]

/-- Marks do not matter to the members of a list. -/
theorem exists_mem_marked {α : Type} (test property : α → Bool) (members : List (α × Bool)) :
    (∃ member ∈ members.map fun member => (member.1, member.2 || test member.1),
      property member.1 = true) ↔ ∃ member ∈ members, property member.1 = true := by
  constructor
  · rintro ⟨_, marked_mem, holds⟩
    rcases List.mem_map.mp marked_mem with ⟨member, member_mem, rfl⟩
    exact ⟨member, member_mem, holds⟩
  · rintro ⟨member, member_mem, holds⟩
    exact ⟨_, List.mem_map.mpr ⟨member, member_mem, rfl⟩, holds⟩

theorem exists_mem_unmarked {α : Type} (property : α → Bool) (members : List α) :
    (∃ member ∈ unmarked members, property member.1 = true) ↔
      ∃ member ∈ members, property member = true := by
  constructor
  · rintro ⟨_, unmarked_mem, holds⟩
    rcases List.mem_map.mp unmarked_mem with ⟨member, member_mem, rfl⟩
    exact ⟨member, member_mem, holds⟩
  · rintro ⟨member, member_mem, holds⟩
    exact ⟨_, List.mem_map.mpr ⟨member, member_mem, rfl⟩, holds⟩

theorem matchItems_iff (items : List Value) (others : List (Value × Bool)) :
    matchItems items others = true ↔
      (∀ item ∈ items, ∃ other ∈ others, beq item other.1 = true) ∧
        ∀ other ∈ others, other.2 = true ∨ ∃ item ∈ items, beq item other.1 = true := by
  induction items generalizing others with
  | nil => simp
  | cons item items ih =>
      simp only [matchItems, markWhere_eq, Bool.and_eq_true, ih, exists_mem_marked,
        List.any_eq_true, List.forall_mem_map, Bool.or_eq_true, List.mem_cons, forall_eq_or_imp,
        exists_eq_or_imp, or_assoc, and_assoc]

theorem beqEntry_iff (entry other : Value × Value) :
    beqEntry entry other = true ↔
      beq entry.1 other.1 = true ∧ beq entry.2 other.2 = true := by
  cases entry
  simp

theorem matchEntries_iff (entries : List (Value × Value)) (others : List ((Value × Value) × Bool)) :
    matchEntries entries others = true ↔
      (∀ entry ∈ entries, ∃ other ∈ others, beqEntry entry other.1 = true) ∧
        ∀ other ∈ others, other.2 = true ∨ ∃ entry ∈ entries, beqEntry entry other.1 = true := by
  induction entries generalizing others with
  | nil => simp
  | cons entry entries ih =>
      simp only [matchEntries, markWhere_eq, Bool.and_eq_true, ih, exists_mem_marked,
        List.any_eq_true, List.forall_mem_map, Bool.or_eq_true, List.mem_cons, forall_eq_or_imp,
        exists_eq_or_imp, or_assoc, and_assoc]

/-- Two lists of entries include each other. -/
def SameEntries (entries others : List (Value × Value)) : Prop :=
  (∀ entry ∈ entries, ∃ other ∈ others, beqEntry entry other = true) ∧
    ∀ other ∈ others, ∃ entry ∈ entries, beqEntry entry other = true

/-- Two lists of members include each other. -/
def SameMembers (members others : List Value) : Prop :=
  (∀ member ∈ members, ∃ other ∈ others, beq member other = true) ∧
    ∀ other ∈ others, ∃ member ∈ members, beq member other = true

theorem matchEntries_unmarked_iff (entries others : List (Value × Value)) :
    matchEntries entries (unmarked others) = true ↔ SameEntries entries others := by
  simp only [matchEntries_iff, SameEntries, exists_mem_unmarked]
  simp only [unmarked, List.forall_mem_map, Bool.false_eq_true, false_or]

theorem matchItems_unmarked_iff (members others : List Value) :
    matchItems members (unmarked others) = true ↔ SameMembers members others := by
  simp only [matchItems_iff, SameMembers, exists_mem_unmarked]
  simp only [unmarked, List.forall_mem_map, Bool.false_eq_true, false_or]

/-! ### Equality by kinds -/

theorem beq_bool_iff (flag : Bool) (other : Value) :
    beq (.bool flag) other = true ↔ other.asInt? = some (if flag then 1 else 0) := by
  rw [beq, countsAs_iff]

theorem beq_int_iff (number : Int) (other : Value) :
    beq (.int number) other = true ↔ other.asInt? = some number := by
  rw [beq, countsAs_iff]

theorem beq_str_iff (text : String) (other : Value) :
    beq (.str text) other = true ↔ other.asText? = some text := by
  rw [beq, standsFor_iff]

theorem beq_str_str_iff {text other : String} : (Value.str text == .str other) = true ↔ text = other :=
  (beq_str_iff text (.str other)).trans (Option.some_inj.trans eq_comm)

theorem beq_symbol_iff (constant : Symbol) (other : Value) :
    beq (.symbol constant) other = true ↔ other.asText? = some constant.text := by
  rw [beq, standsFor_iff]

theorem beq_tuple_iff (items : List Value) (other : Value) :
    beq (.tuple items) other = true ↔
      ∃ items', other = .tuple items' ∧ beqItems items items' = true := by
  cases other <;> simp

theorem beq_list_iff (items : List Value) (other : Value) :
    beq (.list items) other = true ↔
      ∃ items', other = .list items' ∧ beqItems items items' = true := by
  cases other <;> simp

theorem beq_dict_iff (entries : List (Value × Value)) (other : Value) :
    beq (.dict entries) other = true ↔
      ∃ entries', other = .dict entries' ∧ SameEntries entries entries' := by
  cases other <;> simp [matchEntries_unmarked_iff]

theorem beq_state_iff (entries : List (Value × Value)) (other : Value) :
    beq (.state entries) other = true ↔
      ∃ entries', other = .state entries' ∧ SameEntries entries entries' := by
  cases other <;> simp [matchEntries_unmarked_iff]

theorem beq_set_iff (members : List Value) (other : Value) :
    beq (.set members) other = true ↔
      ∃ members', other = .set members' ∧ SameMembers members members' := by
  cases other <;> simp [matchItems_unmarked_iff]

theorem beq_atLocation_iff (location other : Value) :
    beq (.atLocation location) other = true ↔
      ∃ location', other = .atLocation location' ∧ beq location location' = true := by
  cases other <;> simp

theorem beq_programLabel_iff (location assignment other : Value) :
    beq (.programLabel location assignment) other = true ↔
      ∃ location' assignment', other = .programLabel location' assignment' ∧
        beq location location' = true ∧ beq assignment assignment' = true := by
  cases other <;> simp [and_assoc]

/-! ### Reflexivity -/

theorem beqItems_refl {items : List Value} (refl : ∀ item ∈ items, beq item item = true) :
    beqItems items items = true := by
  induction items with
  | nil => rfl
  | cons item items ih => simp_all

theorem SameEntries.refl {entries : List (Value × Value)}
    (refl : ∀ entry ∈ entries, beq entry.1 entry.1 = true ∧ beq entry.2 entry.2 = true) :
    SameEntries entries entries := by
  have same : ∀ entry ∈ entries, ∃ other ∈ entries, beqEntry entry other = true :=
    fun entry entry_mem => ⟨entry, entry_mem, (beqEntry_iff entry entry).mpr (refl entry entry_mem)⟩
  refine ⟨same, ?_⟩
  intro entry entry_mem
  exact ⟨entry, entry_mem, (beqEntry_iff entry entry).mpr (refl entry entry_mem)⟩

theorem beq_refl (value : Value) : beq value value = true := by
  induction value using Value.induction with
  | null => rfl
  | bool flag => simp [countsAs]
  | int number => simp [countsAs]
  | str text => simp [standsFor]
  | symbol constant => simp [standsFor]
  | tuple items ih => exact (beq_tuple_iff items _).mpr ⟨items, rfl, beqItems_refl ih⟩
  | list items ih => exact (beq_list_iff items _).mpr ⟨items, rfl, beqItems_refl ih⟩
  | dict entries ih => exact (beq_dict_iff entries _).mpr ⟨entries, rfl, .refl ih⟩
  | state entries ih => exact (beq_state_iff entries _).mpr ⟨entries, rfl, .refl ih⟩
  | atLocation location ih => exact (beq_atLocation_iff location _).mpr ⟨location, rfl, ih⟩
  | set members ih =>
      refine (beq_set_iff members _).mpr ⟨members, rfl, ?_, ?_⟩ <;>
        exact fun member member_mem => ⟨member, member_mem, ih member member_mem⟩
  | programLabel location assignment ihLocation ihAssignment =>
      exact (beq_programLabel_iff location assignment _).mpr
        ⟨location, assignment, rfl, ihLocation, ihAssignment⟩
  | cell number => simp

/-! ### Symmetry -/

theorem beqItems_symm {items others : List Value}
    (symm : ∀ item ∈ items, ∀ other, beq item other = true → beq other item = true)
    (same : beqItems items others = true) : beqItems others items = true := by
  induction items generalizing others with
  | nil => simp_all
  | cons item items ih =>
      cases others with
      | nil => simp at same
      | cons other others =>
          simp only [beqItems, Bool.and_eq_true] at same ⊢
          refine ⟨symm item (by simp) other same.1, ih ?_ same.2⟩
          exact fun item item_mem => symm item (List.mem_cons_of_mem _ item_mem)

theorem SameEntries.symm {entries others : List (Value × Value)}
    (symm : ∀ entry ∈ entries,
      (∀ other, beq entry.1 other = true → beq other entry.1 = true) ∧
        ∀ other, beq entry.2 other = true → beq other entry.2 = true)
    (same : SameEntries entries others) : SameEntries others entries := by
  have flip : ∀ entry ∈ entries, ∀ other, beqEntry entry other = true →
      beqEntry other entry = true := by
    intro entry entry_mem other equal
    rw [beqEntry_iff] at equal ⊢
    exact ⟨(symm entry entry_mem).1 _ equal.1, (symm entry entry_mem).2 _ equal.2⟩
  constructor
  · intro other other_mem
    rcases same.2 other other_mem with ⟨entry, entry_mem, equal⟩
    exact ⟨entry, entry_mem, flip entry entry_mem other equal⟩
  · intro entry entry_mem
    rcases same.1 entry entry_mem with ⟨other, other_mem, equal⟩
    exact ⟨other, other_mem, flip entry entry_mem other equal⟩

theorem beq_symm {value other : Value} (equal : beq value other = true) :
    beq other value = true := by
  induction value using Value.induction generalizing other with
  | null => cases other <;> simp_all
  | bool flag =>
      rw [beq_bool_iff] at equal
      cases other <;> simp_all [asInt?, countsAs]
  | int number =>
      rw [beq_int_iff] at equal
      cases other <;> simp_all [asInt?, countsAs]
  | str text =>
      rw [beq_str_iff] at equal
      cases other <;> simp_all [asText?, standsFor]
  | symbol constant =>
      rw [beq_symbol_iff] at equal
      cases other <;> simp_all [asText?, standsFor]
  | tuple items ih =>
      rcases (beq_tuple_iff items other).mp equal with ⟨items', rfl, same⟩
      exact (beq_tuple_iff items' _).mpr
        ⟨items, rfl, beqItems_symm (fun item item_mem _ => ih item item_mem) same⟩
  | list items ih =>
      rcases (beq_list_iff items other).mp equal with ⟨items', rfl, same⟩
      exact (beq_list_iff items' _).mpr
        ⟨items, rfl, beqItems_symm (fun item item_mem _ => ih item item_mem) same⟩
  | dict entries ih =>
      rcases (beq_dict_iff entries other).mp equal with ⟨entries', rfl, same⟩
      exact (beq_dict_iff entries' _).mpr
        ⟨entries, rfl, same.symm fun entry entry_mem =>
          ⟨fun _ => (ih entry entry_mem).1, fun _ => (ih entry entry_mem).2⟩⟩
  | state entries ih =>
      rcases (beq_state_iff entries other).mp equal with ⟨entries', rfl, same⟩
      exact (beq_state_iff entries' _).mpr
        ⟨entries, rfl, same.symm fun entry entry_mem =>
          ⟨fun _ => (ih entry entry_mem).1, fun _ => (ih entry entry_mem).2⟩⟩
  | atLocation location ih =>
      rcases (beq_atLocation_iff location other).mp equal with ⟨location', rfl, same⟩
      exact (beq_atLocation_iff location' _).mpr ⟨location, rfl, ih same⟩
  | set members ih =>
      rcases (beq_set_iff members other).mp equal with ⟨members', rfl, within, covered⟩
      refine (beq_set_iff members' _).mpr ⟨members, rfl, ?_, ?_⟩
      · intro member' member_mem'
        rcases covered member' member_mem' with ⟨member, member_mem, same⟩
        exact ⟨member, member_mem, ih member member_mem same⟩
      · intro member member_mem
        rcases within member member_mem with ⟨member', member_mem', same⟩
        exact ⟨member', member_mem', ih member member_mem same⟩
  | programLabel location assignment ihLocation ihAssignment =>
      rcases (beq_programLabel_iff location assignment other).mp equal with
        ⟨location', assignment', rfl, sameLocation, sameAssignment⟩
      exact (beq_programLabel_iff location' assignment' _).mpr
        ⟨location, assignment, rfl, ihLocation sameLocation, ihAssignment sameAssignment⟩
  | cell number => cases other <;> simp_all

/-! ### Transitivity -/

theorem beqItems_trans {first second third : List Value}
    (trans : ∀ item ∈ first, ∀ middle last,
      beq item middle = true → beq middle last = true → beq item last = true)
    (left : beqItems first second = true) (right : beqItems second third = true) :
    beqItems first third = true := by
  induction first generalizing second third with
  | nil =>
      cases second with
      | nil => exact right
      | cons item items => simp at left
  | cons item items ih =>
      cases second with
      | nil => simp at left
      | cons middle middles =>
          cases third with
          | nil => simp at right
          | cons last lasts =>
              simp only [beqItems, Bool.and_eq_true] at left right ⊢
              refine ⟨trans item (by simp) middle last left.1 right.1, ih ?_ left.2 right.2⟩
              exact fun item item_mem => trans item (List.mem_cons_of_mem _ item_mem)

theorem SameEntries.trans {first second third : List (Value × Value)}
    (trans : ∀ entry ∈ first,
      (∀ middle last, beq entry.1 middle = true → beq middle last = true →
        beq entry.1 last = true) ∧
      ∀ middle last, beq entry.2 middle = true → beq middle last = true →
        beq entry.2 last = true)
    (left : SameEntries first second) (right : SameEntries second third) :
    SameEntries first third := by
  have join : ∀ entry ∈ first, ∀ middle last, beqEntry entry middle = true →
      beqEntry middle last = true → beqEntry entry last = true := by
    intro entry entry_mem middle last toMiddle toLast
    rw [beqEntry_iff] at toMiddle toLast ⊢
    exact ⟨(trans entry entry_mem).1 _ _ toMiddle.1 toLast.1,
      (trans entry entry_mem).2 _ _ toMiddle.2 toLast.2⟩
  constructor
  · intro entry entry_mem
    rcases left.1 entry entry_mem with ⟨middle, middle_mem, toMiddle⟩
    rcases right.1 middle middle_mem with ⟨last, last_mem, toLast⟩
    exact ⟨last, last_mem, join entry entry_mem middle last toMiddle toLast⟩
  · intro last last_mem
    rcases right.2 last last_mem with ⟨middle, middle_mem, toLast⟩
    rcases left.2 middle middle_mem with ⟨entry, entry_mem, toMiddle⟩
    exact ⟨entry, entry_mem, join entry entry_mem middle last toMiddle toLast⟩

/-- Equal values count as the same number. -/
theorem asInt?_eq_of_beq {value other : Value} (equal : beq value other = true) :
    value.asInt? = other.asInt? := by
  cases value with
  | bool flag => exact ((beq_bool_iff flag other).mp equal).symm
  | int number => exact ((beq_int_iff number other).mp equal).symm
  | _ => cases other <;> simp_all [asInt?, standsFor]

/-- Equal values stand for the same text. -/
theorem asText?_eq_of_beq {value other : Value} (equal : beq value other = true) :
    value.asText? = other.asText? := by
  cases value with
  | str text => exact ((beq_str_iff text other).mp equal).symm
  | symbol constant => exact ((beq_symbol_iff constant other).mp equal).symm
  | _ => cases other <;> simp_all [asText?, countsAs]

theorem beq_trans {value middle last : Value} (left : beq value middle = true)
    (right : beq middle last = true) : beq value last = true := by
  induction value using Value.induction generalizing middle last with
  | null => cases middle <;> simp_all
  | bool flag =>
      rw [beq_bool_iff] at left ⊢
      rw [← asInt?_eq_of_beq right, left]
  | int number =>
      rw [beq_int_iff] at left ⊢
      rw [← asInt?_eq_of_beq right, left]
  | str text =>
      rw [beq_str_iff] at left ⊢
      rw [← asText?_eq_of_beq right, left]
  | symbol constant =>
      rw [beq_symbol_iff] at left ⊢
      rw [← asText?_eq_of_beq right, left]
  | tuple items ih =>
      rcases (beq_tuple_iff items middle).mp left with ⟨items', rfl, same⟩
      rcases (beq_tuple_iff items' last).mp right with ⟨items'', rfl, same'⟩
      exact (beq_tuple_iff items _).mpr
        ⟨items'', rfl, beqItems_trans (fun item item_mem _ _ => ih item item_mem) same same'⟩
  | list items ih =>
      rcases (beq_list_iff items middle).mp left with ⟨items', rfl, same⟩
      rcases (beq_list_iff items' last).mp right with ⟨items'', rfl, same'⟩
      exact (beq_list_iff items _).mpr
        ⟨items'', rfl, beqItems_trans (fun item item_mem _ _ => ih item item_mem) same same'⟩
  | dict entries ih =>
      rcases (beq_dict_iff entries middle).mp left with ⟨entries', rfl, same⟩
      rcases (beq_dict_iff entries' last).mp right with ⟨entries'', rfl, same'⟩
      exact (beq_dict_iff entries _).mpr
        ⟨entries'', rfl, same.trans (fun entry entry_mem =>
          ⟨fun _ _ => (ih entry entry_mem).1, fun _ _ => (ih entry entry_mem).2⟩) same'⟩
  | state entries ih =>
      rcases (beq_state_iff entries middle).mp left with ⟨entries', rfl, same⟩
      rcases (beq_state_iff entries' last).mp right with ⟨entries'', rfl, same'⟩
      exact (beq_state_iff entries _).mpr
        ⟨entries'', rfl, same.trans (fun entry entry_mem =>
          ⟨fun _ _ => (ih entry entry_mem).1, fun _ _ => (ih entry entry_mem).2⟩) same'⟩
  | atLocation location ih =>
      rcases (beq_atLocation_iff location middle).mp left with ⟨location', rfl, same⟩
      rcases (beq_atLocation_iff location' last).mp right with ⟨location'', rfl, same'⟩
      exact (beq_atLocation_iff location _).mpr ⟨location'', rfl, ih same same'⟩
  | set members ih =>
      rcases (beq_set_iff members middle).mp left with ⟨members', rfl, within, covered⟩
      rcases (beq_set_iff members' last).mp right with ⟨members'', rfl, within', covered'⟩
      refine (beq_set_iff members _).mpr ⟨members'', rfl, ?_, ?_⟩
      · intro member member_mem
        rcases within member member_mem with ⟨member', member_mem', same⟩
        rcases within' member' member_mem' with ⟨member'', member_mem'', same'⟩
        exact ⟨member'', member_mem'', ih member member_mem same same'⟩
      · intro member'' member_mem''
        rcases covered' member'' member_mem'' with ⟨member', member_mem', same'⟩
        rcases covered member' member_mem' with ⟨member, member_mem, same⟩
        exact ⟨member, member_mem, ih member member_mem same same'⟩
  | programLabel location assignment ihLocation ihAssignment =>
      rcases (beq_programLabel_iff location assignment middle).mp left with
        ⟨location', assignment', rfl, sameLocation, sameAssignment⟩
      rcases (beq_programLabel_iff location' assignment' last).mp right with
        ⟨location'', assignment'', rfl, sameLocation', sameAssignment'⟩
      exact (beq_programLabel_iff location assignment _).mpr
        ⟨location'', assignment'', rfl, ihLocation sameLocation sameLocation',
          ihAssignment sameAssignment sameAssignment'⟩
  | cell number => cases middle <;> simp_all

instance : EquivBEq Value where
  rfl {value} := beq_refl value
  symm := beq_symm
  trans := beq_trans

/-! ### Truth -/

theorem isEmpty_eq_of_forall_exists {α : Type} {members others : List α} {related : α → α → Prop}
    (found : ∀ member ∈ members, ∃ other ∈ others, related member other)
    (found' : ∀ other ∈ others, ∃ member ∈ members, related member other) :
    members.isEmpty = others.isEmpty := by
  cases members with
  | nil =>
      cases others with
      | nil => rfl
      | cons other others =>
          rcases found' other (by simp) with ⟨member, member_mem, _⟩
          cases member_mem
  | cons member members =>
      cases others with
      | nil =>
          rcases found member (by simp) with ⟨other, other_mem, _⟩
          cases other_mem
      | cons other others => rfl

/-- Equal values count as true alike. -/
theorem truthy_eq_of_beq {value other : Value} (equal : beq value other = true) :
    value.truthy = other.truthy := by
  cases value with
  | null => cases other <;> simp_all [truthy]
  | bool flag =>
      rw [beq_bool_iff] at equal
      cases other <;> cases flag <;> simp_all [truthy, asInt?]
  | int number =>
      rw [beq_int_iff] at equal
      cases other with
      | bool flag => cases flag <;> simp [asInt?] at equal <;> simp [truthy, ← equal]
      | _ => simp_all [truthy, asInt?]
  | str text =>
      rw [beq_str_iff] at equal
      cases other <;> simp_all [truthy, asText?]
  | symbol constant =>
      rw [beq_symbol_iff] at equal
      cases other <;> simp_all [truthy, asText?]
  | tuple items =>
      rcases (beq_tuple_iff items other).mp equal with ⟨items', rfl, same⟩
      cases items <;> cases items' <;> simp_all [truthy]
  | list items =>
      rcases (beq_list_iff items other).mp equal with ⟨items', rfl, same⟩
      cases items <;> cases items' <;> simp_all [truthy]
  | dict entries =>
      rcases (beq_dict_iff entries other).mp equal with ⟨entries', rfl, same⟩
      simp [truthy, isEmpty_eq_of_forall_exists same.1 same.2]
  | state entries =>
      rcases (beq_state_iff entries other).mp equal with ⟨entries', rfl, same⟩
      simp [truthy, isEmpty_eq_of_forall_exists same.1 same.2]
  | atLocation location =>
      rcases (beq_atLocation_iff location other).mp equal with ⟨location', rfl, _⟩
      rfl
  | set members =>
      rcases (beq_set_iff members other).mp equal with ⟨members', rfl, same⟩
      simp [truthy, isEmpty_eq_of_forall_exists same.1 same.2]
  | programLabel location assignment =>
      rcases (beq_programLabel_iff location assignment other).mp equal with ⟨_, _, rfl, _⟩
      rfl
  | cell number => cases other <;> simp_all [truthy]

/-! ### Keys -/

theorem unhashableItem?_eq_none_iff (items : List Value) :
    unhashableItem? items = none ↔ ∀ item ∈ items, item.IsHashable := by
  induction items with
  | nil => simp
  | cons item items ih => simp [ih, IsHashable]

theorem unhashableAmong?_eq_none_iff (entries : List (Value × Value)) :
    unhashableAmong? entries = none ↔
      ∀ entry ∈ entries, entry.1.IsHashable ∧ entry.2.IsHashable := by
  induction entries with
  | nil => simp
  | cons entry entries ih =>
      cases entry
      simp [ih, IsHashable]

theorem exists_beq_of_mem_beqItems {items others : List Value}
    (same : beqItems items others = true) :
    ∀ other ∈ others, ∃ item ∈ items, beq item other = true := by
  induction items generalizing others with
  | nil => simp_all
  | cons item items ih =>
      cases others with
      | nil => simp
      | cons other others =>
          simp only [beqItems, Bool.and_eq_true] at same
          intro candidate candidate_mem
          rcases List.mem_cons.mp candidate_mem with rfl | candidate_mem
          · exact ⟨item, by simp, same.1⟩
          · rcases ih same.2 candidate candidate_mem with ⟨found, found_mem, equal⟩
            exact ⟨found, List.mem_cons_of_mem _ found_mem, equal⟩

theorem IsHashable.of_beq {value other : Value} (hashable : value.IsHashable)
    (equal : beq value other = true) : other.IsHashable := by
  induction value using Value.induction generalizing other with
  | null => cases other <;> simp_all [IsHashable]
  | bool flag => cases other <;> simp_all [countsAs, IsHashable]
  | int number => cases other <;> simp_all [countsAs, IsHashable]
  | str text => cases other <;> simp_all [standsFor, IsHashable]
  | symbol constant => cases other <;> simp_all [standsFor, IsHashable]
  | tuple items ih =>
      rcases (beq_tuple_iff items other).mp equal with ⟨items', rfl, same⟩
      refine (unhashableItem?_eq_none_iff items').mpr ?_
      intro item' item_mem'
      rcases exists_beq_of_mem_beqItems same item' item_mem' with ⟨item, item_mem, equal⟩
      exact ih item item_mem ((unhashableItem?_eq_none_iff items).mp hashable item item_mem) equal
  | list items ih => simp [IsHashable] at hashable
  | dict entries ih => simp [IsHashable] at hashable
  | state entries ih =>
      rcases (beq_state_iff entries other).mp equal with ⟨entries', rfl, same⟩
      refine (unhashableAmong?_eq_none_iff entries').mpr ?_
      intro entry' entry_mem'
      rcases same.2 entry' entry_mem' with ⟨entry, entry_mem, equal⟩
      have parts := (beqEntry_iff entry entry').mp equal
      have hashable := (unhashableAmong?_eq_none_iff entries).mp hashable entry entry_mem
      exact ⟨(ih entry entry_mem).1 hashable.1 parts.1, (ih entry entry_mem).2 hashable.2 parts.2⟩
  | atLocation location ih =>
      rcases (beq_atLocation_iff location other).mp equal with ⟨location', rfl, same⟩
      simp only [IsHashable, unhashable?] at hashable ⊢
      exact ih hashable same
  | set members ih =>
      rcases (beq_set_iff members other).mp equal with ⟨members', rfl, _⟩
      rfl
  | programLabel location assignment ihLocation ihAssignment =>
      rcases (beq_programLabel_iff location assignment other).mp equal with
        ⟨location', assignment', rfl, sameLocation, sameAssignment⟩
      simp only [IsHashable, unhashable?, Option.or_eq_none_iff] at hashable ⊢
      exact ⟨ihLocation hashable.1 sameLocation, ihAssignment hashable.2 sameAssignment⟩
  | cell number => simp [IsHashable] at hashable

/-- Of two equal values both may be keys or neither may. -/
theorem isHashable_iff_of_beq {value other : Value} (equal : beq value other = true) :
    value.IsHashable ↔ other.IsHashable :=
  ⟨fun hashable => hashable.of_beq equal, fun hashable => hashable.of_beq (beq_symm equal)⟩

/-- Equal values are both accepted as keys or both refused. -/
theorem requireHashable_cases {value other : Value} (equal : (value == other) = true) :
    value.requireHashable = .ok () ∧ other.requireHashable = .ok () ∨
      ∃ kind kind', value.requireHashable = .error (.unhashable kind) ∧
        other.requireHashable = .error (.unhashable kind') := by
  have alike := isHashable_iff_of_beq equal
  unfold IsHashable at alike
  unfold requireHashable
  cases obstacle : value.unhashable? with
  | none =>
      rw [alike.mp obstacle]
      exact .inl ⟨rfl, rfl⟩
  | some kind =>
      cases obstacle' : other.unhashable? with
      | none =>
          rw [alike.mpr obstacle'] at obstacle
          cases obstacle
      | some kind' => exact .inr ⟨kind, kind', rfl, rfl⟩

end Value

end StateSpace
