import Mathlib.Data.List.Forall2
import StateSpace.Document
import StateSpace.Proofs.Json.Scalars
import StateSpace.Proofs.Outcome

/-!
# Reading what was written

Plain data that was written as JSON is read back as it was, in every layout. The texts of the parts of a
value stand inside its text, so the statement to carry through the induction is about a text with anything
after it: `Json.Spells` says that reading takes the whole text, leaves what follows, and needs no larger
bound than twice the length of the text.
-/

namespace StateSpace

/-- Plain data: null, truth values, integers and texts, lists of plain data, and objects that have each
name once. -/
inductive Value.IsPlain : Value → Prop where
  | null : IsPlain .null
  | bool (flag : Bool) : IsPlain (.bool flag)
  | int (number : Int) : IsPlain (.int number)
  | str (text : String) : IsPlain (.str text)
  | list {items : List Value} (items_plain : ∀ item ∈ items, IsPlain item) : IsPlain (.list items)
  | object {members : List (String × Value)} (names_nodup : (members.map Prod.fst).Nodup)
      (members_plain : ∀ member ∈ members, IsPlain member.2) : IsPlain (object members)

namespace Json

/-- A text that starts like that of a value: with neither a blank nor a closing bracket nor a byte order
mark. -/
def StartsValue (text : List Char) : Prop :=
  ∃ first more, text = first :: more ∧ isBlank first = false ∧ first ∉ [']', '\x7d', '\ufeff']

/-- A text from which a value is read, whatever follows it, as long as a number at its end can be told
from what follows. -/
structure Spells (text : List Char) (value : Value) : Prop where
  starts : StartsValue text
  reads : ∀ {bound : Nat} {rest : List Char}, 2 * text.length ≤ bound → EndsNumber rest →
    readValue none bound (text ++ rest) = .ok (value, rest)

/-! ### Blanks -/

theorem skipBlanks_append {blanks : List Char} (areBlank : ∀ c ∈ blanks, isBlank c = true)
    (rest : List Char) : skipBlanks (blanks ++ rest) = skipBlanks rest :=
  List.dropWhile_append_of_pos areBlank

theorem skipBlanks_cons {c : Char} (notBlank : isBlank c = false) (rest : List Char) :
    skipBlanks (c :: rest) = c :: rest := by
  simp [skipBlanks, notBlank]

theorem isBlank_of_mem_lineBreak {layout : Layout} {level : Nat} :
    ∀ c ∈ layout.lineBreak level, isBlank c = true := by
  cases layout with
  | none => simp [Layout.lineBreak]
  | some width =>
      intro c c_mem
      simp only [Layout.lineBreak, List.mem_cons, List.mem_replicate] at c_mem
      rcases c_mem with rfl | ⟨_, rfl⟩ <;> rfl

theorem exists_separator (layout : Layout) (level : Nat) :
    ∃ gap, layout.separator level = ',' :: gap ∧ ∀ c ∈ gap, isBlank c = true := by
  cases layout with
  | none => exact ⟨[' '], rfl, by simp [isBlank]⟩
  | some width => exact ⟨_, rfl, isBlank_of_mem_lineBreak⟩

theorem endsNumber_cons {c : Char} (notDigit : c.isDigit = false) (rest : List Char) :
    EndsNumber (c :: rest) := by
  simpa [EndsNumber] using notDigit

theorem endsNumber_append {blanks : List Char} (areBlank : ∀ c ∈ blanks, isBlank c = true) {c : Char}
    (notDigit : c.isDigit = false) (rest : List Char) : EndsNumber (blanks ++ c :: rest) := by
  cases blanks with
  | nil => exact endsNumber_cons notDigit rest
  | cons blank blanks =>
      have isBlank_blank := areBlank blank (by simp)
      simp only [isBlank, Bool.or_eq_true, decide_eq_true_eq] at isBlank_blank
      apply endsNumber_cons
      rcases isBlank_blank with ((rfl | rfl) | rfl) | rfl <;> rfl

namespace StartsValue

variable {text : List Char}

theorem append (starts : StartsValue text) (rest : List Char) : StartsValue (text ++ rest) := by
  rcases starts with ⟨first, more, rfl, fits⟩
  exact ⟨first, more ++ rest, rfl, fits⟩

theorem intercalate (starts : StartsValue text) (gap : List Char) (texts : List (List Char)) :
    StartsValue (List.intercalate gap (text :: texts)) := by
  cases texts with
  | nil => rwa [List.intercalate_singleton]
  | cons second texts =>
      rw [List.intercalate_cons_cons, List.append_assoc]
      exact starts.append _

theorem skipBlanks_eq (starts : StartsValue text) : skipBlanks text = text := by
  rcases starts with ⟨first, more, rfl, notBlank, _⟩
  exact skipBlanks_cons notBlank more

end StartsValue

theorem Spells.of_succ {first : Char} {more : List Char} {value : Value} (notBlank : isBlank first = false)
    (opens : first ∉ [']', '\x7d', '\ufeff'])
    (reads : ∀ {bound : Nat} {rest : List Char}, 2 * more.length < bound → EndsNumber rest →
      readValue none (bound + 1) (first :: (more ++ rest)) = .ok (value, rest)) :
    Spells (first :: more) value where
  starts := ⟨first, more, rfl, notBlank, opens⟩
  reads {bound rest} enough ends := by
    rw [List.length_cons] at enough
    rcases Nat.exists_eq_add_of_lt (show 0 < bound by omega) with ⟨smaller, rfl⟩
    rw [Nat.zero_add] at enough ⊢
    exact reads (by omega) ends

/-! ### Scalars -/

theorem spells_null : Spells ['n', 'u', 'l', 'l'] .null := by
  apply Spells.of_succ rfl (by decide)
  intro bound rest _ _
  simp [readValue, readScalar]

theorem spells_bool (flag : Bool) :
    Spells (if flag then ['t', 'r', 'u', 'e'] else ['f', 'a', 'l', 's', 'e']) (.bool flag) := by
  cases flag <;> apply Spells.of_succ rfl (by decide) <;> intro bound rest _ _ <;>
    simp [readValue, readScalar]

theorem spells_digits (number : Int) : Spells (digits number) (.int number) := by
  have first_of : ∃ first more, digits number = first :: more ∧ (first = '-' ∨ first.isDigit = true) := by
    unfold digits
    split
    · exact ⟨'-', _, rfl, .inl rfl⟩
    · rcases List.exists_cons_of_ne_nil (@Nat.toDigits_ne_nil number.natAbs 10) with
        ⟨first, more, digits_eq⟩
      exact ⟨first, more, digits_eq, .inr (isDigit_of_mem_toDigits first (digits_eq ▸ List.mem_cons_self))⟩
  rcases first_of with ⟨first, more, digits_eq, sign⟩
  have other : ∀ c : Char, c ≠ '-' → c.isDigit = false → first ≠ c := by
    rintro c unsigned notDigit rfl
    rcases sign with rfl | isDigit
    · exact unsigned rfl
    · rw [isDigit] at notDigit
      cases notDigit
  rw [digits_eq]
  apply Spells.of_succ
  · simp [isBlank, other]
  · simp [other]
  · intro bound rest _ ends
    have read := readNumber_digits number ends
    rw [digits_eq, List.cons_append] at read
    simp [readValue, readScalar, other, read]

theorem spells_quoted (text : String) : Spells (quoted text) (.str text) := by
  apply Spells.of_succ rfl (by decide)
  intro bound rest enough _
  change 2 * (text.toList.flatMap escaped ++ ['\x22']).length < bound at enough
  have longer := length_le_length_flatMap_escaped text.toList
  rw [List.length_append] at enough
  have body := readBody_flatMap_escaped
    ('\x22' :: (text.toList.flatMap escaped ++ '\x22' :: rest)) rest
    (show text.toList.length < bound by omega)
  simp [readValue, body]

/-! ### Lists -/

/-- The items of a list are read up to its closing bracket. -/
theorem readItems_intercalate {gap ending : List Char} (gap_blank : ∀ c ∈ gap, isBlank c = true)
    (ending_blank : ∀ c ∈ ending, isBlank c = true) (rest : List Char) {texts : List (List Char)}
    {values : List Value} (spelled : List.Forall₂ Spells texts values) (nonempty : texts ≠ []) {bound : Nat}
    (enough : 2 * (List.intercalate (',' :: gap) texts).length < bound) :
    readItems none bound (List.intercalate (',' :: gap) texts ++ (ending ++ ']' :: rest)) =
      .ok (values, rest) := by
  induction spelled generalizing bound with
  | nil => exact absurd rfl nonempty
  | @cons text value texts values spells others ih =>
      rcases Nat.exists_eq_add_of_lt (show 0 < bound by omega) with ⟨smaller, rfl⟩
      rw [Nat.zero_add] at enough ⊢
      cases others with
      | nil =>
          rw [List.intercalate_singleton] at enough ⊢
          rw [readItems, spells.reads (by omega) (endsNumber_append ending_blank (by decide) rest),
            Reading.ok_bind]
          simp [skipBlanks_append ending_blank, skipBlanks_cons (show isBlank ']' = false by rfl)]
      | @cons second secondValue texts values secondSpells others =>
          -- each item takes one off the bound, and the comma before the next item pays for it
          rw [List.intercalate_cons_cons] at enough ⊢
          simp only [List.length_append, List.length_cons] at enough
          have remaining := ih (by simp) (show 2 * (List.intercalate (',' :: gap) (second :: texts)).length <
            smaller by omega)
          rw [readItems, List.append_assoc, List.append_assoc, List.cons_append,
            spells.reads (by omega) (endsNumber_cons (by decide) _), Reading.ok_bind]
          simp only [skipBlanks_cons (show isBlank ',' = false by rfl), skipBlanks_append gap_blank,
            ((secondSpells.starts.intercalate _ _).append _).skipBlanks_eq, remaining, Reading.ok_bind,
            Reading.pure_eq_ok]

/-- What an opening bracket is followed by, if anything is enclosed. -/
theorem exists_enclose_cons (layout : Layout) (level : Nat) (opening closing : Char) (text : List Char)
    (texts : List (List Char)) :
    ∃ gap before after, (∀ c ∈ gap, isBlank c = true) ∧ (∀ c ∈ before, isBlank c = true) ∧
      (∀ c ∈ after, isBlank c = true) ∧
      layout.enclose level opening closing (text :: texts) =
        opening :: (before ++ (List.intercalate (',' :: gap) (text :: texts) ++
          (after ++ [closing]))) := by
  rcases exists_separator layout (level + 1) with ⟨gap, separator_eq, gap_blank⟩
  refine ⟨gap, _, _, gap_blank, @isBlank_of_mem_lineBreak layout (level + 1),
    @isBlank_of_mem_lineBreak layout level, ?_⟩
  simp [Layout.enclose, separator_eq]

theorem spells_list (layout : Layout) (level : Nat) {texts : List (List Char)} {values : List Value}
    (spelled : List.Forall₂ Spells texts values) :
    Spells (layout.enclose level '[' ']' texts) (.list values) := by
  cases spelled with
  | nil =>
      apply Spells.of_succ rfl (by decide)
      intro bound rest _ _
      simp [readValue, skipBlanks_cons (show isBlank ']' = false by rfl)]
  | @cons text value texts values spells others =>
      rcases exists_enclose_cons layout level '[' ']' text texts with
        ⟨gap, before, after, gap_blank, before_blank, after_blank, enclosed⟩
      rw [enclosed]
      apply Spells.of_succ rfl (by decide)
      intro bound rest enough _
      simp only [List.length_append] at enough
      have read := readItems_intercalate gap_blank after_blank rest (.cons spells others) (by simp)
        (show _ < bound by omega)
      have starts := (spells.starts.intercalate (',' :: gap) texts).append (after ++ ']' :: rest)
      simp only [List.append_assoc, List.singleton_append]
      rw [readValue]
      simp only [skipBlanks_append before_blank, starts.skipBlanks_eq]
      -- the first item is not taken for the closing bracket of an empty list
      rcases starts with ⟨first, more, items_eq, _, opens⟩
      rw [items_eq] at read ⊢
      simp only [List.mem_cons, not_or] at opens
      simp [read, opens]

/-! ### Objects -/

/-- A text from which a member of an object is read. -/
def SpellsMember (text : List Char) (member : String × Value) : Prop :=
  ∃ value, text = quoted member.1 ++ ':' :: ' ' :: value ∧ Spells value member.2

/-- A member as an entry of a dictionary. -/
def memberEntry (member : String × Value) : Value × Value :=
  (.str member.1, member.2)

theorem object_eq (members : List (String × Value)) : object members = .dict (members.map memberEntry) :=
  rfl

theorem insert_memberEntry {members : List (String × Value)} {name : String}
    (fresh : name ∉ members.map Prod.fst) (value : Value) :
    Table.insert (members.map memberEntry) (.str name) value =
      (members ++ [(name, value)]).map memberEntry := by
  induction members with
  | nil => rfl
  | cons member members ih =>
      simp only [List.map_cons, List.mem_cons, not_or] at fresh
      have unequal : (Value.str member.1 == .str name) = false := by
        rw [← Bool.not_eq_true, Value.beq_str_str_iff]
        exact Ne.symm fresh.1
      simp [memberEntry, Table.insert, unequal, ih fresh.2]

namespace SpellsMember

variable {text : List Char} {member : String × Value}

theorem starts (spells : SpellsMember text member) : StartsValue text := by
  rcases spells with ⟨value, rfl, _⟩
  exact (spells_quoted member.1).starts.append _

/-- A member is read up to the comma or the brace that follows it. -/
theorem reads (spells : SpellsMember text member) (entries : Table Value) {bound : Nat}
    (enough : 2 * text.length ≤ bound) {rest : List Char} (ends : EndsNumber rest) :
    readMembers none (bound + 1) entries (text ++ rest) =
      match skipBlanks rest with
      | '\x7d' :: rest => .ok (entries.insert (.str member.1) member.2, rest)
      | ',' :: rest =>
          readMembers none bound (entries.insert (.str member.1) member.2) (skipBlanks rest)
      | rest => stopAt .expectedComma rest := by
  rcases spells with ⟨value, rfl, spells⟩
  have longer := length_le_length_flatMap_escaped member.1.toList
  simp only [quoted, List.length_append, List.length_cons, List.cons_append, List.length_nil] at enough
  have name := readBody_flatMap_escaped
    ('\x22' :: (member.1.toList.flatMap escaped ++ '\x22' :: ':' :: ' ' :: (value ++ rest)))
    (':' :: ' ' :: (value ++ rest)) (show member.1.toList.length < bound by omega)
  have body := spells.reads (show 2 * value.length ≤ bound by omega) ends
  have colon : skipBlanks (':' :: ' ' :: (value ++ rest)) = ':' :: ' ' :: (value ++ rest) :=
    skipBlanks_cons rfl _
  have blank : skipBlanks (' ' :: (value ++ rest)) = value ++ rest := by
    rw [← List.singleton_append, skipBlanks_append (by simp [isBlank]),
      (spells.starts.append rest).skipBlanks_eq]
  simp only [quoted, List.cons_append, List.append_assoc, List.nil_append, readMembers, name,
    Reading.ok_bind, colon, blank, body, String.ofList_toList]
  rfl

end SpellsMember

/-- The members of an object are read up to its closing brace and stand after those read before. -/
theorem readMembers_intercalate {gap ending : List Char} (gap_blank : ∀ c ∈ gap, isBlank c = true)
    (ending_blank : ∀ c ∈ ending, isBlank c = true) (rest : List Char) {texts : List (List Char)}
    {members : List (String × Value)} (spelled : List.Forall₂ SpellsMember texts members)
    (nonempty : texts ≠ []) (earlier : List (String × Value))
    (names_nodup : ((earlier ++ members).map Prod.fst).Nodup) {bound : Nat}
    (enough : 2 * (List.intercalate (',' :: gap) texts).length < bound) :
    readMembers none bound (earlier.map memberEntry)
        (List.intercalate (',' :: gap) texts ++ (ending ++ '\x7d' :: rest)) =
      .ok ((earlier ++ members).map memberEntry, rest) := by
  induction spelled generalizing bound earlier with
  | nil => exact absurd rfl nonempty
  | @cons text member texts members spells others ih =>
      -- a name that was read before would keep its earlier place
      have fresh : member.1 ∉ earlier.map Prod.fst := by
        simp only [List.map_append, List.map_cons, List.nodup_append] at names_nodup
        intro known
        exact names_nodup.2.2 _ known _ List.mem_cons_self rfl
      rcases Nat.exists_eq_add_of_lt (show 0 < bound by omega) with ⟨smaller, rfl⟩
      rw [Nat.zero_add] at enough ⊢
      cases others with
      | nil =>
          rw [List.intercalate_singleton] at enough ⊢
          rw [spells.reads _ (by omega) (endsNumber_append ending_blank (by decide) rest),
            insert_memberEntry fresh]
          simp [skipBlanks_append ending_blank, skipBlanks_cons (show isBlank '\x7d' = false by rfl)]
      | @cons second secondMember texts members secondSpells others =>
          rw [List.intercalate_cons_cons] at enough ⊢
          simp only [List.length_append, List.length_cons] at enough
          have remaining := ih (by simp) (earlier ++ [member]) (by simpa using names_nodup)
            (show 2 * (List.intercalate (',' :: gap) (second :: texts)).length < smaller by omega)
          rw [List.append_assoc, List.append_assoc, List.cons_append,
            spells.reads _ (by omega) (endsNumber_cons (by decide) _), insert_memberEntry fresh]
          simp only [skipBlanks_cons (show isBlank ',' = false by rfl), skipBlanks_append gap_blank,
            ((secondSpells.starts.intercalate _ _).append _).skipBlanks_eq]
          simpa using remaining

theorem spells_object (layout : Layout) (level : Nat) {texts : List (List Char)}
    {members : List (String × Value)} (spelled : List.Forall₂ SpellsMember texts members)
    (names_nodup : (members.map Prod.fst).Nodup) :
    Spells (layout.enclose level '\x7b' '\x7d' texts) (object members) := by
  cases spelled with
  | nil =>
      apply Spells.of_succ rfl (by decide)
      intro bound rest _ _
      simp [readValue, skipBlanks_cons (show isBlank '\x7d' = false by rfl), object]
  | @cons text member texts members spells others =>
      rcases exists_enclose_cons layout level '\x7b' '\x7d' text texts with
        ⟨gap, before, after, gap_blank, before_blank, after_blank, enclosed⟩
      rw [enclosed]
      apply Spells.of_succ rfl (by decide)
      intro bound rest enough _
      simp only [List.length_append] at enough
      have read := readMembers_intercalate gap_blank after_blank rest (.cons spells others) (by simp) []
        names_nodup (show _ < bound by omega)
      have starts := (spells.starts.intercalate (',' :: gap) texts).append (after ++ '\x7d' :: rest)
      simp only [List.append_assoc, List.singleton_append]
      rw [readValue]
      simp only [skipBlanks_append before_blank, starts.skipBlanks_eq]
      rcases starts with ⟨first, more, items_eq, _, opens⟩
      rw [items_eq] at read ⊢
      simp only [List.mem_cons, not_or] at opens
      simp only [List.map_nil, List.nil_append] at read
      simp [read, opens, object_eq]

/-! ### Whole texts -/

theorem exists_writeItems {layout : Layout} {level : Nat} {items : List Value}
    (written : ∀ item ∈ items, ∃ text, writeAt layout level item = .ok text ∧ Spells text item) :
    ∃ texts, writeItems layout level items = .ok texts ∧ List.Forall₂ Spells texts items := by
  induction items with
  | nil => exact ⟨[], rfl, .nil⟩
  | cons item items ih =>
      rw [List.forall_mem_cons] at written
      rcases written with ⟨⟨text, text_eq, spells⟩, others⟩
      rcases ih others with ⟨texts, texts_eq, spelled⟩
      exact ⟨text :: texts, by simp [writeItems, text_eq, texts_eq], .cons spells spelled⟩

theorem exists_writeMembers {layout : Layout} {level : Nat} {members : List (String × Value)}
    (written : ∀ member ∈ members,
      ∃ text, writeAt layout level member.2 = .ok text ∧ Spells text member.2) :
    ∃ texts, writeMembers layout level (members.map memberEntry) = .ok texts ∧
      List.Forall₂ SpellsMember texts members := by
  induction members with
  | nil => exact ⟨[], rfl, .nil⟩
  | cons member members ih =>
      rw [List.forall_mem_cons] at written
      rcases written with ⟨⟨text, text_eq, spells⟩, others⟩
      rcases ih others with ⟨texts, texts_eq, spelled⟩
      refine ⟨(quoted member.1 ++ ':' :: ' ' :: text) :: texts, ?_, .cons ⟨text, rfl, spells⟩ spelled⟩
      simp [writeMembers, writeMember, memberEntry, memberName, text_eq, texts_eq]

theorem exists_writeAt {value : Value} (plain : value.IsPlain) (layout : Layout) (level : Nat) :
    ∃ text, writeAt layout level value = .ok text ∧ Spells text value := by
  induction plain generalizing level with
  | null => exact ⟨_, rfl, spells_null⟩
  | bool flag => exact ⟨_, rfl, spells_bool flag⟩
  | int number => exact ⟨_, rfl, spells_digits number⟩
  | str text => exact ⟨_, rfl, spells_quoted text⟩
  | list _ ih =>
      rcases exists_writeItems fun item item_mem => ih item item_mem (level + 1) with
        ⟨texts, texts_eq, spelled⟩
      exact ⟨_, by rw [writeAt, texts_eq]; rfl, spells_list layout level spelled⟩
  | object names_nodup _ ih =>
      rcases exists_writeMembers fun member member_mem => ih member member_mem (level + 1) with
        ⟨texts, texts_eq, spelled⟩
      exact ⟨_, by rw [object_eq, writeAt, texts_eq]; rfl, spells_object layout level spelled names_nodup⟩

theorem Spells.read_eq {text : List Char} {value : Value} (spells : Spells text value) :
    read (String.ofList text) = .ok value := by
  have document : readDocument none text = .ok value := by
    have whole := @Spells.reads _ _ spells (2 * text.length + 2) [] (by omega) (by simp [EndsNumber])
    rw [List.append_nil] at whole
    have unmarked : text.head? ≠ some '\ufeff' := by
      rcases spells.starts with ⟨first, more, rfl, _, opens⟩
      simp only [List.mem_cons, not_or] at opens
      simpa using opens.2.2.1
    rw [readDocument, if_neg unmarked, spells.starts.skipBlanks_eq, whole]
    rfl
  simp [read, document]

/-- Plain data is read back from what is written for it, in every layout. -/
theorem exists_write {value : Value} (plain : value.IsPlain) (layout : Layout) :
    ∃ text, write value layout = .ok text ∧ read text = .ok value := by
  rcases exists_writeAt plain layout 0 with ⟨text, text_eq, spells⟩
  exact ⟨String.ofList text, by rw [write, text_eq]; rfl, spells.read_eq⟩

end Json

end StateSpace
