import StateSpace.Proofs.Formula.Atoms

/-!
# Reading printed formulas

A printed formula is a flat text, and parentheses are all that tells its operands apart. If its propositions
are texts without the characters that formulas use for themselves, it can be read in one way only, so formulas
over such texts print alike exactly if they are equal (`Formula.text_unambiguous`).

`Formula.Written` is the grammar of printed formulas. The text of an operand stands inside a larger one, so the
statement to carry through the induction is about texts with something after them: both the formula and what
follows it are determined (`Formula.Written.unique`). A proposition may hold blanks, also at its end, and a
blank stands before the sign of a connective too. What tells them apart is the sign, and `Formula.Ends` says that
there is one.
-/

namespace StateSpace

namespace Formula

variable {m : Type → Type}

/-- The characters that printed formulas use for themselves. -/
def marks : List Char :=
  ['(', ')', '¬', '∧', '∨', '→', '⊤', '⊥']

/-- Characters among which there is no mark. -/
def IsWord (chars : List Char) : Prop :=
  ∀ c ∈ chars, c ∉ marks

/-- The formulas over texts without marks, without user-defined nodes. -/
def OverWords : Formula m → Prop
  | .truth => True
  | .falsity => True
  | .atomic atom => ∃ name : String, atom = .plain (.str name) ∧ IsWord name.toList
  | .not body => body.OverWords
  | .and left right => left.OverWords ∧ right.OverWords
  | .or left right => left.OverWords ∧ right.OverWords
  | .implies left right => left.OverWords ∧ right.OverWords
  | .custom _ => False

/-! ### Words and what follows them -/

/-- The connectives of two operands, which are printed alike but for their signs. -/
inductive Connective where
  | and
  | or
  | implies

namespace Connective

/-- The mark that stands between the operands. -/
def sign : Connective → Char
  | .and => '∧'
  | .or => '∨'
  | .implies => '→'

/-- The formula that a connective makes of two operands. -/
def join : Connective → Formula m → Formula m → Formula m
  | .and => .and
  | .or => .or
  | .implies => .implies

theorem sign_mem_marks (connective : Connective) : connective.sign ∈ marks := by
  cases connective <;> decide

theorem sign_ne_closing (connective : Connective) : connective.sign ≠ ')' := by
  cases connective <;> decide

theorem eq_of_sign_eq {connective other : Connective} (same : connective.sign = other.sign) :
    connective = other := by
  cases connective <;> cases other <;> simp_all [sign]

end Connective

/-- What may follow a formula: the end of the text, the end of the formula around it, or a connective. -/
inductive Ends : List Char → Prop where
  | nothing : Ends []
  | closing (rest : List Char) : Ends (')' :: rest)
  | joining (connective : Connective) (rest : List Char) : Ends (' ' :: connective.sign :: rest)

theorem Ends.append_ne {word rest : List Char} (isWord : IsWord word) (ends : Ends rest) {c : Char}
    (mark : c ∈ marks) (opening : c ≠ ')') (more : List Char) : word ++ rest ≠ c :: more := by
  intro same
  cases word with
  | nil =>
      cases ends with
      | nothing => cases same
      | closing _ => exact opening (List.cons.inj same).1.symm
      | joining _ _ =>
          rw [← (List.cons.inj same).1] at mark
          exact absurd mark (by decide)
  | cons first _ =>
      rw [← (List.cons.inj same).1] at mark
      exact isWord first List.mem_cons_self mark

/-- No part of a word stands between two places where a formula may end. -/
theorem Ends.eq_nil_of_append {gap rest : List Char} (isWord : IsWord gap) (ends : Ends (gap ++ rest))
    (ends' : Ends rest) : gap = [] := by
  cases gap with
  | nil => rfl
  | cons first gap =>
      have first_not_mark := isWord first List.mem_cons_self
      generalize whole : first :: gap ++ rest = text at ends
      cases ends with
      | nothing => cases whole
      | closing after =>
          rw [(List.cons.inj whole).1] at first_not_mark
          exact absurd first_not_mark (by decide)
      | joining connective after =>
          -- the blank may belong to the word, but the sign does not
          have gap_isWord : IsWord gap := fun c c_mem => isWord c (List.mem_cons_of_mem first c_mem)
          exact absurd (List.cons.inj whole).2
            (ends'.append_ne gap_isWord connective.sign_mem_marks connective.sign_ne_closing after)

/-- Where a text begins with a word, both the word and what follows it are determined. -/
theorem IsWord.unique {word word' rest rest' : List Char} (isWord : IsWord word) (isWord' : IsWord word')
    (ends : Ends rest) (ends' : Ends rest') (same : word ++ rest = word' ++ rest') :
    word = word' ∧ rest = rest' := by
  rcases List.append_eq_append_iff.mp same with ⟨gap, rfl, rfl⟩ | ⟨gap, rfl, rfl⟩
  · have gap_isWord : IsWord gap := fun c c_mem => isWord' c (List.mem_append_right word c_mem)
    rw [ends.eq_nil_of_append gap_isWord ends', List.append_nil, List.nil_append]
    exact ⟨rfl, rfl⟩
  · have gap_isWord : IsWord gap := fun c c_mem => isWord c (List.mem_append_right word' c_mem)
    rw [ends'.eq_nil_of_append gap_isWord ends, List.append_nil, List.nil_append]
    exact ⟨rfl, rfl⟩

/-! ### The grammar -/

/-- The grammar of printed formulas. -/
inductive Written : Formula m → List Char → Prop where
  | truth : Written .truth ['⊤']
  | falsity : Written .falsity ['⊥']
  | word {name : String} (isWord : IsWord name.toList) : Written (.atom (.str name)) name.toList
  | not {body : Formula m} {chars : List Char} (inside : Written body chars) :
      Written (.not body) ('¬' :: '(' :: (chars ++ [')']))
  | join (connective : Connective) {left right : Formula m} {leftChars rightChars : List Char}
      (ofLeft : Written left leftChars) (ofRight : Written right rightChars) :
      Written (connective.join left right)
        ('(' :: (leftChars ++ ' ' :: connective.sign :: ' ' :: (rightChars ++ [')'])))

theorem toList_text_not (body : Formula m) :
    (not body).text.toList = '¬' :: '(' :: (body.text.toList ++ [')']) := by
  simp [text]

theorem toList_text_join (connective : Connective) (left right : Formula m) :
    (connective.join left right).text.toList =
      '(' :: (left.text.toList ++ ' ' :: connective.sign :: ' ' :: (right.text.toList ++ [')'])) := by
  cases connective <;> simp [Connective.join, Connective.sign, text]

theorem OverWords.written {formula : Formula m} (overWords : formula.OverWords) :
    Written formula formula.text.toList := by
  -- formulas of two operands are read as joined by a connective
  have joined (connective : Connective) {left right : Formula m} (ofLeft : Written left left.text.toList)
      (ofRight : Written right right.text.toList) :
      Written (connective.join left right) (connective.join left right).text.toList := by
    rw [toList_text_join]
    exact .join connective ofLeft ofRight
  induction formula with
  | truth =>
      rw [text]
      exact .truth
  | falsity =>
      rw [text]
      exact .falsity
  | atomic atom =>
      rcases overWords with ⟨name, rfl, isWord⟩
      exact .word isWord
  | not body ih =>
      rw [toList_text_not]
      exact .not (ih overWords)
  | and left right ihLeft ihRight => exact joined .and (ihLeft overWords.1) (ihRight overWords.2)
  | or left right ihLeft ihRight => exact joined .or (ihLeft overWords.1) (ihRight overWords.2)
  | implies left right ihLeft ihRight => exact joined .implies (ihLeft overWords.1) (ihRight overWords.2)
  | custom node => exact overWords.elim

/-- Unique readability: where a text begins with a formula, both the formula and what follows it are
determined. -/
theorem Written.unique {formula other : Formula m} {chars chars' rest rest' : List Char}
    (written : Written formula chars) (written' : Written other chars') (ends : Ends rest) (ends' : Ends rest')
    (same : chars ++ rest = chars' ++ rest') : formula = other ∧ rest = rest' := by
  -- formulas of different kinds differ in their first characters, where a word may have none
  induction written generalizing other chars' rest rest' with
  | truth =>
      cases written' with
      | truth => exact ⟨rfl, (List.cons.inj same).2⟩
      | word isWord => exact absurd same.symm (ends'.append_ne isWord (by decide) (by decide) _)
      | _ => simp at same
  | falsity =>
      cases written' with
      | falsity => exact ⟨rfl, (List.cons.inj same).2⟩
      | word isWord => exact absurd same.symm (ends'.append_ne isWord (by decide) (by decide) _)
      | _ => simp at same
  | word isWord =>
      cases written' with
      | word isWord' =>
          rcases isWord.unique isWord' ends ends' same with ⟨sameName, sameRest⟩
          exact ⟨by rw [String.toList_inj.mp sameName], sameRest⟩
      | _ => exact absurd same (ends.append_ne isWord (by decide) (by decide) _)
  | not inside ih =>
      cases written' with
      | not inside' =>
          simp only [List.cons_append, List.append_assoc, List.cons.injEq, true_and] at same
          rcases ih inside' (.closing _) (.closing _) same with ⟨rfl, sameRest⟩
          exact ⟨rfl, (List.cons.inj sameRest).2⟩
      | word isWord => exact absurd same.symm (ends'.append_ne isWord (by decide) (by decide) _)
      | _ => simp at same
  | join connective ofLeft ofRight ihLeft ihRight =>
      cases written' with
      | join connective' ofLeft' ofRight' =>
          simp only [List.cons_append, List.append_assoc, List.cons.injEq, true_and] at same
          rcases ihLeft ofLeft' (.joining _ _) (.joining _ _) same with ⟨rfl, sameTail⟩
          simp only [List.cons.injEq, true_and] at sameTail
          rcases sameTail with ⟨sameSign, sameRight⟩
          rcases ihRight ofRight' (.closing _) (.closing _) sameRight with ⟨rfl, sameRest⟩
          rw [Connective.eq_of_sign_eq sameSign]
          exact ⟨rfl, (List.cons.inj sameRest).2⟩
      | word isWord => exact absurd same.symm (ends'.append_ne isWord (by decide) (by decide) _)
      | _ => simp at same

/-! ### Equal formulas -/

instance : ReflBEq (Formula m) where
  rfl {formula} := by
    change formula.beq formula = true
    induction formula with
    | truth => rfl
    | falsity => rfl
    | atomic atom => exact BEq.refl atom
    | not body ih => exact ih
    | and left right ihLeft ihRight => exact Bool.and_eq_true_iff.mpr ⟨ihLeft, ihRight⟩
    | or left right ihLeft ihRight => exact Bool.and_eq_true_iff.mpr ⟨ihLeft, ihRight⟩
    | implies left right ihLeft ihRight => exact Bool.and_eq_true_iff.mpr ⟨ihLeft, ihRight⟩
    | custom node => exact BEq.refl node.identity

theorem OverWords.eq_of_beq {formula other : Formula m} (overWords : formula.OverWords)
    (overWords' : other.OverWords) (equal : formula.beq other = true) : formula = other := by
  fun_induction beq formula other with
  | case1 => rfl
  | case2 => rfl
  | case3 left right =>
      rcases overWords with ⟨name, rfl, _⟩
      rcases overWords' with ⟨name', rfl, _⟩
      rw [Value.beq_str_str_iff.mp equal]
  | case4 left right ih => rw [ih overWords overWords' equal]
  | case5 left right left' right' ihLeft ihRight
  | case6 left right left' right' ihLeft ihRight
  | case7 left right left' right' ihLeft ihRight =>
      rcases Bool.and_eq_true_iff.mp equal with ⟨sameLeft, sameRight⟩
      rw [ihLeft overWords.1 overWords'.1 sameLeft, ihRight overWords.2 overWords'.2 sameRight]
  | case8 => exact overWords.elim
  | case9 => cases equal

/-- Printed formulas are unambiguous. Formulas over texts that hold none of the characters of printed formulas
print alike only if they are equal, and equal ones do print alike. -/
theorem text_unambiguous {formula other : Formula m} (overWords : formula.OverWords)
    (overWords' : other.OverWords) : formula.text = other.text ↔ (formula == other) = true := by
  constructor
  · intro same
    have sameChars : formula.text.toList ++ [] = other.text.toList ++ [] := by rw [same]
    rcases overWords.written.unique overWords'.written .nothing .nothing sameChars with ⟨rfl, _⟩
    exact BEq.rfl
  · intro equal
    rw [overWords.eq_of_beq overWords' equal]

end Formula

namespace Grouping

/-- A proposition that ends in a blank, joined to an empty one inside the parentheses. -/
def inner : Formula Result :=
  .and (.atom (.str "up ")) (.or (.atom (.str "")) (.not .truth))

/-- The same parts, grouped to the left. -/
def outer : Formula Result :=
  .or (.and (.atom (.str "up ")) (.atom (.str ""))) (.not .truth)

end Grouping

/-- Two groupings of the same parts are printed in two ways. -/
theorem Formula.text_unambiguous_grouping :
    Grouping.inner.OverWords ∧ Grouping.outer.OverWords ∧
      Grouping.inner.text = "(up  ∧ ( ∨ ¬(⊤)))" ∧ Grouping.outer.text = "((up  ∧ ) ∨ ¬(⊤))" ∧
      (Grouping.inner == Grouping.outer) = false ∧ Grouping.inner.text ≠ Grouping.outer.text := by
  have up_isWord : IsWord "up ".toList := by simp [IsWord, marks]
  have empty_isWord : IsWord "".toList := by simp [IsWord]
  have overWords : Grouping.inner.OverWords := ⟨⟨_, rfl, up_isWord⟩, ⟨_, rfl, empty_isWord⟩, trivial⟩
  have overWords' : Grouping.outer.OverWords := ⟨⟨⟨_, rfl, up_isWord⟩, ⟨_, rfl, empty_isWord⟩⟩, trivial⟩
  have unequal : (Grouping.inner == Grouping.outer) = false := rfl
  refine ⟨overWords, overWords', by decide, by decide, unequal, ?_⟩
  intro same
  have equal := (text_unambiguous overWords overWords').mp same
  rw [unequal] at equal
  cases equal

-- a symbol is printed by its family and name, so a text can spell a symbol that it does not equal
example :
    (Formula.atom (.symbol ⟨"Color", "RED", "red"⟩) : Formula Result).text =
        (Formula.atom (.str "Color.RED") : Formula Result).text ∧
      (Formula.atom (.symbol ⟨"Color", "RED", "red"⟩) : Formula Result) != .atom (.str "Color.RED") := by
  decide

end StateSpace
