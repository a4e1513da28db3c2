import StateSpace.Json.Reader
import StateSpace.Json.Writer

/-!
# Strings and numbers in JSON

What is written for a string or an integer is read back as it was, whatever follows it. A character is
written as itself, as a short escape, as one escaped code unit or as a pair of them, and reading it takes
exactly what was written for it, because the string is not closed before its quote. Digits do not say where
a number ends, so what follows a number must not start with one.
-/

namespace StateSpace

namespace Text

theorem hexDigit?_digitChar {digit : Nat} (small : digit < 16) :
    hexDigit? (Nat.digitChar digit) = some digit := by
  revert digit
  decide

end Text

namespace Json

namespace Reading

variable {α β : Type}

@[simp]
theorem ok_bind (value : α) (next : α → Reading β) : (Except.ok value >>= next) = next value :=
  rfl

@[simp]
theorem pure_eq_ok (value : α) : (pure value : Reading α) = .ok value :=
  rfl

end Reading

/-! ### Escapes -/

theorem codeUnit?_hex {unit : Nat} (small : unit < 0x10000) (rest : List Char) :
    codeUnit? (Text.hex 4 unit ++ rest) = some (unit, rest) := by
  have digit : ∀ number, Text.hexDigit? (Nat.digitChar (number % 16)) = some (number % 16) :=
    fun number => Text.hexDigit?_digitChar (Nat.mod_lt number (by decide))
  simp only [Text.hex, List.nil_append, List.cons_append, codeUnit?, digit, Option.bind_eq_bind,
    Option.bind_some, Option.pure_def, Option.some.injEq, Prod.mk.injEq, and_true]
  omega

theorem readUnit_hex {unit : Nat} (small : unit < 0x10000) {rest : List Char} (unclosed : rest ≠ []) :
    readUnit ('u' :: (Text.hex 4 unit ++ rest)) = .ok (unit, rest) := by
  simp [readUnit, codeUnit?_hex small, unclosed]

/-- The code point of a character is not that of a surrogate. -/
theorem not_surrogate (c : Char) : c.toNat < 0xd800 ∨ 0xe000 ≤ c.toNat ∧ c.toNat < 0x110000 := by
  have valid := c.valid
  simp only [UInt32.isValidChar, Nat.isValidChar, Char.toNat_val] at valid
  omega

theorem readUnicode_unit {c : Char} (small : c.toNat < 0x10000) {rest : List Char}
    (unclosed : rest ≠ []) : readUnicode ('u' :: (Text.hex 4 c.toNat ++ rest)) = .ok (c, rest) := by
  have surrogate := not_surrogate c
  have low : isHighSurrogate c.toNat = false := by
    simp only [isHighSurrogate, Bool.and_eq_false_iff, decide_eq_false_iff_not]
    omega
  have char_eq : unitChar c.toNat = c := by
    simp only [unitChar, Bool.and_eq_true, decide_eq_true_eq]
    rw [if_neg (by omega), Char.ofNat_toNat]
  simp only [readUnicode, readUnit_hex small unclosed, Reading.ok_bind, low, char_eq]
  split <;> simp

theorem readUnicode_pair {high low : Nat} (isHigh : isHighSurrogate high = true)
    (isLow : isLowSurrogate low = true) {rest : List Char} (unclosed : rest ≠ []) :
    readUnicode ('u' :: (Text.hex 4 high ++ (unitEscape low ++ rest))) =
      .ok (Char.ofNat (0x10000 + (high - 0xd800) * 0x400 + (low - 0xdc00)), rest) := by
  have high_lt : high < 0x10000 := by
    simp only [isHighSurrogate, Bool.and_eq_true, decide_eq_true_eq] at isHigh
    omega
  have low_lt : low < 0x10000 := by
    simp only [isLowSurrogate, Bool.and_eq_true, decide_eq_true_eq] at isLow
    omega
  have dropped : (Text.hex 4 low ++ rest).drop 4 = rest := by
    rw [List.drop_append_of_le_length] <;> simp
  have escape_eq : unitEscape low ++ rest = '\\' :: 'u' :: (Text.hex 4 low ++ rest) := rfl
  rw [readUnicode, readUnit_hex high_lt (by simp [escape_eq]), Reading.ok_bind, escape_eq]
  simp [isHigh, dropped, unclosed, codeUnit?_hex low_lt, isLow]

theorem readUnicode_beyond {c : Char} (beyond : 0x10000 ≤ c.toNat) {rest : List Char}
    (unclosed : rest ≠ []) :
    readUnicode ('u' :: (Text.hex 4 (0xd800 + (c.toNat - 0x10000) / 0x400) ++
      (unitEscape (0xdc00 + (c.toNat - 0x10000) % 0x400) ++ rest))) = .ok (c, rest) := by
  have bounded := not_surrogate c
  rw [readUnicode_pair ?_ ?_ unclosed]
  · have joined : 0x10000 + (0xd800 + (c.toNat - 0x10000) / 0x400 - 0xd800) * 0x400 +
        (0xdc00 + (c.toNat - 0x10000) % 0x400 - 0xdc00) = c.toNat := by
      omega
    rw [joined, Char.ofNat_toNat]
  · simp only [isHighSurrogate, Bool.and_eq_true, decide_eq_true_eq]
    omega
  · simp only [isLowSurrogate, Bool.and_eq_true, decide_eq_true_eq]
    omega

theorem readBody_backslash (opening : List Char) (bound : Nat) {text rest : List Char} {c : Char}
    (read : readEscape opening text = .ok (c, rest)) :
    readBody opening (bound + 1) ('\\' :: text) = (do
      let (body, rest) ← readBody opening bound rest
      pure (c :: body, rest)) := by
  simp [readBody, read]

/-- Reading takes exactly what was written for a character. -/
theorem readBody_escaped (opening : List Char) (c : Char) (bound : Nat) {rest : List Char}
    (unclosed : rest ≠ []) :
    readBody opening (bound + 1) (escaped c ++ rest) = (do
      let (body, rest) ← readBody opening bound rest
      pure (c :: body, rest)) := by
  unfold escaped
  split
  next special =>
    rcases special with rfl | rfl <;> exact readBody_backslash opening bound rfl
  next ordinary =>
    rw [not_or] at ordinary
    split
    next newline =>
      rw [newline]
      exact readBody_backslash opening bound rfl
    split
    next carriageReturn =>
      rw [carriageReturn]
      exact readBody_backslash opening bound rfl
    split
    next tab =>
      rw [tab]
      exact readBody_backslash opening bound rfl
    split
    next backspace =>
      rw [backspace]
      exact readBody_backslash opening bound rfl
    split
    next formFeed =>
      rw [formFeed]
      exact readBody_backslash opening bound rfl
    split
    next printable =>
      simp [readBody, ordinary, Char.not_lt.mpr printable.1]
    -- what is neither a short escape nor printable is written by its code units
    split
    next small => exact readBody_backslash opening bound (readUnicode_unit small unclosed)
    next large =>
      rw [List.append_assoc]
      exact readBody_backslash opening bound (readUnicode_beyond (Nat.le_of_not_lt large) unclosed)

theorem readBody_flatMap_escaped (opening rest : List Char) {chars : List Char} {bound : Nat}
    (enough : chars.length < bound) :
    readBody opening bound (chars.flatMap escaped ++ '\x22' :: rest) = .ok (chars, rest) := by
  induction chars generalizing bound with
  | nil =>
      cases bound with
      | zero => simp at enough
      | succ bound => rfl
  | cons c chars ih =>
      cases bound with
      | zero => simp at enough
      | succ bound =>
          rw [List.flatMap_cons, List.append_assoc, readBody_escaped opening c bound (by simp),
            ih (by simpa using enough)]
          rfl

theorem escaped_ne_nil (c : Char) : escaped c ≠ [] := by
  unfold escaped
  repeat' split
  all_goals simp [unitEscape]

theorem length_le_length_flatMap_escaped (chars : List Char) :
    chars.length ≤ (chars.flatMap escaped).length := by
  induction chars with
  | nil => simp
  | cons c chars ih =>
      have positive := List.length_pos_iff.mpr (escaped_ne_nil c)
      simp only [List.flatMap_cons, List.length_append, List.length_cons]
      omega

/-! ### Numbers -/

theorem exists_cons_toDigits {number : Nat} (positive : 0 < number) :
    ∃ first rest, Nat.toDigits 10 number = first :: rest ∧ first ≠ '0' := by
  have nonzero_digit : ∀ digit < 10, 0 < digit → Nat.digitChar digit ≠ '0' := by decide
  induction number using Nat.strongRecOn with
  | ind number ih =>
      rw [Nat.toDigits_eq_if (by decide)]
      split
      next small => exact ⟨_, [], rfl, nonzero_digit number small positive⟩
      next large =>
        rcases ih (number / 10) (by omega) (by omega) with ⟨first, rest, digits_eq, nonzero⟩
        rw [digits_eq]
        exact ⟨first, rest ++ [(number % 10).digitChar], rfl, nonzero⟩

/-- What may follow a number. -/
def EndsNumber (rest : List Char) : Prop :=
  ∀ next ∈ rest.head?, next.isDigit = false

theorem EndsNumber.takeWhile_append {rest : List Char} (ends : EndsNumber rest) {digits : List Char}
    (areDigits : ∀ digit ∈ digits, digit.isDigit = true) :
    (digits ++ rest).takeWhile Char.isDigit = digits ∧ (digits ++ rest).dropWhile Char.isDigit = rest := by
  rw [List.takeWhile_append_of_pos areDigits, List.dropWhile_append_of_pos areDigits]
  cases rest with
  | nil => simp
  | cons next rest => simp [ends next (by simp)]

theorem isDigit_of_mem_toDigits {number : Nat} : ∀ digit ∈ Nat.toDigits 10 number, digit.isDigit = true :=
  fun _ digit_mem => Nat.isDigit_of_mem_toDigits (by decide) (by decide) digit_mem

theorem readNumber_digits (number : Int) {rest : List Char} (ends : EndsNumber rest) :
    readNumber none (digits number ++ rest) = .ok (.int number, rest) := by
  by_cases zero : number = 0
  · subst zero
    rfl
  have areDigits := @isDigit_of_mem_toDigits number.natAbs
  have value_eq := @Nat.ofDigitChars_toDigits 10 number.natAbs (by decide) (by decide)
  rcases exists_cons_toDigits (Int.natAbs_pos.mpr zero) with ⟨first, others, digits_eq, nonzero⟩
  rw [digits_eq] at areDigits value_eq
  rw [List.forall_mem_cons] at areDigits
  have others_eq := ends.takeWhile_append areDigits.2
  by_cases negative : number < 0
  · have number_eq : -(Nat.ofDigitChars 10 (first :: others) 0 : Int) = number := by
      rw [value_eq]
      omega
    simp [digits, negative, digits_eq, readNumber, areDigits.1, decimal, others_eq, number_eq]
  · have unsigned : first ≠ '-' := by
      rintro rfl
      exact absurd areDigits.1 (by decide)
    have number_eq : (Nat.ofDigitChars 10 (first :: others) 0 : Int) = number := by
      rw [value_eq]
      omega
    simp [digits, negative, digits_eq, readNumber, areDigits.1, decimal, unsigned, others_eq, number_eq]

end Json

end StateSpace
