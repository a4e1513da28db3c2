import StateSpace.Value.Equivalence

/-!
# Digests of values

A digest is a number that equal values share, so values with different digests need not be compared.
A truth value has the digest of the number it counts as, and a symbol that of its text. Mappings and
sets compare without regard to order and repetition, and their digest is therefore a sum over the
distinct digests of their members.

The digest of a text is its size. Systems with many states tell them apart by numbers, and the size is
known without reading the text.
-/

namespace StateSpace

namespace Value

/-- The members of a list of numbers, each once. -/
def withoutRepeats : List Nat → List Nat
  | [] => []
  | number :: numbers =>
      if number ∈ numbers then withoutRepeats numbers else number :: withoutRepeats numbers

/-- Digests are less than this prime, so that the square of one is still a machine word. -/
def modulus : Nat := 2147483647

/-- Join two digests. The order matters, and a sum of joined digests tells more than the joined sums
because of the square. -/
def mix (seed digest : Nat) : Nat :=
  let joined := (seed * 1000003 + digest * 8191 + 97) % modulus
  (joined * joined + joined + seed) % modulus

/-- The digest of a number. -/
def numberDigest (number : Int) : Nat :=
  mix (if number < 0 then 3 else 2) (number.natAbs % modulus)

/-- The digest of a text. -/
def textDigest (text : String) : Nat :=
  mix 5 (text.utf8ByteSize % modulus)

/-- The digest of an unordered collection. -/
def collectionDigest (seed : Nat) (digests : List Nat) : Nat :=
  mix seed ((withoutRepeats digests).foldr (· + ·) 0 % modulus)

mutual

/-- The digest of a value. -/
@[simp]
def digest : Value → Nat
  | .null => 1
  | .bool flag => numberDigest (if flag then 1 else 0)
  | .int number => numberDigest number
  | .str text => textDigest text
  | .symbol constant => textDigest constant.text
  | .tuple items => itemsDigest 7 items
  | .list items => itemsDigest 11 items
  | .dict entries => collectionDigest 13 (entryDigests entries)
  | .state entries => collectionDigest 17 (entryDigests entries)
  | .atLocation location => mix 19 (digest location)
  | .set members => collectionDigest 23 (memberDigests members)
  | .programLabel location assignment => mix (mix 29 (digest location)) (digest assignment)
  | .cell number => mix 31 (number % modulus)
termination_by structural value => value

/-- The digest of a sequence, from that of what stands before it. -/
@[simp]
def itemsDigest (seed : Nat) : List Value → Nat
  | [] => seed
  | item :: items => mix (itemsDigest seed items) (digest item)
termination_by structural items => items

/-- The digests of the members of a list. -/
@[simp]
def memberDigests : List Value → List Nat
  | [] => []
  | member :: members => digest member :: memberDigests members
termination_by structural members => members

/-- The digest of an entry. -/
@[simp]
def entryDigest : Value × Value → Nat
  | (key, value) => mix (digest key) (digest value)
termination_by structural entry => entry

/-- The digests of the entries of a list. -/
@[simp]
def entryDigests : List (Value × Value) → List Nat
  | [] => []
  | entry :: entries => entryDigest entry :: entryDigests entries
termination_by structural entries => entries

end

/-! ### Equal values have equal digests -/

theorem mem_withoutRepeats (number : Nat) (numbers : List Nat) :
    number ∈ withoutRepeats numbers ↔ number ∈ numbers := by
  induction numbers with
  | nil => simp [withoutRepeats]
  | cons other numbers ih =>
      by_cases repeated : other ∈ numbers
      · simp only [withoutRepeats, repeated, if_true, ih, List.mem_cons]
        constructor
        · exact Or.inr
        · rintro (rfl | member)
          · exact repeated
          · exact member
      · simp [withoutRepeats, repeated, ih]

theorem nodup_withoutRepeats (numbers : List Nat) : (withoutRepeats numbers).Nodup := by
  induction numbers with
  | nil => simp [withoutRepeats]
  | cons number numbers ih =>
      by_cases repeated : number ∈ numbers
      · simpa [withoutRepeats, repeated] using ih
      · simpa [withoutRepeats, repeated, mem_withoutRepeats] using ih

/-- The digest of a collection depends only on which digests occur in it. -/
theorem collectionDigest_congr (seed : Nat) {digests others : List Nat}
    (same : ∀ number, number ∈ digests ↔ number ∈ others) :
    collectionDigest seed digests = collectionDigest seed others := by
  have perm : (withoutRepeats digests).Perm (withoutRepeats others) := by
    rw [List.perm_iff_count]
    intro number
    rw [(nodup_withoutRepeats digests).count, (nodup_withoutRepeats others).count]
    simp only [mem_withoutRepeats, same]
  rw [collectionDigest, collectionDigest, ← List.sum_eq_foldr, ← List.sum_eq_foldr, perm.sum_nat]

theorem mem_memberDigests_iff (members : List Value) (number : Nat) :
    number ∈ memberDigests members ↔ ∃ member ∈ members, number = member.digest := by
  induction members with
  | nil => simp
  | cons member members ih => simp [ih]

theorem mem_entryDigests_iff (entries : List (Value × Value)) (number : Nat) :
    number ∈ entryDigests entries ↔
      ∃ entry ∈ entries, number = mix entry.1.digest entry.2.digest := by
  induction entries with
  | nil => simp
  | cons entry entries ih =>
      cases entry
      simp [ih]

/-- The digests of two lists of entries that include each other are the same. -/
theorem SameEntries.mem_entryDigests_iff {entries others : List (Value × Value)}
    (digests : ∀ entry ∈ entries,
      (∀ other, beq entry.1 other = true → entry.1.digest = other.digest) ∧
        ∀ other, beq entry.2 other = true → entry.2.digest = other.digest)
    (same : SameEntries entries others) (number : Nat) :
    number ∈ entryDigests entries ↔ number ∈ entryDigests others := by
  rw [Value.mem_entryDigests_iff, Value.mem_entryDigests_iff]
  have agree : ∀ entry ∈ entries, ∀ other, beqEntry entry other = true →
      mix entry.1.digest entry.2.digest = mix other.1.digest other.2.digest := by
    intro entry entry_mem other equal
    have parts := (beqEntry_iff entry other).mp equal
    rw [(digests entry entry_mem).1 _ parts.1, (digests entry entry_mem).2 _ parts.2]
  constructor
  · rintro ⟨entry, entry_mem, rfl⟩
    rcases same.1 entry entry_mem with ⟨other, other_mem, equal⟩
    exact ⟨other, other_mem, agree entry entry_mem other equal⟩
  · rintro ⟨other, other_mem, rfl⟩
    rcases same.2 other other_mem with ⟨entry, entry_mem, equal⟩
    exact ⟨entry, entry_mem, (agree entry entry_mem other equal).symm⟩

theorem itemsDigest_congr (seed : Nat) {items others : List Value}
    (digests : ∀ item ∈ items, ∀ other, beq item other = true → item.digest = other.digest)
    (same : beqItems items others = true) : itemsDigest seed items = itemsDigest seed others := by
  induction items generalizing others with
  | nil => simp_all
  | cons item items ih =>
      cases others with
      | nil => simp at same
      | cons other others =>
          simp only [beqItems, Bool.and_eq_true] at same
          rw [itemsDigest, itemsDigest, digests item (by simp) other same.1,
            ih (fun item item_mem => digests item (List.mem_cons_of_mem _ item_mem)) same.2]

/-- Equal values have equal digests. -/
theorem digest_eq_of_beq {value other : Value} (equal : beq value other = true) :
    value.digest = other.digest := by
  induction value using Value.induction generalizing other with
  | null => cases other <;> simp_all
  | bool flag =>
      rw [beq_bool_iff] at equal
      cases other <;> simp_all [asInt?]
  | int number =>
      rw [beq_int_iff] at equal
      cases other <;> simp_all [asInt?]
  | str text =>
      rw [beq_str_iff] at equal
      cases other <;> simp_all [asText?]
  | symbol constant =>
      rw [beq_symbol_iff] at equal
      cases other <;> simp_all [asText?]
  | tuple items ih =>
      rcases (beq_tuple_iff items other).mp equal with ⟨items', rfl, same⟩
      exact itemsDigest_congr 7 (fun item item_mem _ => ih item item_mem) same
  | list items ih =>
      rcases (beq_list_iff items other).mp equal with ⟨items', rfl, same⟩
      exact itemsDigest_congr 11 (fun item item_mem _ => ih item item_mem) same
  | dict entries ih =>
      rcases (beq_dict_iff entries other).mp equal with ⟨entries', rfl, same⟩
      exact collectionDigest_congr 13 (same.mem_entryDigests_iff fun entry entry_mem =>
        ⟨fun _ => (ih entry entry_mem).1, fun _ => (ih entry entry_mem).2⟩)
  | state entries ih =>
      rcases (beq_state_iff entries other).mp equal with ⟨entries', rfl, same⟩
      exact collectionDigest_congr 17 (same.mem_entryDigests_iff fun entry entry_mem =>
        ⟨fun _ => (ih entry entry_mem).1, fun _ => (ih entry entry_mem).2⟩)
  | atLocation location ih =>
      rcases (beq_atLocation_iff location other).mp equal with ⟨location', rfl, same⟩
      simp only [digest, ih same]
  | set members ih =>
      rcases (beq_set_iff members other).mp equal with ⟨members', rfl, within, covered⟩
      refine collectionDigest_congr 23 fun number => ?_
      rw [mem_memberDigests_iff, mem_memberDigests_iff]
      constructor
      · rintro ⟨member, member_mem, rfl⟩
        rcases within member member_mem with ⟨member', member_mem', same⟩
        exact ⟨member', member_mem', ih member member_mem same⟩
      · rintro ⟨member', member_mem', rfl⟩
        rcases covered member' member_mem' with ⟨member, member_mem, same⟩
        exact ⟨member, member_mem, (ih member member_mem same).symm⟩
  | programLabel location assignment ihLocation ihAssignment =>
      rcases (beq_programLabel_iff location assignment other).mp equal with
        ⟨location', assignment', rfl, sameLocation, sameAssignment⟩
      simp only [digest, ihLocation sameLocation, ihAssignment sameAssignment]
  | cell number => cases other <;> simp_all

end Value

end StateSpace
