import Mathlib.Data.List.Induction
import Mathlib.Data.Nat.Digits.Defs
import Spreadsheet.Cell.Column

/-!
# Columns and their letters

Letters are the digits of a notation without zero, from 1 to 26. What is read in 128 bits is the
number that they spell or nothing at all, so letters and columns name each other.
-/

namespace Spreadsheet.Column

/-- The number that column letters spell: they are digits from 1 to 26, the last the lowest. -/
def number (letters : List Char) : Nat :=
  Nat.ofDigits 26 (letters.reverse.map letterNumber)

theorem number_append (letters : List Char) (letter : Char) :
    number (letters ++ [letter]) = 26 * number letters + letterNumber letter := by
  rw [number, List.reverse_append, List.reverse_singleton, List.singleton_append, List.map_cons,
    Nat.ofDigits_cons, Nat.add_comm, ← number]

/-! ### Single letters -/

theorem letterNumber_capital {digit : Nat} (h : digit < 26) :
    letterNumber (Char.ofNat ('A'.toNat + digit)) = digit + 1 := by
  revert digit
  decide

theorem isUpper_capital {digit : Nat} (h : digit < 26) :
    (Char.ofNat ('A'.toNat + digit)).isUpper := by
  revert digit
  decide

theorem toNat_lt_of_isAlpha {letter : Char} (h : letter.isAlpha) : letter.toNat < 128 := by
  have hcase : (letter.isUpper || letter.isLower) = true := h
  rw [Bool.or_eq_true] at hcase
  rcases hcase with hupper | hlower
  · have hrange : letter.val ≥ 'A'.val ∧ letter.val ≤ 'Z'.val := of_decide_eq_true hupper
    exact Nat.lt_of_le_of_lt (UInt32.le_iff_toNat_le.mp hrange.2) (by decide)
  · have hrange : (decide (letter.val ≥ 'a'.val) && decide (letter.val ≤ 'z'.val)) = true := hlower
    rw [Bool.and_eq_true, decide_eq_true_eq, decide_eq_true_eq] at hrange
    exact Nat.lt_of_le_of_lt (UInt32.le_iff_toNat_le.mp hrange.2) (by decide)

/-- A letter is one of 26 in capitals, and its number is its place among them. -/
theorem exists_capital {letter : Char} (h : letter.isAlpha) :
    ∃ digit < 26, letter.toUpper = Char.ofNat ('A'.toNat + digit) ∧
      letterNumber letter = digit + 1 := by
  have hletters : ∀ code < 128, (Char.ofNat code).isAlpha →
      ∃ digit < 26, (Char.ofNat code).toUpper = Char.ofNat ('A'.toNat + digit) ∧
        letterNumber (Char.ofNat code) = digit + 1 := by
    decide
  have hletter := hletters letter.toNat (toNat_lt_of_isAlpha h)
  rw [Char.ofNat_toNat] at hletter
  exact hletter h

/-! ### Spelling a number -/

theorem number_spell (n : Nat) : number (spell n) = n := by
  induction n using spell.induct with
  | case1 => rw [spell]; rfl
  | case2 n ih =>
      rw [spell, number_append, ih, letterNumber_capital (Nat.mod_lt n (by decide))]
      omega

theorem isUpper_of_mem_spell {n : Nat} {letter : Char} (h : letter ∈ spell n) :
    letter.isUpper := by
  induction n using spell.induct with
  | case1 => simp [spell] at h
  | case2 n ih =>
      rw [spell, List.mem_append, List.mem_singleton] at h
      rcases h with hbefore | rfl
      · exact ih hbefore
      · exact isUpper_capital (Nat.mod_lt n (by decide))

/-- A number has one spelling in capitals. -/
theorem spell_number {letters : List Char} (h : ∀ letter ∈ letters, letter.isAlpha) :
    spell (number letters) = letters.map Char.toUpper := by
  -- on the last letter: it is the remainder of what it leaves of the number
  induction letters using List.reverseRecOn with
  | nil => rw [show number [] = 0 from rfl, spell]; rfl
  | append_singleton letters letter ih =>
      obtain ⟨digit, hdigit, hcapital, hletter⟩ := exists_capital (h letter (by simp))
      have hbefore := ih fun letter hmem => h letter (List.mem_append_left _ hmem)
      rw [number_append, hletter, ← Nat.add_assoc, spell, List.map_append, ← hbefore,
        List.map_singleton, hcapital]
      have hquotient : (26 * number letters + digit) / 26 = number letters := by omega
      have hremainder : (26 * number letters + digit) % 26 = digit := by omega
      rw [hquotient, hremainder]

theorem isUpper_of_mem_letters {column : UInt64} {letter : Char} (h : letter ∈ letters column) :
    letter.isUpper :=
  isUpper_of_mem_spell h

theorem isAlpha_of_mem_letters {column : UInt64} {letter : Char} (h : letter ∈ letters column) :
    letter.isAlpha := by
  change (letter.isUpper || letter.isLower) = true
  rw [isUpper_of_mem_letters h, Bool.true_or]

theorem letters_ne_nil (column : UInt64) : letters column ≠ [] := by
  simp [letters, spell]

theorem number_letters (column : UInt64) : number (letters column) = column.toNat + 1 :=
  number_spell _

/-! ### Reading letters -/

section Reading

variable {left right product sum total : BitVec 128} {text : List Char} {letter : Char}

theorem times?_eq_some_iff :
    times? left right = some product ↔ product.toNat = left.toNat * right.toNat := by
  unfold times?
  by_cases hover : left.umulOverflow right
  · rw [if_pos hover]
    rw [BitVec.umulOverflow, decide_eq_true_eq] at hover
    have := product.isLt
    simp only [reduceCtorEq, false_iff]
    omega
  · rw [if_neg hover, Option.some.injEq, ← BitVec.toNat_inj,
      BitVec.toNat_mul_of_not_umulOverflow hover, eq_comm]

theorem plus?_eq_some_iff :
    plus? left right = some sum ↔ sum.toNat = left.toNat + right.toNat := by
  unfold plus?
  by_cases hover : left.uaddOverflow right
  · rw [if_pos hover]
    rw [BitVec.uaddOverflow, decide_eq_true_eq] at hover
    have := sum.isLt
    simp only [reduceCtorEq, false_iff]
    omega
  · rw [if_neg hover, Option.some.injEq, ← BitVec.toNat_inj,
      BitVec.toNat_add_of_not_uaddOverflow hover, eq_comm]

/-- One more letter is read exactly or not at all. -/
theorem extend?_eq_some_iff {before : BitVec 128} :
    extend? before letter = some total ↔
      letter.isAlpha ∧ total.toNat = 26 * before.toNat + letterNumber letter := by
  unfold extend?
  by_cases hletter : letter.isAlpha
  · obtain ⟨digit, hdigit, -, hnumber⟩ := exists_capital hletter
    have hsmall : (BitVec.ofNat 128 (letterNumber letter)).toNat = letterNumber letter := by
      rw [BitVec.toNat_ofNat, Nat.mod_eq_of_lt (by omega)]
    simp only [hletter, if_true, true_and, Option.bind_eq_bind, Option.bind_eq_some_iff,
      times?_eq_some_iff, plus?_eq_some_iff, hsmall]
    constructor
    · rintro ⟨shifted, hshifted, htotal⟩
      rw [htotal, hshifted, Nat.mul_comm]
      rfl
    · intro htotal
      have hfits : before.toNat * 26 < 2 ^ 128 := by
        have := total.isLt
        omega
      refine ⟨BitVec.ofNatLT _ hfits, rfl, ?_⟩
      rw [htotal, BitVec.toNat_ofNatLT, Nat.mul_comm]
  · simp [hletter]

/-- Letters are read as the number that they spell, in 128 bits, or not at all. -/
theorem number?_eq_some_iff :
    number? text = some total ↔
      (∀ letter ∈ text, letter.isAlpha) ∧ total.toNat = number text := by
  induction text using List.reverseRecOn generalizing total with
  | nil =>
      rw [number?, List.foldlM_nil, Option.pure_def, Option.some.injEq, eq_comm, ← BitVec.toNat_inj]
      simp [number]
  | append_singleton text letter ih =>
      have hread : number? (text ++ [letter]) = (number? text).bind (extend? · letter) := by
        rw [number?, List.foldlM_append]
        simp [number?]
      rw [hread, Option.bind_eq_some_iff, number_append]
      simp only [ih, extend?_eq_some_iff, List.mem_append, List.mem_singleton, or_imp, forall_and,
        forall_eq]
      constructor
      · rintro ⟨before, ⟨hletters, hbefore⟩, hletter, htotal⟩
        exact ⟨⟨hletters, hletter⟩, by rw [htotal, hbefore]⟩
      · rintro ⟨⟨hletters, hletter⟩, htotal⟩
        have hfits : number text < 2 ^ 128 := by
          have := total.isLt
          omega
        exact ⟨BitVec.ofNatLT _ hfits, ⟨hletters, rfl⟩, hletter, htotal⟩

theorem number_pos (hne : text ≠ []) : 0 < number text := by
  rw [← List.dropLast_concat_getLast hne, number_append, letterNumber]
  omega

theorem toNat_sub_one (h : 0 < total.toNat) : (total - 1).toNat = total.toNat - 1 := by
  have hle : 1 ≤ total := by
    rw [BitVec.le_def]
    exact h
  exact BitVec.toNat_sub_of_le hle

/-- Letters name a column if the number that they spell, less one, fits in a word. -/
theorem ofLetters?_eq_some_iff {column : UInt64} :
    ofLetters? text = some column ↔
      text ≠ [] ∧ (∀ letter ∈ text, letter.isAlpha) ∧ number text = column.toNat + 1 := by
  unfold ofLetters?
  by_cases hnil : text = []
  · simp [hnil]
  · simp only [if_neg hnil, Option.bind_eq_bind, Option.bind_eq_some_iff, number?_eq_some_iff,
      Option.ite_none_right_eq_some, Option.some.injEq]
    constructor
    · rintro ⟨total, ⟨hletters, htotal⟩, hsize, rfl⟩
      have hpos := number_pos hnil
      refine ⟨hnil, hletters, ?_⟩
      rw [UInt64.toNat_ofNat_of_lt' hsize, toNat_sub_one (by omega), htotal]
      omega
    · rintro ⟨-, hletters, hnumber⟩
      have hcolumn : column.toNat < 2 ^ 64 := column.toNat_lt
      have hfits : number text < 2 ^ 128 := by omega
      refine ⟨BitVec.ofNatLT _ hfits, ⟨hletters, rfl⟩, ?_⟩
      have hless : (BitVec.ofNatLT _ hfits - 1).toNat = column.toNat := by
        rw [toNat_sub_one, BitVec.toNat_ofNatLT, hnumber, Nat.add_sub_cancel]
        exact number_pos hnil
      rw [hless]
      exact ⟨column.toNat_lt_size, UInt64.ofNat_toNat⟩

theorem ofLetters?_letters (column : UInt64) : ofLetters? (letters column) = some column :=
  ofLetters?_eq_some_iff.mpr
    ⟨letters_ne_nil column, fun _ => isAlpha_of_mem_letters, number_letters column⟩

theorem letters_of_ofLetters?_eq_some {column : UInt64} (h : ofLetters? text = some column) :
    letters column = text.map Char.toUpper := by
  obtain ⟨-, hletters, hnumber⟩ := ofLetters?_eq_some_iff.mp h
  rw [letters, ← hnumber, spell_number hletters]

theorem ofLetters?_eq_none_iff :
    ofLetters? text = none ↔
      ¬ (text ≠ [] ∧ (∀ letter ∈ text, letter.isAlpha) ∧ number text ≤ 2 ^ 64) := by
  constructor
  · rintro hnone ⟨hne, hletters, hsize⟩
    have hpos := number_pos hne
    have hcolumn : ofLetters? text = some (UInt64.ofNat (number text - 1)) := by
      rw [ofLetters?_eq_some_iff, UInt64.toNat_ofNat_of_lt' (by rw [UInt64.size]; omega)]
      exact ⟨hne, hletters, by omega⟩
    rw [hnone] at hcolumn
    cases hcolumn
  · intro hnot
    rw [Option.eq_none_iff_forall_ne_some]
    intro column hcolumn
    obtain ⟨hne, hletters, hnumber⟩ := ofLetters?_eq_some_iff.mp hcolumn
    have := column.toNat_lt
    exact hnot ⟨hne, hletters, by omega⟩

end Reading

/-- Every column has its letters and is read back from them; any other letters that are read as a
column are its own up to case. Letters are refused only when there are none, when one is no letter,
or when their number is above `2 ^ 64`: no sum on the way leaves 128 bits unnoticed. -/
theorem letters_and_columns :
    (∀ column, letters column ≠ [] ∧ (∀ letter ∈ letters column, letter.isUpper) ∧
      ofLetters? (letters column) = some column) ∧
    (∀ text column, ofLetters? text = some column ↔
      text ≠ [] ∧ (∀ letter ∈ text, letter.isAlpha) ∧
        number text = column.toNat + 1 ∧ number text ≤ 2 ^ 64) ∧
    (∀ text column, ofLetters? text = some column → letters column = text.map Char.toUpper) ∧
    (∀ text, ofLetters? text = none ↔
      ¬ (text ≠ [] ∧ (∀ letter ∈ text, letter.isAlpha) ∧ number text ≤ 2 ^ 64)) ∧
    (∀ text total, number? text = some total ↔
      (∀ letter ∈ text, letter.isAlpha) ∧ total.toNat = number text) := by
  refine ⟨?_, ?_, fun _ _ => letters_of_ofLetters?_eq_some, fun _ => ofLetters?_eq_none_iff,
    fun _ _ => number?_eq_some_iff⟩
  · intro column
    exact ⟨letters_ne_nil column, fun _ => isUpper_of_mem_letters, ofLetters?_letters column⟩
  · intro text column
    have hfits : number text = column.toNat + 1 → number text ≤ 2 ^ 64 := fun hnumber =>
      hnumber ▸ column.toNat_lt
    rw [ofLetters?_eq_some_iff, and_iff_left_of_imp hfits]

example : ofLetters? (List.replicate 40 'Z') = none := by decide +kernel

end Spreadsheet.Column
