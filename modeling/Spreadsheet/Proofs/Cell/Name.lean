import Spreadsheet.Cell.Name
import Spreadsheet.Proofs.Cell.Column

/-!
# Names of cells

A cell can be read back from its name unless it is in the very last row, whose number is one too
large to be read.
-/

namespace Spreadsheet

namespace Row

theorem exists_eq_digitChar {digit : Char} (h : digit.isDigit) :
    ∃ n < 10, digit = n.digitChar := by
  obtain ⟨hlow, hhigh⟩ := Char.isDigit_iff_toNat.mp h
  have hsmall : digit.toNat - '0'.toNat < 10 :=
    Nat.lt_succ_of_le (Nat.sub_le_sub_right hhigh _)
  refine ⟨_, hsmall, Char.toNat_inj.mp ?_⟩
  rw [Nat.toNat_digitChar_of_lt_ten hsmall]
  exact (Nat.add_sub_of_le hlow).symm

theorem ofDigits?_eq_some_iff {digits : List Char} {row : UInt64} :
    ofDigits? digits = some row ↔
      digits ≠ [] ∧ (∀ digit ∈ digits, digit.isDigit) ∧
        Nat.ofDigitChars 10 digits 0 = row.toNat + 1 ∧ row.toNat + 1 < UInt64.size := by
  unfold ofDigits?
  dsimp only
  rw [Option.ite_none_right_eq_some, Option.some.injEq, List.all_eq_true]
  constructor
  · rintro ⟨⟨hne, hdigits, hpositive, hsize⟩, rfl⟩
    rw [UInt64.toNat_ofNat_of_lt' (by omega), Nat.sub_add_cancel hpositive]
    exact ⟨hne, hdigits, rfl, hsize⟩
  · rintro ⟨hne, hdigits, hnumber, hsize⟩
    rw [hnumber, Nat.add_sub_cancel, UInt64.ofNat_toNat]
    exact ⟨⟨hne, hdigits, Nat.le_add_left _ _, hsize⟩, rfl⟩

/-- A row is read back from its number unless it is the last. -/
theorem ofDigits?_toDigits_eq_some_iff {row other : UInt64} :
    ofDigits? (Nat.toDigits 10 (row.toNat + 1)) = some other ↔
      other = row ∧ row.toNat + 1 < UInt64.size := by
  rw [ofDigits?_eq_some_iff, Nat.ofDigitChars_ten_toDigits, Nat.add_right_cancel_iff,
    UInt64.toNat_inj, eq_comm (a := row)]
  constructor
  · rintro ⟨-, -, rfl, hsize⟩
    exact ⟨rfl, hsize⟩
  · rintro ⟨rfl, hsize⟩
    exact ⟨Nat.toDigits_ne_nil, fun _ => Nat.isDigit_of_mem_toDigits (by decide) (by decide), rfl,
      hsize⟩

end Row

namespace Cell

def BelowLastRow (cell : Cell) : Prop :=
  cell.row.toNat + 1 < UInt64.size

instance (cell : Cell) : Decidable cell.BelowLastRow :=
  inferInstanceAs (Decidable (_ < _))

theorem isAlpha_of_isDigit {c : Char} (h : c.isDigit) : c.isAlpha = false := by
  obtain ⟨n, hn, rfl⟩ := Row.exists_eq_digitChar h
  revert n
  decide

theorem takeWhile_isAlpha_append {letters digits : List Char} (hletters : ∀ c ∈ letters, c.isAlpha)
    (hdigits : ∀ c ∈ digits, c.isDigit) :
    (letters ++ digits).takeWhile Char.isAlpha = letters ∧
      (letters ++ digits).dropWhile Char.isAlpha = digits := by
  rw [List.takeWhile_append_of_pos hletters, List.dropWhile_append_of_pos hletters]
  cases digits with
  | nil => simp
  | cons digit rest =>
      have hdigit : digit.isAlpha = false := isAlpha_of_isDigit (hdigits digit List.mem_cons_self)
      simp [hdigit]

/-- A cell is named by what names its column, followed by what names its row. -/
theorem ofName?_eq_some_iff {name : String} {cell : Cell} :
    ofName? name = some cell ↔
      Column.ofLetters? (name.toList.takeWhile Char.isAlpha) = some cell.col ∧
        Row.ofDigits? (name.toList.dropWhile Char.isAlpha) = some cell.row := by
  simp only [ofName?, Option.bind_eq_bind, Option.bind_eq_some_iff]
  constructor
  · rintro ⟨col, hcol, row, hrow, hcell⟩
    obtain rfl := Option.some.inj hcell
    exact ⟨hcol, hrow⟩
  · rintro ⟨hcol, hrow⟩
    exact ⟨cell.col, hcol, cell.row, hrow, rfl⟩

theorem ofName?_name_eq_some_iff {cell other : Cell} :
    ofName? cell.name = some other ↔ other = cell ∧ cell.BelowLastRow := by
  have hletters : ∀ c ∈ Column.letters cell.col, c.isAlpha :=
    fun _ => Column.isAlpha_of_mem_letters
  have hdigits : ∀ c ∈ Nat.toDigits 10 (cell.row.toNat + 1), c.isDigit :=
    fun _ => Nat.isDigit_of_mem_toDigits (by decide) (by decide)
  obtain ⟨htake, hdrop⟩ := takeWhile_isAlpha_append hletters hdigits
  rw [ofName?_eq_some_iff, name, String.toList_ofList, htake, hdrop, Column.ofLetters?_letters,
    Row.ofDigits?_toDigits_eq_some_iff, Option.some.injEq]
  constructor
  · rintro ⟨hcol, hrow, hbelow⟩
    cases cell
    cases other
    exact ⟨by simp_all, hbelow⟩
  · rintro ⟨rfl, hbelow⟩
    exact ⟨rfl, rfl, hbelow⟩

theorem ofName?_name {cell : Cell} (h : cell.BelowLastRow) : ofName? cell.name = some cell :=
  ofName?_name_eq_some_iff.mpr ⟨rfl, h⟩

/-- A cell is read back from its name unless it is in the very last row: its row number is one more
than the largest that is read. -/
theorem reads_back_unless_in_last_row (cell : Cell) :
    ofName? cell.name = if cell.BelowLastRow then some cell else none := by
  split
  · exact ofName?_name ‹_›
  · rw [Option.eq_none_iff_forall_ne_some]
    intro other hother
    exact absurd (ofName?_name_eq_some_iff.mp hother).2 ‹_›

theorem last_row_is_not_read_back :
    name { row := 18446744073709551615, col := 0 } = "A18446744073709551616" ∧
      ofName? (name { row := 18446744073709551615, col := 0 }) ≠
        some { row := 18446744073709551615, col := 0 } := by
  constructor
  · simp only [name, Column.letters, Column.spell]
    decide +kernel
  · rw [ne_eq, ofName?_name_eq_some_iff]
    decide +kernel

theorem isAlphanum_of_mem_name {cell : Cell} {c : Char} (h : c ∈ cell.name.toList) :
    c.isAlphanum := by
  rw [name, String.toList_ofList, List.mem_append] at h
  rw [Char.isAlphanum, Bool.or_eq_true]
  rcases h with hletter | hdigit
  · exact .inl (Column.isAlpha_of_mem_letters hletter)
  · exact .inr (Nat.isDigit_of_mem_toDigits (by decide) (by decide) hdigit)

theorem toList_name_ne_nil (cell : Cell) : cell.name.toList ≠ [] := by
  simp [name, Column.letters_ne_nil]

theorem belowLastRow_of_ofName?_eq_some {name : String} {cell : Cell}
    (h : ofName? name = some cell) : cell.BelowLastRow :=
  (Row.ofDigits?_eq_some_iff.mp (ofName?_eq_some_iff.mp h).2).2.2.2

end Cell

end Spreadsheet
