import Mathlib.Data.List.Induction
import Spreadsheet.Proofs.Cell.Name

/-!
# Spellings of a name

A cell has many names, in capitals or not and with zeros before the row number. Their canonical
spelling, in capitals and without those zeros, is the name that the cell is shown under, so two of
them name the same cell exactly when it is the same for both.
-/

namespace Spreadsheet

namespace Row

variable {digits : List Char}

theorem ofDigitChars_append_digitChar {n : Nat} (hn : n < 10) :
    Nat.ofDigitChars 10 (digits ++ [n.digitChar]) 0 = 10 * Nat.ofDigitChars 10 digits 0 + n := by
  rw [Nat.ofDigitChars_append, Nat.ofDigitChars_cons_digitChar_of_lt_ten hn, Nat.ofDigitChars_nil]

theorem dropWhile_eq_nil_of_ofDigitChars_eq_zero (hdigits : ∀ digit ∈ digits, digit.isDigit)
    (h : Nat.ofDigitChars 10 digits 0 = 0) : digits.dropWhile (· = '0') = [] := by
  induction digits using List.reverseRecOn with
  | nil => rfl
  | append_singleton digits digit ih =>
      obtain ⟨n, hn, rfl⟩ := exists_eq_digitChar (hdigits digit (by simp))
      rw [ofDigitChars_append_digitChar hn] at h
      obtain rfl : n = 0 := by omega
      rw [List.dropWhile_append, ih (fun digit hmem => hdigits digit (by simp [hmem])) (by omega)]
      rfl

/-- A number is written as any of its spellings without the zeros in front. -/
theorem toDigits_ofDigitChars (hdigits : ∀ digit ∈ digits, digit.isDigit)
    (h : Nat.ofDigitChars 10 digits 0 ≠ 0) :
    Nat.toDigits 10 (Nat.ofDigitChars 10 digits 0) = digits.dropWhile (· = '0') := by
  induction digits using List.reverseRecOn with
  | nil => exact absurd rfl h
  | append_singleton digits digit ih =>
      obtain ⟨n, hn, rfl⟩ := exists_eq_digitChar (hdigits digit (by simp))
      have hbefore : ∀ digit ∈ digits, digit.isDigit := fun digit hmem =>
        hdigits digit (List.mem_append_left _ hmem)
      rw [ofDigitChars_append_digitChar hn] at h ⊢
      rw [List.dropWhile_append]
      by_cases hzero : Nat.ofDigitChars 10 digits 0 = 0
      · have hlast : n ≠ 0 := by omega
        rw [hzero, Nat.mul_zero, Nat.zero_add, Nat.toDigits_of_lt_base hn,
          dropWhile_eq_nil_of_ofDigitChars_eq_zero hbefore hzero]
        simp [hlast]
      · have hmore : digits.dropWhile (· = '0') ≠ [] :=
          ih hbefore hzero ▸ Nat.toDigits_ne_nil
        rw [← Nat.toDigits_append_toDigits (by decide) (Nat.pos_of_ne_zero hzero) hn,
          ih hbefore hzero, Nat.toDigits_of_lt_base hn]
        simp [hmore]

end Row

namespace Cell

def canonical (name : String) : String :=
  String.ofList ((name.toList.takeWhile Char.isAlpha).map Char.toUpper ++
    (name.toList.dropWhile Char.isAlpha).dropWhile (· = '0'))

theorem name_eq_canonical {name : String} {cell : Cell} (h : ofName? name = some cell) :
    cell.name = canonical name := by
  obtain ⟨hcol, hrow⟩ := ofName?_eq_some_iff.mp h
  obtain ⟨-, hdigits, hnumber, -⟩ := Row.ofDigits?_eq_some_iff.mp hrow
  have hpositive : Nat.ofDigitChars 10 (name.toList.dropWhile Char.isAlpha) 0 ≠ 0 := by omega
  rw [Cell.name, canonical, Column.letters_of_ofLetters?_eq_some hcol, ← hnumber,
    Row.toDigits_ofDigitChars hdigits hpositive]

theorem eq_iff_canonical_eq {left right : String} {cell other : Cell}
    (hleft : ofName? left = some cell) (hright : ofName? right = some other) :
    cell = other ↔ canonical left = canonical right := by
  rw [← name_eq_canonical hleft, ← name_eq_canonical hright]
  constructor
  · rintro rfl
    rfl
  · intro hname
    have hcell := ofName?_name (belowLastRow_of_ofName?_eq_some hleft)
    rw [hname, ofName?_name (belowLastRow_of_ofName?_eq_some hright)] at hcell
    exact (Option.some.inj hcell).symm

structure SplitsInto (name : String) (letters digits : List Char) : Prop where
  toList_eq : name.toList = letters ++ digits
  letters_ne_nil : letters ≠ []
  isAlpha : ∀ letter ∈ letters, letter.isAlpha
  digits_ne_nil : digits ≠ []
  isDigit : ∀ digit ∈ digits, digit.isDigit

theorem ofName?_eq_some_iff_splitsInto {name : String} {cell : Cell} :
    ofName? name = some cell ↔ ∃ letters digits, SplitsInto name letters digits ∧
      Column.number letters = cell.col.toNat + 1 ∧
      Nat.ofDigitChars 10 digits 0 = cell.row.toNat + 1 ∧ cell.BelowLastRow := by
  rw [ofName?_eq_some_iff, Column.ofLetters?_eq_some_iff, Row.ofDigits?_eq_some_iff]
  constructor
  · rintro ⟨⟨hletters, halpha, hcol⟩, hdigits, hdigit, hrow, hbelow⟩
    exact ⟨_, _, ⟨List.takeWhile_append_dropWhile.symm, hletters, halpha, hdigits, hdigit⟩, hcol,
      hrow, hbelow⟩
  · rintro ⟨letters, digits, hsplit, hcol, hrow, hbelow⟩
    obtain ⟨htake, hdrop⟩ := takeWhile_isAlpha_append hsplit.isAlpha hsplit.isDigit
    rw [hsplit.toList_eq, htake, hdrop]
    exact ⟨⟨hsplit.letters_ne_nil, hsplit.isAlpha, hcol⟩, hsplit.digits_ne_nil, hsplit.isDigit,
      hrow, hbelow⟩

theorem exists_ofName?_eq_some_iff {name : String} :
    (∃ cell, ofName? name = some cell) ↔ ∃ letters digits, SplitsInto name letters digits ∧
      Column.number letters ≤ 2 ^ 64 ∧
      1 ≤ Nat.ofDigitChars 10 digits 0 ∧ Nat.ofDigitChars 10 digits 0 ≤ 2 ^ 64 - 1 := by
  constructor
  · rintro ⟨cell, hcell⟩
    obtain ⟨letters, digits, hsplit, hcol, hrow, hbelow⟩ :=
      ofName?_eq_some_iff_splitsInto.mp hcell
    have hrange : cell.row.toNat + 1 < 2 ^ 64 := hbelow
    have hcolumn := cell.col.toNat_lt
    exact ⟨letters, digits, hsplit, by omega, by omega, by omega⟩
  · rintro ⟨letters, digits, hsplit, hcol, hlow, hhigh⟩
    have hpositive := Column.number_pos hsplit.letters_ne_nil
    have hcolumn : Column.number letters - 1 < UInt64.size := by
      rw [UInt64.size]
      omega
    have hline : Nat.ofDigitChars 10 digits 0 - 1 < UInt64.size := by
      rw [UInt64.size]
      omega
    refine ⟨{ row := .ofNat (Nat.ofDigitChars 10 digits 0 - 1)
              col := .ofNat (Column.number letters - 1) }, ?_⟩
    rw [ofName?_eq_some_iff_splitsInto, BelowLastRow]
    dsimp only
    rw [UInt64.toNat_ofNat_of_lt' hcolumn, UInt64.toNat_ofNat_of_lt' hline, UInt64.size]
    exact ⟨letters, digits, hsplit, by omega, by omega, by omega⟩

/-- The names are the texts of letters and digits with numbers in range. Two of them name the same
cell exactly when they agree in capitals and without zeros before the row number, and so spelled
they are what the cell is shown under. -/
theorem names_are_canonical_up_to_spelling :
    (∀ name, (∃ cell, ofName? name = some cell) ↔
      ∃ letters digits, SplitsInto name letters digits ∧ Column.number letters ≤ 2 ^ 64 ∧
        1 ≤ Nat.ofDigitChars 10 digits 0 ∧ Nat.ofDigitChars 10 digits 0 ≤ 2 ^ 64 - 1) ∧
    (∀ left right cell other, ofName? left = some cell → ofName? right = some other →
      (cell = other ↔ canonical left = canonical right)) ∧
    (∀ name cell, ofName? name = some cell → cell.name = canonical name) :=
  ⟨fun _ => exists_ofName?_eq_some_iff, fun _ _ _ _ => eq_iff_canonical_eq,
    fun _ _ => name_eq_canonical⟩

theorem two_spellings_of_a_name :
    ofName? "aA007" = some { row := 6, col := 26 } ∧
      ofName? "Aa7" = some { row := 6, col := 26 } ∧ canonical "aA007" = canonical "Aa7" ∧
      name { row := 6, col := 26 } = canonical "aA007" := by
  have hlong : ofName? "aA007" = some { row := 6, col := 26 } := by decide +kernel
  have hshort : ofName? "Aa7" = some { row := 6, col := 26 } := by decide +kernel
  obtain ⟨-, hsame, hshown⟩ := names_are_canonical_up_to_spelling
  exact ⟨hlong, hshort, (hsame _ _ _ _ hlong hshort).mp rfl, hshown _ _ hlong⟩

end Cell

end Spreadsheet
