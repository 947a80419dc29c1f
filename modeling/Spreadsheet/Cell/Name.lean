import Spreadsheet.Cell
import Spreadsheet.Cell.Column

namespace Spreadsheet

/-- The row that decimal digits name, counted from zero; rows are written from 1. -/
def Row.ofDigits? (digits : List Char) : Option UInt64 :=
  let number := Nat.ofDigitChars 10 digits 0
  if digits ≠ [] ∧ digits.all Char.isDigit ∧ 1 ≤ number ∧ number < UInt64.size then
    some (UInt64.ofNat (number - 1))
  else
    none

namespace Cell

/-- The cell that a name such as `B3` stands for: column letters, then a row number. -/
def ofName? (name : String) : Option Cell := do
  let col ← Column.ofLetters? (name.toList.takeWhile Char.isAlpha)
  let row ← Row.ofDigits? (name.toList.dropWhile Char.isAlpha)
  return { row, col }

def name (cell : Cell) : String :=
  String.ofList (Column.letters cell.col ++ Nat.toDigits 10 (cell.row.toNat + 1))

end Cell

end Spreadsheet
