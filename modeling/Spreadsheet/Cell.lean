import Std.Data.ExtTreeMap
import Std.Data.ExtTreeSet

namespace Spreadsheet

/-- A cell of the grid, by its row and column counted from zero. -/
structure Cell where
  row : UInt64
  col : UInt64
deriving DecidableEq, Inhabited

namespace Cell

/-- Cells are listed row by row, and by column within a row. -/
instance : Ord Cell :=
  ⟨compareLex (compareOn Cell.row) (compareOn Cell.col)⟩

instance : Std.TransOrd Cell :=
  inferInstanceAs (Std.TransCmp (compareLex (compareOn Cell.row) (compareOn Cell.col)))

theorem compare_eq (left right : Cell) :
    compare left right = (compare left.row right.row).then (compare left.col right.col) :=
  rfl

instance : Std.LawfulEqOrd Cell where
  compare_self := by
    intro cell
    simp
  eq_of_compare := by
    intro left right h
    rw [compare_eq, Ordering.then_eq_eq] at h
    have hrow := Std.LawfulEqCmp.eq_of_compare h.1
    have hcol := Std.LawfulEqCmp.eq_of_compare h.2
    cases left
    cases right
    simp_all

/-- Row-major order: the row decides, and within a row the column. -/
def IsBefore (left right : Cell) : Prop :=
  left.row < right.row ∨ left.row = right.row ∧ left.col < right.col

theorem compare_eq_lt_iff {left right : Cell} :
    compare left right = .lt ↔ left.IsBefore right := by
  rw [compare_eq, Ordering.then_eq_lt, Std.compare_eq_lt, Std.compare_eq_iff_eq, Std.compare_eq_lt,
    IsBefore]

end Cell

/-- A finite map from cells; equal maps have equal entries, whatever order they were built in. -/
abbrev CellMap (α : Type) := Std.ExtTreeMap Cell α

abbrev CellSet := Std.ExtTreeSet Cell

end Spreadsheet
