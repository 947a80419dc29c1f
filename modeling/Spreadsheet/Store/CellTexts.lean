import Spreadsheet.Cell

namespace Spreadsheet

abbrev CellTexts := CellMap String

namespace CellTexts

/-- The raw text of a cell; empty when it holds none. -/
def raw (texts : CellTexts) (cell : Cell) : String :=
  texts.getD cell ""

/-- Writes a cell's raw text. Writing the empty text clears the cell. -/
def write (texts : CellTexts) (cell : Cell) (raw : String) : CellTexts :=
  if raw.isEmpty then texts.erase cell else texts.insert cell raw

end CellTexts

end Spreadsheet
