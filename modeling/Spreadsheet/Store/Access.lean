import Spreadsheet.Cell

namespace Spreadsheet

inductive Access where
  | writable
  | readOnly
deriving DecidableEq

inductive StoreError where
  | readOnly
  | io
deriving DecidableEq

def StoreError.message : StoreError → String
  | .readOnly => "store is read-only"
  | .io => "IO error"

class CellStore (Store : Type) where
  /-- The raw text of a cell; empty when it was never written. -/
  raw : Store → Cell → String
  /-- Writes a raw text; the empty text clears the cell. -/
  write : Store → Cell → String → Except StoreError Unit × Store
  /-- The cells that hold text, row by row. -/
  cells : Store → List (Cell × String)

end Spreadsheet
