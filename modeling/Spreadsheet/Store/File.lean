import Spreadsheet.Disk
import Spreadsheet.SheetText
import Spreadsheet.Store.Access

namespace Spreadsheet

structure FileStore where
  path : String
  texts : CellTexts
  access : Access
  disk : Disk

inductive OpenError where
  | io
  | parse (error : SheetText.ParseError)
deriving DecidableEq

def OpenError.message : OpenError → String
  | .io => "IO error"
  | .parse error => error.message

namespace FileStore

/-- The cells that the file at a path holds; none if there is no file. -/
def load (disk : Disk) (path : String) : Except OpenError CellTexts :=
  if disk.contains path then
    match disk.readText? path with
    | none => .error .io
    | some text =>
      match SheetText.read text with
      | .error error => .error (.parse error)
      | .ok texts => .ok texts
  else
    .ok ∅

/-- Opens the sheet file at a path. A file that is not there is made by the first write. -/
def «open» (disk : Disk) (path : String) (access : Access) : Except OpenError FileStore := do
  let texts ← load disk path
  return { path, texts, access, disk }

/-- Writes a raw text to the file first; the cells in memory follow when that succeeded. -/
def write (store : FileStore) (cell : Cell) (raw : String) :
    Except StoreError Unit × FileStore :=
  match store.access with
  | .readOnly => (.error .readOnly, store)
  | .writable =>
    let texts := store.texts.write cell raw
    match store.disk.replace store.path (SheetText.write texts).toUTF8 with
    | (true, disk) => (.ok (), { store with texts, disk })
    | (false, disk) => (.error .io, { store with disk })

instance : CellStore FileStore where
  raw store := store.texts.raw
  write := write
  cells store := store.texts.toList

end FileStore

end Spreadsheet
