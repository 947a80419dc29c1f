import Spreadsheet.CommandLine.Arguments
import Spreadsheet.CommandLine.Edit
import Spreadsheet.CommandLine.Failure
import Spreadsheet.Store.Memory

/-!
A run settles its settings, opens a sheet, makes the edits in turn, and then shows the value of one
formula or of every cell that holds text.
-/

namespace Spreadsheet.CommandLine

/-- What a run shows, and whether the formula that was asked for has a value. -/
structure Report where
  lines : List String
  hasValue : Bool
deriving DecidableEq

section Sheet

variable {Store : Type} [CellStore Store]

/-- Makes edits in turn up to the first that fails. Those before it stay made. -/
def makeEdits (sheet : Sheet Store) : List String → Except Failure Unit × Sheet Store
  | [] => (.ok (), sheet)
  | text :: rest =>
    match Edit.ofText? text with
    | none => (.error (.notAnEdit text), sheet)
    | some edit =>
      match sheet.editByName edit.name edit.raw with
      | (.error error, sheet) => (.error (.edit edit.name error), sheet)
      | (.ok _, sheet) => makeEdits sheet rest

/-- The value of a formula, which may be given without the equals sign in front. -/
def formulaReport (sheet : Sheet Store) (formula : String) : Report :=
  let formula := if formula.toList.head? = some '=' then formula else "=" ++ formula
  let value := sheet.evaluateFormula formula
  { lines := [value.display], hasValue := !value.isMarker }

def cellsReport (sheet : Sheet Store) : Report :=
  { lines := sheet.computedCells.map fun (cell, value) => cell.name ++ ": " ++ value.display
    hasValue := true }

def runOn (sheet : Sheet Store) (arguments : Arguments) : Except Failure Report × Sheet Store :=
  match makeEdits sheet arguments.edits with
  | (.error failure, sheet) => (.error failure, sheet)
  | (.ok (), sheet) =>
    match arguments.formula with
    | some formula => (.ok (formulaReport sheet formula), sheet)
    | none => (.ok (cellsReport sheet), sheet)

end Sheet

/-- The settings before the arguments change them: from the file that they name, which must be
there, or from the user's own. -/
def baseSettings (arguments : Arguments) (disk : Disk) (ownFile : Option String) :
    Except Failure Settings :=
  if arguments.ignoresSettings then .ok Settings.standard
  else
    match arguments.settingsFile, ownFile with
    | some path, _ =>
      if disk.contains path then (Settings.load disk path).mapError (.settings path)
      else .error (.noSettingsFile path)
    | none, some path => (Settings.load disk path).mapError (.settings path)
    | none, none => .ok Settings.standard

/-- The settings of a run. The arguments have the last word. -/
def settle (arguments : Arguments) (disk : Disk) (ownFile : Option String) :
    Except Failure Settings := do
  let base ← baseSettings arguments disk ownFile
  let settings : Settings :=
    { access := if arguments.isReadOnly then .readOnly else base.access
      maxDepth := arguments.maxDepth.getD base.maxDepth }
  settings.check.mapError .depth

/-- Runs on the sheet file, or on an empty sheet in memory, and gives the disk after the run. -/
def runWith (settings : Settings) (arguments : Arguments) (disk : Disk) :
    Except Failure Report × Disk :=
  match arguments.file with
  | none =>
    let store : MemoryStore := { texts := ∅, access := settings.access }
    ((runOn (Sheet.ofStore store settings.maxDepth Arithmetic.evaluate) arguments).1, disk)
  | some path =>
    match FileStore.open disk path settings.access with
    | .error error => (.error (.opening path error), disk)
    | .ok store =>
      let (result, sheet) :=
        runOn (Sheet.ofStore store settings.maxDepth Arithmetic.evaluate) arguments
      (result, sheet.store.disk)

def run (arguments : Arguments) (disk : Disk) (ownFile : Option String) :
    Except Failure Report × Disk :=
  match settle arguments disk ownFile with
  | .error failure => (.error failure, disk)
  | .ok settings => runWith settings arguments disk

end Spreadsheet.CommandLine
