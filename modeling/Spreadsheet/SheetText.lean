import Spreadsheet.Cell.Name
import Spreadsheet.SheetText.Quoted
import Spreadsheet.Store.CellTexts

/-!
The text form of a sheet: one line for each cell, its name, a colon and its raw text. Blank lines
and lines that start with `#` say nothing.
-/

namespace Spreadsheet.SheetText

inductive LineFault where
  | noColon
  | badName (name : String)
deriving DecidableEq

def LineFault.message : LineFault → String
  | .noColon => "Expected 'CELLREF: VALUE' format"
  | .badName name => "Invalid cell reference: " ++ name

/-- A fault with the number of its line, counted from 1. -/
structure ParseError where
  line : Nat
  fault : LineFault
deriving DecidableEq

def ParseError.message (error : ParseError) : String :=
  "Parse error at line " ++ Nat.repr error.line ++ ": " ++ error.fault.message

def readLine (line : List Char) : Except LineFault (Option (Cell × String)) :=
  let line := Text.trim line
  if line = [] ∨ line.head? = some '#' then
    .ok none
  else
    match line.dropWhile (· != ':') with
    | [] => .error .noColon
    | _ :: value =>
      let name := String.ofList (Text.trim (line.takeWhile (· != ':')))
      match Cell.ofName? name with
      | none => .error (.badName name)
      | some cell => .ok (some (cell, String.ofList (readRaw (Text.trim value))))

/-- Reads lines from a line number on; a later line for the same cell wins. -/
def readLines (texts : CellTexts) (number : Nat) :
    List (List Char) → Except ParseError CellTexts
  | [] => .ok texts
  | line :: rest =>
    match readLine line with
    | .error fault => .error { line := number, fault }
    | .ok none => readLines texts (number + 1) rest
    | .ok (some (cell, raw)) => readLines (texts.write cell raw) (number + 1) rest

def read (text : String) : Except ParseError CellTexts :=
  readLines ∅ 1 (text.toList.splitOn '\n')

def writeLine (cell : Cell) (raw : String) : List Char :=
  cell.name.toList ++ ':' :: ' ' :: writeRaw raw.toList

def header : List Char :=
  "# Gridcalc Sheet".toList

/-- Cells in text form, in the order given; empty cells are left out. -/
def writeCells (cells : List (Cell × String)) : String :=
  let written := cells.filter fun (_, raw) => !raw.isEmpty
  let lines := header :: written.map fun (cell, raw) => writeLine cell raw
  String.ofList (lines.flatMap (· ++ ['\n']))

def write (texts : CellTexts) : String :=
  writeCells texts.toList

end Spreadsheet.SheetText
