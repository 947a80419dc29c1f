import Spreadsheet.Cell.Name
import Spreadsheet.Text.Word

namespace Spreadsheet.Formula

def body? (raw : String) : Option (List Char) :=
  match raw.toList with
  | '=' :: body => some body
  | _ => none

/-- A piece of a formula: a reference to a cell, or the text between references. -/
inductive Piece where
  | plain (text : List Char)
  | reference (token : List Char)
deriving DecidableEq

namespace Piece

def text : Piece → List Char
  | .plain text | .reference text => text

end Piece

def isReference (run : List Char) : Bool :=
  run.takeWhile Char.isAlpha ≠ [] &&
    run.dropWhile Char.isAlpha ≠ [] && (run.dropWhile Char.isAlpha).all Char.isDigit

def runs (text : List Char) : List (List Char) :=
  text.splitBy fun left right => Text.isWord left == Text.isWord right

/-- The pieces of a formula in order. A reference fills a maximal run of word characters. -/
def pieces (text : List Char) : List Piece :=
  (runs text).map fun run => if isReference run then .reference run else .plain run

def target? (token : List Char) : Option Cell :=
  Cell.ofName? (String.ofList token)

/-- A reference with its place in the text, in bytes of UTF-8. -/
structure Reference where
  start : Nat
  stop : Nat
  name : String
  cell : Option Cell

def byteLength : List Char → Nat
  | [] => 0
  | c :: rest => c.utf8Size + byteLength rest

def locate (offset : Nat) : List Piece → List Reference
  | [] => []
  | .plain text :: rest => locate (offset + byteLength text) rest
  | .reference token :: rest =>
    { start := offset
      stop := offset + byteLength token
      name := String.ofList (token.map Char.toUpper)
      cell := target? token } :: locate (offset + byteLength token) rest

def references (text : List Char) : List Reference :=
  locate 0 (pieces text)

def referencedCells (text : List Char) : CellSet :=
  Std.ExtTreeSet.ofList ((references text).filterMap Reference.cell)

def dependencies (raw : String) : CellSet :=
  match body? raw with
  | some body => referencedCells body
  | none => ∅

end Spreadsheet.Formula
