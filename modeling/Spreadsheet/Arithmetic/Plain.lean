import Spreadsheet.Decimal.Numeral
import Spreadsheet.Number
import Spreadsheet.Text.Blank

namespace Spreadsheet.Arithmetic

inductive Error where
  | empty
  | unsupported (c : Char)
  | malformed
  | notNumeric
  | nonFinite
deriving DecidableEq

/-- A text that cannot be read as arithmetic is explained by its place in a grammar only, so it
has no message of its own. -/
def Error.message? : Error → Option String
  | .empty => some "empty expression"
  | .unsupported c => some ("unsupported character '" ++ c.toString ++ "' in expression")
  | .malformed => none
  | .notNumeric => some "expression did not produce a number"
  | .nonFinite => some "expression produced a non-finite number"

/-- A piece of arithmetic text: a numeral, or a single character outside every numeral. -/
inductive Lexeme where
  | literal (numeral : Numeral)
  | char (c : Char)
deriving DecidableEq

namespace Lexeme

def text : Lexeme → List Char
  | .literal numeral => numeral.text
  | .char c => [c]

/-- Cuts text into lexemes; each numeral is taken as early and as long as possible. -/
def scan : List Char → List Lexeme
  | [] => []
  | c :: rest =>
    match h : Numeral.split? (c :: rest) with
    | some (numeral, after) =>
      have : after.length < rest.length + 1 := Numeral.length_lt_of_split? h
      .literal numeral :: scan after
    | none => .char c :: scan rest
termination_by text => text.length

/-- A lexeme in plain notation: a numeral is positional with a point unless it is too large for
binary64, and a power is written `**`. -/
def plain : Lexeme → List Char
  | .literal numeral =>
    if numeral.value.isFinite then Number.literal numeral.value else numeral.text
  | .char '^' => ['*', '*']
  | .char c => [c]

end Lexeme

def isPlain (c : Char) : Bool :=
  c.isDigit || [' ', '\t', '\n', '\x0c', '\r', '+', '-', '*', '/', '(', ')', '.'].contains c

def plain (text : List Char) : Except Error (List Char) :=
  let result := (Lexeme.scan text).flatMap Lexeme.plain
  match result.find? (fun c => !isPlain c) with
  | some c => .error (.unsupported c)
  | none => if result.all Text.isBlank then .error .empty else .ok result

end Spreadsheet.Arithmetic
