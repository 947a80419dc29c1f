import Spreadsheet.Decimal.Numeral

namespace Spreadsheet.Arithmetic

/-- A token of plain notation. `unit` is a pair of parentheses with nothing between them. -/
inductive Token where
  | number (value : Float)
  | unit
  | opening
  | closing
  | plus
  | minus
  | times
  | divide
  | power
  | range
  | dot

namespace Token

/-- Whether a minus sign right before a digit belongs to the number when this token precedes. -/
def allowsSign : Token → Bool
  | .number _ | .unit | .closing | .dot => false
  | .opening | .plus | .minus | .times | .divide | .power | .range => true

def separators : List Char :=
  [' ', '\t', '\n', '\x0c', '\r']

def afterLineComment (text : List Char) : List Char :=
  text.dropWhile fun c => c != '\n' && c != '\r'

/-- The text after a block comment with `depth + 1` openings still to be closed. Block comments
nest, and one that is never closed takes all the text. -/
def afterBlockComment : Nat → List Char → List Char
  | depth, '/' :: '*' :: rest => afterBlockComment (depth + 1) rest
  | 0, '*' :: '/' :: rest => rest
  | depth + 1, '*' :: '/' :: rest => afterBlockComment depth rest
  | depth, _ :: rest => afterBlockComment depth rest
  | _, [] => []

theorem length_afterLineComment_le (text : List Char) :
    (afterLineComment text).length ≤ text.length :=
  (List.dropWhile_sublist _).length_le

theorem length_afterBlockComment_le (depth : Nat) (text : List Char) :
    (afterBlockComment depth text).length ≤ text.length := by
  fun_induction afterBlockComment depth text <;> simp_all <;> omega

/-- The text after the separators and comments in front. -/
def skip : List Char → List Char
  | [] => []
  | '/' :: '/' :: rest =>
    have := length_afterLineComment_le rest
    skip (afterLineComment rest)
  | '/' :: '*' :: rest =>
    have := length_afterBlockComment_le 0 rest
    skip (afterBlockComment 0 rest)
  | c :: rest => if separators.contains c then skip rest else c :: rest
termination_by text => text.length

theorem length_skip_le (text : List Char) : (skip text).length ≤ text.length := by
  fun_induction skip text <;> simp_all <;> omega

/-- Takes the fraction of a number off the front. A point that ends the text or is followed by
another point is not part of the number. -/
def splitFraction : List Char → Option (List Char) × List Char
  | '.' :: c :: rest =>
    if c = '.' then (none, '.' :: c :: rest)
    else (some ((c :: rest).takeWhile Char.isDigit), (c :: rest).dropWhile Char.isDigit)
  | rest => (none, rest)

/-- Takes a number off the front of text whose first character `c` is a digit. -/
def splitNumber (c : Char) (text : List Char) : Numeral × List Char :=
  let (fraction, rest) := splitFraction (text.dropWhile Char.isDigit)
  ({ whole := c :: text.takeWhile Char.isDigit, fraction, power := none }, rest)

theorem length_splitFraction_le (text : List Char) :
    (splitFraction text).2.length ≤ text.length := by
  fun_cases splitFraction text
  · simp
  · exact Nat.le_succ_of_le (List.dropWhile_sublist _).length_le
  · simp

theorem length_splitNumber_le (c : Char) (text : List Char) :
    (splitNumber c text).2.length ≤ text.length :=
  Nat.le_trans (length_splitFraction_le _) (List.dropWhile_sublist _).length_le

/-- Takes the longest token off the front of text that starts with no separator and no comment;
none where the characters in front form no token. `sign` says whether a minus sign right before a
digit belongs to the number. -/
def take? (sign : Bool) : List Char → Option (Token × List Char)
  | '(' :: '*' :: _ | '*' :: ')' :: _ | '+' :: '+' :: _ | '-' :: '-' :: _
  | '.' :: '.' :: '.' :: _ => none
  | '(' :: ')' :: rest => some (.unit, rest)
  | '*' :: '*' :: rest => some (.power, rest)
  | '.' :: '.' :: rest => some (.range, rest)
  | '(' :: rest => some (.opening, rest)
  | ')' :: rest => some (.closing, rest)
  | '+' :: rest => some (.plus, rest)
  | '*' :: rest => some (.times, rest)
  | '/' :: rest => some (.divide, rest)
  | '.' :: rest => some (.dot, rest)
  | '-' :: c :: rest =>
    if sign && c.isDigit then
      let (numeral, after) := splitNumber c rest
      some (.number (-numeral.value), after)
    else
      some (.minus, c :: rest)
  | ['-'] => some (.minus, [])
  | c :: rest =>
    if c.isDigit then
      let (numeral, after) := splitNumber c rest
      some (.number numeral.value, after)
    else
      none
  | [] => none

theorem length_lt_of_take? {sign : Bool} {text rest : List Char} {token : Token}
    (h : take? sign text = some (token, rest)) : rest.length < text.length := by
  have hnumber := length_splitNumber_le
  revert h
  fun_cases take? sign text <;> simp_all <;> grind

def scan (sign : Bool) (text : List Char) : Option (List Token) :=
  match hskip : skip text with
  | [] => some []
  | c :: rest =>
    match htake : take? sign (c :: rest) with
    | none => none
    | some (token, after) =>
      have : after.length < text.length :=
        Nat.lt_of_lt_of_le (length_lt_of_take? htake) (hskip ▸ length_skip_le text)
      (scan token.allowsSign after).map (token :: ·)
termination_by text.length

end Token

end Spreadsheet.Arithmetic
