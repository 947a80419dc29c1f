import Spreadsheet.Arithmetic.Grammar
import Spreadsheet.Arithmetic.Operations
import Spreadsheet.Arithmetic.Plain

namespace Spreadsheet.Arithmetic

/-- The expression that text in plain notation spells, if its evaluation takes no more operations
than allowed. -/
def affordable? (operations : Shape → Nat) (text : List Char) : Option Expression :=
  ((Token.scan true text).bind parse?).filter fun root => operations root.shape ≤ operationLimit

def evaluatePlain (operations : Shape → Nat) (text : List Char) : Except Error Float :=
  match (affordable? operations text).bind Expression.meaning? with
  | none => .error .malformed
  | some .unit | some .range => .error .notNumeric
  | some .start => .ok 0
  | some (.number value) => if value.isFinite then .ok value else .error .nonFinite

/-- The number that a text comes to when operations are counted in a given way. -/
def evaluateCounting (operations : Shape → Nat) (text : String) : Except Error Float :=
  plain text.toList >>= evaluatePlain operations

def evaluate (text : String) : Except Error Float :=
  evaluateCounting Shape.operations text

end Spreadsheet.Arithmetic
