import Spreadsheet.Arithmetic.Expression

namespace Spreadsheet.Arithmetic

/-- What of an expression decides how many operations its evaluation takes. Its numbers have no part
in that, and the signs before a number belong to the number. -/
inductive Shape where
  | constant
  | unit
  | signed (operand : Shape)
  | binary (left right : Shape)
deriving DecidableEq

namespace Shape

def underSign : Shape → Shape
  | .constant => .constant
  | shape => .signed shape

/-- Each constant and each operator between operands is one operation. The sign of anything else is
called as a function, which is two. -/
def steps : Shape → Nat
  | .constant | .unit => 1
  | .signed operand => operand.steps + 2
  | .binary left right => left.steps + right.steps + 1

/-- The operations of a whole evaluation. Starting it is one. -/
def operations (shape : Shape) : Nat :=
  shape.steps + 1

end Shape

def Expression.shape : Expression → Shape
  | .number _ | .start => .constant
  | .unit => .unit
  | .negate operand | .keep operand => operand.shape.underSign
  | .binary _ left right => .binary left.shape right.shape

def operationLimit : Nat := 100000

end Spreadsheet.Arithmetic
