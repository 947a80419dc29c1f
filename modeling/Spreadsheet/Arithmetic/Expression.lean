namespace Spreadsheet.Arithmetic

inductive Operator where
  | range
  | plus
  | minus
  | times
  | divide
  | power
deriving DecidableEq

def Operator.precedence : Operator → Nat
  | .range => 2
  | .plus | .minus => 3
  | .times | .divide => 4
  | .power => 5

/-- An arithmetic expression. `start` is the integer zero that a range begins at when nothing is
written before its dots. -/
inductive Expression where
  | number (value : Float)
  | unit
  | start
  | negate (operand : Expression)
  | keep (operand : Expression)
  | binary (operator : Operator) (left right : Expression)

inductive Meaning where
  | number (value : Float)
  | unit
  | start
  | range

namespace Meaning

def negate? : Meaning → Option Meaning
  | .number value => some (.number (-value))
  | .start => some .start
  | .unit | .range => none

def keep? : Meaning → Option Meaning
  | .number value => some (.number value)
  | .start => some .start
  | .unit | .range => none

/-- Binary operators work on numbers, except that a range runs from its start to nothing. -/
def binary? : Operator → Meaning → Meaning → Option Meaning
  | .range, .start, .unit => some .range
  | .plus, .number left, .number right => some (.number (left + right))
  | .minus, .number left, .number right => some (.number (left - right))
  | .times, .number left, .number right => some (.number (left * right))
  | .divide, .number left, .number right => some (.number (left / right))
  | .power, .number left, .number right => some (.number (left.pow right))
  | _, _, _ => none

end Meaning

/-- The meaning of an expression, none when an operator meets an operand it does not work on. -/
def Expression.meaning? : Expression → Option Meaning
  | .number value => some (.number value)
  | .unit => some .unit
  | .start => some .start
  | .negate operand => operand.meaning?.bind Meaning.negate?
  | .keep operand => operand.meaning?.bind Meaning.keep?
  | .binary operator left right => do
    Meaning.binary? operator (← left.meaning?) (← right.meaning?)

end Spreadsheet.Arithmetic
