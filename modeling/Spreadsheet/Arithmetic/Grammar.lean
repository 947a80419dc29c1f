import Spreadsheet.Arithmetic.Expression
import Spreadsheet.Arithmetic.Token

namespace Spreadsheet.Arithmetic

namespace Token

def operator? : Token → Option Operator
  | .range => some .range
  | .plus => some .plus
  | .minus => some .minus
  | .times => some .times
  | .divide => some .divide
  | .power => some .power
  | .number _ | .unit | .opening | .closing | .dot => none

def nextOperator? : List Token → Option Operator
  | token :: _ => token.operator?
  | [] => none

end Token

/-- How many levels an expression may have. Parentheses, signs and operators each open one. -/
def levelLimit : Nat := 128

/-- Whether an operator belongs to the right operand of the operator before it. A power does when
it follows a power, so powers group to the right. -/
def bindsTighter (next : Option Operator) (operator : Operator) : Bool :=
  match next with
  | some next => operator.precedence < next.precedence || (next = .power && operator = .power)
  | none => false

/-- Whether an operator may continue an operand that stands under precedence `parent`. -/
def continues (operator : Operator) (parent : Nat) : Bool :=
  parent < operator.precedence || (operator.precedence = parent && operator = .power)

mutual

/-- Reads an expression off the front of the tokens, with `levels` more levels allowed. -/
def expression? (levels : Nat) (tokens : List Token) : Option (Expression × List Token) :=
  match levels with
  | 0 => none
  | levels + 1 => do
    let (root, rest) ← signed? levels tokens
    operators? levels 1 root rest
termination_by (levels, 0)

def signed? (levels : Nat) (tokens : List Token) : Option (Expression × List Token) :=
  match levels, tokens with
  | 0, .minus :: _ | 0, .plus :: _ => none
  | levels + 1, .minus :: rest => do
    let (operand, rest) ← signed? levels rest
    return (.negate operand, rest)
  | levels + 1, .plus :: rest => do
    let (operand, rest) ← signed? levels rest
    return (.keep operand, rest)
  | levels, tokens => do
    let (operand, rest) ← operand? levels tokens
    match rest with
    | .dot :: _ => none
    | _ => return (operand, rest)
termination_by (levels, 2)

/-- Reads a number, a unit or an expression in parentheses. Before the dots of a range nothing
need be written. -/
def operand? (levels : Nat) (tokens : List Token) : Option (Expression × List Token) :=
  match levels, tokens with
  | _, .number value :: rest => some (.number value, rest)
  | _, .unit :: rest => some (.unit, rest)
  | levels + 1, .opening :: rest => do
    let (inner, rest) ← expression? levels rest
    match rest with
    | .closing :: rest => return (inner, rest)
    | _ => none
  | _, .range :: rest => some (.start, .range :: rest)
  | _, _ => none
termination_by (levels, 1)

/-- Reads the operators that continue `root` under precedence `parent`, with their right
operands. -/
def operators? (levels : Nat) (parent : Nat) (root : Expression) (tokens : List Token) :
    Option (Expression × List Token) :=
  match tokens with
  | [] => some (root, [])
  | token :: rest =>
    match token.operator? with
    | none => some (root, token :: rest)
    | some operator =>
      if continues operator parent then do
        let (right, rest) ←
          match operator, rest with
          | .range, .closing :: rest => some (.unit, .closing :: rest)
          | _, rest => signed? levels rest
        match levels with
        | 0 => none
        | levels + 1 =>
          let (right, rest) ←
            if bindsTighter (Token.nextOperator? rest) operator then
              operators? levels operator.precedence right rest
            else
              some (right, rest)
          operators? levels parent (.binary operator root right) rest
      else
        some (root, token :: rest)
termination_by (levels, 3)

end

def parse? (tokens : List Token) : Option Expression :=
  match expression? levelLimit tokens with
  | some (root, []) => some root
  | _ => none

end Spreadsheet.Arithmetic
