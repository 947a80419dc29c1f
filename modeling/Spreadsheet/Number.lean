import Spreadsheet.Decimal.Shortest

namespace Spreadsheet.Number

def magnitude (n : Float) : List Char :=
  (Binary.ofBits n.toBits).shortest.text

/-- The sign bit. It also tells the two zeros apart. -/
def isNegative (n : Float) : Bool :=
  n.toBits ≥ 0x8000000000000000

/-- How a sheet shows a number: the fewest digits that read back, never with an exponent. -/
def display (n : Float) : String :=
  if n.isNaN then "#NAN!"
  else if n.isInf then "#INF!"
  else String.ofList (if isNegative n then '-' :: magnitude n else magnitude n)

def signedLiteral (isMinus : Bool) (n : Float) : List Char :=
  let digits :=
    if n.isNaN then ['N', 'a', 'N'] else if n.isInf then ['i', 'n', 'f'] else magnitude n
  let pointed := if digits.contains '.' then digits else digits ++ ['.', '0']
  if isMinus then '(' :: '-' :: pointed ++ [')'] else pointed

/-- How a number is spliced into arithmetic text. Zero never has a minus. -/
def literal (n : Float) : List Char :=
  signedLiteral (isNegative n && n != 0) n

/-- How the number with the given bits is spliced. What is not a number may have a sign bit too,
which a `Float` does not keep. -/
def literalOfBits (bits : UInt64) : List Char :=
  signedLiteral (bits > 0x8000000000000000) (Float.ofBits bits)

end Spreadsheet.Number
