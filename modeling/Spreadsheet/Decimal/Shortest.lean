namespace Spreadsheet

/-- The decimal number `coefficient * 10 ^ exponent`. -/
structure Decimal where
  coefficient : Nat
  exponent : Int
deriving DecidableEq

/-- The binary number `mantissa * 2 ^ exponent`. -/
structure Binary where
  mantissa : Nat
  exponent : Int
deriving DecidableEq

namespace Binary

/-- The bit above the fraction that a binary64 number stores. All but the least numbers have it. -/
def hiddenBit : Nat := 0x10000000000000

/-- The magnitude that the bits of a finite binary64 number stand for. -/
def ofBits (bits : UInt64) : Binary :=
  let fraction : Nat := bits.toNat % hiddenBit
  let biased : Nat := bits.toNat / hiddenBit % 0x800
  if biased = 0 then
    { mantissa := fraction, exponent := -1074 }
  else
    { mantissa := fraction + hiddenBit, exponent := (biased : Int) - 1075 }

/-- Whether the binary64 number below is nearer than the one above. -/
def hasNarrowGapBelow (binary : Binary) : Bool :=
  binary.mantissa = hiddenBit ∧ -1074 < binary.exponent

/-- The gap between binary numbers with this exponent, counted in a unit in which it and a step of
`10 ^ exponent` are whole. -/
def gapAt (binary : Binary) (exponent : Int) : Nat :=
  Nat.pow 2 binary.exponent.toNat * Nat.pow 10 (-exponent).toNat

/-- A step of `10 ^ exponent`, counted in the same unit. -/
def stepAt (binary : Binary) (exponent : Int) : Nat :=
  Nat.pow 10 exponent.toNat * Nat.pow 2 (-binary.exponent).toNat

/-- The largest multiple of `10 ^ exponent` that is not above the binary number. -/
def floorAt (binary : Binary) (exponent : Int) : Decimal :=
  { coefficient := binary.mantissa * binary.gapAt exponent / binary.stepAt exponent, exponent }

/-- The nearest multiple of `10 ^ exponent` that rounds to the binary number, the upper one of
two that are equally near. What is less than half a gap away rounds to the number, and what is
half a gap away does so when the mantissa is even. -/
def nearestAt? (binary : Binary) (exponent : Int) : Option Decimal :=
  let gap := binary.gapAt exponent
  let step := binary.stepAt exponent
  let coefficient := binary.mantissa * gap / step
  let excess := binary.mantissa * gap % step
  let lack := step - excess
  let isWithin (distance limit : Nat) : Bool :=
    distance < limit || (distance = limit && binary.mantissa % 2 = 0)
  let lowerRounds := isWithin ((if binary.hasNarrowGapBelow then 4 else 2) * excess) gap
  let upperRounds := isWithin (2 * lack) gap
  if upperRounds && (lack ≤ excess || !lowerRounds) then
    some { coefficient := coefficient + 1, exponent }
  else if lowerRounds then
    some { coefficient, exponent }
  else
    none

/-- The first decimal found when the powers of ten are tried downwards from an exponent. -/
def shortestFrom (binary : Binary) : Nat → Int → Decimal
  | 0, exponent => binary.floorAt exponent
  | steps + 1, exponent =>
    match binary.nearestAt? exponent with
    | some decimal => decimal
    | none => shortestFrom binary steps (exponent - 1)

/-- The decimal with the fewest digits that rounds to the binary number, and of those the
nearest. The search starts above the number and ends where every binary64 number is a multiple of
the power of ten. -/
def shortest (binary : Binary) : Decimal :=
  let start : Int := (binary.mantissa.log2 + binary.exponent) * 30103 / 100000 + 1
  shortestFrom binary (start - min binary.exponent 0).toNat start

end Binary

namespace Decimal

def padLeft (width : Nat) (digits : List Char) : List Char :=
  List.replicate (width - digits.length) '0' ++ digits

/-- The digits after the point of `numerator / 10 ^ places`, without zeros at the end. -/
def fractionDigits (numerator places : Nat) : List Char :=
  ((padLeft places (Nat.toDigits 10 numerator)).reverse.dropWhile (· == '0')).reverse

/-- Positional notation without an exponent; a point is written only before further digits. -/
def text (decimal : Decimal) : List Char :=
  let scale := Nat.pow 10 (-decimal.exponent).toNat
  let scaled := decimal.coefficient * Nat.pow 10 decimal.exponent.toNat
  let whole := Nat.toDigits 10 (scaled / scale)
  let fraction := scaled % scale
  if fraction = 0 then whole
  else whole ++ '.' :: fractionDigits fraction (-decimal.exponent).toNat

end Decimal

end Spreadsheet
