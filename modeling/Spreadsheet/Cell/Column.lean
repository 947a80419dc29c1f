namespace Spreadsheet.Column

/-- The number of a column letter, from 1 for `A` to 26 for `Z`; case does not matter. -/
def letterNumber (letter : Char) : Nat :=
  letter.toUpper.toNat - 'A'.toNat + 1

def times? (left right : BitVec 128) : Option (BitVec 128) :=
  if left.umulOverflow right then none else some (left * right)

def plus? (left right : BitVec 128) : Option (BitVec 128) :=
  if left.uaddOverflow right then none else some (left + right)

/-- The number that letters spell, with one more letter behind them. -/
def extend? (total : BitVec 128) (letter : Char) : Option (BitVec 128) :=
  if letter.isAlpha then do
    let shifted ← times? total 26
    plus? shifted (BitVec.ofNat 128 (letterNumber letter))
  else
    none

/-- The number that column letters spell, counted from 1. There is no letter for zero, so every
number has exactly one spelling in capitals. -/
def number? (letters : List Char) : Option (BitVec 128) :=
  letters.foldlM extend? 0

def spell : Nat → List Char
  | 0 => []
  | n + 1 => spell (n / 26) ++ [Char.ofNat ('A'.toNat + n % 26)]
termination_by n => n
decreasing_by omega

/-- The column that ASCII letters name, counted from zero, if it fits in a word. -/
def ofLetters? (letters : List Char) : Option UInt64 :=
  if letters = [] then
    none
  else do
    let number ← number? letters
    let column := (number - 1).toNat
    if column < UInt64.size then some (UInt64.ofNat column) else none

def letters (column : UInt64) : List Char :=
  spell (column.toNat + 1)

end Spreadsheet.Column
