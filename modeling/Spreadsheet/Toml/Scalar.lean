import Spreadsheet.Decimal.Numeral
import Spreadsheet.Toml.Lexical

namespace Spreadsheet.Toml

open Reader

/-- Digits of a kind with single underscores between them. -/
def groupedDigits (isDigit : Char → Bool) : Reader (List Char) := do
  let first ← satisfying isDigit
  let rest ← many (orElse (satisfying isDigit) (char '_' *> satisfying isDigit))
  return first :: rest

def sign : Reader (Option Char) :=
  optional (satisfying fun c => c == '+' || c == '-')

/-- Decimal digits that start with zero only when nothing follows. -/
def plainDigits : Reader (List Char) :=
  orElse
    (do
      notBefore (char '0')
      groupedDigits Char.isDigit)
    (times (· == '0') 1)

def decimalInteger : Reader Int := do
  let sign ← sign
  let digits ← plainDigits
  let magnitude : Int := ofDigits 10 digits
  return if sign = some '-' then -magnitude else magnitude

/-- An integer in another base, marked by the letter after a zero. -/
def prefixedInteger (letter : Char) (base : Nat) (isDigit : Char → Bool) : Reader Int := do
  exactly ['0', letter]
  let digits ← groupedDigits isDigit
  return (ofDigits base digits : Int)

def integer : Reader Int :=
  verify
    (oneOf
      [prefixedInteger 'x' 16 isHexDigit,
        prefixedInteger 'o' 8 fun c => '0' ≤ c && c ≤ '7',
        prefixedInteger 'b' 2 fun c => c == '0' || c == '1',
        decimalInteger])
    fun n => -0x8000000000000000 ≤ n && n < 0x8000000000000000

def exponent : Reader PowerOfTen := do
  let marker ← satisfying fun c => c == 'e' || c == 'E'
  let sign ← sign
  let digits ← groupedDigits Char.isDigit
  return { marker, sign, digits }

/-- A number with a fraction or a power of ten. One above zero may not be too large for
binary64. -/
def decimalFloat : Reader Unit := do
  let sign ← sign
  let whole ← plainDigits
  let fraction ← optional (char '.' *> groupedDigits Char.isDigit)
  let power ←
    match fraction with
    | none => some <$> exponent
    | some _ => optional exponent
  let numeral : Numeral := { whole, fraction, power }
  if numeral.value.isInf && sign ≠ some '-' then fail else return

def specialFloat : Reader Unit := do
  discard sign
  orElse (exactly ['i', 'n', 'f']) (exactly ['n', 'a', 'n'])

def twoDigits (least greatest : Nat) : Reader Nat :=
  verify (ofDigits 10 <$> times Char.isDigit 2) fun n => least ≤ n && n ≤ greatest

def daysIn (year month : Nat) : Nat :=
  if month = 2 then
    if year % 4 = 0 ∧ (year % 100 ≠ 0 ∨ year % 400 = 0) then 29 else 28
  else if month = 4 ∨ month = 6 ∨ month = 9 ∨ month = 11 then 30
  else 31

def date : Reader Unit := do
  let year ← ofDigits 10 <$> times Char.isDigit 4
  discard (char '-')
  let month ← twoDigits 1 12
  discard (char '-')
  discard (twoDigits 1 (daysIn year month))

def time : Reader Unit := do
  discard (twoDigits 0 23)
  discard (char ':')
  discard (twoDigits 0 59)
  discard (char ':')
  discard (twoDigits 0 60)
  discard (optional (char '.' *> some1 Char.isDigit))

def timeOffset : Reader Unit :=
  orElse (discard (satisfying fun c => c == 'Z' || c == 'z'))
    (do
      discard (satisfying fun c => c == '+' || c == '-')
      discard (twoDigits 0 23)
      discard (char ':')
      discard (twoDigits 0 59))

/-- A date, a time of day, or a date with a time of day and perhaps an offset. -/
def datetime : Reader Unit :=
  orElse
    (do
      date
      discard (optional (do
        discard (satisfying fun c => c == 'T' || c == 't' || c == ' ')
        time
        discard (optional timeOffset))))
    time

end Spreadsheet.Toml
