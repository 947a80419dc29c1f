import Spreadsheet.Decimal.Numeral
import Spreadsheet.Number
import Spreadsheet.Text.Blank

namespace Spreadsheet

inductive Abort where
  | circular
  | tooDeep
deriving DecidableEq

/-- What a cell shows in place of a value. A malformed formula counts as zero where it is referred
to; an abort reaches every formula that refers to it. -/
inductive Marker where
  | malformed
  | abort (cause : Abort)
deriving DecidableEq

namespace Marker

def text : Marker → String
  | .malformed => "#ERR"
  | .abort .circular => "#CIRC"
  | .abort .tooDeep => "#DEPTH"

def aborts : Marker → Bool
  | .malformed => false
  | .abort _ => true

end Marker

/-- The computed value of a cell: literal text, the number of a formula, or a marker. -/
inductive Value where
  | text (content : String)
  | number (n : Float)
  | marker (m : Marker)

namespace Value

def empty : Value := .text ""

def isMarker : Value → Bool
  | .marker _ => true
  | _ => false

def display : Value → String
  | .text content => content
  | .number n => Number.display n
  | .marker m => m.text

/-- The number that stands for a value in a formula. Text counts if, without the blanks around
it, it spells a finite number; everything without a finite number is zero. -/
def toNumber (value : Value) : Float :=
  let number? :=
    match value with
    | .number n => some n
    | .text content => Numeral.readSigned? (Text.trim content.toList)
    | .marker _ => none
  match number? with
  | some n => if n.isFinite then n else 0
  | none => 0

/-- The number that stands for the number of a formula is that number itself. -/
@[simp]
theorem toNumber_number {n : Float} (h : n.isFinite) : (number n).toNumber = n := by
  simp [toNumber, h]

/-- Text that is read as a finite number counts as that number. -/
theorem toNumber_text {content : String} {n : Float}
    (hread : Numeral.readSigned? (Text.trim content.toList) = some n) (h : n.isFinite) :
    (text content).toNumber = n := by
  simp [toNumber, hread, h]

/-- Around a number in a text there may be blanks, and a sign may stand in front of it. -/
theorem toNumber_text_of_split? {content : String} {sign : Option Char} {unsigned : List Char}
    {numeral : Numeral} (htrim : Text.trim content.toList = sign.toList ++ unsigned)
    (hsign : sign ∈ [none, some '+', some '-'])
    (hsplit : Numeral.split? unsigned = some (numeral, []))
    (hfinite : (if sign = some '-' then -numeral.value else numeral.value).isFinite) :
    (text content).toNumber = if sign = some '-' then -numeral.value else numeral.value :=
  toNumber_text (Numeral.readSigned?_eq_some_iff.mpr
    ⟨sign, hsign, unsigned, numeral, htrim.symm, hsplit, rfl⟩) hfinite

example : (text " -15e-1 ").toNumber = -1.5 :=
  toNumber_text (by decide +kernel) (by decide +kernel)

theorem toNumber_text_eq_zero {content : String}
    (h : ∀ n, Numeral.readSigned? (Text.trim content.toList) = some n → n.isFinite = false) :
    (text content).toNumber = 0 := by
  cases hread : Numeral.readSigned? (Text.trim content.toList) with
  | none => simp [toNumber, hread]
  | some n => simp [toNumber, hread, h n hread]

@[simp]
theorem toNumber_marker (m : Marker) : (marker m).toNumber = 0 :=
  rfl

/-- Nothing but a finite number ever takes the place of a reference. -/
theorem isFinite_toNumber (value : Value) : value.toNumber.isFinite := by
  have hzero : (0 : Float).isFinite := by decide +kernel
  unfold toNumber
  dsimp only
  split
  · split <;> assumption
  · exact hzero

end Value

end Spreadsheet
