namespace Spreadsheet

/-- The power of ten at the end of a numeral, as written. -/
structure PowerOfTen where
  marker : Char
  sign : Option Char
  digits : List Char
deriving DecidableEq

/-- A decimal numeral without a sign, as written: digits, perhaps a point with further digits,
perhaps a power of ten. -/
structure Numeral where
  whole : List Char
  fraction : Option (List Char)
  power : Option PowerOfTen
deriving DecidableEq

namespace PowerOfTen

def text (power : PowerOfTen) : List Char :=
  power.marker :: power.sign.toList ++ power.digits

def value (power : PowerOfTen) : Int :=
  let magnitude : Int := Nat.ofDigitChars 10 power.digits 0
  if power.sign = some '-' then -magnitude else magnitude

def splitSign : List Char → Option Char × List Char
  | '+' :: rest => (some '+', rest)
  | '-' :: rest => (some '-', rest)
  | rest => (none, rest)

/-- Takes a power of ten off the front, if one is there with at least one digit. -/
def split? : List Char → Option (PowerOfTen × List Char)
  | [] => none
  | marker :: rest =>
    let (sign, rest) := splitSign rest
    let digits := rest.takeWhile Char.isDigit
    if (marker = 'e' ∨ marker = 'E') ∧ digits ≠ [] then
      some ({ marker, sign, digits }, rest.dropWhile Char.isDigit)
    else
      none

theorem text_append_splitSign (text : List Char) :
    (splitSign text).1.toList ++ (splitSign text).2 = text := by
  unfold splitSign
  split <;> rfl

theorem text_append_of_split? {text rest : List Char} {power : PowerOfTen}
    (h : split? text = some (power, rest)) : power.text ++ rest = text := by
  cases text with
  | nil => simp [split?] at h
  | cons marker tail =>
    simp only [split?, Option.ite_none_right_eq_some, Option.some.injEq, Prod.mk.injEq] at h
    obtain ⟨-, rfl, rfl⟩ := h
    simp [PowerOfTen.text, text_append_splitSign]

end PowerOfTen

namespace Numeral

def fractionText : Option (List Char) → List Char
  | some digits => '.' :: digits
  | none => []

def text (numeral : Numeral) : List Char :=
  numeral.whole ++ fractionText numeral.fraction
    ++ (numeral.power.map PowerOfTen.text).getD []

def splitFraction : List Char → Option (List Char) × List Char
  | '.' :: rest => (some (rest.takeWhile Char.isDigit), rest.dropWhile Char.isDigit)
  | rest => (none, rest)

/-- Takes the longest numeral off the front. Digits are needed before the point or after it. -/
def split? (text : List Char) : Option (Numeral × List Char) :=
  let whole := text.takeWhile Char.isDigit
  let (fraction, rest) := splitFraction (text.dropWhile Char.isDigit)
  if whole = [] ∧ fraction.getD [] = [] then
    none
  else
    match PowerOfTen.split? rest with
    | some (power, rest) => some ({ whole, fraction, power := some power }, rest)
    | none => some ({ whole, fraction, power := none }, rest)

theorem splitFraction_append (text : List Char) :
    fractionText (splitFraction text).1 ++ (splitFraction text).2 = text := by
  unfold splitFraction
  split <;> simp [fractionText]

theorem text_append_of_split? {text rest : List Char} {numeral : Numeral}
    (h : split? text = some (numeral, rest)) : numeral.text ++ rest = text := by
  have hfraction := splitFraction_append (text.dropWhile Char.isDigit)
  have hwhole := List.takeWhile_append_dropWhile (p := Char.isDigit) (l := text)
  simp only [split?, Option.ite_none_left_eq_some] at h
  obtain ⟨-, h⟩ := h
  split at h
  · next power tail hpower =>
    obtain ⟨rfl, rfl⟩ := Prod.mk.inj (Option.some.inj h)
    simp only [Numeral.text, Option.map_some, Option.getD_some, List.append_assoc,
      PowerOfTen.text_append_of_split? hpower]
    rw [hfraction, hwhole]
  · obtain ⟨rfl, rfl⟩ := Prod.mk.inj (Option.some.inj h)
    simp only [Numeral.text, Option.map_none, Option.getD_none, List.append_nil,
      List.append_assoc]
    rw [hfraction, hwhole]

theorem text_ne_nil_of_split? {text rest : List Char} {numeral : Numeral}
    (h : split? text = some (numeral, rest)) : numeral.text ≠ [] := by
  simp only [split?, Option.ite_none_left_eq_some] at h
  obtain ⟨hdigits, h⟩ := h
  have hparts : numeral.whole = text.takeWhile Char.isDigit ∧
      numeral.fraction = (splitFraction (text.dropWhile Char.isDigit)).1 := by
    split at h <;> cases h <;> exact ⟨rfl, rfl⟩
  intro hnil
  simp only [Numeral.text, List.append_eq_nil_iff] at hnil
  refine hdigits ⟨hparts.1 ▸ hnil.1.1, ?_⟩
  rw [← hparts.2]
  cases hfraction : numeral.fraction with
  | none => rfl
  | some digits => simp [hfraction, fractionText] at hnil

theorem length_lt_of_split? {text rest : List Char} {numeral : Numeral}
    (h : split? text = some (numeral, rest)) : rest.length < text.length := by
  rw [← text_append_of_split? h, List.length_append]
  have := List.length_pos_iff.mpr (text_ne_nil_of_split? h)
  omega

/-- The binary64 number nearest to the numeral, a tie going to the even neighbour; infinity when
the numeral is too large. -/
def value (numeral : Numeral) : Float :=
  let fraction := numeral.fraction.getD []
  let mantissa := Nat.ofDigitChars 10 (numeral.whole ++ fraction) 0
  let exponent : Int := (numeral.power.map PowerOfTen.value).getD 0 - fraction.length
  Float.ofScientific mantissa (exponent < 0) exponent.natAbs

/-- The number that a whole text spells, with an optional sign. -/
def readSigned? (text : List Char) : Option Float :=
  let (sign, rest) := PowerOfTen.splitSign text
  match split? rest with
  | some (numeral, []) => some (if sign = some '-' then -numeral.value else numeral.value)
  | _ => none

/-- A numeral starts with a digit or a point, so no sign is taken off it. -/
theorem splitSign_of_split? {text rest : List Char} {numeral : Numeral}
    (h : split? text = some (numeral, rest)) : PowerOfTen.splitSign text = (none, text) := by
  unfold PowerOfTen.splitSign
  split
  · simp [split?, splitFraction] at h
  · simp [split?, splitFraction] at h
  · rfl

theorem splitSign_append_of_split? {sign : Option Char} {text rest : List Char}
    {numeral : Numeral} (hsign : sign ∈ [none, some '+', some '-'])
    (h : split? text = some (numeral, rest)) :
    PowerOfTen.splitSign (sign.toList ++ text) = (sign, text) := by
  simp only [List.mem_cons, List.not_mem_nil, or_false] at hsign
  obtain rfl | rfl | rfl := hsign
  · exact splitSign_of_split? h
  · rfl
  · rfl

/-- A text is read as a number if it is a numeral as a whole, perhaps after a sign. -/
theorem readSigned?_eq_some_iff {text : List Char} {n : Float} :
    readSigned? text = some n ↔
      ∃ sign ∈ [none, some '+', some '-'], ∃ unsigned numeral, sign.toList ++ unsigned = text ∧
        split? unsigned = some (numeral, []) ∧
        n = if sign = some '-' then -numeral.value else numeral.value := by
  constructor
  · intro h
    have hsign : (PowerOfTen.splitSign text).1 ∈ [none, some '+', some '-'] := by
      unfold PowerOfTen.splitSign
      split <;> simp
    unfold readSigned? at h
    dsimp only at h
    split at h
    · next numeral hsplit =>
      exact ⟨_, hsign, _, numeral, PowerOfTen.text_append_splitSign text, hsplit,
        (Option.some.inj h).symm⟩
    · cases h
  · rintro ⟨sign, hsign, unsigned, numeral, rfl, hsplit, rfl⟩
    simp [readSigned?, splitSign_append_of_split? hsign hsplit, hsplit]

end Numeral

end Spreadsheet
