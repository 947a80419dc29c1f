import Mathlib.Data.List.TakeWhile
import Spreadsheet.Proofs.Number.Sign

/-!
# What a number looks like in arithmetic

The text of a finite number has a point with digits on both sides, in parentheses after a minus if
the number is negative.
-/

namespace Spreadsheet

def IsPointed (text : List Char) : Prop :=
  ∃ whole fraction, text = whole ++ '.' :: fraction ∧ whole ≠ [] ∧ fraction ≠ [] ∧
    (∀ c ∈ whole, c.isDigit) ∧ ∀ c ∈ fraction, c.isDigit

namespace Decimal

theorem isDigit_of_mem_padLeft {width : Nat} {digits : List Char} (h : ∀ c ∈ digits, c.isDigit) :
    ∀ c ∈ padLeft width digits, c.isDigit := by
  intro c hc
  rcases List.mem_append.mp hc with hzero | hdigit
  · rw [List.eq_of_mem_replicate hzero]
    decide
  · exact h c hdigit

theorem isDigit_of_mem_fractionDigits {numerator places : Nat} :
    ∀ c ∈ fractionDigits numerator places, c.isDigit := by
  intro c hc
  have hmem := (List.dropWhile_sublist _).subset (List.mem_reverse.mp hc)
  exact isDigit_of_mem_padLeft
    (fun digit => Nat.isDigit_of_mem_toDigits (by decide) (by decide)) c (List.mem_reverse.mp hmem)

theorem ofDigitChars_eq_zero {digits : List Char} (h : ∀ c ∈ digits, c = '0') :
    Nat.ofDigitChars 10 digits 0 = 0 := by
  induction digits with
  | nil => rfl
  | cons c rest ih =>
      obtain rfl : c = '0' := h c (by simp)
      exact ih fun c hc => h c (List.mem_cons_of_mem _ hc)

/-- A fraction that is not zero has a digit that is not zero. -/
theorem fractionDigits_ne_nil {numerator places : Nat} (h : numerator ≠ 0) :
    fractionDigits numerator places ≠ [] := by
  intro hnil
  have hzeros : ∀ c ∈ Nat.toDigits 10 numerator, c = '0' := by
    intro c hc
    have hall := List.dropWhile_eq_nil_iff.mp (List.reverse_eq_nil_iff.mp hnil)
    simpa using hall c (List.mem_reverse.mpr (List.mem_append_right _ hc))
  exact h (Nat.ofDigitChars_ten_toDigits.symm.trans (ofDigitChars_eq_zero hzeros))

theorem isPointed_text (decimal : Decimal) :
    IsPointed (if decimal.text.contains '.' then decimal.text else decimal.text ++ ['.', '0']) := by
  have hdigits : ∀ n, ∀ c ∈ Nat.toDigits 10 n, c.isDigit := fun n c =>
    Nat.isDigit_of_mem_toDigits (by decide) (by decide)
  unfold text
  dsimp only
  split
  · rename_i hwhole
    have hpoint : ¬ (Nat.toDigits 10 (decimal.coefficient * Nat.pow 10 decimal.exponent.toNat /
        Nat.pow 10 (-decimal.exponent).toNat)).contains '.' := by
      intro hmem
      exact absurd (hdigits _ _ (List.contains_iff_mem.mp hmem)) (by decide)
    rw [if_neg hpoint]
    exact ⟨_, ['0'], rfl, Nat.toDigits_ne_nil, by simp, hdigits _, by simp⟩
  · rename_i hfraction
    rw [if_pos (by simp)]
    exact ⟨_, _, rfl, Nat.toDigits_ne_nil, fractionDigits_ne_nil hfraction, hdigits _,
      isDigit_of_mem_fractionDigits⟩

end Decimal

namespace Number

def hasMinus (n : Float) : Bool :=
  isNegative n && n != 0

def pointed (n : Float) : List Char :=
  signedLiteral false n

variable {n : Float}

theorem isNaN_eq_false_and_isInf_eq_false (h : n.isFinite) :
    n.isNaN = false ∧ n.isInf = false := by
  change n.toModel.unpack.isFinite = true at h
  change n.toModel.unpack.isNaN = false ∧ n.toModel.unpack.isInf = false
  cases hunpack : n.toModel.unpack <;> rw [hunpack] at h <;> first | exact ⟨rfl, rfl⟩ | cases h

theorem isPointed_pointed (h : n.isFinite) : IsPointed (pointed n) := by
  obtain ⟨hnan, hinf⟩ := isNaN_eq_false_and_isInf_eq_false h
  unfold pointed signedLiteral
  rw [hnan, hinf]
  exact Decimal.isPointed_text _

theorem literal_eq (n : Float) :
    literal n = if hasMinus n then '(' :: '-' :: pointed n ++ [')'] else pointed n := by
  unfold literal pointed signedLiteral hasMinus
  rfl

theorem head?_literal (h : n.isFinite) :
    ∃ c, (literal n).head? = some c ∧ (c = '(' ∨ c.isDigit) := by
  obtain ⟨whole, fraction, hpointed, hwhole, -, hdigits, -⟩ := isPointed_pointed h
  rw [literal_eq]
  split
  · exact ⟨'(', rfl, .inl rfl⟩
  · obtain ⟨c, digits, rfl⟩ := List.exists_cons_of_ne_nil hwhole
    exact ⟨c, by rw [hpointed]; rfl, .inr (hdigits c (by simp))⟩

theorem exists_isDigit_literal (h : n.isFinite) : ∃ d ∈ literal n, d.isDigit := by
  obtain ⟨whole, fraction, hpointed, hwhole, -, hdigits, -⟩ := isPointed_pointed h
  obtain ⟨d, hd⟩ := List.exists_mem_of_ne_nil _ hwhole
  refine ⟨d, ?_, hdigits d hd⟩
  rw [literal_eq, hpointed]
  split <;> simp [hd]

theorem slash_not_mem_literal (h : n.isFinite) : '/' ∉ literal n := by
  obtain ⟨whole, fraction, hpointed, -, -, hdigits, hfractionDigits⟩ := isPointed_pointed h
  have hmem : '/' ∉ pointed n := by
    rw [hpointed, List.mem_append, List.mem_cons]
    rintro (hwhole | heq | hfraction)
    · exact absurd (hdigits _ hwhole) (by decide)
    · exact absurd heq (by decide)
    · exact absurd (hfractionDigits _ hfraction) (by decide)
  rw [literal_eq]
  split
  · simp [hmem]
  · exact hmem

end Number

theorem Numeral.isPointed_literal {numeral : Numeral} (h : numeral.value.isFinite) :
    IsPointed (Number.literal numeral.value) := by
  rw [Number.literal_eq, Number.hasMinus, numeral.isNegative_value]
  exact Number.isPointed_pointed h

end Spreadsheet
