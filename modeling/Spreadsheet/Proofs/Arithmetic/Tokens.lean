import Spreadsheet.Arithmetic.Token
import Spreadsheet.Proofs.Arithmetic.Lexemes

/-!
# Tokens of plain notation

Plain notation is cut into tokens anew, without regard to the lexemes that it came from.
-/

namespace Spreadsheet.Arithmetic

namespace Token

variable {sign : Bool} {c : Char} {text rest after : List Char} {token : Token}

/-! ### Steps of the scan -/

theorem scan_eq (sign : Bool) (text : List Char) :
    scan sign text =
      match skip text with
      | [] => some []
      | c :: rest =>
        match take? sign (c :: rest) with
        | none => none
        | some (token, after) => (scan token.allowsSign after).map (token :: ·) := by
  rw [scan]
  split
  · rename_i hskip
    rw [hskip]
  · rename_i c rest hskip
    split <;> rename_i htake <;> simp only [hskip, htake]

theorem scan_nil (sign : Bool) : scan sign [] = some [] := by
  simp [scan_eq, skip]

theorem scan_separator (h : c ∈ separators) : scan sign (c :: rest) = scan sign rest := by
  have hskip : skip (c :: rest) = skip rest := by
    simp only [separators, List.mem_cons, List.not_mem_nil, or_false] at h
    rcases h with rfl | rfl | rfl | rfl | rfl <;> simp [skip, separators]
  rw [scan_eq, scan_eq sign rest, hskip]

theorem skip_cons (hc : c ∉ separators)
    (hrest : c = '/' → rest.head? ≠ some '/' ∧ rest.head? ≠ some '*') :
    skip (c :: rest) = c :: rest := by
  rw [skip.eq_def]
  split <;> simp_all

theorem scan_step (hskip : skip (c :: rest) = c :: rest)
    (h : take? sign (c :: rest) = some (token, after)) :
    scan sign (c :: rest) = (scan token.allowsSign after).map (token :: ·) := by
  rw [scan_eq, hskip]
  dsimp only
  rw [h]

theorem scan_eq_none (hskip : skip (c :: rest) = c :: rest) (h : take? sign (c :: rest) = none) :
    scan sign (c :: rest) = none := by
  rw [scan_eq, hskip]
  dsimp only
  rw [h]

theorem take?_digit (h : c.isDigit) :
    take? sign (c :: rest) =
      some (.number (splitNumber c rest).1.value, (splitNumber c rest).2) := by
  unfold take?
  split <;> simp_all

theorem take?_minus_digit (h : c.isDigit) :
    take? true ('-' :: c :: rest) =
      some (.number (-(splitNumber c rest).1.value), (splitNumber c rest).2) := by
  have hminus : c ≠ '-' := by
    rintro rfl
    revert h
    decide
  simp [take?, h]

theorem not_mem_separators_of_isDigit (h : c.isDigit) : c ∉ separators := by
  intro hmem
  simp only [separators, List.mem_cons, List.not_mem_nil, or_false] at hmem
  rcases hmem with rfl | rfl | rfl | rfl | rfl <;> exact absurd h (by decide)

theorem scan_digit (h : c.isDigit) :
    scan sign (c :: rest) =
      (scan false (splitNumber c rest).2).map (.number (splitNumber c rest).1.value :: ·) := by
  refine scan_step (skip_cons (not_mem_separators_of_isDigit h) ?_) (take?_digit h)
  rintro rfl
  exact absurd h (by decide)

theorem scan_minus_digit (h : c.isDigit) :
    scan true ('-' :: c :: rest) =
      (scan false (splitNumber c rest).2).map (.number (-(splitNumber c rest).1.value) :: ·) :=
  scan_step (skip_cons (by decide) (by simp)) (take?_minus_digit h)

theorem scan_stars : scan sign ('*' :: '*' :: rest) = (scan true rest).map (.power :: ·) :=
  scan_step (skip_cons (by decide) (by simp)) rfl

def ofChar? : Char → Option Token
  | '(' => some .opening
  | ')' => some .closing
  | '+' => some .plus
  | '-' => some .minus
  | '*' => some .times
  | '/' => some .divide
  | _ => none

/-- The pairs of characters of which the second may not come right after the first as a token. -/
def clashes : List (Char × Char) :=
  [('(', '*'), ('(', ')'), ('(', '^'), ('+', '+'), ('-', '-'), ('*', '*'), ('*', ')'), ('*', '^'),
    ('/', '/'), ('/', '*'), ('/', '^')]

theorem take?_ofChar (hc : ofChar? c = some token)
    (hnext : ∀ d, rest.head? = some d → (c, d) ∉ clashes)
    (hsign : c = '-' → sign = true → ∀ d, rest.head? = some d → d.isDigit = false) :
    take? sign (c :: rest) = some (token, rest) := by
  cases rest with
  | nil =>
      unfold ofChar? at hc
      split at hc <;> simp_all [take?]
  | cons d rest =>
      have hd := hnext d rfl
      unfold ofChar? at hc
      split at hc <;> simp_all [take?, clashes]

theorem scan_ofChar (hc : ofChar? c = some token)
    (hnext : ∀ d, rest.head? = some d → (c, d) ∉ clashes)
    (hsign : c = '-' → sign = true → ∀ d, rest.head? = some d → d.isDigit = false) :
    scan sign (c :: rest) = (scan token.allowsSign rest).map (token :: ·) := by
  refine scan_step (skip_cons ?_ ?_) (take?_ofChar hc hnext hsign)
  · unfold ofChar? at hc
    split at hc <;> simp_all [separators]
  · rintro rfl
    exact ⟨fun h => hnext '/' h (by decide), fun h => hnext '*' h (by decide)⟩

/-! ### Numbers -/

section Number

variable {digits fraction : List Char} (hdigits : ∀ c ∈ digits, c.isDigit)
  (hfraction : ∀ c ∈ fraction, c.isDigit)

include hdigits in
theorem splitNumber_whole (hrest : ∀ d, rest.head? = some d → d.isDigit = false ∧ d ≠ '.') :
    splitNumber c (digits ++ rest) =
      ({ whole := c :: digits, fraction := none, power := none }, rest) := by
  obtain ⟨htake, hdrop⟩ := takeWhile_isDigit hdigits fun d hd => (hrest d hd).1
  have hsplit : splitFraction rest = (none, rest) := by
    unfold splitFraction
    split
    · exact absurd rfl (hrest '.' rfl).2
    · rfl
  rw [splitNumber, htake, hdrop, hsplit]

include hdigits in
/-- A point that ends the text is not part of the number before it. -/
theorem splitNumber_point_end : (splitNumber c (digits ++ ['.'])).2 = ['.'] := by
  rw [splitNumber, (takeWhile_isDigit_point hdigits).1, (takeWhile_isDigit_point hdigits).2]
  rfl

include hdigits hfraction in
theorem splitNumber_fraction (hrest : ∀ d, rest.head? = some d → d.isDigit = false ∧ d ≠ '.')
    (hne : fraction ≠ [] ∨ rest ≠ []) :
    splitNumber c (digits ++ '.' :: (fraction ++ rest)) =
      ({ whole := c :: digits, fraction := some fraction, power := none }, rest) := by
  obtain ⟨htake', hdrop'⟩ := takeWhile_isDigit hfraction fun d hd => (hrest d hd).1
  have hsplit : splitFraction ('.' :: (fraction ++ rest)) = (some fraction, rest) := by
    cases hpart : fraction ++ rest with
    | nil => simp [List.append_eq_nil_iff.mp hpart] at hne
    | cons d tail =>
        have hd : d ≠ '.' := by
          rintro rfl
          cases fraction with
          | nil => exact (hrest '.' (by rw [← List.nil_append rest, hpart]; rfl)).2 rfl
          | cons e fraction =>
              obtain rfl : e = '.' := (List.cons.inj hpart).1
              exact absurd (hfraction '.' (by simp)) (by decide)
        rw [splitFraction, if_neg hd, ← hpart, htake', hdrop']
  rw [splitNumber, (takeWhile_isDigit_point hdigits).1, (takeWhile_isDigit_point hdigits).2, hsplit]

include hdigits hfraction in
/-- A second point is not part of the number before it. -/
theorem splitNumber_second_point (rest : List Char) :
    ∃ tail, (splitNumber c (digits ++ '.' :: (fraction ++ '.' :: rest))).2 = '.' :: tail := by
  rw [splitNumber, (takeWhile_isDigit_point hdigits).1, (takeWhile_isDigit_point hdigits).2]
  cases fraction with
  | nil => exact ⟨_, rfl⟩
  | cons d fraction =>
      have hd : d ≠ '.' := by
        rintro rfl
        exact absurd (hfraction '.' (by simp)) (by decide)
      rw [List.cons_append, splitFraction, if_neg hd, ← List.cons_append,
        (takeWhile_isDigit_point hfraction).2]
      exact ⟨_, rfl⟩

end Number

/-! ### Which tokens can follow each other -/

def kind : Token → Token
  | .number _ => .number 0
  | token => token

def opensOperand : Token → Bool
  | .number _ | .opening | .plus | .minus => true
  | _ => false

def closesOperand : Token → Bool
  | .closing | .plus | .minus | .times | .divide | .power => true
  | _ => false

/-- Tokens of which each can follow the one before. At first an operand is expected, or has been
read. -/
def Proper : Bool → List Token → Prop
  | _, [] => True
  | expectsOperand, token :: rest =>
    (if expectsOperand then token.opensOperand else token.closesOperand) = true ∧
      Proper token.allowsSign rest

theorem not_proper_of_point {expectsOperand : Bool} {tokens : List Token}
    (h : scan sign ('.' :: rest) = some tokens) : ¬ Proper expectsOperand tokens := by
  have hskip : skip ('.' :: rest) = '.' :: rest := skip_cons (by decide) (by simp)
  have htake : take? sign ('.' :: rest) = none ∨
      ∃ after, take? sign ('.' :: rest) = some (.range, after) ∨
        take? sign ('.' :: rest) = some (.dot, after) := by
    unfold take?
    split <;> simp_all
    rename_i heq
    exact absurd heq.1.symm ‹_›
  rintro hproper
  rcases htake with hnone | ⟨after, hrange | hdot⟩
  · rw [scan_eq_none hskip hnone] at h
    cases h
  · rw [scan_step hskip hrange] at h
    obtain ⟨tail, -, rfl⟩ := Option.map_eq_some_iff.mp h
    cases expectsOperand <;> exact absurd hproper.1 (by decide)
  · rw [scan_step hskip hdot] at h
    obtain ⟨tail, -, rfl⟩ := Option.map_eq_some_iff.mp h
    cases expectsOperand <;> exact absurd hproper.1 (by decide)

theorem not_proper_of_star {tokens : List Token} (h : scan sign ('*' :: rest) = some tokens) :
    ¬ Proper true tokens := by
  have hskip : skip ('*' :: rest) = '*' :: rest := skip_cons (by decide) (by simp)
  have htake : take? sign ('*' :: rest) = none ∨
      ∃ after, take? sign ('*' :: rest) = some (.power, after) ∨
        take? sign ('*' :: rest) = some (.times, after) := by
    unfold take?
    split <;> simp_all
    rename_i heq
    exact absurd heq.1.symm ‹_›
  rintro hproper
  rcases htake with hnone | ⟨after, hpower | htimes⟩
  · rw [scan_eq_none hskip hnone] at h
    cases h
  · rw [scan_step hskip hpower] at h
    obtain ⟨tail, -, rfl⟩ := Option.map_eq_some_iff.mp h
    exact absurd hproper.1 (by decide)
  · rw [scan_step hskip htimes] at h
    obtain ⟨tail, -, rfl⟩ := Option.map_eq_some_iff.mp h
    exact absurd hproper.1 (by decide)

theorem scan_ne_some {tokens : List Token} (hc : c ∉ separators) (hslash : c ≠ '/')
    (h : take? sign (c :: rest) = none) : scan sign (c :: rest) ≠ some tokens := by
  rw [scan_eq_none (skip_cons hc fun heq => absurd heq hslash) h]
  simp

/-- Characters that clash are no tokens that anything can follow. -/
theorem not_proper_of_clash {tokens : List Token} {d : Char} (hclash : (c, d) ∈ clashes)
    (hslash : c ≠ '/') (hstars : ¬ (c = '*' ∧ d = '*'))
    (h : scan sign (c :: (Lexeme.plain (.char d) ++ rest)) = some tokens) :
    ¬ Proper sign tokens := by
  simp only [clashes, List.mem_cons, Prod.mk.injEq, List.not_mem_nil, or_false] at hclash
  rcases hclash with ⟨rfl, rfl⟩ | ⟨rfl, rfl⟩ | ⟨rfl, rfl⟩ | ⟨rfl, rfl⟩ | ⟨rfl, rfl⟩ | ⟨rfl, rfl⟩ |
    ⟨rfl, rfl⟩ | ⟨rfl, rfl⟩ | ⟨rfl, -⟩ | ⟨rfl, -⟩ | ⟨rfl, -⟩
  · exact absurd h (scan_ne_some (by decide) (by decide) rfl)
  · rw [Lexeme.plain_char (by decide), List.singleton_append,
      scan_step (skip_cons (by decide) (by simp)) rfl] at h
    obtain ⟨tail, -, rfl⟩ := Option.map_eq_some_iff.mp h
    intro hproper
    cases sign <;> exact absurd hproper.1 (by decide)
  · exact absurd h (scan_ne_some (by decide) (by decide) rfl)
  · exact absurd h (scan_ne_some (by decide) (by decide) rfl)
  · exact absurd h (scan_ne_some (by decide) (by decide) rfl)
  · exact absurd ⟨rfl, rfl⟩ hstars
  · exact absurd h (scan_ne_some (by decide) (by decide) rfl)
  · rw [Lexeme.plain, List.cons_append, List.singleton_append, scan_stars] at h
    obtain ⟨tail, htail, rfl⟩ := Option.map_eq_some_iff.mp h
    intro hproper
    exact not_proper_of_star htail hproper.2
  · exact absurd rfl hslash
  · exact absurd rfl hslash
  · exact absurd rfl hslash

end Token

end Spreadsheet.Arithmetic
