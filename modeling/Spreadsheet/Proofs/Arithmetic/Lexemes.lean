import Mathlib.Data.List.Chain
import Spreadsheet.Arithmetic.Plain
import Spreadsheet.Proofs.Number.Literals

/-!
# Lexemes of arithmetic text

A numeral is taken as long as possible, so what follows it cannot belong to it.
-/

namespace Spreadsheet

theorem not_of_head?_dropWhile {p : Char → Bool} {text : List Char} {c : Char}
    (h : (text.dropWhile p).head? = some c) : p c = false := by
  have hhead := List.head?_dropWhile_not p text
  rw [h] at hhead
  simpa using hhead

/-- Digits that are taken whole, and end before something else. -/
theorem takeWhile_isDigit {digits rest : List Char} (hdigits : ∀ c ∈ digits, c.isDigit)
    (hrest : ∀ c, rest.head? = some c → c.isDigit = false) :
    (digits ++ rest).takeWhile Char.isDigit = digits ∧
      (digits ++ rest).dropWhile Char.isDigit = rest := by
  rw [List.takeWhile_append_of_pos hdigits, List.dropWhile_append_of_pos hdigits]
  cases rest with
  | nil => simp
  | cons c rest => simp [hrest c rfl]

theorem takeWhile_isDigit_point {digits rest : List Char} (hdigits : ∀ c ∈ digits, c.isDigit) :
    (digits ++ '.' :: rest).takeWhile Char.isDigit = digits ∧
      (digits ++ '.' :: rest).dropWhile Char.isDigit = '.' :: rest :=
  takeWhile_isDigit hdigits (by simp)

namespace PowerOfTen

structure Taken (power : PowerOfTen) (rest : List Char) : Prop where
  marker : power.marker = 'e' ∨ power.marker = 'E'
  sign : ∀ c ∈ power.sign, c = '+' ∨ c = '-'
  ne_nil : power.digits ≠ []
  digits : ∀ c ∈ power.digits, c.isDigit
  rest : ∀ c, rest.head? = some c → c.isDigit = false

theorem taken_of_split? {text rest : List Char} {power : PowerOfTen}
    (h : split? text = some (power, rest)) : power.Taken rest := by
  cases text with
  | nil => simp [split?] at h
  | cons marker tail =>
      simp only [split?, Option.ite_none_right_eq_some, Option.some.injEq, Prod.mk.injEq] at h
      obtain ⟨⟨hmarker, hdigits⟩, rfl, rfl⟩ := h
      refine ⟨hmarker, ?_, hdigits, fun c => List.mem_takeWhile_imp,
        fun c => not_of_head?_dropWhile⟩
      intro c hc
      dsimp only at hc
      unfold splitSign at hc
      split at hc <;> simp only [Option.mem_def, Option.some.injEq, reduceCtorEq] at hc <;>
        simp [← hc]

theorem split?_eq_none {c : Char} {rest : List Char} (h : c ≠ 'e' ∧ c ≠ 'E') :
    split? (c :: rest) = none := by
  simp [split?, h.1, h.2]

theorem splitSign_append {sign : Option Char} {rest : List Char}
    (hsign : ∀ c ∈ sign, c = '+' ∨ c = '-') (hrest : ∀ c, rest.head? = some c → c.isDigit) :
    splitSign (sign.toList ++ rest) = (sign, rest) := by
  cases sign with
  | some c => obtain rfl | rfl := hsign c rfl <;> rfl
  | none =>
      rw [Option.toList_none, List.nil_append, splitSign.eq_def]
      split <;> first | rfl | exact absurd (hrest _ rfl) (by decide)

theorem split?_text_append {power : PowerOfTen} {rest : List Char} (h : power.Taken rest) :
    split? (power.text ++ rest) = some (power, rest) := by
  have hdigit : ∀ c, (power.digits ++ rest).head? = some c → c.isDigit := by
    obtain ⟨d, digits, heq⟩ := List.exists_cons_of_ne_nil h.ne_nil
    intro c hc
    obtain rfl : d = c := by simpa [heq] using hc
    exact h.digits d (by simp [heq])
  rw [text, List.cons_append, List.cons_append, List.append_assoc]
  simp only [split?, splitSign_append h.sign hdigit, (takeWhile_isDigit h.digits h.rest).1,
    (takeWhile_isDigit h.digits h.rest).2]
  exact if_pos ⟨h.marker, h.ne_nil⟩

end PowerOfTen

namespace Numeral

structure Taken (numeral : Numeral) (rest : List Char) : Prop where
  whole : ∀ c ∈ numeral.whole, c.isDigit
  fraction : ∀ c ∈ numeral.fraction.getD [], c.isDigit
  ne_nil : numeral.whole ≠ [] ∨ numeral.fraction.getD [] ≠ []
  power : ∀ power ∈ numeral.power, power.Taken rest
  rest_digit : ∀ c, rest.head? = some c → c.isDigit = false
  rest_point : numeral.fraction = none → numeral.power = none → rest.head? ≠ some '.'

variable {text rest : List Char} {numeral : Numeral}

theorem splitFraction_cases (text : List Char) (htext : ∀ c, text.head? = some c → c.isDigit = false) :
    (∀ c ∈ (splitFraction text).1.getD [], c.isDigit) ∧
      (∀ c, (splitFraction text).2.head? = some c → c.isDigit = false) ∧
      ((splitFraction text).1 = none → (splitFraction text).2.head? ≠ some '.') := by
  unfold splitFraction
  split
  · exact ⟨fun c => List.mem_takeWhile_imp, fun c => not_of_head?_dropWhile, by simp⟩
  · rename_i hpoint
    refine ⟨by simp, htext, ?_⟩
    rintro -
    cases text with
    | nil => simp
    | cons c rest =>
        rintro heq
        obtain rfl : c = '.' := by simpa using heq
        exact hpoint rest rfl

theorem taken_of_split? (h : split? text = some (numeral, rest)) : numeral.Taken rest := by
  have hwhole : ∀ c ∈ text.takeWhile Char.isDigit, c.isDigit := fun c => List.mem_takeWhile_imp
  obtain ⟨hfraction, hdigit, hpoint⟩ := splitFraction_cases (text.dropWhile Char.isDigit)
    fun c => not_of_head?_dropWhile
  simp only [split?, Option.ite_none_left_eq_some] at h
  obtain ⟨hne, h⟩ := h
  rw [not_and_or] at hne
  split at h
  · rename_i power tail hpower
    obtain ⟨rfl, rfl⟩ := Prod.mk.inj (Option.some.inj h)
    have htaken := PowerOfTen.taken_of_split? hpower
    exact ⟨hwhole, hfraction, hne, by simpa using htaken, htaken.rest, by simp⟩
  · obtain ⟨rfl, rfl⟩ := Prod.mk.inj (Option.some.inj h)
    exact ⟨hwhole, hfraction, hne, by simp, hdigit, fun hnone _ => hpoint hnone⟩

theorem splitFraction_of_head? {text : List Char} (h : text.head? ≠ some '.') :
    splitFraction text = (none, text) := by
  unfold splitFraction
  split
  · exact absurd rfl h
  · rfl

/-- A numeral is taken off the front again, whatever goes on after it but a power of ten. -/
theorem split?_text_append (h : numeral.Taken rest)
    (hrest : ∀ c, rest.head? = some c → c ≠ 'e' ∧ c ≠ 'E') :
    split? (numeral.text ++ rest) = some (numeral, rest) := by
  have hpower : ∃ tail, (numeral.power.map PowerOfTen.text).getD [] ++ rest = tail ∧
      (∀ c, tail.head? = some c → c.isDigit = false) ∧
      (numeral.fraction = none → tail.head? ≠ some '.') ∧
      PowerOfTen.split? tail = numeral.power.map (·, rest) := by
    refine ⟨_, rfl, ?_⟩
    cases heq : numeral.power with
    | some power =>
        have htaken := h.power power heq
        refine ⟨?_, ?_, PowerOfTen.split?_text_append htaken⟩
        · intro c hc
          obtain rfl : power.marker = c := by simpa [PowerOfTen.text] using hc
          obtain hmarker | hmarker := htaken.marker <;> rw [hmarker] <;> decide
        · rintro - hc
          have hmarker : power.marker = '.' := by simpa [PowerOfTen.text] using hc
          obtain h | h := htaken.marker <;> rw [hmarker] at h <;> exact absurd h (by decide)
    | none =>
        refine ⟨h.rest_digit, fun hnone => h.rest_point hnone heq, ?_⟩
        cases rest with
        | nil => rfl
        | cons c rest => exact PowerOfTen.split?_eq_none (hrest c rfl)
  obtain ⟨tail, htext, hdigit, hpoint, hsplit⟩ := hpower
  have hfraction : splitFraction (fractionText numeral.fraction ++ tail) = (numeral.fraction, tail) := by
    cases heq : numeral.fraction with
    | none => exact splitFraction_of_head? (hpoint heq)
    | some digits =>
        have hdigits : ∀ c ∈ digits, c.isDigit := by simpa [heq] using h.fraction
        rw [fractionText, List.cons_append, splitFraction, (takeWhile_isDigit hdigits hdigit).1,
          (takeWhile_isDigit hdigits hdigit).2]
  have hhead : ∀ c, (fractionText numeral.fraction ++ tail).head? = some c → c.isDigit = false := by
    cases numeral.fraction with
    | none => exact hdigit
    | some digits =>
        rintro c ⟨⟩
        decide
  rw [Numeral.text, List.append_assoc, List.append_assoc, htext]
  simp only [split?, (takeWhile_isDigit h.whole hhead).1, (takeWhile_isDigit h.whole hhead).2,
    hfraction, hsplit]
  rw [if_neg (by simpa [or_iff_not_imp_left] using h.ne_nil)]
  cases numeral with
  | mk whole fraction power =>
      cases power with
      | some power => rfl
      | none =>
          subst htext
          rfl

theorem Taken.congr {next : List Char} (h : numeral.Taken rest) (hhead : next.head? = rest.head?) :
    numeral.Taken next where
  whole := h.whole
  fraction := h.fraction
  ne_nil := h.ne_nil
  power power hpower := { h.power power hpower with rest := by rw [hhead]; exact h.rest_digit }
  rest_digit := by rw [hhead]; exact h.rest_digit
  rest_point := by rw [hhead]; exact h.rest_point

/-- A numeral that is all of a text ends before anything but a digit or a point. -/
theorem Taken.of_nil {next : List Char} (h : numeral.Taken [])
    (hnext : ∀ c, next.head? = some c → c.isDigit = false ∧ c ≠ '.') : numeral.Taken next where
  whole := h.whole
  fraction := h.fraction
  ne_nil := h.ne_nil
  power power hpower := { h.power power hpower with rest := fun c hc => (hnext c hc).1 }
  rest_digit c hc := (hnext c hc).1
  rest_point _ _ hpoint := (hnext '.' hpoint).2 rfl

/-- A point with digits on both sides is a numeral, whatever goes on after it but a power of ten. -/
theorem split?_of_pointed {whole fraction : List Char} (hne : whole ≠ [] ∨ fraction ≠ [])
    (hwhole : ∀ c ∈ whole, c.isDigit) (hfraction : ∀ c ∈ fraction, c.isDigit)
    (hrest : ∀ c, rest.head? = some c → c.isDigit = false ∧ c ≠ 'e' ∧ c ≠ 'E') :
    split? (whole ++ '.' :: (fraction ++ rest)) =
      some ({ whole, fraction := some fraction, power := none }, rest) := by
  let numeral : Numeral := { whole, fraction := some fraction, power := none }
  have htaken : numeral.Taken rest := ⟨hwhole, hfraction, hne, by simp [numeral],
    fun c hc => (hrest c hc).1, by simp [numeral]⟩
  have hsplit := split?_text_append htaken fun c hc => (hrest c hc).2
  simpa [numeral, Numeral.text, fractionText] using hsplit

theorem split?_eq_none {c : Char} (hdigit : c.isDigit = false) (hpoint : c ≠ '.') :
    split? (c :: rest) = none := by
  have hfraction : splitFraction (c :: rest) = (none, c :: rest) :=
    splitFraction_of_head? (by simpa using hpoint)
  simp [split?, hdigit, hfraction]

theorem isDigit_eq_false_of_split? {c : Char} (h : split? (c :: rest) = none) :
    c.isDigit = false := by
  by_contra hdigit
  simp only [Bool.not_eq_false] at hdigit
  simp only [split?] at h
  rw [if_neg (by simp [hdigit])] at h
  split at h <;> cases h

end Numeral

namespace Arithmetic

theorem plain_eq_ok_iff {text script : List Char} :
    plain text = .ok script ↔ script = (Lexeme.scan text).flatMap Lexeme.plain ∧
      (∀ c ∈ script, isPlain c) ∧ script.all Text.isBlank = false := by
  unfold plain
  dsimp only
  split
  · rename_i c hfind
    simp only [reduceCtorEq, false_iff, not_and]
    rintro rfl hplain
    have hc := List.find?_some hfind
    simp [hplain c (List.mem_of_find?_eq_some hfind)] at hc
  · rename_i hfind
    have hplain : ∀ c ∈ (Lexeme.scan text).flatMap Lexeme.plain, isPlain c := fun c hc => by
      simpa using List.find?_eq_none.mp hfind c hc
    split
    · rename_i hblank
      simp only [reduceCtorEq, false_iff, not_and]
      rintro rfl -
      simp [hblank]
    · rename_i hblank
      rw [Except.ok.injEq]
      constructor
      · rintro rfl
        exact ⟨rfl, hplain, by simpa using hblank⟩
      · rintro ⟨rfl, -, -⟩
        rfl

namespace Lexeme

variable {text rest : List Char} {c : Char}

theorem scan_of_split? {numeral : Numeral} (h : Numeral.split? text = some (numeral, rest)) :
    scan text = .literal numeral :: scan rest := by
  cases text with
  | nil => simp [Numeral.split?, Numeral.splitFraction] at h
  | cons c tail =>
      rw [scan]
      split
      · rename_i found after hfound
        obtain ⟨rfl, rfl⟩ := Prod.mk.inj (Option.some.inj (hfound.symm.trans h))
        rfl
      · rename_i hnone
        rw [h] at hnone
        cases hnone

theorem scan_cons (h : Numeral.split? (c :: rest) = none) :
    scan (c :: rest) = .char c :: scan rest := by
  rw [scan]
  split
  · rename_i found after hfound
    rw [h] at hfound
    cases hfound
  · rfl

/-- The three ways in which a scan goes on. -/
theorem scan_cases (text : List Char) :
    text = [] ∨ (∃ numeral rest, Numeral.split? text = some (numeral, rest) ∧
        scan text = .literal numeral :: scan rest) ∨
      ∃ c rest, text = c :: rest ∧ Numeral.split? text = none ∧
        scan text = .char c :: scan rest := by
  cases text with
  | nil => exact .inl rfl
  | cons c rest =>
      cases h : Numeral.split? (c :: rest) with
      | none => exact .inr (.inr ⟨c, rest, rfl, rfl, scan_cons h⟩)
      | some pair => exact .inr (.inl ⟨pair.1, pair.2, rfl, scan_of_split? h⟩)

theorem flatMap_text_scan (text : List Char) : (scan text).flatMap Lexeme.text = text := by
  fun_induction scan text with
  | case1 => rfl
  | case2 c rest numeral after h hlength ih =>
      rw [List.flatMap_cons, ih]
      exact Numeral.text_append_of_split? h
  | case3 c rest h ih =>
      rw [List.flatMap_cons, ih]
      rfl

/-! ### Lexemes side by side -/

theorem plain_char (h : c ≠ '^') : plain (.char c) = [c] := by
  unfold plain
  split <;> simp_all

def IsDecimal (text : List Char) : Prop :=
  ∃ whole fraction, text = whole ++ Numeral.fractionText fraction ∧
    (whole ≠ [] ∨ fraction.getD [] ≠ []) ∧ (∀ c ∈ whole, c.isDigit) ∧
    ∀ c ∈ fraction.getD [], c.isDigit

def HasPoint (text : List Char) : Prop :=
  ∃ digits rest, text = digits ++ '.' :: rest ∧ ∀ c ∈ digits, c.isDigit

theorem isDecimal_of_isPointed (h : IsPointed text) : IsDecimal text := by
  obtain ⟨whole, fraction, rfl, hne, -, hwhole, hfraction⟩ := h
  exact ⟨whole, some fraction, rfl, .inl hne, hwhole, hfraction⟩

theorem hasPoint_of_isPointed (h : IsPointed text) : HasPoint text := by
  obtain ⟨whole, fraction, rfl, -, -, hwhole, -⟩ := h
  exact ⟨whole, fraction, rfl, hwhole⟩

/-- What may be said of two lexemes of one text that stand side by side, when no comment opens. A
numeral after which another one or a point can start has had a point itself. -/
def Adjacent : Lexeme → Lexeme → Prop
  | .literal numeral, .literal next =>
    HasPoint (plain (.literal numeral)) ∧ HasPoint (plain (.literal next))
  | .literal numeral, .char c => c = '.' → HasPoint (plain (.literal numeral))
  | .char c, .char next => c = '/' → next ≠ '/' ∧ next ≠ '*' ∧ next ≠ '^'
  | .char _, .literal _ => True

section Numeral

variable {numeral : Numeral} (htaken : numeral.Taken rest)
  (hplain : ∀ c ∈ plain (.literal numeral), isPlain c)

include htaken hplain

theorem plain_literal_cases :
    IsPointed (plain (.literal numeral)) ∨
      plain (.literal numeral) = numeral.whole ++ Numeral.fractionText numeral.fraction ∧
        numeral.power = none := by
  by_cases hfinite : numeral.value.isFinite
  · left
    rw [plain, if_pos hfinite]
    exact numeral.isPointed_literal hfinite
  · right
    have htext : plain (.literal numeral) = numeral.text := by rw [plain, if_neg hfinite]
    rw [htext] at hplain ⊢
    cases hpower : numeral.power with
    | none => simp [Numeral.text, hpower]
    | some power =>
        have hmarker : isPlain power.marker :=
          hplain _ (by simp [Numeral.text, hpower, PowerOfTen.text])
        rcases (htaken.power power hpower).marker with h | h <;> rw [h] at hmarker <;>
          exact absurd hmarker (by decide)

theorem isDecimal_plain : IsDecimal (plain (.literal numeral)) := by
  rcases plain_literal_cases htaken hplain with hpointed | ⟨htext, -⟩
  · exact isDecimal_of_isPointed hpointed
  · exact ⟨_, _, htext, htaken.ne_nil, htaken.whole, htaken.fraction⟩

theorem hasPoint_plain (hpoint : rest.head? = some '.') : HasPoint (plain (.literal numeral)) := by
  rcases plain_literal_cases htaken hplain with hpointed | ⟨htext, hpower⟩
  · exact hasPoint_of_isPointed hpointed
  · cases hfraction : numeral.fraction with
    | none => exact absurd hpoint (htaken.rest_point hfraction hpower)
    | some digits =>
        rw [hfraction] at htext
        exact ⟨_, _, htext, htaken.whole⟩

theorem hasPoint_plain_of_whole_eq_nil (hwhole : numeral.whole = []) :
    HasPoint (plain (.literal numeral)) := by
  rcases plain_literal_cases htaken hplain with hpointed | ⟨htext, -⟩
  · exact hasPoint_of_isPointed hpointed
  · have hfraction := htaken.ne_nil.resolve_left (by simp [hwhole])
    cases hpoint : numeral.fraction with
    | none => simp [hpoint] at hfraction
    | some digits =>
        rw [hwhole, hpoint] at htext
        exact ⟨[], _, htext, by simp⟩

end Numeral

/-- A numeral that starts where no digit stands starts with a point. -/
theorem head?_of_split? {numeral : Numeral} (h : Numeral.split? text = some (numeral, rest))
    (hdigit : ∀ c, text.head? = some c → c.isDigit = false) :
    text.head? = some '.' ∧ numeral.whole = [] := by
  have htext := Numeral.text_append_of_split? h
  have htaken := Numeral.taken_of_split? h
  cases hwhole : numeral.whole with
  | cons c whole =>
      have hhead : text.head? = some c := by rw [← htext, Numeral.text, hwhole]; rfl
      have hc : c.isDigit := htaken.whole c (by simp [hwhole])
      rw [hdigit c hhead] at hc
      cases hc
  | nil =>
      have hfraction := htaken.ne_nil.resolve_left (by simp [hwhole])
      cases hpoint : numeral.fraction with
      | none => simp [hpoint] at hfraction
      | some digits =>
          rw [← htext, Numeral.text, hwhole, hpoint]
          exact ⟨rfl, rfl⟩

/-- No line comment and no block comment opens in a text, where `^` stands for two stars. -/
def OpensNoComment (text : List Char) : Prop :=
  text.IsChain fun c next => c = '/' → next ≠ '/' ∧ next ≠ '*' ∧ next ≠ '^'

theorem opensNoComment_append {front : List Char} (hslash : '/' ∉ front) (h : OpensNoComment text) :
    OpensNoComment (front ++ text) := by
  refine List.isChain_append.mpr ⟨?_, h, ?_⟩
  · refine (List.pairwise_of_forall_mem_list fun c hc d hd => ?_).isChain
    rintro rfl
    exact absurd hc hslash
  · rintro c hc d - rfl
    exact absurd (List.mem_of_mem_getLast? hc) hslash

structure Lexical (lexemes : List Lexeme) : Prop where
  decimal : ∀ numeral, .literal numeral ∈ lexemes → IsDecimal (plain (.literal numeral))
  char : ∀ c, .char c ∈ lexemes → c.isDigit = false ∧ (c = '^' ∨ isPlain c)
  adjacent : lexemes.IsChain Adjacent

theorem adjacent_literal {numeral : Numeral} (htaken : numeral.Taken rest)
    (hnumeral : ∀ c ∈ plain (.literal numeral), isPlain c)
    (hplain : ∀ c ∈ (scan rest).flatMap plain, isPlain c) :
    ∀ next ∈ (scan rest).head?, Adjacent (.literal numeral) next := by
  intro next hnext
  rcases scan_cases rest with rfl | ⟨other, last, hother, hscan⟩ | ⟨c, last, rfl, hother, hscan⟩
  · simp [scan] at hnext
  · obtain rfl : Lexeme.literal other = next := by simpa [hscan] using hnext
    rw [hscan, List.flatMap_cons] at hplain
    obtain ⟨hpoint, hwhole⟩ := head?_of_split? hother htaken.rest_digit
    exact ⟨hasPoint_plain htaken hnumeral hpoint, hasPoint_plain_of_whole_eq_nil
      (Numeral.taken_of_split? hother) (fun c hc => hplain c (List.mem_append_left _ hc)) hwhole⟩
  · obtain rfl : Lexeme.char c = next := by simpa [hscan] using hnext
    rintro rfl
    exact hasPoint_plain htaken hnumeral rfl

theorem adjacent_char (hfree : OpensNoComment (c :: rest)) :
    ∀ next ∈ (scan rest).head?, Adjacent (.char c) next := by
  intro next hnext
  rcases scan_cases rest with rfl | ⟨other, last, hother, hscan⟩ | ⟨d, last, rfl, hother, hscan⟩
  · simp [scan] at hnext
  · obtain rfl : Lexeme.literal other = next := by simpa [hscan] using hnext
    trivial
  · obtain rfl : Lexeme.char d = next := by simpa [hscan] using hnext
    exact (List.isChain_cons.mp hfree).1 d rfl

theorem lexical_scan (hfree : OpensNoComment text)
    (hplain : ∀ c ∈ (scan text).flatMap plain, isPlain c) : Lexical (scan text) := by
  fun_induction scan text with
  | case1 => exact ⟨by simp, by simp, .nil⟩
  | case2 c rest numeral after h hlength ih =>
      have htaken := Numeral.taken_of_split? h
      rw [← Numeral.text_append_of_split? h] at hfree
      rw [List.flatMap_cons, List.forall_mem_append] at hplain
      obtain ⟨hnumeral, hplain⟩ := hplain
      have hrest := ih (List.isChain_append.mp hfree).2.1 hplain
      refine ⟨?_, by simpa using hrest.char, List.isChain_cons.mpr
        ⟨adjacent_literal htaken hnumeral hplain, hrest.adjacent⟩⟩
      intro other hother
      rcases List.mem_cons.mp hother with heq | hmem
      · obtain rfl : other = numeral := Lexeme.literal.inj heq
        exact isDecimal_plain htaken hnumeral
      · exact hrest.decimal other hmem
  | case3 c rest h ih =>
      rw [List.flatMap_cons, List.forall_mem_append] at hplain
      obtain ⟨hc, hplain⟩ := hplain
      have hrest := ih (List.isChain_cons.mp hfree).2 hplain
      refine ⟨by simpa using hrest.decimal, ?_, List.isChain_cons.mpr
        ⟨adjacent_char hfree, hrest.adjacent⟩⟩
      intro d hd
      rcases List.mem_cons.mp hd with heq | hmem
      · obtain rfl : d = c := Lexeme.char.inj heq
        refine ⟨Numeral.isDigit_eq_false_of_split? h, or_iff_not_imp_left.mpr fun hpower => ?_⟩
        exact hc d (by simp [plain_char hpower])
      · exact hrest.char d hmem

end Lexeme

end Arithmetic

end Spreadsheet
