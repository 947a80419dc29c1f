import Spreadsheet.Proofs.Arithmetic.Refilling

/-!
# Texts joined by an operator

A sign belongs to a numeral only right after the marker of a power. A marker that is still without
its digits is a letter on its own, and a text with such a letter has no plain notation. So the
numerals of two texts stay as they are where an operator, a parenthesis or a blank comes between.
-/

namespace Spreadsheet

namespace Numeral

theorem split?_point_eq_none {text : List Char}
    (h : ∀ c, text.head? = some c → c.isDigit = false) : split? ('.' :: text) = none := by
  have hfraction : text.takeWhile Char.isDigit = [] := by
    cases text with
    | nil => rfl
    | cons c rest => simp [h c rfl]
  simp [split?, splitFraction, hfraction]

/-- Where no numeral starts, none starts after more text behind it, unless this begins with a
digit. -/
theorem split?_append_eq_none {c : Char} {rest next : List Char} (h : split? (c :: rest) = none)
    (hnext : ∀ d, next.head? = some d → d.isDigit = false) :
    split? (c :: (rest ++ next)) = none := by
  by_cases hpoint : c = '.'
  · subst hpoint
    refine split?_point_eq_none fun d hd => ?_
    cases rest with
    | nil => exact hnext d hd
    | cons e rest =>
        obtain rfl : e = d := by simpa using hd
        by_contra hdigit
        exact split?_point_ne_none (List.cons_ne_nil e []) (by simpa using hdigit) h
  · exact split?_eq_none (isDigit_eq_false_of_split? h) hpoint

end Numeral

namespace Arithmetic

namespace Lexeme

variable {front back : List Char} {c : Char}

/-- A character that is no part of a numeral ends the numerals before it, if these are not followed
by a letter that could still be a marker. -/
theorem scan_append (hfront : ∀ d, .char d ∈ scan front → d ≠ 'e' ∧ d ≠ 'E')
    (hdigit : c.isDigit = false) (hpoint : c ≠ '.') (hmarker : c ≠ 'e' ∧ c ≠ 'E') :
    scan (front ++ c :: back) = scan front ++ .char c :: scan back := by
  fun_induction scan front with
  | case1 => exact scan_cons (Numeral.split?_eq_none hdigit hpoint)
  | case2 d rest numeral after h hlength ih =>
      have htaken := Numeral.taken_of_split? h
      have hjoined : numeral.Taken (after ++ c :: back) ∧
          ∀ e, (after ++ c :: back).head? = some e → e ≠ 'e' ∧ e ≠ 'E' := by
        cases after with
        | nil =>
            refine ⟨htaken.of_nil ?_, ?_⟩
            · rintro e ⟨⟩
              exact ⟨hdigit, hpoint⟩
            · rintro e ⟨⟩
              exact hmarker
        | cons e after =>
            refine ⟨htaken.congr rfl, ?_⟩
            rintro e ⟨⟩
            -- a marker right after a numeral would be a character of its own
            by_contra hletter
            have hnone : Numeral.split? (e :: after) = none := by
              refine Numeral.split?_eq_none (htaken.rest_digit e rfl) ?_
              rintro rfl
              exact hletter (by decide)
            rw [scan_cons hnone] at hfront
            exact hletter (hfront e (by simp))
      have hsplit := Numeral.split?_text_append hjoined.1 hjoined.2
      rw [← List.append_assoc, Numeral.text_append_of_split? h] at hsplit
      rw [scan_of_split? hsplit, ih fun e he => hfront e (List.mem_cons_of_mem _ he)]
      rfl
  | case3 d rest h ih =>
      have hnone : Numeral.split? (d :: (rest ++ c :: back)) = none := by
        refine Numeral.split?_append_eq_none h ?_
        rintro e ⟨⟩
        exact hdigit
      rw [List.cons_append, scan_cons hnone, ih fun e he => hfront e (List.mem_cons_of_mem _ he)]
      rfl

/-- A text in plain notation had no letter outside its numerals. -/
theorem ne_marker_of_isPlain {text : List Char} {d : Char}
    (hplain : ∀ c ∈ (scan text).flatMap plain, isPlain c) (hd : .char d ∈ scan text) :
    d ≠ 'e' ∧ d ≠ 'E' := by
  have hletter : d ≠ '^' → isPlain d := fun hpower =>
    hplain d (List.mem_flatMap.mpr ⟨_, hd, by simp [plain_char hpower]⟩)
  constructor <;> rintro rfl <;> exact absurd (hletter (by decide)) (by decide)

end Lexeme

def operatorChars : List Char :=
  ['+', '-', '*', '/', '^', '(', ')']

/-- What a character that stands between two texts is in plain notation. -/
def plainChar (c : Char) : List Char :=
  if c = '^' then ['*', '*'] else [c]

theorem Lexeme.plain_char_eq (c : Char) : plain (.char c) = plainChar c := by
  unfold plainChar
  split
  · rename_i hpower
    rw [hpower]
    rfl
  · exact plain_char ‹_›

theorem isPlain_plainChar {c : Char} (h : c = '^' ∨ isPlain c) : ∀ d ∈ plainChar c, isPlain d := by
  unfold plainChar
  split
  · simp [isPlain]
  · simpa using h.resolve_left ‹_›

/-- Where an operator, a parenthesis or a blank stands between two texts, the plain notation of the
whole is that of the two texts with the same character in between, or with two stars for a power. -/
theorem plain_of_texts_joined (front back left right : List Char) (c : Char)
    (hfront : plain front = .ok left) (hback : plain back = .ok right)
    (hc : c ∈ operatorChars ∨ c ∈ Token.separators) :
    plain (front ++ c :: back) = .ok (left ++ plainChar c ++ right) := by
  obtain ⟨rfl, hleft, hblank⟩ := plain_eq_ok_iff.mp hfront
  obtain ⟨rfl, hright, -⟩ := plain_eq_ok_iff.mp hback
  have hkind : ∀ c ∈ operatorChars ++ Token.separators,
      c.isDigit = false ∧ c ≠ '.' ∧ (c ≠ 'e' ∧ c ≠ 'E') ∧ (c = '^' ∨ isPlain c) := by
    rw [← List.forall_iff_forall_mem]
    decide
  obtain ⟨hdigit, hpoint, hmarker, hplain⟩ := hkind c (List.mem_append.mpr hc)
  have hscan : Lexeme.scan (front ++ c :: back) =
      Lexeme.scan front ++ .char c :: Lexeme.scan back :=
    Lexeme.scan_append (fun d => Lexeme.ne_marker_of_isPlain hleft) hdigit hpoint hmarker
  rw [plain_eq_ok_iff, hscan, List.flatMap_append, List.flatMap_cons, Lexeme.plain_char_eq,
    List.append_assoc]
  refine ⟨rfl, ?_, ?_⟩
  · simp only [List.forall_mem_append]
    exact ⟨hleft, isPlain_plainChar hplain, hright⟩
  · rw [List.all_append, hblank, Bool.false_and]

/-- The minus after a power is not taken for its sign, and the one in the power is. -/
theorem plain_of_powers_joined :
    plain "1e5".toList = .ok "100000.0".toList ∧ plain "2E-1 ".toList = .ok "0.2 ".toList ∧
      '-' ∈ operatorChars ∧ plain "1e5-2E-1 ".toList = .ok "100000.0-0.2 ".toList := by
  have hleft : plain "1e5".toList = .ok "100000.0".toList := by
    have hpower : Numeral.split? "1e5".toList = some (⟨['1'], none, some ⟨'e', none, ['5']⟩⟩, []) :=
      rfl
    rw [plain, Lexeme.scan_of_split? hpower, Lexeme.scan]
    decide +kernel
  have hright : plain "2E-1 ".toList = .ok "0.2 ".toList := by
    have hpower : Numeral.split? "2E-1 ".toList =
        some (⟨['2'], none, some ⟨'E', some '-', ['1']⟩⟩, [' ']) := rfl
    rw [plain, Lexeme.scan_of_split? hpower, Lexeme.scan_cons rfl, Lexeme.scan]
    decide +kernel
  have hminus : '-' ∈ operatorChars := by decide
  exact ⟨hleft, hright, hminus,
    plain_of_texts_joined "1e5".toList "2E-1 ".toList _ _ '-' hleft hright (.inl hminus)⟩

end Arithmetic

end Spreadsheet
