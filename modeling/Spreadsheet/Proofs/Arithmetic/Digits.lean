import Spreadsheet.Proofs.Arithmetic.Readings
import Spreadsheet.Proofs.Arithmetic.Spelling

/-!
# Text without digits

Where tokens hold no number, the text they come from holds no digit, unless a comment hides it.
-/

namespace Spreadsheet.Arithmetic

variable {text : List Char}

namespace Token

/-- A token that is no number takes no digit. -/
theorem exists_front_of_take? {sign : Bool} {text after : List Char} {token : Token}
    (h : take? sign text = some (token, after)) (hnumber : token.isNumber = false) :
    ∃ front, text = front ++ after ∧ ∀ d ∈ front, d.isDigit = false := by
  have hfront : ∀ front, text = front ++ after → (front.all fun d => !d.isDigit) = true →
      ∃ front, text = front ++ after ∧ ∀ d ∈ front, d.isDigit = false :=
    fun front htext hdigits => ⟨front, htext, by simpa using hdigits⟩
  unfold take? at h
  split at h
  case h_15 =>
    split at h <;> cases h
    · cases hnumber
    · exact hfront ['-'] rfl rfl
  case h_17 =>
    split at h <;> cases h
    cases hnumber
  all_goals cases h
  · exact hfront ['(', ')'] rfl rfl
  · exact hfront ['*', '*'] rfl rfl
  · exact hfront ['.', '.'] rfl rfl
  · exact hfront ['('] rfl rfl
  · exact hfront [')'] rfl rfl
  · exact hfront ['+'] rfl rfl
  · exact hfront ['*'] rfl rfl
  · exact hfront ['/'] rfl rfl
  · exact hfront ['.'] rfl rfl
  · exact hfront ['-'] rfl rfl

/-- Where no comment opens, every digit of plain notation is part of a number. -/
theorem not_isDigit_of_scan {sign : Bool} {script : List Char} {tokens : List Token}
    (hscan : scan sign script = some tokens) (hfree : Lexeme.OpensNoComment script)
    (hnumbers : ∀ token ∈ tokens, token.isNumber = false) : ∀ d ∈ script, d.isDigit = false := by
  induction hlength : script.length using Nat.strong_induction_on
    generalizing sign script tokens with
  | _ length ih =>
  subst hlength
  cases script with
  | nil => simp
  | cons c rest =>
      by_cases hc : c ∈ separators
      · rw [scan_separator hc] at hscan
        have hdigit : c.isDigit = false :=
          Bool.not_eq_true _ ▸ fun hdigit => not_mem_separators_of_isDigit hdigit hc
        exact List.forall_mem_cons.mpr
          ⟨hdigit, ih _ (by simp) hscan (List.isChain_cons.mp hfree).2 hnumbers rfl⟩
      · have hskip : skip (c :: rest) = c :: rest := by
          refine skip_cons hc fun hslash => ⟨fun hhead => ?_, fun hhead => ?_⟩
          · exact ((List.isChain_cons.mp hfree).1 _ hhead hslash).1 rfl
          · exact ((List.isChain_cons.mp hfree).1 _ hhead hslash).2.1 rfl
        cases htake : take? sign (c :: rest) with
        | none =>
            rw [scan_eq_none hskip htake] at hscan
            cases hscan
        | some pair =>
            obtain ⟨token, after⟩ := pair
            rw [scan_step hskip htake] at hscan
            obtain ⟨tail, htail, rfl⟩ := Option.map_eq_some_iff.mp hscan
            have hlt := length_lt_of_take? htake
            obtain ⟨front, htext, hfront⟩ := exists_front_of_take? htake (hnumbers _ (by simp))
            rw [htext] at hfree ⊢
            have hafter : Lexeme.OpensNoComment after := (List.isChain_append.mp hfree).2.1
            exact List.forall_mem_append.mpr ⟨hfront, ih _ hlt htail hafter
              (fun token htoken => hnumbers token (List.mem_cons_of_mem _ htoken)) rfl⟩

end Token

namespace Lexeme

theorem exists_isDigit_of_isDecimal (h : IsDecimal text) : ∃ d ∈ text, d.isDigit := by
  obtain ⟨whole, fraction, rfl, hwhole | hfraction, hdigits, hfractionDigits⟩ := h
  · obtain ⟨d, hd⟩ := List.exists_mem_of_ne_nil _ hwhole
    exact ⟨d, List.mem_append_left _ hd, hdigits d hd⟩
  · obtain ⟨d, hd⟩ := List.exists_mem_of_ne_nil _ hfraction
    refine ⟨d, List.mem_append_right _ ?_, hfractionDigits d hd⟩
    cases fraction with
    | none => simp at hd
    | some digits => exact List.mem_cons_of_mem _ hd

theorem slash_not_mem_of_isDecimal (h : IsDecimal text) : '/' ∉ text := by
  obtain ⟨whole, fraction, rfl, -, hdigits, hfractionDigits⟩ := h
  rw [List.mem_append]
  rintro (hwhole | hfraction)
  · exact absurd (hdigits _ hwhole) (by decide)
  · cases fraction with
    | none => cases hfraction
    | some digits =>
        obtain heq | hdigit := List.mem_cons.mp hfraction
        · exact absurd heq (by decide)
        · exact absurd (hfractionDigits _ hdigit) (by decide)

/-- No comment opens in plain notation either. -/
theorem Lexical.opensNoComment {lexemes : List Lexeme} (h : Lexical lexemes) :
    OpensNoComment (lexemes.flatMap plain) := by
  induction lexemes with
  | nil => exact .nil
  | cons lexeme lexemes ih =>
      rw [List.flatMap_cons]
      cases lexeme with
      | literal numeral =>
          exact opensNoComment_append (slash_not_mem_of_isDecimal (h.decimal numeral (by simp)))
            (ih h.tail)
      | char c =>
          have hadjacent := (List.isChain_cons.mp h.adjacent).1
          by_cases hpower : c = '^'
          · subst hpower
            refine List.isChain_append.mpr ⟨by simp [plain], ih h.tail, ?_⟩
            rintro c hc d - rfl
            simp [plain] at hc
          · rw [plain_char hpower]
            refine List.isChain_cons.mpr ⟨?_, ih h.tail⟩
            rintro d hd rfl
            obtain ⟨numeral, -, hdigit | rfl⟩ | ⟨e, hhead, -, heq⟩ := head?_script h.tail hd
            · refine ⟨?_, ?_, ?_⟩ <;> rintro rfl <;> exact absurd hdigit (by decide)
            · decide
            · obtain ⟨hslash, hstar, hcaret⟩ := hadjacent _ hhead rfl
              obtain rfl | ⟨rfl, rfl⟩ := heq
              · exact ⟨hslash, hstar, hcaret⟩
              · exact absurd rfl hcaret

/-- Text has no digit where its plain notation has none. -/
theorem Lexical.not_isDigit (h : Lexical (scan text))
    (hscript : ∀ d ∈ (scan text).flatMap plain, d.isDigit = false) :
    ∀ d ∈ text, d.isDigit = false := by
  intro d hd
  rw [← flatMap_text_scan text, List.mem_flatMap] at hd
  obtain ⟨lexeme, hlexeme, hd⟩ := hd
  cases lexeme with
  | literal numeral =>
      obtain ⟨e, he, hdigit⟩ := exists_isDigit_of_isDecimal (h.decimal numeral hlexeme)
      have hmem := List.mem_flatMap.mpr ⟨_, hlexeme, he⟩
      rw [hscript e hmem] at hdigit
      cases hdigit
  | char c =>
      obtain rfl : d = c := by simpa [Lexeme.text] using hd
      exact (h.char d hlexeme).1

end Lexeme

end Spreadsheet.Arithmetic
