import Spreadsheet.Formula
import Spreadsheet.Proofs.Arithmetic.Parentheses

/-!
# Text with other numbers in it

Where the numbers in a text are written anew, the text around them keeps its lexemes, provided that
its tokens could be read.
-/

namespace Spreadsheet

theorem Text.not_numeral_of_not_isWord {c : Char} (h : Text.isWord c = false) :
    c.isDigit = false ∧ c ≠ 'e' ∧ c ≠ 'E' := by
  simp only [Text.isWord, Bool.or_eq_false_iff, Char.isAlphanum] at h
  refine ⟨h.1.1.2, ?_, ?_⟩ <;> rintro rfl <;> exact absurd h.1.1.1 (by decide)

theorem Numeral.split?_point_ne_none {fraction rest : List Char} (hne : fraction ≠ [])
    (hdigits : ∀ c ∈ fraction, c.isDigit) : split? ('.' :: (fraction ++ rest)) ≠ none := by
  obtain ⟨d, digits, rfl⟩ := List.exists_cons_of_ne_nil hne
  have hd : d.isDigit := hdigits d (by simp)
  have hdrop : ('.' :: (d :: digits ++ rest)).dropWhile Char.isDigit = '.' :: (d :: digits ++ rest) := by
    simp
  rw [split?, hdrop]
  dsimp only
  rw [if_neg (by simp [splitFraction, hd])]
  split <;> simp

namespace Numeral.Taken

variable {numeral : Numeral} {rest front back : List Char} {c : Char}

theorem mem_power_text (h : numeral.Taken rest)
    (hc : c ∈ (numeral.power.map PowerOfTen.text).getD []) :
    c.isDigit ∨ c ∈ ['e', 'E', '+', '-'] := by
  cases hpower : numeral.power with
  | none => simp [hpower] at hc
  | some power =>
      have htaken := h.power power hpower
      simp only [hpower, Option.map_some, Option.getD_some, PowerOfTen.text, List.cons_append,
        List.mem_cons, List.mem_append, Option.mem_toList] at hc
      obtain rfl | hsign | hdigit := hc
      · right
        obtain hmarker | hmarker := htaken.marker <;> simp [hmarker]
      · right
        obtain rfl | rfl := htaken.sign c hsign <;> simp
      · exact .inl (htaken.digits c hdigit)

theorem mem_text (h : numeral.Taken rest) (hc : c ∈ numeral.text) :
    c.isDigit ∨ c ∈ ['.', 'e', 'E', '+', '-'] := by
  rw [Numeral.text, List.mem_append, List.mem_append] at hc
  obtain (hwhole | hfraction) | hpower := hc
  · exact .inl (h.whole c hwhole)
  · cases heq : numeral.fraction with
    | none => simp [heq, fractionText] at hfraction
    | some digits =>
        have hdigits := h.fraction
        rw [heq] at hfraction hdigits
        obtain rfl | hdigit := List.mem_cons.mp hfraction
        · exact .inr (by simp)
        · exact .inl (hdigits c hdigit)
  · exact (h.mem_power_text hpower).imp_right (List.mem_cons_of_mem _)

/-- Only digits stand before the point of a numeral. -/
theorem isDigit_of_text_eq (h : numeral.Taken rest) (htext : numeral.text = front ++ '.' :: back) :
    ∀ c ∈ front, c.isDigit := by
  have hpower : '.' ∉ (numeral.power.map PowerOfTen.text).getD [] := by
    intro hmem
    have hcases := h.mem_power_text hmem
    exact absurd hcases (by decide)
  have hwhole : '.' ∉ numeral.whole := fun hmem => absurd (h.whole _ hmem) (by decide)
  rw [Numeral.text] at htext
  cases hfraction : numeral.fraction with
  | none =>
      have hmem : '.' ∈ front ++ '.' :: back := by simp
      rw [← htext, hfraction, fractionText, List.append_nil] at hmem
      exact absurd (List.mem_append.mp hmem) (not_or.mpr ⟨hwhole, hpower⟩)
  | some digits =>
      have hdigits := h.fraction
      rw [hfraction] at htext hdigits
      have hback : '.' ∉ digits ++ (numeral.power.map PowerOfTen.text).getD [] := by
        refine fun hmem => (List.mem_append.mp hmem).elim (fun hdigit => ?_) hpower
        exact absurd (hdigits _ hdigit) (by decide)
      rw [fractionText, List.append_assoc, List.cons_append] at htext
      rw [← ((List.append_cons_inj_of_notMem hwhole hback).mp htext).1]
      exact h.whole

end Numeral.Taken

namespace Arithmetic

open Number (hasMinus pointed)

/-! ### Written numbers -/

theorem isPointed_plain {whole fraction : List Char} (hwhole : whole ≠ []) (hfraction : fraction ≠ [])
    (hdigits : ∀ c ∈ whole, c.isDigit) (hfractionDigits : ∀ c ∈ fraction, c.isDigit) :
    IsPointed (Lexeme.plain (.literal ⟨whole, some fraction, none⟩)) := by
  rw [Lexeme.plain]
  split
  · rename_i hfinite
    exact Numeral.isPointed_literal hfinite
  · refine ⟨whole, fraction, ?_, hwhole, hfraction, hdigits, hfractionDigits⟩
    simp [Numeral.text, Numeral.fractionText]

def Lexeme.written (minus : Bool) (numeral : Numeral) : List Lexeme :=
  if minus then [.char '(', .char '-', .literal numeral, .char ')'] else [.literal numeral]

theorem Lexeme.exists_scan_literal {n : Float} (h : n.isFinite) :
    ∃ numeral, IsPointed (plain (.literal numeral)) ∧
      ∀ rest, (∀ c, rest.head? = some c → Text.isWord c = false) →
        scan (Number.literal n ++ rest) = written (hasMinus n) numeral ++ scan rest := by
  obtain ⟨whole, fraction, hpointed, hwhole, hfraction, hdigits, hfractionDigits⟩ :=
    Number.isPointed_pointed h
  refine ⟨⟨whole, some fraction, none⟩,
    isPointed_plain hwhole hfraction hdigits hfractionDigits, fun rest hrest => ?_⟩
  have hscan : ∀ rest, (∀ c, rest.head? = some c → c.isDigit = false ∧ c ≠ 'e' ∧ c ≠ 'E') →
      scan (pointed n ++ rest) = .literal ⟨whole, some fraction, none⟩ :: scan rest := by
    intro rest hrest
    rw [hpointed, List.append_assoc, List.cons_append]
    exact scan_of_split? (Numeral.split?_of_pointed (.inl hwhole) hdigits hfractionDigits hrest)
  rw [Number.literal_eq, written]
  split
  · have hnone : ∀ c rest, c.isDigit = false → c ≠ '.' → scan (c :: rest) = .char c :: scan rest :=
      fun c rest hdigit hpoint => scan_cons (Numeral.split?_eq_none hdigit hpoint)
    simp only [List.cons_append, List.append_assoc]
    rw [hnone '(' _ (by decide) (by decide), hnone '-' _ (by decide) (by decide), hscan _ (by simp),
      hnone ')' _ (by decide) (by decide)]
    rfl
  · exact hscan rest fun c hc => Text.not_numeral_of_not_isWord (hrest c hc)

/-! ### Texts that differ in numbers -/

/-- Two texts that are the same but for numbers in some places, where no word character stands right
before or after. `start` tells whether a number may stand first. -/
inductive Refills (related : Float → Float → Prop) : Bool → List Char → List Char → Prop where
  | nil (start : Bool) : Refills related start [] []
  | char {start : Bool} {text other : List Char} (c : Char)
    (h : Refills related (!Text.isWord c) text other) :
    Refills related start (c :: text) (c :: other)
  | number {n m : Float} {text other : List Char} (hrelated : related n m)
    (hnext : ∀ c, text.head? = some c → Text.isWord c = false)
    (h : Refills related false text other) :
    Refills related true (Number.literal n ++ text) (Number.literal m ++ other)

inductive Lexeme.Refills (related : Float → Float → Prop) : List Lexeme → List Lexeme → Prop where
  | nil : Refills related [] []
  | same {lexemes others : List Lexeme} (lexeme : Lexeme) (h : Refills related lexemes others) :
    Refills related (lexeme :: lexemes) (lexeme :: others)
  | number {n m : Float} {value other : Numeral} {lexemes others : List Lexeme}
    (hrelated : related n m) (hvalue : IsPointed (plain (.literal value)))
    (hother : IsPointed (plain (.literal other))) (h : Refills related lexemes others) :
    Refills related (written (hasMinus n) value ++ lexemes) (written (hasMinus m) other ++ others)

theorem Lexeme.Refills.unwraps {related : Float → Float → Prop} {lexemes others : List Lexeme}
    (h : Lexeme.Refills related lexemes others)
    (hminus : ∀ n m, related n m → hasMinus m = true → hasMinus n = true) :
    Lexeme.Unwraps lexemes others := by
  induction h with
  | nil => exact .nil
  | same lexeme h ih => exact .same lexeme ih
  | @number n m _ _ _ _ hrelated hvalue hother h ih =>
      have himp := hminus n m hrelated
      cases hn : hasMinus n <;> cases hm : hasMinus m
      · exact .number hvalue hother ih
      · rw [hn, hm] at himp
        cases himp rfl
      · exact .parentheses hvalue hother ih
      · exact .same _ (.same _ (.number hvalue hother (.same _ ih)))

theorem Lexeme.Refills.symm {related : Float → Float → Prop} {lexemes others : List Lexeme}
    (h : Lexeme.Refills related lexemes others) :
    Lexeme.Refills (fun n m => related m n) others lexemes := by
  induction h with
  | nil => exact .nil
  | same lexeme h ih => exact .same lexeme ih
  | number hrelated hvalue hother h ih => exact .number hrelated hother hvalue ih

/-! ### What is read -/

def Lexeme.Separate : Lexeme → Lexeme → Prop
  | .literal _, .literal _ => False
  | .literal _, .char c => c ≠ '('
  | .char _, _ => True

structure Orderly (lexemes : List Lexeme) : Prop where
  char : ∀ c, .char c ∈ lexemes → c ≠ '.' ∧ c ≠ 'e' ∧ c ≠ 'E'
  separate : lexemes.IsChain Lexeme.Separate

namespace Orderly

variable {lexemes front back : List Lexeme} {c : Char} {numeral : Numeral}

theorem of_append (h : Orderly (front ++ back)) : Orderly back where
  char c hc := h.char c (List.mem_append_right _ hc)
  separate := (List.isChain_append.mp h.separate).2.1

theorem of_cons {lexeme : Lexeme} (h : Orderly (lexeme :: lexemes)) : Orderly lexemes :=
  (show Orderly ([lexeme] ++ lexemes) from h).of_append

theorem cons_char (hc : c ≠ '.' ∧ c ≠ 'e' ∧ c ≠ 'E') (h : Orderly lexemes) :
    Orderly (.char c :: lexemes) where
  char d hd := by
    obtain heq | hmem := List.mem_cons.mp hd
    · exact Lexeme.char.inj heq ▸ hc
    · exact h.char d hmem
  separate := List.isChain_cons.mpr ⟨fun _ _ => trivial, h.separate⟩

theorem cons_literal (hliteral : ∀ other, lexemes.head? ≠ some (.literal other))
    (hopening : lexemes.head? ≠ some (.char '(')) (h : Orderly lexemes) :
    Orderly (.literal numeral :: lexemes) where
  char d hd := h.char d (by simpa using hd)
  separate := by
    refine List.isChain_cons.mpr ⟨fun next hnext => ?_, h.separate⟩
    cases next with
    | literal other => exact absurd hnext (hliteral other)
    | char c =>
        rintro rfl
        exact hopening hnext

end Orderly

theorem Spells.orderly {sign : Bool} {lexemes : List Lexeme} {tokens : List Token}
    (h : Spells sign lexemes tokens) (hproper : Token.Proper sign tokens) : Orderly lexemes := by
  induction h with
  | nil => exact ⟨by simp, .nil⟩
  | blank hc h ih =>
      refine .cons_char ⟨?_, ?_, ?_⟩ (ih hproper) <;> rintro rfl <;> exact absurd hc (by decide)
  | number value hnumeral h ih =>
      obtain ⟨hliteral, hopening, -⟩ := h.head?_of_proper hproper.2
      exact .cons_literal hliteral hopening (ih hproper.2)
  | signed value hnumeral h ih =>
      obtain ⟨hliteral, hopening, -⟩ := h.head?_of_proper hproper.2
      exact .cons_char (by decide) (.cons_literal hliteral hopening (ih hproper.2))
  | char hc hnext hsign h ih =>
      refine .cons_char ⟨?_, ?_, ?_⟩ (ih hproper.2) <;> rintro rfl <;> cases hc
  | stars h ih => exact .cons_char (by decide) (.cons_char (by decide) (ih hproper.2))
  | caret h ih => exact .cons_char (by decide) (ih hproper.2)

/-! ### The scan of text with other numbers -/

section Scan

variable {related : Float → Float → Prop} {start : Bool} {front text other : List Char}

theorem last_not_word {c : Char} (hc : text = [] → Text.isWord c = false)
    (hlast : ∀ d, text.getLast? = some d → Text.isWord d = false) :
    ∀ d, (c :: text).getLast? = some d → Text.isWord d = false := by
  intro d hd
  cases text with
  | nil =>
      obtain rfl : c = d := by simpa using hd
      exact hc rfl
  | cons e text => exact hlast d (by simpa using hd)

theorem Refills.of_append (h : Refills related start (front ++ text) other) :
    (∃ start rest, other = front ++ rest ∧ Refills related start text rest) ∨
      ∃ left right n rest, front = left ++ right ∧ right ≠ [] ∧
        right ++ text = Number.literal n ++ rest ∧ (∃ m, related n m) ∧
        (left = [] → start = true) ∧ ∀ c, left.getLast? = some c → Text.isWord c = false := by
  induction front generalizing start other with
  | nil => exact .inl ⟨start, other, rfl, h⟩
  | cons c front ih =>
      generalize hall : c :: front ++ text = all at h
      cases h with
      | nil => cases hall
      | char d h =>
          obtain ⟨rfl, rfl⟩ := List.cons.inj hall
          obtain ⟨start, rest, rfl, hrest⟩ |
            ⟨left, right, n, rest, rfl, hne, heq, hrelated, hleft, hlast⟩ := ih h
          · exact .inl ⟨start, rest, rfl, hrest⟩
          · refine .inr ⟨c :: left, right, n, rest, rfl, hne, heq, hrelated, by simp, ?_⟩
            exact last_not_word (fun heq => by simpa using hleft heq) hlast
      | number hrelated hnext h =>
          exact .inr ⟨[], c :: front, _, _, rfl, by simp, hall, ⟨_, hrelated⟩, fun _ => rfl, by simp⟩

/-- A numeral that goes on into a written number ends at the point in it. -/
theorem split?_ne_none_of_straddle {numeral : Numeral} {right after rest : List Char} {n : Float}
    (htaken : numeral.Taken after) (htext : numeral.text = front ++ right) (hfront : front ≠ [])
    (hlast : ∀ c, front.getLast? = some c → Text.isWord c = false) (hright : right ≠ [])
    (h : right ++ after = Number.literal n ++ rest) (hfinite : n.isFinite) :
    Numeral.split? after ≠ none := by
  obtain ⟨whole, fraction, hpointed, hwhole, hfraction, hdigits, hfractionDigits⟩ :=
    Number.isPointed_pointed hfinite
  rw [Number.literal_eq] at h
  split at h
  · -- no numeral has a parenthesis in it
    obtain ⟨d, right, rfl⟩ := List.exists_cons_of_ne_nil hright
    obtain rfl : d = '(' := (List.cons.inj h).1
    have hmem := htaken.mem_text (c := '(') (by simp [htext])
    exact absurd hmem (by decide)
  · rw [hpointed, List.append_assoc, List.cons_append] at h
    obtain ⟨more, rfl, rfl⟩ | ⟨more, rfl, hmore⟩ := List.append_eq_append_iff.mp h
    · cases more with
      | nil => exact Numeral.split?_point_ne_none hfraction hfractionDigits
      | cons d more =>
          have hd := htaken.rest_digit d rfl
          rw [hdigits d (by simp)] at hd
          cases hd
    · cases more with
      | nil =>
          rw [← List.nil_append after, ← hmore]
          exact Numeral.split?_point_ne_none hfraction hfractionDigits
      | cons d more =>
          -- only digits stand before the point of a numeral, but here a number could start
          obtain rfl : '.' = d := (List.cons.inj hmore).1
          rw [← List.append_assoc] at htext
          have hfrontDigits := htaken.isDigit_of_text_eq htext
          have hnonword := hlast _ (List.getLast?_eq_some_getLast hfront)
          have hdigit := hfrontDigits _ (List.mem_append_left _ (List.getLast_mem hfront))
          rw [(Text.not_numeral_of_not_isWord hnonword).1] at hdigit
          cases hdigit

section Literal

variable {numeral : Numeral} {after : List Char} (htaken : numeral.Taken after)
  (horderly : Orderly (.literal numeral :: Lexeme.scan after))

include horderly

theorem split?_eq_none_of_orderly : Numeral.split? after = none := by
  cases h : Numeral.split? after with
  | none => rfl
  | some pair =>
      have hseparate := (List.isChain_cons.mp horderly.separate).1
      rw [Lexeme.scan_of_split? h] at hseparate
      exact (hseparate _ rfl).elim

theorem head?_of_orderly {c : Char} (hhead : after.head? = some c) :
    c ≠ '(' ∧ c ≠ '.' ∧ c ≠ 'e' ∧ c ≠ 'E' := by
  obtain ⟨rest, rfl⟩ := List.head?_eq_some_iff.mp hhead
  have hsplit := split?_eq_none_of_orderly horderly
  rw [Lexeme.scan_cons hsplit] at horderly
  exact ⟨(List.isChain_cons.mp horderly.separate).1 _ rfl, horderly.char c (by simp)⟩

include htaken

/-- After a numeral the texts go on alike. -/
theorem Refills.head?_eq {rest : List Char} (h : Refills related start after rest)
    (hfinite : ∀ n m, related n m → n.isFinite ∧ m.isFinite) : rest.head? = after.head? := by
  cases h with
  | nil => rfl
  | char c h => rfl
  | @number n m text other hrelated hnext h =>
      obtain ⟨c, hc, hkind⟩ := Number.head?_literal (hfinite n m hrelated).1
      have hhead : (Number.literal n ++ text).head? = some c := by rw [List.head?_append, hc]; rfl
      obtain rfl | hdigit := hkind
      · exact absurd rfl (head?_of_orderly horderly hhead).1
      · rw [htaken.rest_digit c hhead] at hdigit
        cases hdigit

end Literal

/-- A numeral in front is the same numeral in both texts. -/
theorem Refills.split?_eq {numeral : Numeral} {after : List Char} {c : Char}
    (h : Refills related (!Text.isWord c) text other)
    (hfinite : ∀ n m, related n m → n.isFinite ∧ m.isFinite)
    (hsplit : Numeral.split? (c :: text) = some (numeral, after))
    (horderly : Orderly (.literal numeral :: Lexeme.scan after)) :
    ∃ start rest, Numeral.split? (c :: other) = some (numeral, rest) ∧
      Refills related start after rest := by
  have htaken := Numeral.taken_of_split? hsplit
  have htext := Numeral.text_append_of_split? hsplit
  obtain ⟨d, front, hnumeral⟩ := List.exists_cons_of_ne_nil (Numeral.text_ne_nil_of_split? hsplit)
  rw [hnumeral, List.cons_append, List.cons.injEq] at htext
  obtain ⟨rfl, rfl⟩ := htext
  obtain ⟨start, rest, rfl, hrest⟩ | ⟨left, right, n, rest, rfl, hright, heq, ⟨m, hrelated⟩,
    hleft, hlast⟩ := h.of_append
  · refine ⟨start, rest, ?_, hrest⟩
    have hhead := hrest.head?_eq htaken horderly hfinite
    rw [← List.cons_append, ← hnumeral]
    refine Numeral.split?_text_append (htaken.congr hhead) fun c hc => ?_
    exact (head?_of_orderly horderly (hhead ▸ hc)).2.2
  · refine absurd (split?_eq_none_of_orderly horderly) (split?_ne_none_of_straddle htaken hnumeral
      (List.cons_ne_nil d left) ?_ hright heq (hfinite n m hrelated).1)
    exact last_not_word (fun heq => by simpa using hleft heq) hlast

/-- Text that reads as tokens keeps its lexemes when its numbers are written anew. -/
theorem Refills.scan (h : Refills related start text other)
    (hfinite : ∀ n m, related n m → n.isFinite ∧ m.isFinite)
    (horderly : Orderly (Lexeme.scan text)) :
    Lexeme.Refills related (Lexeme.scan text) (Lexeme.scan other) := by
  induction hlength : text.length using Nat.strong_induction_on generalizing start text other with
  | _ length ih =>
  subst hlength
  have hih := fun {start text other} hlt h horderly => @ih _ hlt start text other h horderly rfl
  cases h with
  | nil =>
      rw [Lexeme.scan]
      exact .nil
  | @number n m text other hrelated hnext h =>
      obtain ⟨hn, hm⟩ := hfinite n m hrelated
      obtain ⟨value, hvalue, hscan⟩ := Lexeme.exists_scan_literal hn
      obtain ⟨value', hvalue', hscan'⟩ := Lexeme.exists_scan_literal hm
      obtain ⟨c, hc, -⟩ := Number.head?_literal hn
      have hlength : 0 < (Number.literal n).length :=
        List.length_pos_iff.mpr fun heq => by simp [heq] at hc
      have hnext' : ∀ c, other.head? = some c → Text.isWord c = false := by
        cases h with
        | nil => simp
        | char c h => exact hnext
      rw [hscan _ hnext] at horderly ⊢
      rw [hscan' _ hnext']
      refine .number hrelated hvalue hvalue' (hih ?_ h horderly.of_append)
      rw [List.length_append]
      omega
  | @char _ text other c h =>
      obtain hnil | ⟨numeral, after, hsplit, hscan⟩ | ⟨d, rest, heq, hsplit, hscan⟩ :=
        Lexeme.scan_cases (c :: text)
      · cases hnil
      · rw [hscan] at horderly ⊢
        obtain ⟨start, rest, hsplit', hrest⟩ := h.split?_eq hfinite hsplit horderly
        rw [Lexeme.scan_of_split? hsplit']
        exact .same _ (hih (Numeral.length_lt_of_split? hsplit) hrest horderly.of_cons)
      · obtain ⟨rfl, rfl⟩ := List.cons.inj heq
        rw [hscan] at horderly ⊢
        have hsplit' : Numeral.split? (c :: other) = none :=
          Numeral.split?_eq_none (Numeral.isDigit_eq_false_of_split? hsplit)
            (horderly.char c (by simp)).1
        rw [Lexeme.scan_cons hsplit']
        exact .same _ (hih (by simp) h horderly.of_cons)

end Scan

end Arithmetic

end Spreadsheet
