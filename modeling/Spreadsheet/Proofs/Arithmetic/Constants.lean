import Mathlib.Data.List.Basic
import Spreadsheet.Proofs.Arithmetic.Refilling
import Spreadsheet.Proofs.Evaluation.Traversal
import Spreadsheet.Proofs.Formula.Pieces
import Spreadsheet.Proofs.Graph.History

/-!
# Formulas of numerals

The only letters of a numeral are the markers of powers. A marker stands after a digit, or its power
has a sign, unless the numeral has a point right before the power; such a power has the form of a
reference.
-/

namespace Spreadsheet

namespace Numeral

/-- A point without digits after it, and then a power without a sign, as in `1.e5`. -/
def HidesReference (numeral : Numeral) : Prop :=
  numeral.fraction = some [] ∧ ∃ power ∈ numeral.power, power.sign = none

instance (numeral : Numeral) : Decidable numeral.HidesReference :=
  inferInstanceAs (Decidable (_ ∧ _))

variable {numeral : Numeral} {before after : List Char} {c : Char}

/-- A letter in a numeral is the marker of its power. -/
theorem exists_power_of_isAlpha (h : numeral.Taken [])
    (htext : numeral.text = before ++ c :: after) (hc : c.isAlpha) :
    ∃ power, numeral.power = some power ∧ before = numeral.whole ++ fractionText numeral.fraction ∧
      after = power.sign.toList ++ power.digits := by
  have hdigits : ∀ {digits : List Char}, (∀ d ∈ digits, d.isDigit) → c ∉ digits := by
    intro digits hdigits hmem
    rw [Cell.isAlpha_of_isDigit (hdigits c hmem)] at hc
    cases hc
  have hfraction : c ∉ fractionText numeral.fraction := by
    have hmem := hdigits h.fraction
    cases hfraction : numeral.fraction with
    | none => exact List.not_mem_nil
    | some digits =>
        rw [hfraction] at hmem
        rw [fractionText, List.mem_cons, not_or]
        exact ⟨by rintro rfl; exact absurd hc (by decide), hmem⟩
  have hfront : c ∉ numeral.whole ++ fractionText numeral.fraction :=
    List.not_mem_append (hdigits h.whole) hfraction
  cases hpower : numeral.power with
  | none =>
      have hmem : c ∈ numeral.whole ++ fractionText numeral.fraction := by
        have hc : c ∈ numeral.text := by simp [htext]
        simpa [text, hpower] using hc
      exact absurd hmem hfront
  | some power =>
      have htaken := h.power power hpower
      have hback : c ∉ power.sign.toList ++ power.digits := by
        refine List.not_mem_append ?_ (hdigits htaken.digits)
        rw [Option.mem_toList]
        intro hsign
        rcases htaken.sign c hsign with rfl | rfl <;> cases hc
      have hsplit : (numeral.whole ++ fractionText numeral.fraction) ++
          power.marker :: (power.sign.toList ++ power.digits) = before ++ c :: after := by
        rw [← htext]
        simp [text, hpower, PowerOfTen.text]
      obtain ⟨hbefore, -, hafter⟩ := (List.append_cons_inj_of_notMem hfront hback).mp hsplit
      exact ⟨power, rfl, hbefore.symm, hafter.symm⟩

/-- Before a power stands a digit, or a point without digits after it. -/
theorem fraction_eq_some_nil (h : numeral.Taken []) (hlast : ∀ c,
      (numeral.whole ++ fractionText numeral.fraction).getLast? = some c → c.isDigit = false) :
    numeral.fraction = some [] := by
  have hnil : ∀ front digits, numeral.whole ++ fractionText numeral.fraction = front ++ digits →
      (∀ d ∈ digits, d.isDigit) → digits = [] := by
    intro front digits heq hdigits
    by_contra hne
    have hnot : (digits.getLast hne).isDigit = false := by
      apply hlast
      rw [heq, List.getLast?_append_of_ne_nil _ hne, List.getLast?_eq_some_getLast hne]
    rw [hdigits _ (List.getLast_mem hne)] at hnot
    cases hnot
  cases hfraction : numeral.fraction with
  | none =>
      have hwhole := hnil [] numeral.whole (by simp [hfraction, fractionText]) h.whole
      simpa [hfraction, hwhole] using h.ne_nil
  | some digits =>
      have hdigits : ∀ d ∈ digits, d.isDigit := by simpa [hfraction] using h.fraction
      rw [hnil (numeral.whole ++ ['.']) digits (by simp [hfraction, fractionText]) hdigits]

end Numeral

namespace Arithmetic

open Formula

/-- Numerals, operators, parentheses and white space, with no two numerals side by side. -/
structure IsConstant (lexemes : List Lexeme) : Prop where
  literal : ∀ numeral, .literal numeral ∈ lexemes →
    Numeral.split? numeral.text = some (numeral, [])
  char : ∀ c, .char c ∈ lexemes → c ∈ ['+', '-', '*', '/', '^', '(', ')'] ++ Token.separators
  apart : lexemes.IsChain fun left right => (∃ c, left = .char c) ∨ ∃ c, right = .char c

theorem Lexeme.exists_of_flatMap_text_eq {lexemes : List Lexeme} {before after : List Char}
    {c : Char} (h : lexemes.flatMap Lexeme.text = before ++ c :: after) :
    ∃ front lexeme back left right, lexemes = front ++ lexeme :: back ∧
      before = front.flatMap Lexeme.text ++ left ∧ lexeme.text = left ++ c :: right ∧
      after = right ++ back.flatMap Lexeme.text := by
  induction lexemes generalizing before with
  | nil => simp at h
  | cons lexeme rest ih =>
      have hplace : (∃ left, before = lexeme.text ++ left ∧
            rest.flatMap Lexeme.text = left ++ c :: after) ∨
          ∃ right, lexeme.text = before ++ c :: right ∧
            after = right ++ rest.flatMap Lexeme.text := by
        rw [List.flatMap_cons, List.append_eq_append_iff] at h
        rcases h with ⟨left, rfl, hrest⟩ | ⟨right, htext, hrest⟩
        · exact .inl ⟨left, rfl, hrest⟩
        · cases right with
          | nil => exact .inl ⟨[], by simpa using htext.symm, hrest.symm⟩
          | cons d right =>
              obtain ⟨rfl, rfl⟩ := List.cons.inj hrest
              exact .inr ⟨right, htext, rfl⟩
      rcases hplace with ⟨left, rfl, hrest⟩ | ⟨right, htext, rfl⟩
      · obtain ⟨front, inner, back, left, right, rfl, rfl, htext, rfl⟩ := ih hrest
        exact ⟨lexeme :: front, inner, back, left, right, rfl, by simp, htext, rfl⟩
      · exact ⟨[], lexeme, rest, before, right, rfl, rfl, htext, rfl⟩

namespace IsConstant

variable {lexemes : List Lexeme}

theorem isWord_of_char (h : IsConstant lexemes) {c : Char} (hc : .char c ∈ lexemes) :
    Text.isWord c = false := by
  have hall : (['+', '-', '*', '/', '^', '(', ')'] ++ Token.separators).all
      (fun c => !Text.isWord c) = true := by decide
  simpa using List.all_eq_true.mp hall c (h.char c hc)

theorem ne_point_of_char (h : IsConstant lexemes) {c : Char} (hc : .char c ∈ lexemes) :
    c ≠ '.' := by
  rintro rfl
  exact absurd (h.char '.' hc) (by decide)

/-- What comes after a numeral is no other numeral. -/
theorem char_of_head? (h : IsConstant lexemes) {front back : List Lexeme} {numeral : Numeral}
    (hlexemes : lexemes = front ++ .literal numeral :: back) {c : Char}
    (hc : (back.flatMap Lexeme.text).head? = some c) : .char c ∈ lexemes := by
  cases back with
  | nil => cases hc
  | cons next back =>
      have hchain := h.apart
      rw [hlexemes, List.isChain_append] at hchain
      obtain ⟨d, rfl⟩ : ∃ d, next = .char d :=
        (List.isChain_cons_cons.mp hchain.2.1).1.resolve_left (by rintro ⟨d, ⟨⟩⟩)
      obtain rfl : d = c := by simpa [Lexeme.text] using hc
      simp [hlexemes]

theorem tail {lexeme : Lexeme} (h : IsConstant (lexeme :: lexemes)) : IsConstant lexemes where
  literal numeral hmem := h.literal numeral (List.mem_cons_of_mem _ hmem)
  char c hmem := h.char c (List.mem_cons_of_mem _ hmem)
  apart := (List.isChain_cons.mp h.apart).2

/-- The scanner of numerals finds those of the formula. -/
theorem scan_eq (h : IsConstant lexemes) :
    Lexeme.scan (lexemes.flatMap Lexeme.text) = lexemes := by
  induction lexemes with
  | nil => simp [Lexeme.scan]
  | cons lexeme rest ih =>
      rw [List.flatMap_cons]
      cases lexeme with
      | char c =>
          have hdigit := Text.not_numeral_of_not_isWord (h.isWord_of_char List.mem_cons_self)
          have hnone : Numeral.split? (c :: rest.flatMap Lexeme.text) = none :=
            Numeral.split?_eq_none hdigit.1 (h.ne_point_of_char List.mem_cons_self)
          exact (Lexeme.scan_cons hnone).trans (congrArg _ (ih h.tail))
      | literal numeral =>
          have halone := Numeral.taken_of_split? (h.literal numeral List.mem_cons_self)
          have hchar : ∀ c, (rest.flatMap Lexeme.text).head? = some c →
              .char c ∈ .literal numeral :: rest := fun c hc =>
            h.char_of_head? (List.nil_append _).symm hc
          have hnext : ∀ c, (rest.flatMap Lexeme.text).head? = some c →
              c.isDigit = false ∧ c ≠ 'e' ∧ c ≠ 'E' := fun c hc =>
            Text.not_numeral_of_not_isWord (h.isWord_of_char (hchar c hc))
          have htaken : numeral.Taken (rest.flatMap Lexeme.text) := halone.of_nil fun c hc =>
            ⟨(hnext c hc).1, h.ne_point_of_char (hchar c hc)⟩
          have hsplit := Numeral.split?_text_append htaken fun c hc => (hnext c hc).2
          exact (Lexeme.scan_of_split? hsplit).trans (congrArg _ (ih h.tail))

/-- A reference in a formula of numerals is hidden in one of them. -/
theorem exists_hidesReference (h : IsConstant lexemes) {reference : Reference}
    (hreference : reference ∈ references (lexemes.flatMap Lexeme.text)) :
    ∃ numeral, .literal numeral ∈ lexemes ∧ numeral.HidesReference := by
  obtain ⟨before, run, after, htext, hrun, hisReference, -⟩ := mem_references_iff.mp hreference
  have hword := isWord_of_isReference hisReference
  obtain ⟨letters, digits, rfl, hletters, hdigits, halpha, -⟩ := isReference_iff.mp hisReference
  obtain ⟨c, letters, rfl⟩ := List.exists_cons_of_ne_nil hletters
  have hplace : lexemes.flatMap Lexeme.text = before ++ c :: (letters ++ digits ++ after) := by
    rw [htext]
    simp
  obtain ⟨front, lexeme, back, left, right, rfl, rfl, hlexeme, hright⟩ :=
    Lexeme.exists_of_flatMap_text_eq hplace
  cases lexeme with
  | char d =>
      have hc : c ∈ Lexeme.text (.char d) := by simp [hlexeme]
      obtain rfl : c = d := by simpa [Lexeme.text] using hc
      have hnot := h.isWord_of_char (c := c) (by simp)
      rw [hword c (by simp)] at hnot
      cases hnot
  | literal numeral =>
      have htaken := Numeral.taken_of_split? (h.literal numeral (by simp))
      obtain ⟨power, hpower, rfl, rfl⟩ :=
        Numeral.exists_power_of_isAlpha htaken hlexeme (halpha c List.mem_cons_self)
      refine ⟨numeral, by simp, ?_, power, hpower, ?_⟩
      · apply Numeral.fraction_eq_some_nil htaken
        intro d hd
        have hnot : Text.isWord d = false := hrun.before d (by rw [List.getLast?_append, hd]; rfl)
        exact (Text.not_numeral_of_not_isWord hnot).1
      · -- after the letter the run goes on, which it does not with a sign
        cases hsign : power.sign with
        | none => rfl
        | some s =>
            have hhead : (letters ++ digits).head? = some s := by
              have hhead := congrArg List.head? hright
              rw [List.head?_append_of_ne_nil _ (List.append_ne_nil_of_right_ne_nil _ hdigits)]
                at hhead
              simpa [hsign] using hhead
            have hs := hword s (List.mem_cons_of_mem _ (List.mem_of_mem_head? hhead))
            rcases (htaken.power power hpower).sign s hsign with rfl | rfl <;>
              exact absurd hs (by decide)

theorem references_ne_nil (h : IsConstant lexemes) {numeral : Numeral}
    (hmem : .literal numeral ∈ lexemes) (hhides : numeral.HidesReference) :
    references (lexemes.flatMap Lexeme.text) ≠ [] := by
  obtain ⟨front, back, rfl⟩ := List.append_of_mem hmem
  obtain ⟨hfraction, power, hpower, hsign⟩ := hhides
  have htaken := (Numeral.taken_of_split? (h.literal numeral hmem)).power power hpower
  have htext : (front ++ .literal numeral :: back).flatMap Lexeme.text =
      (front.flatMap Lexeme.text ++ numeral.whole ++ ['.']) ++ (power.marker :: power.digits) ++
        back.flatMap Lexeme.text := by
    rw [Option.mem_def] at hpower
    simp [Lexeme.text, Numeral.text, hfraction, hpower, hsign, PowerOfTen.text,
      Numeral.fractionText]
  have hname : isReference (power.marker :: power.digits) := by
    refine isReference_iff.mpr ⟨[power.marker], power.digits, rfl, by simp, htaken.ne_nil, ?_,
      htaken.digits⟩
    rcases htaken.marker with hmarker | hmarker <;> simp [hmarker]
  refine List.ne_nil_of_mem (mem_references_iff.mpr ⟨_, _, _, htext, ?_, hname, rfl⟩)
  refine ⟨by simp, isWord_of_isReference hname, fun c hc => ?_, fun c hc => ?_⟩
  · obtain rfl : '.' = c := by simpa using hc
    decide
  · exact h.isWord_of_char (h.char_of_head? rfl hc)

theorem references_eq_nil_iff (h : IsConstant lexemes) :
    references (lexemes.flatMap Lexeme.text) = [] ↔
      ∀ numeral, .literal numeral ∈ lexemes → ¬ numeral.HidesReference := by
  constructor
  · exact fun hnone numeral hmem hhides => h.references_ne_nil hmem hhides hnone
  · intro hfree
    by_contra hne
    obtain ⟨reference, hreference⟩ := List.exists_mem_of_ne_nil _ hne
    obtain ⟨numeral, hmem, hhides⟩ := h.exists_hidesReference hreference
    exact hfree numeral hmem hhides

end IsConstant

end Arithmetic

/-! ### Formulas without references -/

namespace Formula

variable {body : List Char}

theorem splice_of_plain {pieces : List Piece} (h : ∀ token, .reference token ∉ pieces)
    (numbers : List Float) : splice numbers pieces = pieces.flatMap Piece.text := by
  induction pieces with
  | nil => rfl
  | cons piece rest ih =>
      cases piece with
      | plain text =>
          rw [splice, ih fun token hmem => h token (List.mem_cons_of_mem _ hmem)]
          rfl
      | reference token => exact absurd List.mem_cons_self (h token)

theorem body?_ofList (body : List Char) : body? (String.ofList ('=' :: body)) = some body := by
  simp [body?]

theorem targets_eq_nil (h : references body = []) :
    targets (String.ofList ('=' :: body)) = [] := by
  rw [targets, body?_ofList]
  dsimp only
  rw [← filterMap_cell_locate 0]
  exact congrArg (List.filterMap Reference.cell) h

end Formula

namespace Evaluator

open Formula

/-- The text of a formula without references reaches arithmetic as it is. -/
theorem run_of_references_eq_nil (evaluator : Evaluator) {body : List Char}
    (h : references body = []) (trail : Trail) :
    evaluator.run (String.ofList ('=' :: body)) trail =
      { value := evaluator.calculate body, trail, events := [.calculated body] } := by
  have hsplice : splice [] (pieces body) = body := by
    rw [splice_of_plain (references_eq_nil_iff.mp h), flatMap_text_pieces]
  have hanswer := answer_evaluateWith evaluator
    (evaluator.resolve (evaluator.limit - trail.depth) trail.chain) (String.ofList ('=' :: body))
    { resolved := trail.resolved, events := [] }
  rw [targets_eq_nil h, List.mapM_nil, Resolution.answer_pure] at hanswer
  dsimp only [valueAt, calculated] at hanswer
  rw [body?_ofList] at hanswer
  dsimp only at hanswer
  rw [hsplice] at hanswer
  unfold Resolution.answer at hanswer
  unfold run
  dsimp only
  rw [hanswer]
  rfl

end Evaluator

namespace Arithmetic

open Formula DependencyGraph

/-- The numerals of a formula are found whole by the scanner of numerals, and the search for
references finds nothing unless one of them hides a reference. Where none does, the formula has no
edges in a graph, its text reaches arithmetic as it is, and no raw text of a cell counts for its
value. -/
theorem constant_refers_to_no_cell (lexemes : List Lexeme) (h : IsConstant lexemes) :
    let body := lexemes.flatMap Lexeme.text
    let raw := String.ofList ('=' :: body)
    Lexeme.scan body = lexemes ∧
    (references body = [] ↔
      ∀ numeral, .literal numeral ∈ lexemes → ¬ numeral.HidesReference) ∧
    ((∀ numeral, .literal numeral ∈ lexemes → ¬ numeral.HidesReference) →
      dependencies raw = ∅ ∧
      (∀ changes cell, (ofChanges (changes ++ [.write cell raw])).referencesOf? cell = none) ∧
      ∀ (evaluator : Evaluator) trail, evaluator.run raw trail =
        { value := evaluator.calculate body, trail, events := [.calculated body] }) := by
  intro body raw
  refine ⟨h.scan_eq, h.references_eq_nil_iff, fun hfree => ?_⟩
  have hnone : references body = [] := h.references_eq_nil_iff.mpr hfree
  have hdependencies : dependencies raw = ∅ := by
    refine Std.ExtTreeSet.ext_mem fun target => ?_
    rw [mem_dependencies_iff, targets_eq_nil hnone]
    simp
  refine ⟨hdependencies, ?_, fun evaluator trail => evaluator.run_of_references_eq_nil hnone trail⟩
  intro changes cell
  have hgraph := mirrors_ofChanges (changes ++ [.write cell raw])
  rw [lastTexts_append_write] at hgraph
  rw [Option.eq_none_iff_forall_ne_some]
  intro targets htargets
  obtain ⟨heq, hne⟩ := hgraph.referencesOf?_eq_some_iff.mp htargets
  rw [Function.update_self, hdependencies] at heq
  exact hne heq.symm

def signedPower : List Lexeme :=
  [.literal ⟨['1'], none, some ⟨'e', none, ['5']⟩⟩, .char '+',
    .literal ⟨['1'], some [], some ⟨'e', some '+', ['5']⟩⟩]

theorem signed_power_refers_to_no_cell :
    IsConstant signedPower ∧
      (∀ numeral, .literal numeral ∈ signedPower → ¬ numeral.HidesReference) ∧
      dependencies (String.ofList ('=' :: signedPower.flatMap Lexeme.text)) = ∅ := by
  have hliterals : ∀ numeral, .literal numeral ∈ signedPower →
      Numeral.split? numeral.text = some (numeral, []) ∧ ¬ numeral.HidesReference := by
    intro numeral hmem
    simp only [signedPower, List.mem_cons, Lexeme.literal.injEq, reduceCtorEq, List.not_mem_nil,
      or_false, false_or] at hmem
    rcases hmem with rfl | rfl <;> decide
  have hconstant : IsConstant signedPower := by
    refine ⟨fun numeral hmem => (hliterals numeral hmem).1, ?_, ?_⟩
    · intro c hc
      obtain rfl : c = '+' := by simpa [signedPower] using hc
      decide
    · simp [signedPower]
  have hfree := fun numeral hmem => (hliterals numeral hmem).2
  exact ⟨hconstant, hfree, ((constant_refers_to_no_cell signedPower hconstant).2.2 hfree).1⟩

/-- In `1.e5` stands a reference to `E5`. -/
theorem unsigned_power_after_point_is_reference :
    ¬ ∀ lexemes, IsConstant lexemes → references (lexemes.flatMap Lexeme.text) = [] := by
  intro hnone
  let numeral : Numeral := ⟨['1'], some [], some ⟨'e', none, ['5']⟩⟩
  have hconstant : IsConstant [.literal numeral] := by
    refine ⟨?_, by simp, by simp⟩
    intro other hmem
    obtain rfl : other = numeral := by simpa using hmem
    decide
  exact hconstant.references_ne_nil List.mem_cons_self (by decide) (hnone _ hconstant)

end Arithmetic

end Spreadsheet
