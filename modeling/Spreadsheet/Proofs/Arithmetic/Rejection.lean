import Spreadsheet.Proofs.Arithmetic.Assignments
import Spreadsheet.Proofs.Arithmetic.Nesting

/-!
# Which formulas are rejected

A formula is rejected for what stands around its references and not for their numbers, but for the
levels that the parentheses around numbers below zero take. Operations make no difference, however
they are counted: with any numbers, the expression that is read has the same shape.
-/

namespace Spreadsheet.Arithmetic

open Formula (assign pieces)
open Number (hasMinus)

variable {operations : Shape → Nat} {shape : Shape} {levels : Nat}

section Refills

variable {related : Float → Float → Prop} {text other : List Char}
  (hrefills : Refills related true text other) (hfree : Lexeme.OpensNoComment text)
  (hfree' : Lexeme.OpensNoComment other) (hfinite : ∀ n m, related n m → n.isFinite ∧ m.isFinite)

include hrefills hfree hfree' hfinite

/-- Text is still read as a number when minus signs go. -/
theorem ReadsAs.unwrap (h : ReadsAs true shape levels text)
    (hminus : ∀ n m, related n m → hasMinus m = true → hasMinus n = true) :
    ReadsAs true shape levels other := by
  obtain ⟨tokens, root, hspells, hproper, hreads, hmeans, rfl⟩ := h.spells hfree
  have hlexemes := (hrefills.scan hfinite (hspells.orderly hproper)).unwraps hminus
  obtain ⟨unwrapped, hspells', hunwraps⟩ := hspells.unwrap hlexemes hproper
  obtain ⟨other, left, hreads', hother, hleft⟩ := hreads.unwrap hmeans hunwraps root trivial
  obtain rfl := hleft.eq_nil_iff.mp rfl
  obtain ⟨_, _, hplain, -⟩ := h
  rw [← hother.shape]
  exact readsAs_of_spells hfree' (hlexemes.plain_iff.mp hplain) hspells' hreads' hother.means

/-- Text is still read as a number when minus signs come, if three more levels are allowed. -/
theorem ReadsAs.wrap (h : ReadsAs true shape levels text)
    (hminus : ∀ n m, related n m → hasMinus n = true → hasMinus m = true) :
    ReadsAs true shape (levels + 3) other := by
  obtain ⟨tokens, root, hspells, hproper, hreads, hmeans, rfl⟩ := h.spells hfree
  have hlexemes := (hrefills.scan hfinite (hspells.orderly hproper)).symm.unwraps
    fun n m hrelated => hminus m n hrelated
  obtain ⟨wrapped, hspells', hunwraps⟩ := hspells.wrap hlexemes
  obtain ⟨other, left, hreads', hother, hleft⟩ := hreads.wrap hmeans hunwraps root trivial
  obtain rfl := hleft.eq_nil_iff.mpr rfl
  obtain ⟨_, _, hplain, -⟩ := h
  rw [← hother.shape]
  exact readsAs_of_spells hfree' (hlexemes.plain_iff.mpr hplain) hspells' hreads' hother.means

end Refills

/-! ### Assignments -/

section Assignments

variable {body : List Char} (hfree : Lexeme.OpensNoComment body) {f g : Nat → Float}
  (hf : ∀ i, (f i).isFinite)

include hfree hf

theorem opensNoComment_assign_pieces : Lexeme.OpensNoComment (assign f (pieces body)) :=
  opensNoComment_assign (Formula.spaced_pieces body) hf (by rwa [Formula.flatMap_text_pieces])

theorem AcceptsWithin.assign_of_readsAs {more : Nat} (hle : levels ≤ more)
    (hnumber : ∀ shape, ReadsAs true shape levels (assign f (pieces body)) →
      ReadsAs true shape more (assign g (pieces body)))
    (h : AcceptsWithin operations levels (assign f (pieces body))) :
    AcceptsWithin operations more (assign g (pieces body)) := by
  rw [acceptsWithin_iff] at h ⊢
  obtain ⟨numeric, shape, hoperations, hreads⟩ := h
  cases numeric with
  | true => exact ⟨true, shape, hoperations, hnumber shape hreads⟩
  | false =>
      have hdigits := hreads.not_isDigit (opensNoComment_assign_pieces hfree hf)
      rw [← assign_eq_of_not_isDigit hf hdigits g]
      exact ⟨false, shape, hoperations, hreads.mono hle⟩

variable (hg : ∀ i, (g i).isFinite)

include hg

/-- What is accepted is still accepted when minus signs go. -/
theorem AcceptsWithin.assign_fewer (hminus : ∀ i, hasMinus (g i) = true → hasMinus (f i) = true)
    (h : AcceptsWithin operations levels (assign f (pieces body))) :
    AcceptsWithin operations levels (assign g (pieces body)) := by
  have hrefills : Refills (fun n m => (n.isFinite ∧ m.isFinite) ∧ (hasMinus m → hasMinus n)) true
      (assign f (pieces body)) (assign g (pieces body)) :=
    refills_assign (Formula.spaced_pieces body) (fun i => ⟨⟨hf i, hg i⟩, hminus i⟩) fun _ _ => rfl
  refine h.assign_of_readsAs hfree hf le_rfl fun shape hreads => ?_
  exact hreads.unwrap hrefills (opensNoComment_assign_pieces hfree hf)
    (opensNoComment_assign_pieces hfree hg) (fun _ _ h => h.1) fun _ _ h => h.2

/-- What is accepted is still accepted when minus signs come, if three more levels are allowed. -/
theorem AcceptsWithin.assign_more (hminus : ∀ i, hasMinus (f i) = true → hasMinus (g i) = true)
    (h : AcceptsWithin operations levels (assign f (pieces body))) :
    AcceptsWithin operations (levels + 3) (assign g (pieces body)) := by
  have hrefills : Refills (fun n m => (n.isFinite ∧ m.isFinite) ∧ (hasMinus n → hasMinus m)) true
      (assign f (pieces body)) (assign g (pieces body)) :=
    refills_assign (Formula.spaced_pieces body) (fun i => ⟨⟨hf i, hg i⟩, hminus i⟩) fun _ _ => rfl
  refine h.assign_of_readsAs hfree hf (Nat.le_add_right levels 3) fun shape hreads => ?_
  exact hreads.wrap hrefills (opensNoComment_assign_pieces hfree hf)
    (opensNoComment_assign_pieces hfree hg) (fun _ _ h => h.1) fun _ _ h => h.2

theorem AcceptsWithin.assign (h : AcceptsWithin operations levels (assign f (pieces body))) :
    AcceptsWithin operations (levels + 3) (assign g (pieces body)) := by
  let unsigned i := if hasMinus (f i) then 0 else f i
  have hzero : (0 : Float).isFinite ∧ hasMinus 0 = false := by decide +kernel
  have hunsigned : ∀ i, (unsigned i).isFinite ∧ hasMinus (unsigned i) = false := by
    intro i
    by_cases hminus : hasMinus (f i)
    · simpa [unsigned, hminus] using hzero
    · simpa [unsigned, hminus] using hf i
  have hfewer : AcceptsWithin operations levels (Formula.assign unsigned (pieces body)) :=
    h.assign_fewer hfree hf (fun i => (hunsigned i).1) fun i hi => by simp [(hunsigned i).2] at hi
  exact hfewer.assign_more hfree (fun i => (hunsigned i).1) hg
    fun i hi => by simp [(hunsigned i).2] at hi

end Assignments

/-- Whether a formula in which no comment opens is rejected depends on the numbers in the place of
its references only by their minus signs, and on these only by the levels of the parentheses around
them. That holds for every way of counting operations. -/
theorem rejection_of_assignments (operations : Shape → Nat) (body : List Char)
    (hfree : Lexeme.OpensNoComment body) (f g : Nat → Float) (hf : ∀ i, (f i).isFinite)
    (hg : ∀ i, (g i).isFinite) :
    ((∀ i, hasMinus (f i) = hasMinus (g i)) →
      (Rejects operations (assign f (pieces body)) ↔
        Rejects operations (assign g (pieces body)))) ∧
    ((∀ i, hasMinus (g i) = true → hasMinus (f i) = true) →
      Rejects operations (assign g (pieces body)) →
        Rejects operations (assign f (pieces body))) ∧
    (∀ levels, AcceptsWithin operations levels (assign f (pieces body)) →
      AcceptsWithin operations (levels + 3) (assign g (pieces body))) ∧
    (AcceptsWithin operations (levelLimit - 3) (assign f (pieces body)) →
      ¬ Rejects operations (assign g (pieces body))) := by
  have hfewer := fun {f g : Nat → Float} hf hg hminus h =>
    @AcceptsWithin.assign_fewer operations levelLimit body hfree f g hf hg hminus h
  refine ⟨fun hminus => ?_, fun hminus => ?_, fun levels h => h.assign hfree hf hg, fun h => ?_⟩
  · rw [rejects_iff, rejects_iff, not_iff_not]
    exact ⟨hfewer hf hg fun i hi => (hminus i).trans hi,
      hfewer hg hf fun i hi => (hminus i).symm.trans hi⟩
  · rw [rejects_iff, rejects_iff]
    exact mt (hfewer hf hg hminus)
  · rw [rejects_iff, not_not]
    exact h.assign hfree hf hg

/-! ### Where the numbers decide -/

theorem assign_nest {pairs : Nat} {token : List Char}
    (h : pieces (nest '(' ')' pairs token) =
      [.plain (List.replicate pairs '('), .reference token, .plain (List.replicate pairs ')')])
    (number : Nat → Float) :
    assign number (pieces (nest '(' ')' pairs token)) =
      nest '(' ')' pairs (Number.literal (number 0)) := by
  rw [h, nest_eq]
  simp only [assign, List.append_nil]

theorem operations_constant_le : Shape.operations .constant ≤ operationLimit := by
  decide

theorem five_and_minus_five :
    ((5 : Float).isFinite ∧ hasMinus 5 = false) ∧ (-5 : Float).isFinite ∧ hasMinus (-5) = true := by
  decide +kernel

theorem rejection_of_assignments_in_parentheses :
    Lexeme.OpensNoComment "(A1)".toList ∧ (5 : Float).isFinite ∧ (-5 : Float).isFinite ∧
      AcceptsWithin Shape.operations (levelLimit - 3)
        (assign (fun _ => 5) (pieces "(A1)".toList)) ∧
      ¬ Rejects Shape.operations (assign (fun _ => -5) (pieces "(A1)".toList)) := by
  obtain ⟨⟨hfive, hplus⟩, hminusFive, -⟩ := five_and_minus_five
  have hfree : Lexeme.OpensNoComment "(A1)".toList := by simp [Lexeme.OpensNoComment]
  have haccepts : AcceptsWithin Shape.operations (levelLimit - 3)
      (assign (fun _ => 5) (pieces (nest '(' ')' 1 ['A', '1']))) := by
    rw [assign_nest rfl, acceptsWithin_nest_iff operations_constant_le hfive, hplus]
    decide
  have hrejection := rejection_of_assignments Shape.operations _ hfree _ _ (fun _ => hfive)
    fun _ => hminusFive
  exact ⟨hfree, hfive, hminusFive, haccepts, hrejection.2.2.2 haccepts⟩

theorem assign_in_comment (n : Float) :
    assign (fun _ => n) (pieces "2//1E+A1".toList) = "2//1E+".toList ++ Number.literal n := by
  have hpieces : pieces "2//1E+A1".toList =
      [.plain ['2'], .plain ['/', '/'], .plain ['1', 'E'], .plain ['+'],
        .reference ['A', '1']] := rfl
  rw [hpieces]
  simp [assign]

theorem scan_power_in_comment :
    Lexeme.scan "2//1E+5.0".toList =
      [.literal ⟨['2'], none, none⟩, .char '/', .char '/',
        .literal ⟨['1'], none, some ⟨'E', some '+', ['5']⟩⟩, .literal ⟨[], some ['0'], none⟩] := by
  have hzero : Numeral.split? ".0".toList = some (⟨[], some ['0'], none⟩, []) := rfl
  have hpower : Numeral.split? "1E+5.0".toList =
      some (⟨['1'], none, some ⟨'E', some '+', ['5']⟩⟩, ".0".toList) := rfl
  have htwo : Numeral.split? "2//1E+5.0".toList =
      some (⟨['2'], none, none⟩, '/' :: '/' :: "1E+5.0".toList) := rfl
  rw [Lexeme.scan_of_split? htwo, Lexeme.scan_cons rfl, Lexeme.scan_cons rfl,
    Lexeme.scan_of_split? hpower, Lexeme.scan_of_split? hzero, Lexeme.scan]

theorem evaluate_power_in_comment : evaluate (String.ofList "2//1E+5.0".toList) = .ok 2 := by
  have hplain : plain "2//1E+5.0".toList = .ok "2.0//100000.00.0".toList := by
    rw [plain, scan_power_in_comment]
    decide +kernel
  have hskip : Token.skip ('/' :: '/' :: "100000.00.0".toList) = [] := by
    rw [Token.skip, show Token.afterLineComment "100000.00.0".toList = [] from rfl, Token.skip]
  have hsplit : Token.splitNumber '2' ".0//100000.00.0".toList =
      (⟨['2'], some ['0'], none⟩, '/' :: '/' :: "100000.00.0".toList) := rfl
  have hscan : Token.scan true ('2' :: ".0//100000.00.0".toList) = some [.number 2] := by
    rw [Token.scan_digit rfl, hsplit, Token.scan_eq, hskip]
    exact congrArg (fun n => some [Token.number n]) (by decide +kernel)
  rw [evaluate, evaluateCounting, String.toList_ofList, hplain]
  exact evaluatePlain_number hscan (by decide +kernel)

theorem rejects_letter_in_comment : Rejects Shape.operations "2//1E+(-5.0)".toList := by
  have hone : Numeral.split? "1E+(-5.0)".toList =
      some (⟨['1'], none, none⟩, 'E' :: "+(-5.0)".toList) := rfl
  have htwo : Numeral.split? "2//1E+(-5.0)".toList =
      some (⟨['2'], none, none⟩, '/' :: '/' :: "1E+(-5.0)".toList) := rfl
  rw [rejects_iff, acceptsWithin_iff]
  rintro ⟨numeric, shape, -, tokens, root, hplain, -⟩
  rw [Lexeme.scan_of_split? htwo, Lexeme.scan_cons rfl, Lexeme.scan_cons rfl,
    Lexeme.scan_of_split? hone, Lexeme.scan_cons rfl] at hplain
  have hletter := hplain 'E' (by simp [Lexeme.plain])
  exact absurd hletter (by decide)

/-- Around a number below zero the parentheses may be one pair too many, and in a comment a letter
may be left over that is part of a numeral before other numbers. -/
theorem numbers_decide_rejection :
    ((5 : Float).isFinite ∧ (-5 : Float).isFinite) ∧
      (¬ Rejects Shape.operations (assign (fun _ => 5) (pieces (nest '(' ')' 63 ['A', '1']))) ∧
        Rejects Shape.operations (assign (fun _ => -5) (pieces (nest '(' ')' 63 ['A', '1'])))) ∧
      ¬ Rejects Shape.operations (assign (fun _ => 5) (pieces "2//1E+A1".toList)) ∧
        Rejects Shape.operations (assign (fun _ => -5) (pieces "2//1E+A1".toList)) := by
  obtain ⟨⟨hfive, hplus⟩, hminusFive, hminus⟩ := five_and_minus_five
  have hpieces : pieces (nest '(' ')' 63 ['A', '1']) =
      [.plain (List.replicate 63 '('), .reference ['A', '1'], .plain (List.replicate 63 ')')] := by
    decide +kernel
  have hliterals : Number.literal 5 = "5.0".toList ∧ Number.literal (-5) = "(-5.0)".toList := by
    decide +kernel
  refine ⟨⟨hfive, hminusFive⟩, ⟨?_, ?_⟩, ?_, ?_⟩
  · rw [rejects_iff, not_not, assign_nest hpieces,
      acceptsWithin_nest_iff operations_constant_le hfive, hplus]
    decide
  · rw [rejects_iff, assign_nest hpieces,
      acceptsWithin_nest_iff operations_constant_le hminusFive, hminus]
    decide
  · rw [assign_in_comment, hliterals.1]
    rintro ⟨cause, hcause, -⟩
    cases evaluate_power_in_comment.symm.trans hcause
  · rw [assign_in_comment, hliterals.2]
    exact rejects_letter_in_comment

end Spreadsheet.Arithmetic
