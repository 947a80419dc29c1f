import Spreadsheet.Proofs.Arithmetic.Acceptance
import Spreadsheet.Proofs.Arithmetic.Refilling

/-!
# Numbers in nested parentheses

Every pair of parentheses takes two levels, the pair of a number below zero like any other.
-/

namespace Spreadsheet.Arithmetic

open Number (hasMinus)

def nest {α : Type} (left right : α) : Nat → List α → List α
  | 0, inner => inner
  | pairs + 1, inner => left :: nest left right pairs inner ++ [right]

section Nest

variable {α : Type} {left right : α} {inner : List α}

theorem nest_nest (outer pairs : Nat) :
    nest left right outer (nest left right pairs inner) =
      nest left right (pairs + outer) inner := by
  induction outer with
  | zero => rfl
  | succ outer ih => rw [nest, ih, ← Nat.add_assoc, nest]

theorem nest_eq (pairs : Nat) :
    nest left right pairs inner =
      List.replicate pairs left ++ (inner ++ List.replicate pairs right) := by
  induction pairs with
  | zero => simp [nest]
  | succ pairs ih =>
      rw [nest, ih, List.replicate_succ, List.replicate_succ' (a := right)]
      simp only [List.append_assoc, List.cons_append]

theorem nest_succ_append (pairs : Nat) (rest : List α) :
    nest left right (pairs + 1) inner ++ rest =
      left :: (nest left right pairs inner ++ (right :: rest)) := by
  simp [nest]

theorem mem_nest {a : α} (pairs : Nat) (h : a ∈ nest left right pairs inner) :
    a = left ∨ a = right ∨ a ∈ inner := by
  induction pairs with
  | zero => exact .inr (.inr h)
  | succ pairs ih =>
      simp only [nest, List.cons_append, List.mem_cons, List.mem_append, List.not_mem_nil,
        or_false] at h
      tauto

theorem mem_nest_of_mem {a : α} (pairs : Nat) (h : a ∈ inner) :
    a ∈ nest left right pairs inner := by
  induction pairs with
  | zero => exact h
  | succ pairs ih => simp [nest, ih]

end Nest

variable {levels : Nat}

/-! ### Tokens -/

theorem Reads.lt_of_openings {tokens rest : List Token} {result : Expression} (pairs : Nat)
    (h : Reads .expression levels (List.replicate pairs .opening ++ tokens) result rest) :
    2 * pairs < levels := by
  induction pairs generalizing levels result rest with
  | zero =>
      cases h
      omega
  | succ pairs ih =>
      cases h with
      | expression hroot h =>
        cases hroot with
        | operand hroot hdot =>
          cases hroot with
          | parentheses hinner =>
            have hlt := ih hinner
            omega

theorem reads_nest (n : Float) (pairs : Nat) (rest : List Token) :
    Reads .operand (2 * pairs) (nest .opening .closing pairs [.number n] ++ rest) (.number n)
      rest := by
  induction pairs generalizing rest with
  | zero => exact .number n
  | succ pairs ih =>
      rw [nest_succ_append]
      exact .parentheses (.expression (.operand (ih _) (by simp)) (.stop (by rintro operator ⟨⟩)))

/-! ### Lexemes -/

def Lexeme.signed (minus : Bool) (numeral : Numeral) : List Lexeme :=
  if minus then [.char '-', .literal numeral] else [.literal numeral]

theorem Lexeme.written_eq (minus : Bool) (numeral : Numeral) :
    written minus numeral = nest (.char '(') (.char ')') minus.toNat (signed minus numeral) := by
  cases minus <;> rfl

theorem Lexeme.exists_scan_nest {n : Float} (h : n.isFinite) :
    ∃ numeral, IsPointed (plain (.literal numeral)) ∧ ∀ pairs rest,
      (∀ c, rest.head? = some c → Text.isWord c = false) →
        scan (nest '(' ')' pairs (Number.literal n) ++ rest) =
          nest (.char '(') (.char ')') ((hasMinus n).toNat + pairs) (signed (hasMinus n) numeral) ++
            scan rest := by
  obtain ⟨numeral, hpointed, hliteral⟩ := exists_scan_literal h
  refine ⟨numeral, hpointed, fun pairs rest hrest => ?_⟩
  rw [← nest_nest, ← written_eq]
  induction pairs generalizing rest with
  | zero => exact hliteral rest hrest
  | succ pairs ih =>
      rw [nest_succ_append, nest_succ_append, scan_cons (Numeral.split?_eq_none rfl (by decide)),
        ih _ (by rintro c ⟨⟩; rfl), scan_cons (Numeral.split?_eq_none rfl (by decide))]

theorem Spells.of_nest {sign : Bool} {lexemes rest : List Lexeme} {tokens : List Token}
    (pairs : Nat) (h : Spells sign (nest (.char '(') (.char ')') pairs lexemes ++ rest) tokens) :
    ∃ more, tokens = List.replicate pairs .opening ++ more := by
  induction pairs generalizing sign rest tokens with
  | zero => exact ⟨tokens, rfl⟩
  | succ pairs ih =>
      rw [nest_succ_append] at h
      cases h with
      | blank hc h => exact absurd hc (by decide)
      | char hc hnext hsign h =>
        cases hc
        obtain ⟨more, rfl⟩ := ih h
        exact ⟨more, rfl⟩

theorem Spells.nest {numeral : Numeral} {rest : List Lexeme} {tokens : List Token} (minus : Bool)
    (hpointed : IsPointed (Lexeme.plain (.literal numeral))) (n : Float) (pairs : Nat)
    (hliteral : ∀ other, rest.head? ≠ some (.literal other))
    (hpoint : rest.head? ≠ some (.char '.'))
    (h : Spells false rest tokens) :
    Spells true (nest (.char '(') (.char ')') pairs (Lexeme.signed minus numeral) ++ rest)
      (nest .opening .closing pairs [.number n] ++ tokens) := by
  induction pairs generalizing rest tokens with
  | zero =>
      have hends := endsBefore_of_isPointed hpointed hliteral hpoint
      cases minus with
      | true => exact .signed n hends h
      | false => exact .number n hends h
  | succ pairs ih =>
      rw [nest_succ_append, nest_succ_append]
      refine .char rfl ?_ (by simp) (ih (by simp) (by simp) (.char rfl ?_ (by simp) h))
      · cases pairs <;> cases minus <;> simp [Arithmetic.nest, Lexeme.signed, Token.clashes]
      · simp [Token.clashes]

theorem Lexeme.isPlain_nest {numeral : Numeral} (h : IsPointed (plain (.literal numeral)))
    (minus : Bool) (pairs : Nat) :
    ∀ c ∈ (nest (.char '(') (.char ')') pairs (signed minus numeral)).flatMap plain, isPlain c := by
  intro c hc
  obtain ⟨lexeme, hlexeme, hc⟩ := List.mem_flatMap.mp hc
  have hsign : ∀ d ∈ ['(', ')', '-'], ∀ c ∈ plain (.char d), isPlain c := by
    simp [plain, isPlain]
  obtain rfl | rfl | hlexeme := mem_nest pairs hlexeme
  · exact hsign '(' (by simp) c hc
  · exact hsign ')' (by simp) c hc
  · cases minus with
    | false =>
        obtain rfl := List.mem_singleton.mp hlexeme
        exact isPlain_of_isPointed h c hc
    | true =>
        obtain rfl | hlexeme := List.mem_cons.mp hlexeme
        · exact hsign '-' (by simp) c hc
        · obtain rfl := List.mem_singleton.mp hlexeme
          exact isPlain_of_isPointed h c hc

/-! ### Text -/

theorem opensNoComment_nest {n : Float} (h : n.isFinite) (pairs : Nat) :
    Lexeme.OpensNoComment (nest '(' ')' pairs (Number.literal n)) := by
  rw [← List.append_nil (nest _ _ _ _)]
  refine Lexeme.opensNoComment_append (fun hslash => ?_) .nil
  obtain heq | heq | hmem := mem_nest pairs hslash
  · exact absurd heq (by decide)
  · exact absurd heq (by decide)
  · exact Number.slash_not_mem_literal h hmem

/-- Where a constant takes no more operations than allowed, a number in parentheses is accepted if
and only if there are two levels for each pair, the pair of a number below zero included, and one for
the number. -/
theorem acceptsWithin_nest_iff {operations : Shape → Nat}
    (hoperations : operations .constant ≤ operationLimit) {n : Float} (h : n.isFinite) (pairs : Nat) :
    AcceptsWithin operations levels (nest '(' ')' pairs (Number.literal n)) ↔
      2 * ((hasMinus n).toNat + pairs) < levels := by
  obtain ⟨numeral, hpointed, hscan⟩ := Lexeme.exists_scan_nest h
  have hfree := opensNoComment_nest h pairs
  replace hscan := hscan pairs [] (by simp)
  rw [List.append_nil, Lexeme.scan] at hscan
  rw [acceptsWithin_iff]
  constructor
  · rintro ⟨numeric, shape, -, hreads⟩
    cases numeric with
    | false =>
        obtain ⟨d, hd, hdigit⟩ := Number.exists_isDigit_literal h
        rw [hreads.not_isDigit hfree d (mem_nest_of_mem pairs hd)] at hdigit
        cases hdigit
    | true =>
        obtain ⟨tokens, root, hspells, -, hreads, -⟩ := hreads.spells hfree
        rw [hscan] at hspells
        obtain ⟨more, rfl⟩ := hspells.of_nest
        exact hreads.lt_of_openings
  · intro hlevels
    have hoperand := reads_nest n ((hasMinus n).toNat + pairs) []
    have hreads := Reads.expression (.operand hoperand (by simp)) (.stop (by rintro operator ⟨⟩))
    have hspells := Spells.nest (hasMinus n) hpointed n ((hasMinus n).toNat + pairs)
      (by simp) (by simp) (.nil false)
    rw [← hscan] at hspells
    have hplain := Lexeme.isPlain_nest hpointed (hasMinus n) ((hasMinus n).toNat + pairs)
    rw [← List.append_nil (nest _ _ _ _), ← hscan] at hplain
    exact ⟨true, .constant, hoperations, readsAs_of_spells hfree hplain hspells (hreads.mono hlevels)
      (Expression.means_number n)⟩

end Spreadsheet.Arithmetic
