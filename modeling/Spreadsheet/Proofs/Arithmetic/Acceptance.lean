import Spreadsheet.Proofs.Arithmetic.Digits
import Spreadsheet.Proofs.Arithmetic.Parentheses

/-!
# Acceptance of text as arithmetic

Text is rejected as no arithmetic if and only if no reading of it fits into the levels and the
operations allowed. How operations are counted is left open; a count only looks at the shape of the
expression that was read.
-/

namespace Spreadsheet.Arithmetic

/-- Whether text is turned down because of an error as no arithmetic, whatever it would come to. -/
def Error.isRejection : Error → Bool
  | .empty | .unsupported _ | .malformed => true
  | .notNumeric | .nonFinite => false

def Rejects (operations : Shape → Nat) (text : List Char) : Prop :=
  ∃ error, evaluateCounting operations (String.ofList text) = .error error ∧
    error.isRejection = true

/-- Text is read with at most the given number of levels, its evaluation takes no more operations
than allowed, and its operators meet operands that they work on. -/
def AcceptsWithin (operations : Shape → Nat) (levels : Nat) (text : List Char) : Prop :=
  ∃ script tokens root, plain text = .ok script ∧ Token.scan true script = some tokens ∧
    expression? levels tokens = some (root, []) ∧ operations root.shape ≤ operationLimit ∧
    root.meaning?.isSome

def ReadsAs (numeric : Bool) (shape : Shape) (levels : Nat) (text : List Char) : Prop :=
  ∃ tokens root, (∀ c ∈ (Lexeme.scan text).flatMap Lexeme.plain, isPlain c) ∧
    Token.scan true ((Lexeme.scan text).flatMap Lexeme.plain) = some tokens ∧
    Reads .expression levels tokens root [] ∧ root.Means numeric ∧ root.shape = shape

variable {operations : Shape → Nat} {shape : Shape} {levels : Nat} {text : List Char}

theorem Token.scan_of_separators {sign : Bool} (h : ∀ c ∈ text, c ∈ separators) :
    scan sign text = some [] := by
  induction text with
  | nil => exact scan_nil sign
  | cons c text ih =>
      rw [scan_separator (h c (by simp))]
      exact ih fun d hd => h d (List.mem_cons_of_mem _ hd)

theorem not_all_isBlank {script : List Char} {tokens : List Token} {root : Expression}
    (hplain : ∀ c ∈ script, isPlain c) (hscan : Token.scan true script = some tokens)
    (hreads : Reads .expression levels tokens root []) : script.all Text.isBlank = false := by
  by_contra hblank
  rw [Bool.not_eq_false, List.all_eq_true] at hblank
  have hseparators : ∀ c ∈ Text.blanks, isPlain c → c ∈ Token.separators := by
    simp [Text.blanks, isPlain, Token.separators]
  rw [Token.scan_of_separators fun c hc =>
    hseparators c (List.contains_iff_mem.mp (hblank c hc)) (hplain c hc)] at hscan
  obtain rfl := Option.some.inj hscan
  cases hreads with
  | expression hroot h =>
    cases hroot with
    | operand hroot hdot => cases hroot

theorem acceptsWithin_iff :
    AcceptsWithin operations levels text ↔
      ∃ numeric shape, operations shape ≤ operationLimit ∧ ReadsAs numeric shape levels text := by
  constructor
  · rintro ⟨script, tokens, root, hscript, hscan, hexpression, hoperations, hmeaning⟩
    obtain ⟨rfl, hplain, -⟩ := plain_eq_ok_iff.mp hscript
    obtain ⟨meaning, hmeaning⟩ := Option.isSome_iff_exists.mp hmeaning
    have hreads : Reads .expression levels tokens root [] := reads_iff.mpr hexpression
    exact ⟨meaning.isNumber, root.shape, hoperations, tokens, root, hplain, hscan, hreads,
      ⟨meaning, hmeaning, rfl⟩, rfl⟩
  · rintro ⟨numeric, _, hoperations, tokens, root, hplain, hscan, hreads, ⟨meaning, hmeaning, -⟩, rfl⟩
    have hexpression : expression? levels tokens = _ := reads_iff.mp hreads
    have hscript := plain_eq_ok_iff.mpr ⟨rfl, hplain, not_all_isBlank hplain hscan hreads⟩
    exact ⟨_, tokens, root, hscript, hscan, hexpression, hoperations, by simp [hmeaning]⟩

theorem isRejection_of_plain_eq_error {error : Error} (h : plain text = .error error) :
    error.isRejection = true := by
  unfold plain at h
  dsimp only at h
  split at h
  · cases h
    rfl
  · split at h <;> cases h
    rfl

theorem evaluatePlain_rejects_iff {script : List Char} :
    (∃ error, evaluatePlain operations script = .error error ∧ error.isRejection = true) ↔
      (affordable? operations script).bind Expression.meaning? = none := by
  unfold evaluatePlain
  cases (affordable? operations script).bind Expression.meaning? with
  | none => simp [Error.isRejection]
  | some meaning =>
      cases meaning with
      | number value => by_cases h : value.isFinite <;> simp [h, Error.isRejection]
      | _ => simp [Error.isRejection]

theorem rejects_iff : Rejects operations text ↔ ¬ AcceptsWithin operations levelLimit text := by
  rw [Rejects, evaluateCounting, String.toList_ofList]
  cases hplain : plain text with
  | error error =>
      have hrejection := isRejection_of_plain_eq_error hplain
      refine iff_of_true ⟨error, rfl, hrejection⟩ ?_
      rintro ⟨script, -, -, hscript, -⟩
      rw [hplain] at hscript
      cases hscript
  | ok script =>
      refine evaluatePlain_rejects_iff.trans ?_
      rw [← not_iff_not, not_not, ← ne_eq, Option.ne_none_iff_exists']
      constructor
      · rintro ⟨meaning, hsome⟩
        obtain ⟨root, hroot, hmeaning⟩ := Option.bind_eq_some_iff.mp hsome
        obtain ⟨tokens, hscan, hreads, hoperations⟩ := affordable?_eq_some_iff.mp hroot
        exact ⟨script, tokens, root, hplain, hscan, reads_iff.mp hreads, hoperations,
          by simp [hmeaning]⟩
      · rintro ⟨_, tokens, root, hscript, hscan, hexpression, hoperations, hmeaning⟩
        cases hplain.symm.trans hscript
        obtain ⟨meaning, hmeaning⟩ := Option.isSome_iff_exists.mp hmeaning
        have hreads : Reads .expression levelLimit tokens root [] := reads_iff.mpr hexpression
        have hroot := affordable?_eq_some_iff.mpr ⟨tokens, hscan, hreads, hoperations⟩
        exact ⟨meaning, Option.bind_eq_some_iff.mpr ⟨root, hroot, hmeaning⟩⟩

theorem ReadsAs.mono {numeric : Bool} (h : ReadsAs numeric shape levels text) {more : Nat}
    (hle : levels ≤ more) : ReadsAs numeric shape more text := by
  obtain ⟨tokens, root, hplain, hscan, hreads, hroot⟩ := h
  exact ⟨tokens, root, hplain, hscan, hreads.mono hle, hroot⟩

/-! ### Numbers -/

theorem isPlain_of_isPointed (h : IsPointed text) : ∀ c ∈ text, isPlain c := by
  obtain ⟨whole, fraction, rfl, -, -, hdigits, hfractionDigits⟩ := h
  intro c hc
  rw [List.mem_append, List.mem_cons] at hc
  obtain hwhole | rfl | hfraction := hc
  · simp [isPlain, hdigits c hwhole]
  · rfl
  · simp [isPlain, hfractionDigits c hfraction]

theorem Lexeme.Unwraps.plain_iff {lexemes others : List Lexeme}
    (h : Lexeme.Unwraps lexemes others) :
    (∀ c ∈ lexemes.flatMap Lexeme.plain, isPlain c) ↔
      ∀ c ∈ others.flatMap Lexeme.plain, isPlain c := by
  induction h with
  | nil => rfl
  | same lexeme h ih => simp only [List.flatMap_cons, List.forall_mem_append, ih]
  | number hvalue hother h ih =>
      simp only [List.flatMap_cons, List.forall_mem_append, ih,
        iff_true_intro (isPlain_of_isPointed hvalue), iff_true_intro (isPlain_of_isPointed hother)]
  | parentheses hvalue hother h ih =>
      simp only [List.flatMap_cons, List.forall_mem_append, ih,
        iff_true_intro (isPlain_of_isPointed hvalue), iff_true_intro (isPlain_of_isPointed hother)]
      simp [plain_char, isPlain]

theorem ReadsAs.spells (h : ReadsAs true shape levels text) (hfree : Lexeme.OpensNoComment text) :
    ∃ tokens root, Spells true (Lexeme.scan text) tokens ∧ Token.Proper true tokens ∧
      Reads .expression levels tokens root [] ∧ root.Means true ∧ root.shape = shape := by
  obtain ⟨tokens, root, hplain, hscan, hreads, hmeans, hshape⟩ := h
  obtain ⟨hspells, hsentence⟩ := spells_of_reads hfree hplain hscan hreads hmeans
  exact ⟨tokens, root, hspells, hsentence.proper, hreads, hmeans, hshape⟩

theorem readsAs_of_spells {tokens : List Token} {root : Expression}
    (hfree : Lexeme.OpensNoComment text)
    (hplain : ∀ c ∈ (Lexeme.scan text).flatMap Lexeme.plain, isPlain c)
    (hspells : Spells true (Lexeme.scan text) tokens)
    (hreads : Reads .expression levels tokens root []) (hmeans : root.Means true) :
    ReadsAs true root.shape levels text := by
  obtain ⟨others, hscan, hkind⟩ := scan_of_spells hspells (Lexeme.lexical_scan hfree hplain)
  have hunwraps : Token.Unwraps true tokens others := Token.unwraps_of_kind hkind.symm
  obtain ⟨other, left, hreads, hother, hleft⟩ := hreads.unwrap hmeans hunwraps root trivial
  obtain rfl := hleft.eq_nil_iff.mp rfl
  exact ⟨others, other, hplain, hscan, hreads, hother.means, hother.shape⟩

/-- Text that is read as something other than a number has no digits. -/
theorem ReadsAs.not_isDigit (h : ReadsAs false shape levels text)
    (hfree : Lexeme.OpensNoComment text) : ∀ d ∈ text, d.isDigit = false := by
  obtain ⟨tokens, root, hplain, hscan, hreads, hmeans, -⟩ := h
  obtain ⟨used, rfl, hused⟩ := hreads.exists_used_without_numbers hmeans
  rw [List.append_nil] at hscan
  have hlexical := Lexeme.lexical_scan hfree hplain
  exact hlexical.not_isDigit (Token.not_isDigit_of_scan hscan hlexical.opensNoComment hused)

end Spreadsheet.Arithmetic
