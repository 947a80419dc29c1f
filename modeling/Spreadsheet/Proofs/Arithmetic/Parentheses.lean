import Spreadsheet.Arithmetic.Operations
import Spreadsheet.Proofs.Arithmetic.Sentences

/-!
# Numbers with and without parentheses

A number below zero is written in parentheses and others are not. Tokens can be read with the
parentheses if and only if they can be read without, but for the levels that it takes.
-/

namespace Spreadsheet.Arithmetic

/-! ### Tokens -/

namespace Token

theorem operator?_of_kind {token other : Token} (h : token.kind = other.kind) :
    token.operator? = other.operator? := by
  cases token <;> cases other <;> simp_all [kind, operator?]

theorem eq_of_kind {token other : Token} (h : token.kind = other.kind)
    (hnumber : ∀ value, token ≠ .number value) : other = token := by
  cases token <;> cases other <;> simp_all [kind]

theorem eq_number_of_kind {other : Token} {value : Float} (h : (number value).kind = other.kind) :
    ∃ value, other = .number value := by
  cases other <;> simp_all [kind]

theorem eq_dot_iff_of_kind {token other : Token} (h : token.kind = other.kind) :
    token = .dot ↔ other = .dot := by
  cases token <;> cases other <;> simp_all [kind]

/-- The tokens on the right are those on the left with other numbers, of which some have lost the
parentheses around them. A minus in front of such a number may then belong to it. -/
inductive Unwraps : Bool → List Token → List Token → Prop where
  | nil (sign : Bool) : Unwraps sign [] []
  | same {sign : Bool} {token other : Token} {tokens others : List Token}
    (hkind : token.kind = other.kind) (h : Unwraps token.allowsSign tokens others) :
    Unwraps sign (token :: tokens) (other :: others)
  | number {sign : Bool} {tokens others : List Token} (value other : Float)
    (h : Unwraps false tokens others) :
    Unwraps sign (.opening :: .number value :: .closing :: tokens) (.number other :: others)
  | signed {tokens others : List Token} (value other : Float) (h : Unwraps false tokens others) :
    Unwraps true (.minus :: .opening :: .number value :: .closing :: tokens)
      (.number other :: others)

theorem unwraps_of_kind {sign : Bool} {tokens others : List Token}
    (h : tokens.map kind = others.map kind) : Unwraps sign tokens others := by
  induction tokens generalizing sign others with
  | nil =>
      obtain rfl : others = [] := by simpa using h
      exact .nil sign
  | cons token tokens ih =>
      cases others with
      | nil => simp at h
      | cons other others =>
          rw [List.map_cons, List.map_cons, List.cons.injEq] at h
          exact .same h.1 (ih h.2)

namespace Unwraps

variable {sign : Bool} {token other : Token} {tokens others : List Token}

theorem eq_nil_iff (h : Unwraps sign tokens others) : tokens = [] ↔ others = [] := by
  cases h <;> simp

/-- A token that is neither number, minus nor parenthesis stays. -/
theorem of_cons (h : Unwraps sign (token :: tokens) others) (hnumber : ∀ value, token ≠ .number value)
    (hopening : token ≠ .opening) (hminus : sign = true → token ≠ .minus) :
    ∃ rest, others = token :: rest ∧ Unwraps token.allowsSign tokens rest := by
  cases h with
  | same hkind h =>
      rw [eq_of_kind hkind hnumber]
      exact ⟨_, rfl, h⟩
  | number value other h => exact absurd rfl hopening
  | signed value other h => exact absurd rfl (hminus rfl)

theorem nextOperator?_eq (h : Unwraps false tokens others) :
    nextOperator? others = nextOperator? tokens := by
  cases h with
  | nil => rfl
  | same hkind h => exact (operator?_of_kind hkind).symm
  | number value other h => rfl

theorem head?_dot (h : Unwraps false tokens others) :
    others.head? = some .dot ↔ tokens.head? = some .dot := by
  cases h with
  | nil => rfl
  | same hkind h => simpa using (eq_dot_iff_of_kind hkind).symm
  | number value other h => simp

theorem of_sign (h : Unwraps true tokens others) (hminus : tokens.head? ≠ some .minus) :
    Unwraps sign tokens others := by
  cases h with
  | nil => exact .nil sign
  | same hkind h => exact .same hkind h
  | number value other h => exact .number value other h
  | signed value other h => exact absurd rfl hminus

end Unwraps

end Token

/-! ### Readings -/

open Token (Unwraps)

structure Expression.Resembles (expression other : Expression) : Prop where
  means : expression.Means true
  shape : expression.shape = other.shape

namespace Expression.Resembles

variable {expression other right otherRight : Expression}

theorem number (value other : Float) : (Expression.number value).Resembles (.number other) :=
  ⟨means_number value, rfl⟩

theorem number_negate (value other : Float) :
    (Expression.number value).Resembles (.negate (.number other)) :=
  ⟨means_number value, rfl⟩

theorem negate_number (value other : Float) :
    (Expression.negate (.number value)).Resembles (.number other) :=
  ⟨negate_means (means_number value), rfl⟩

theorem negate (h : expression.Resembles other) :
    (Expression.negate expression).Resembles (.negate other) :=
  ⟨negate_means h.means, congrArg Shape.underSign h.shape⟩

theorem keep (h : expression.Resembles other) :
    (Expression.keep expression).Resembles (.keep other) :=
  ⟨keep_means h.means, congrArg Shape.underSign h.shape⟩

theorem binary {operator : Operator} (hoperator : operator ≠ .range)
    (h : expression.Resembles other) (hright : right.Resembles otherRight) :
    (Expression.binary operator expression right).Resembles (.binary operator other otherRight) :=
  ⟨binary_means hoperator h.means hright.means, congrArg₂ Shape.binary h.shape hright.shape⟩

end Expression.Resembles

def Task.withRoot (root : Expression) : Task → Task
  | .operators parent _ => .operators parent root
  | task => task

/-- Whether an expression may take the place of the operand that a task goes on from. -/
def Task.Admits (root : Expression) : Task → Prop
  | .operators _ own => root.Resembles own
  | _ => True

def Task.sign : Task → Bool
  | .operators _ _ | .operand => false
  | .expression | .signed | .right _ => true

namespace Reads

variable {task : Task} {levels parent : Nat} {tokens others rest : List Token} {value : Float}
  {root result other : Expression}

theorem number_in_parentheses (value : Float) (rest : List Token) :
    Reads .operand (levels + 2) (.opening :: .number value :: .closing :: rest) (.number value)
      rest :=
  .parentheses (.expression (.operand (.number value) (by simp)) (.stop (by
    rintro operator ⟨⟩)))

theorem eq_of_number_in_parentheses
    (h : Reads .operand levels (.opening :: .number value :: .closing :: tokens) result rest) :
    rest = tokens ∧ result = .number value := by
  cases h with
  | parentheses h =>
    cases h with
    | expression hroot h =>
      cases hroot with
      | operand hroot hdot =>
        cases hroot
        cases h with
        | stop hstops => exact ⟨rfl, rfl⟩
        | operator htoken => cases htoken

theorem not_minus (h : Reads .operand levels tokens result rest) : tokens.head? ≠ some .minus := by
  cases h <;> simp

theorem stops_iff_of_unwraps (h : Unwraps false tokens others) :
    Stops parent others ↔ Stops parent tokens := by
  rw [Stops, Stops, h.nextOperator?_eq]

/-- What can be read with numbers in parentheses can be read without, at the same levels, as an
expression of the same shape. -/
theorem unwrap (h : Reads task levels tokens result rest) (hresult : result.Means true)
    (hothers : Unwraps task.sign tokens others) (root : Expression) (hroot : task.Admits root) :
    ∃ other left, Reads (task.withRoot root) levels others other left ∧ other.Resembles result ∧
      Unwraps false rest left := by
  induction h generalizing others root with
  | number value =>
      cases hothers with
      | same hkind h =>
          obtain ⟨other, rfl⟩ := Token.eq_number_of_kind hkind
          exact ⟨_, _, .number other, .number other value, h⟩
  | unit => obtain ⟨_, ⟨⟩, ⟨⟩⟩ := hresult
  | parentheses h ih =>
      cases hothers with
      | same hkind hinner =>
          obtain rfl := Token.eq_of_kind hkind (by simp)
          obtain ⟨other, left, hreads, hother, hleft⟩ := ih hresult hinner root trivial
          obtain ⟨rest, rfl, hrest⟩ := hleft.of_cons (by simp) (by simp) (by simp)
          exact ⟨other, rest, .parentheses hreads, hother, hrest⟩
      | number value other hrest =>
          obtain ⟨rfl, rfl⟩ := eq_of_number_in_parentheses (.parentheses h)
          exact ⟨_, _, .number other, .number other value, hrest⟩
  | start => obtain ⟨_, ⟨⟩, ⟨⟩⟩ := hresult
  | negate h ih =>
      cases hothers with
      | same hkind hoperand =>
          obtain rfl := Token.eq_of_kind hkind (by simp)
          obtain ⟨other, left, hreads, hother, hleft⟩ :=
            ih (Expression.means_negate hresult) hoperand root trivial
          exact ⟨_, left, .negate hreads, hother.negate, hleft⟩
      | signed value other hrest =>
          cases h with
          | operand h hdot =>
              obtain ⟨rfl, rfl⟩ := eq_of_number_in_parentheses h
              exact ⟨_, _, .operand (.number other) (mt hrest.head?_dot.mp hdot),
                .number_negate other value, hrest⟩
  | keep h ih =>
      obtain ⟨_, rfl, hoperand⟩ := hothers.of_cons (by simp) (by simp) (by simp)
      obtain ⟨other, left, hreads, hother, hleft⟩ :=
        ih (Expression.means_keep hresult) hoperand root trivial
      exact ⟨_, left, .keep hreads, hother.keep, hleft⟩
  | operand h hdot ih =>
      have hminus := h.not_minus
      obtain ⟨other, left, hreads, hother, hleft⟩ := ih hresult (hothers.of_sign hminus) root trivial
      exact ⟨other, left, .operand hreads (mt hleft.head?_dot.mp hdot), hother, hleft⟩
  | missing => obtain ⟨_, ⟨⟩, ⟨⟩⟩ := hresult
  | right h ih =>
      obtain ⟨other, left, hreads, hother, hleft⟩ := ih hresult hothers root trivial
      exact ⟨other, left, .right hreads, hother, hleft⟩
  | stop h => exact ⟨root, others, .stop ((stops_iff_of_unwraps hothers).mpr h), hroot, hothers⟩
  | operator htoken hcontinues hoperand hright h ihoperand ihright ih =>
      obtain ⟨-, hmeans, hrightMeans, hoperator⟩ := hright.means_of_operator h hresult
      obtain ⟨-, hsign⟩ := Token.follows_operand htoken (hoperator rfl)
      cases hothers with
      | same hkind htokens =>
          rw [hsign] at htokens
          rw [Token.operator?_of_kind hkind] at htoken
          obtain ⟨operand, mid, hoperand, hlike, hmid⟩ := ihoperand hmeans htokens root trivial
          obtain ⟨right, between, hright, hlike, hbetween⟩ := ihright hrightMeans hmid operand hlike
          obtain ⟨other, left, hreads, hother, hleft⟩ :=
            ih hresult hbetween _ (.binary (hoperator rfl) hroot hlike)
          exact ⟨other, left, .operator htoken hcontinues hoperand hright hreads, hother, hleft⟩
      | number value other hrest => cases htoken
  | expression hfirst h ihfirst ih =>
      obtain ⟨first, mid, hfirst, hlike, hmid⟩ := ihfirst (h.root_means hresult) hothers root trivial
      obtain ⟨other, left, hreads, hother, hleft⟩ := ih hresult hmid first hlike
      exact ⟨other, left, .expression hfirst hreads, hother, hleft⟩

/-- What can be read with numbers out of parentheses can be read with them in, as an expression of
the same shape, if three more levels are allowed: one for the parentheses, one for what stands in
them, and one for a minus in front that no longer belongs to the number. -/
theorem wrap (h : Reads task levels others result rest) (hresult : result.Means true)
    (htokens : Unwraps task.sign tokens others) (root : Expression) (hroot : task.Admits root) :
    ∃ other left, Reads (task.withRoot root) (levels + 3) tokens other left ∧
      other.Resembles result ∧ Unwraps false left rest := by
  induction h generalizing tokens root with
  | number value =>
      cases htokens with
      | same hkind h =>
          obtain ⟨other, rfl⟩ := Token.eq_number_of_kind hkind.symm
          exact ⟨_, _, .number other, .number other value, h⟩
      | number other _ h =>
          exact ⟨_, _, number_in_parentheses other _, .number other value, h⟩
  | unit => obtain ⟨_, ⟨⟩, ⟨⟩⟩ := hresult
  | parentheses h ih =>
      cases htokens with
      | same hkind hinner =>
          obtain rfl := Token.eq_of_kind hkind.symm (by simp)
          obtain ⟨other, left, hreads, hother, hleft⟩ := ih hresult hinner root trivial
          cases hleft with
          | same hkind hrest =>
              obtain rfl := Token.eq_of_kind hkind.symm (by simp)
              exact ⟨other, _, .parentheses hreads, hother, hrest⟩
  | start => obtain ⟨_, ⟨⟩, ⟨⟩⟩ := hresult
  | negate h ih =>
      cases htokens with
      | same hkind hoperand =>
          obtain rfl := Token.eq_of_kind hkind.symm (by simp)
          obtain ⟨other, left, hreads, hother, hleft⟩ :=
            ih (Expression.means_negate hresult) hoperand root trivial
          exact ⟨_, left, .negate hreads, hother.negate, hleft⟩
  | keep h ih =>
      cases htokens with
      | same hkind hoperand =>
          obtain rfl := Token.eq_of_kind hkind.symm (by simp)
          obtain ⟨other, left, hreads, hother, hleft⟩ :=
            ih (Expression.means_keep hresult) hoperand root trivial
          exact ⟨_, left, .keep hreads, hother.keep, hleft⟩
  | operand h hdot ih =>
      by_cases hminus : tokens.head? = some .minus
      · cases htokens with
        | nil => cases hminus
        | same hkind hrest =>
            obtain rfl := Option.some.inj hminus
            obtain rfl := Token.eq_of_kind hkind (by simp)
            exact absurd rfl h.not_minus
        | number => cases hminus
        | signed other value hrest =>
            cases h
            have hdot' := mt hrest.head?_dot.mpr hdot
            exact ⟨_, _, .negate (.operand (number_in_parentheses other _) hdot'),
              .negate_number other value, hrest⟩
      · obtain ⟨other, left, hreads, hother, hleft⟩ := ih hresult (htokens.of_sign hminus) root trivial
        exact ⟨other, left, .operand hreads (mt hleft.head?_dot.mpr hdot), hother, hleft⟩
  | missing => obtain ⟨_, ⟨⟩, ⟨⟩⟩ := hresult
  | right h ih =>
      obtain ⟨other, left, hreads, hother, hleft⟩ := ih hresult htokens root trivial
      exact ⟨other, left, .right hreads, hother, hleft⟩
  | stop h => exact ⟨root, tokens, .stop ((stops_iff_of_unwraps htokens).mp h), hroot, htokens⟩
  | operator htoken hcontinues hoperand hright h ihoperand ihright ih =>
      obtain ⟨-, hmeans, hrightMeans, hoperator⟩ := hright.means_of_operator h hresult
      cases htokens with
      | same hkind htokens =>
          rw [← Token.operator?_of_kind hkind] at htoken
          obtain ⟨-, hsign⟩ := Token.follows_operand htoken (hoperator rfl)
          rw [hsign] at htokens
          obtain ⟨operand, mid, hoperand, hlike, hmid⟩ := ihoperand hmeans htokens root trivial
          obtain ⟨right, between, hright, hlike, hbetween⟩ := ihright hrightMeans hmid operand hlike
          obtain ⟨other, left, hreads, hother, hleft⟩ :=
            ih hresult hbetween _ (.binary (hoperator rfl) hroot hlike)
          exact ⟨other, left, .operator htoken hcontinues hoperand hright hreads, hother, hleft⟩
      | number value other hrest => cases htoken
  | expression hfirst h ihfirst ih =>
      obtain ⟨first, mid, hfirst, hlike, hmid⟩ := ihfirst (h.root_means hresult) htokens root trivial
      obtain ⟨other, left, hreads, hother, hleft⟩ := ih hresult hmid first hlike
      exact ⟨other, left, .expression hfirst hreads, hother, hleft⟩

end Reads

/-! ### Lexemes -/

inductive Lexeme.Unwraps : List Lexeme → List Lexeme → Prop where
  | nil : Unwraps [] []
  | same {lexemes others : List Lexeme} (lexeme : Lexeme) (h : Unwraps lexemes others) :
    Unwraps (lexeme :: lexemes) (lexeme :: others)
  | number {lexemes others : List Lexeme} {value other : Numeral}
    (hvalue : IsPointed (plain (.literal value))) (hother : IsPointed (plain (.literal other)))
    (h : Unwraps lexemes others) :
    Unwraps (.literal value :: lexemes) (.literal other :: others)
  | parentheses {lexemes others : List Lexeme} {value other : Numeral}
    (hvalue : IsPointed (plain (.literal value))) (hother : IsPointed (plain (.literal other)))
    (h : Unwraps lexemes others) :
    Unwraps (.char '(' :: .char '-' :: .literal value :: .char ')' :: lexemes)
      (.literal other :: others)

section Spelling

variable {sign : Bool} {lexemes others : List Lexeme} {tokens : List Token} {value : Numeral}

theorem EndsBefore.congr (h : EndsBefore value lexemes)
    (hliteral : ∀ other, others.head? ≠ some (.literal other))
    (hpoint : others.head? ≠ some (.char '.')) (hnil : others = [] → lexemes = []) :
    EndsBefore value others := by
  obtain ⟨c, digits, fraction, hplain, hc, hdigits, hfraction, hne⟩ := h.plain
  exact ⟨⟨c, digits, fraction, hplain, hc, hdigits, hfraction, fun heq => mt hnil (hne heq)⟩,
    hliteral, hpoint⟩

theorem endsBefore_of_isPointed (h : IsPointed (Lexeme.plain (.literal value)))
    (hliteral : ∀ other, lexemes.head? ≠ some (.literal other))
    (hpoint : lexemes.head? ≠ some (.char '.')) : EndsBefore value lexemes := by
  obtain ⟨whole, fraction, hplain, hwhole, hfraction, hdigits, hfractionDigits⟩ := h
  cases whole with
  | nil => exact absurd rfl hwhole
  | cons c digits =>
      exact ⟨⟨c, digits, some fraction, hplain, hdigits c (by simp),
        fun d hd => hdigits d (List.mem_cons_of_mem _ hd), hfractionDigits,
        fun heq => absurd (Option.some.inj heq) hfraction⟩, hliteral, hpoint⟩

theorem Spells.head?_of_proper (h : Spells false lexemes tokens) (hproper : Token.Proper false tokens) :
    (∀ other, lexemes.head? ≠ some (.literal other)) ∧ lexemes.head? ≠ some (.char '(') ∧
      lexemes.head? ≠ some (.char '.') := by
  cases h with
  | nil => simp
  | blank hc h =>
      refine ⟨by simp, ?_, ?_⟩ <;> rintro ⟨⟩ <;> exact absurd hc (by decide)
  | number value hnumeral h => cases hproper.1
  | char hc hnext hsign h =>
      refine ⟨by simp, ?_, ?_⟩ <;> rintro ⟨⟩ <;> cases hc
      exact absurd hproper.1 (by decide)
  | stars h => simp
  | caret h => simp

theorem Lexeme.Unwraps.head?_of_proper (h : Lexeme.Unwraps lexemes others)
    (hspells : Spells false lexemes tokens) (hproper : Token.Proper false tokens) :
    (∀ other, others.head? ≠ some (.literal other)) ∧ others.head? ≠ some (.char '.') := by
  obtain ⟨hliteral, hopening, hpoint⟩ := hspells.head?_of_proper hproper
  cases h with
  | nil => exact ⟨hliteral, hpoint⟩
  | same lexeme h => exact ⟨hliteral, hpoint⟩
  | number hvalue hother h => exact absurd rfl (hliteral _)
  | parentheses hvalue hother h => exact absurd rfl hopening

theorem Lexeme.Unwraps.eq_nil_iff (h : Lexeme.Unwraps lexemes others) :
    lexemes = [] ↔ others = [] := by
  cases h <;> simp

theorem Lexeme.Unwraps.endsBefore (h : Lexeme.Unwraps lexemes others)
    (hspells : Spells false lexemes tokens) (hproper : Token.Proper false tokens)
    (hvalue : IsPointed (plain (.literal value))) : EndsBefore value others :=
  endsBefore_of_isPointed hvalue (h.head?_of_proper hspells hproper).1
    (h.head?_of_proper hspells hproper).2

theorem Lexeme.Unwraps.endsBefore_same (h : Lexeme.Unwraps lexemes others)
    (hspells : Spells false lexemes tokens) (hproper : Token.Proper false tokens)
    (hvalue : EndsBefore value lexemes) : EndsBefore value others :=
  hvalue.congr (h.head?_of_proper hspells hproper).1 (h.head?_of_proper hspells hproper).2
    h.eq_nil_iff.mpr

theorem Lexeme.Unwraps.head?_char (h : Lexeme.Unwraps lexemes others) {c : Char}
    (hhead : others.head? = some (.char c)) : lexemes.head? = some (.char c) := by
  cases h with
  | same lexeme h => exact hhead
  | _ => cases hhead

theorem Lexeme.Unwraps.head?_char_of (h : Lexeme.Unwraps lexemes others) {c : Char}
    (hhead : lexemes.head? = some (.char c)) : c = '(' ∨ others.head? = some (.char c) := by
  cases h with
  | nil => cases hhead
  | same lexeme h => exact .inr hhead
  | number hvalue hother h => cases hhead
  | parentheses hvalue hother h =>
      cases hhead
      exact .inl rfl

theorem Lexeme.Unwraps.head?_literal (h : Lexeme.Unwraps lexemes others)
    (hhead : lexemes.head? = some (.literal value)) : ∃ other, others.head? = some (.literal other) := by
  cases h with
  | same lexeme h => exact ⟨value, hhead⟩
  | number hvalue hother h => exact ⟨_, rfl⟩
  | _ => cases hhead

theorem Lexeme.Unwraps.head?_of_ends (h : Lexeme.Unwraps lexemes others)
    (hends : EndsBefore value others) :
    (∀ other, lexemes.head? ≠ some (.literal other)) ∧ lexemes.head? ≠ some (.char '.') := by
  refine ⟨fun other hhead => ?_, fun hhead => ?_⟩
  · obtain ⟨other, hother⟩ := h.head?_literal hhead
    exact hends.not_literal other hother
  · exact hends.not_point ((h.head?_char_of hhead).resolve_left (by decide))

theorem Lexeme.Unwraps.endsBefore_of_ends {other : Numeral} (h : Lexeme.Unwraps lexemes others)
    (hends : EndsBefore other others) (hvalue : IsPointed (plain (.literal value))) :
    EndsBefore value lexemes :=
  endsBefore_of_isPointed hvalue (h.head?_of_ends hends).1 (h.head?_of_ends hends).2

theorem Lexeme.Unwraps.endsBefore_same_of_ends (h : Lexeme.Unwraps lexemes others)
    (hends : EndsBefore value others) : EndsBefore value lexemes :=
  hends.congr (h.head?_of_ends hends).1 (h.head?_of_ends hends).2 h.eq_nil_iff.mp

theorem Spells.of_parentheses
    (h : Spells sign (.char '(' :: .char '-' :: .literal value :: .char ')' :: lexemes) tokens) :
    ∃ n rest, tokens = .opening :: .number n :: .closing :: rest ∧ Spells false lexemes rest := by
  cases h with
  | blank hc h => exact absurd hc (by decide)
  | char hc hnext hsign h =>
    cases hc
    cases h with
    | blank hc h => exact absurd hc (by decide)
    | char hc hnext hsign h => exact absurd rfl (hsign rfl rfl value)
    | signed n hnumeral h =>
      cases h with
      | blank hc h => exact absurd hc (by decide)
      | char hc hnext hsign h =>
        cases hc
        exact ⟨n, _, rfl, h⟩

theorem Spells.in_parentheses (hvalue : IsPointed (Lexeme.plain (.literal value))) (n : Float)
    (h : Spells false lexemes tokens) :
    Spells sign (.char '(' :: .char '-' :: .literal value :: .char ')' :: lexemes)
      (.opening :: .number n :: .closing :: tokens) := by
  refine .char rfl (by simp [Token.clashes]) (by simp) (.signed n ?_ (.char rfl ?_ (by simp) h))
  · exact endsBefore_of_isPointed hvalue (by simp) (by simp)
  · simp [Token.clashes]

/-- Tokens that can follow each other are spelled without the parentheses too. -/
theorem Spells.unwrap (hunwraps : Lexeme.Unwraps lexemes others) (h : Spells sign lexemes tokens)
    (hproper : Token.Proper sign tokens) :
    ∃ unwrapped, Spells sign others unwrapped ∧ Unwraps sign tokens unwrapped := by
  induction hlength : lexemes.length using Nat.strong_induction_on
    generalizing sign lexemes others tokens with
  | _ length ih =>
  subst hlength
  have hih := fun {sign lexemes others tokens} hlt hunwraps hspells hproper =>
    @ih _ hlt sign lexemes others tokens hunwraps hspells hproper rfl
  cases hunwraps with
  | nil =>
      cases h
      exact ⟨[], .nil sign, .nil sign⟩
  | number hvalue hother hrest =>
      cases h with
      | number n hnumeral h =>
          obtain ⟨unwrapped, hspells, htokens⟩ := hih (by simp +arith) hrest h hproper.2
          exact ⟨_, .number n (hrest.endsBefore h hproper.2 hother) hspells,
            .same rfl htokens⟩
  | parentheses hvalue hother hrest =>
      obtain ⟨n, rest, rfl, hrestSpells⟩ := h.of_parentheses
      obtain ⟨unwrapped, hspells, htokens⟩ := hih (by simp +arith) hrest hrestSpells hproper.2.2.2
      exact ⟨_, .number n (hrest.endsBefore hrestSpells hproper.2.2.2 hother) hspells,
        .number n n htokens⟩
  | @same lexemes others lexeme hrest =>
      cases h with
      | blank hc h =>
          obtain ⟨unwrapped, hspells, htokens⟩ := hih (by simp +arith) hrest h hproper
          exact ⟨unwrapped, .blank hc hspells, htokens⟩
      | number n hnumeral h =>
          obtain ⟨unwrapped, hspells, htokens⟩ := hih (by simp +arith) hrest h hproper.2
          exact ⟨_, .number n (hrest.endsBefore_same h hproper.2 hnumeral) hspells,
            .same rfl htokens⟩
      | signed n hnumeral h =>
          cases hrest with
          | same _ hrest =>
              obtain ⟨unwrapped, hspells, htokens⟩ := hih (by simp +arith) hrest h hproper.2
              exact ⟨_, .signed n (hrest.endsBefore_same h hproper.2 hnumeral) hspells,
                .same rfl htokens⟩
          | number hvalue hother hrest =>
              obtain ⟨unwrapped, hspells, htokens⟩ := hih (by simp +arith) hrest h hproper.2
              exact ⟨_, .signed n (hrest.endsBefore h hproper.2 hother) hspells,
                .same rfl htokens⟩
      | @char _ c token _ _ hc hnext hsign h =>
          by_cases hjoins : c = '-' ∧ sign = true ∧ ∃ other, others.head? = some (.literal other)
          · -- the minus belongs to the number once its parentheses are gone
            obtain ⟨rfl, rfl, other, hhead⟩ := hjoins
            cases hc
            cases hrest with
            | nil => cases hhead
            | same _ hrest => exact absurd hhead (hsign rfl rfl _)
            | number hvalue hother hrest => exact absurd rfl (hsign rfl rfl _)
            | parentheses hvalue hother hrest =>
                obtain ⟨n, rest, rfl, hrestSpells⟩ := h.of_parentheses
                have hrestProper := hproper.2.2.2.2
                obtain ⟨unwrapped, hspells, htokens⟩ :=
                  hih (by simp +arith) hrest hrestSpells hrestProper
                exact ⟨_, .signed n (hrest.endsBefore hrestSpells hrestProper hother) hspells,
                  .signed n n htokens⟩
          · obtain ⟨unwrapped, hspells, htokens⟩ := hih (by simp +arith) hrest h hproper.2
            refine ⟨_, .char hc (fun d hd => hnext d (hrest.head?_char hd)) ?_ hspells,
              .same rfl htokens⟩
            exact fun hminus hs other hhead => hjoins ⟨hminus, hs, other, hhead⟩
      | stars h =>
          cases hrest with
          | same _ hrest =>
              obtain ⟨unwrapped, hspells, htokens⟩ := hih (by simp +arith) hrest h hproper.2
              exact ⟨_, .stars hspells, .same rfl htokens⟩
      | caret h =>
          obtain ⟨unwrapped, hspells, htokens⟩ := hih (by simp +arith) hrest h hproper.2
          exact ⟨_, .caret hspells, .same rfl htokens⟩

/-- What is spelled without the parentheses is spelled with them too. -/
theorem Spells.wrap (hunwraps : Lexeme.Unwraps lexemes others) (h : Spells sign others tokens) :
    ∃ wrapped, Spells sign lexemes wrapped ∧ Unwraps sign wrapped tokens := by
  induction hlength : others.length using Nat.strong_induction_on
    generalizing sign lexemes others tokens with
  | _ length ih =>
  subst hlength
  have hih := fun {sign lexemes others tokens} hlt hunwraps hspells =>
    @ih _ hlt sign lexemes others tokens hunwraps hspells rfl
  cases hunwraps with
  | nil =>
      cases h
      exact ⟨[], .nil sign, .nil sign⟩
  | number hvalue hother hrest =>
      cases h with
      | number n hnumeral h =>
          obtain ⟨wrapped, hspells, htokens⟩ := hih (by simp +arith) hrest h
          exact ⟨_, .number n (hrest.endsBefore_of_ends hnumeral hvalue) hspells,
            .same rfl htokens⟩
  | parentheses hvalue hother hrest =>
      cases h with
      | number n hnumeral h =>
          obtain ⟨wrapped, hspells, htokens⟩ := hih (by simp +arith) hrest h
          exact ⟨_, hspells.in_parentheses hvalue n, .number n n htokens⟩
  | @same lexemes others lexeme hrest =>
      cases h with
      | blank hc h =>
          obtain ⟨wrapped, hspells, htokens⟩ := hih (by simp +arith) hrest h
          exact ⟨wrapped, .blank hc hspells, htokens⟩
      | number n hnumeral h =>
          obtain ⟨wrapped, hspells, htokens⟩ := hih (by simp +arith) hrest h
          exact ⟨_, .number n (hrest.endsBefore_same_of_ends hnumeral) hspells,
            .same rfl htokens⟩
      | signed n hnumeral h =>
          cases hrest with
          | same _ hrest =>
              obtain ⟨wrapped, hspells, htokens⟩ := hih (by simp +arith) hrest h
              exact ⟨_, .signed n (hrest.endsBefore_same_of_ends hnumeral) hspells,
                .same rfl htokens⟩
          | number hvalue hother hrest =>
              obtain ⟨wrapped, hspells, htokens⟩ := hih (by simp +arith) hrest h
              exact ⟨_, .signed n (hrest.endsBefore_of_ends hnumeral hvalue) hspells,
                .same rfl htokens⟩
          | parentheses hvalue hother hrest =>
              -- in front of a parenthesis the minus is a token of its own
              obtain ⟨wrapped, hspells, htokens⟩ := hih (by simp +arith) hrest h
              exact ⟨_, .char rfl (by simp [Token.clashes]) (by simp)
                (hspells.in_parentheses hvalue n), .signed n n htokens⟩
      | char hc hnext hsign h =>
          obtain ⟨wrapped, hspells, htokens⟩ := hih (by simp +arith) hrest h
          refine ⟨_, .char hc ?_ ?_ hspells, .same rfl htokens⟩
          · intro d hd
            obtain rfl | hhead := hrest.head?_char_of hd
            · simp [Token.clashes]
            · exact hnext d hhead
          · intro hminus hs other hhead
            obtain ⟨other, hother⟩ := hrest.head?_literal hhead
            exact hsign hminus hs other hother
      | stars h =>
          cases hrest with
          | same _ hrest =>
              obtain ⟨wrapped, hspells, htokens⟩ := hih (by simp +arith) hrest h
              exact ⟨_, .stars hspells, .same rfl htokens⟩
      | caret h =>
          obtain ⟨wrapped, hspells, htokens⟩ := hih (by simp +arith) hrest h
          exact ⟨_, .caret hspells, .same rfl htokens⟩

end Spelling

end Spreadsheet.Arithmetic
