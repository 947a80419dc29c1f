import Spreadsheet.Arithmetic.Evaluate
import Spreadsheet.Proofs.Arithmetic.Readings
import Spreadsheet.Proofs.Arithmetic.Spelling

/-!
# Sentences of arithmetic

Text that comes to a number is a sentence of the grammar of arithmetic, read in the text itself and
not in its plain notation.
-/

namespace Spreadsheet.Arithmetic

/-! ### Sentences of tokens -/

namespace Token

inductive Sentence : List Token → Prop where
  | number (value : Float) : Sentence [.number value]
  | parentheses {tokens : List Token} (h : Sentence tokens) :
    Sentence (.opening :: (tokens ++ [.closing]))
  | sign {token : Token} {tokens : List Token} (htoken : token = .plus ∨ token = .minus)
    (h : Sentence tokens) : Sentence (token :: tokens)
  | binary {token : Token} {operator : Operator} {left right : List Token}
    (htoken : token.operator? = some operator) (hoperator : operator ≠ .range)
    (hleft : Sentence left) (hright : Sentence right) : Sentence (left ++ token :: right)

theorem follows_operand {token : Token} {operator : Operator}
    (htoken : token.operator? = some operator) (hoperator : operator ≠ .range) :
    token.closesOperand = true ∧ token.allowsSign = true := by
  cases token <;> simp_all [operator?, closesOperand, allowsSign]

theorem Sentence.proper_append {tokens : List Token} (h : Sentence tokens) :
    ∀ rest, Proper false rest → Proper true (tokens ++ rest) := by
  induction h with
  | number value => exact fun rest hrest => ⟨rfl, hrest⟩
  | parentheses h ih =>
      intro rest hrest
      rw [List.cons_append, List.append_assoc]
      exact ⟨rfl, ih _ ⟨rfl, hrest⟩⟩
  | sign htoken h ih =>
      intro rest hrest
      obtain rfl | rfl := htoken <;> exact ⟨rfl, ih rest hrest⟩
  | binary htoken hoperator hleft hright ihleft ihright =>
      intro rest hrest
      rw [List.append_assoc, List.cons_append]
      obtain ⟨hcloses, hsign⟩ := follows_operand htoken hoperator
      exact ihleft _ ⟨hcloses, hsign ▸ ihright rest hrest⟩

theorem Sentence.proper {tokens : List Token} (h : Sentence tokens) : Proper true tokens := by
  simpa using h.proper_append [] trivial

end Token

/-- What the tokens used for a task make of the operand that was read before. -/
def Task.Completes (task : Task) (used : List Token) : Prop :=
  match task with
  | .operators _ _ => ∀ left, Token.Sentence left → Token.Sentence (left ++ used)
  | _ => Token.Sentence used

theorem Reads.exists_sentence {task : Task} {levels : Nat} {tokens rest : List Token}
    {result : Expression} (h : Reads task levels tokens result rest) (hresult : result.Means true) :
    ∃ used, tokens = used ++ rest ∧ task.Completes used := by
  induction h with
  | number value => exact ⟨[.number value], rfl, .number value⟩
  | unit => obtain ⟨_, ⟨⟩, ⟨⟩⟩ := hresult
  | parentheses h ih =>
      obtain ⟨used, rfl, hused⟩ := ih hresult
      have hsentence : Token.Sentence (.opening :: (used ++ [.closing])) := .parentheses hused
      refine ⟨_, ?_, hsentence⟩
      rw [List.cons_append, List.append_assoc, List.singleton_append]
  | start => obtain ⟨_, ⟨⟩, ⟨⟩⟩ := hresult
  | negate h ih =>
      obtain ⟨used, rfl, hused⟩ := ih (Expression.means_negate hresult)
      exact ⟨.minus :: used, rfl, .sign (.inr rfl) hused⟩
  | keep h ih =>
      obtain ⟨used, rfl, hused⟩ := ih (Expression.means_keep hresult)
      exact ⟨.plus :: used, rfl, .sign (.inl rfl) hused⟩
  | operand h hdot ih => exact ih hresult
  | missing => obtain ⟨_, ⟨⟩, ⟨⟩⟩ := hresult
  | right h ih => exact ih hresult
  | stop h => exact ⟨[], rfl, fun left hleft => by simpa using hleft⟩
  | operator htoken hcontinues hoperand hright h ihoperand ihright ih =>
      obtain ⟨hroot, hmeans, hrightMeans, hoperator⟩ := hright.means_of_operator h hresult
      obtain ⟨operandUsed, rfl, hoperandUsed⟩ := ihoperand hmeans
      obtain ⟨rightUsed, rfl, hrightUsed⟩ := ihright hrightMeans
      obtain ⟨used, rfl, hused⟩ := ih hresult
      rename_i token _ _ _ _ _ _
      refine ⟨token :: (operandUsed ++ (rightUsed ++ used)), ?_, fun left hleft => ?_⟩
      · simp only [List.cons_append, List.append_assoc]
      · have hbinary := hused _ (.binary htoken (hoperator rfl) hleft (hrightUsed _ hoperandUsed))
        simpa only [List.cons_append, List.append_assoc] using hbinary
  | expression hroot h ihroot ih =>
      obtain ⟨used, rfl, hused⟩ := ihroot (h.root_means hresult)
      obtain ⟨more, rfl, hmore⟩ := ih hresult
      exact ⟨used ++ more, by simp, hmore used hused⟩

/-! ### Sentences of lexemes -/

def operators : List (List Lexeme) :=
  [[.char '+'], [.char '-'], [.char '*'], [.char '/'], [.char '^'], [.char '*', .char '*']]

inductive Sentence : List Lexeme → Prop where
  | number (numeral : Numeral) : Sentence [.literal numeral]
  | parentheses {lexemes : List Lexeme} (h : Sentence lexemes) :
    Sentence (.char '(' :: (lexemes ++ [.char ')']))
  | sign {c : Char} {lexemes : List Lexeme} (hc : c = '+' ∨ c = '-') (h : Sentence lexemes) :
    Sentence (.char c :: lexemes)
  | binary {operator left right : List Lexeme} (hoperator : operator ∈ operators)
    (hleft : Sentence left) (hright : Sentence right) : Sentence (left ++ (operator ++ right))
  | blankBefore {c : Char} {lexemes : List Lexeme} (hc : c ∈ Token.separators)
    (h : Sentence lexemes) : Sentence (.char c :: lexemes)
  | blankAfter {c : Char} {lexemes : List Lexeme} (hc : c ∈ Token.separators)
    (h : Sentence lexemes) : Sentence (lexemes ++ [.char c])

def IsBlank (lexemes : List Lexeme) : Prop :=
  ∀ lexeme ∈ lexemes, ∃ c ∈ Token.separators, lexeme = .char c

theorem Sentence.blanks_append {blanks lexemes : List Lexeme} (hblanks : IsBlank blanks)
    (h : Sentence lexemes) : Sentence (blanks ++ lexemes) := by
  induction blanks with
  | nil => exact h
  | cons lexeme blanks ih =>
      obtain ⟨⟨c, hc, rfl⟩, hrest⟩ := List.forall_mem_cons.mp hblanks
      exact .blankBefore hc (ih hrest)

theorem Sentence.append_blanks {blanks lexemes : List Lexeme} (hblanks : IsBlank blanks)
    (h : Sentence lexemes) : Sentence (lexemes ++ blanks) := by
  induction blanks generalizing lexemes with
  | nil => simpa using h
  | cons lexeme blanks ih =>
      obtain ⟨⟨c, hc, rfl⟩, hrest⟩ := List.forall_mem_cons.mp hblanks
      rw [List.append_cons]
      exact ih hrest (.blankAfter hc h)

inductive SpellsToken : List Lexeme → Token → Prop where
  | number (numeral : Numeral) (value : Float) : SpellsToken [.literal numeral] (.number value)
  | signed (numeral : Numeral) (value : Float) :
    SpellsToken [.char '-', .literal numeral] (.number value)
  | char {c : Char} {token : Token} (hc : Token.ofChar? c = some token) : SpellsToken [.char c] token
  | stars : SpellsToken [.char '*', .char '*'] .power
  | caret : SpellsToken [.char '^'] .power

inductive Yields : List Lexeme → List Token → Prop where
  | nil : Yields [] []
  | blank {c : Char} {lexemes : List Lexeme} {tokens : List Token} (hc : c ∈ Token.separators)
    (h : Yields lexemes tokens) : Yields (.char c :: lexemes) tokens
  | token {front lexemes : List Lexeme} {token : Token} {tokens : List Token}
    (hfront : SpellsToken front token) (h : Yields lexemes tokens) :
    Yields (front ++ lexemes) (token :: tokens)

theorem Spells.yields {sign : Bool} {lexemes : List Lexeme} {tokens : List Token}
    (h : Spells sign lexemes tokens) : Yields lexemes tokens := by
  induction h with
  | nil sign => exact .nil
  | blank hc h ih => exact .blank hc ih
  | number value hnumeral h ih => exact .token (.number _ value) ih
  | signed value hnumeral h ih => exact .token (.signed _ value) ih
  | char hc hnext hsign h ih => exact .token (.char hc) ih
  | stars h ih => exact .token .stars ih
  | caret h ih => exact .token .caret ih

namespace Yields

variable {lexemes : List Lexeme} {token : Token} {tokens more : List Token}

theorem isBlank (h : Yields lexemes []) : IsBlank lexemes := by
  generalize htokens : ([] : List Token) = tokens at h
  induction h with
  | nil => simp [IsBlank]
  | blank hc h ih => exact List.forall_mem_cons.mpr ⟨⟨_, hc, rfl⟩, ih htokens⟩
  | token hfront h ih => cases htokens

theorem of_cons (h : Yields lexemes (token :: tokens)) :
    ∃ blanks front rest, lexemes = blanks ++ (front ++ rest) ∧ IsBlank blanks ∧
      SpellsToken front token ∧ Yields rest tokens := by
  generalize htokens : token :: tokens = all at h
  induction h with
  | nil => cases htokens
  | blank hc h ih =>
      obtain ⟨blanks, front, rest, rfl, hblanks, hfront, hrest⟩ := ih htokens
      exact ⟨_ :: blanks, front, rest, rfl, List.forall_mem_cons.mpr ⟨⟨_, hc, rfl⟩, hblanks⟩,
        hfront, hrest⟩
  | token hfront h ih =>
      cases htokens
      exact ⟨[], _, _, rfl, by simp [IsBlank], hfront, h⟩

theorem blanks_append {blanks : List Lexeme} (hblanks : IsBlank blanks)
    (h : Yields lexemes tokens) : Yields (blanks ++ lexemes) tokens := by
  induction blanks with
  | nil => exact h
  | cons lexeme blanks ih =>
      obtain ⟨⟨c, hc, rfl⟩, hrest⟩ := List.forall_mem_cons.mp hblanks
      exact .blank hc (ih hrest)

theorem of_append (h : Yields lexemes (tokens ++ more)) :
    ∃ front rest, lexemes = front ++ rest ∧ Yields front tokens ∧ Yields rest more := by
  induction tokens generalizing lexemes with
  | nil => exact ⟨[], lexemes, rfl, .nil, h⟩
  | cons token tokens ih =>
      obtain ⟨blanks, front, rest, rfl, hblanks, hfront, hrest⟩ := h.of_cons
      obtain ⟨left, right, rfl, hleft, hright⟩ := ih hrest
      refine ⟨blanks ++ (front ++ left), right, ?_, blanks_append hblanks (.token hfront hleft), hright⟩
      simp only [List.append_assoc]

end Yields

theorem Token.ofChar?_injective {c d : Char} {token : Token} (hc : ofChar? c = some token)
    (hd : ofChar? d = some token) : c = d := by
  unfold ofChar? at hc hd
  split at hc <;> cases hc <;> split at hd <;> cases hd <;> rfl

namespace SpellsToken

variable {front : List Lexeme} {token : Token}

theorem eq_char (h : SpellsToken front token) (hnumber : ∀ value, token ≠ .number value)
    (hpower : token ≠ .power) {c : Char} (hc : Token.ofChar? c = some token) :
    front = [.char c] := by
  cases h with
  | number numeral value => exact absurd rfl (hnumber value)
  | signed numeral value => exact absurd rfl (hnumber value)
  | char hd => rw [Token.ofChar?_injective hc hd]
  | stars => exact absurd rfl hpower
  | caret => exact absurd rfl hpower

theorem mem_operators {operator : Operator} (h : SpellsToken front token)
    (htoken : token.operator? = some operator) : front ∈ operators := by
  cases h with
  | number numeral value => cases htoken
  | signed numeral value => cases htoken
  | char hc =>
      unfold Token.ofChar? at hc
      split at hc <;> cases hc <;> simp_all [Token.operator?, operators]
  | stars => decide
  | caret => decide

end SpellsToken

/-- Lexemes that are cut into a sentence of tokens are a sentence. -/
theorem sentence_of_yields {lexemes : List Lexeme} {tokens : List Token}
    (htokens : Token.Sentence tokens) (h : Yields lexemes tokens) : Sentence lexemes := by
  induction htokens generalizing lexemes with
  | number value =>
      obtain ⟨blanks, front, rest, rfl, hblanks, hfront, hrest⟩ := h.of_cons
      refine .blanks_append hblanks (.append_blanks hrest.isBlank ?_)
      cases hfront with
      | number numeral value => exact .number numeral
      | signed numeral value => exact .sign (.inr rfl) (.number numeral)
      | char hc =>
          unfold Token.ofChar? at hc
          split at hc <;> cases hc
  | parentheses htokens ih =>
      obtain ⟨blanks, front, rest, rfl, hblanks, hfront, hrest⟩ := h.of_cons
      obtain ⟨inner, last, rfl, hinner, hlast⟩ := hrest.of_append
      obtain ⟨gap, back, rest, rfl, hgap, hback, hrest⟩ := hlast.of_cons
      rw [hfront.eq_char (by simp) (by simp) (show Token.ofChar? '(' = _ from rfl),
        hback.eq_char (by simp) (by simp) (show Token.ofChar? ')' = _ from rfl)]
      have hparentheses := Sentence.parentheses ((ih hinner).append_blanks hgap)
      have hsentence := (hparentheses.append_blanks hrest.isBlank).blanks_append hblanks
      simpa only [List.append_assoc, List.cons_append, List.nil_append] using hsentence
  | sign htoken htokens ih =>
      obtain ⟨blanks, front, rest, rfl, hblanks, hfront, hrest⟩ := h.of_cons
      refine .blanks_append hblanks ?_
      obtain rfl | rfl := htoken
      · rw [hfront.eq_char (by simp) (by simp) (show Token.ofChar? '+' = _ from rfl)]
        exact .sign (.inl rfl) (ih hrest)
      · rw [hfront.eq_char (by simp) (by simp) (show Token.ofChar? '-' = _ from rfl)]
        exact .sign (.inr rfl) (ih hrest)
  | binary htoken hoperator hleft hright ihleft ihright =>
      obtain ⟨left, rest, rfl, hleft, hrest⟩ := h.of_append
      obtain ⟨blanks, front, right, rfl, hblanks, hfront, hright⟩ := hrest.of_cons
      have hoperators := hfront.mem_operators htoken
      have hbinary := Sentence.binary hoperators ((ihleft hleft).append_blanks hblanks) (ihright hright)
      rwa [List.append_assoc] at hbinary

/-! ### Text that comes to a number -/

variable {operations : Shape → Nat} {script : List Char}

theorem affordable?_eq_some_iff {root : Expression} :
    affordable? operations script = some root ↔
      ∃ tokens, Token.scan true script = some tokens ∧
        Reads .expression levelLimit tokens root [] ∧ operations root.shape ≤ operationLimit := by
  simp only [affordable?, Option.filter_eq_some_iff, Option.bind_eq_some_iff, parse?_eq_some_iff,
    decide_eq_true_eq, ← exists_and_right, and_assoc]

theorem evaluatePlain_eq_ok {n : Float} (h : evaluatePlain operations script = .ok n) :
    ∃ tokens root, Token.scan true script = some tokens ∧
      Reads .expression levelLimit tokens root [] ∧ root.Means true := by
  unfold evaluatePlain at h
  split at h
  · cases h
  · cases h
  · cases h
  · rename_i hstart
    obtain ⟨root, hroot, hmeaning⟩ := Option.bind_eq_some_iff.mp hstart
    obtain ⟨tokens, -, hreads, -⟩ := affordable?_eq_some_iff.mp hroot
    exact (hreads.of_start hmeaning).elim
  · rename_i value hvalue
    obtain ⟨root, hroot, hmeaning⟩ := Option.bind_eq_some_iff.mp hvalue
    obtain ⟨tokens, hscan, hreads, -⟩ := affordable?_eq_some_iff.mp hroot
    exact ⟨tokens, root, hscan, hreads, _, hmeaning, rfl⟩

/-- Where no comment opens, tokens that are read as a number are spelled by the lexemes of the
text. -/
theorem spells_of_reads {text : List Char} {levels : Nat} {tokens : List Token} {root : Expression}
    (hfree : Lexeme.OpensNoComment text)
    (hplain : ∀ c ∈ (Lexeme.scan text).flatMap Lexeme.plain, isPlain c)
    (hscan : Token.scan true ((Lexeme.scan text).flatMap Lexeme.plain) = some tokens)
    (hreads : Reads .expression levels tokens root []) (hmeans : root.Means true) :
    Spells true (Lexeme.scan text) tokens ∧ Token.Sentence tokens := by
  obtain ⟨used, htokens, hused⟩ := hreads.exists_sentence hmeans
  rw [List.append_nil] at htokens
  subst htokens
  have hsentence : Token.Sentence tokens := hused
  exact ⟨spells_of_scan (Lexeme.lexical_scan hfree hplain) hscan hsentence.proper, hsentence⟩

/-- Text in which no comment opens comes to a number only if the whole of it is a sentence of
arithmetic. -/
theorem sentence_of_evaluate_eq_ok {text : String} {n : Float}
    (hfree : Lexeme.OpensNoComment text.toList) (h : evaluate text = .ok n) :
    Sentence (Lexeme.scan text.toList) ∧
      (Lexeme.scan text.toList).flatMap Lexeme.text = text.toList := by
  refine ⟨?_, Lexeme.flatMap_text_scan _⟩
  obtain ⟨script, hscript, hevaluate⟩ : ∃ script, plain text.toList = .ok script ∧
      evaluatePlain Shape.operations script = .ok n := by
    rw [evaluate, evaluateCounting] at h
    cases hplain : plain text.toList with
    | error cause => rw [hplain] at h; cases h
    | ok script => exact ⟨script, rfl, by rwa [hplain] at h⟩
  obtain ⟨rfl, hplain, -⟩ := plain_eq_ok_iff.mp hscript
  obtain ⟨tokens, root, hscan, hreads, hmeans⟩ := evaluatePlain_eq_ok hevaluate
  obtain ⟨hspells, hsentence⟩ := spells_of_reads hfree hplain hscan hreads hmeans
  exact sentence_of_yields hsentence hspells.yields

theorem evaluatePlain_number {value : Float} (hscan : Token.scan true script = some [.number value])
    (hfinite : value.isFinite) : evaluatePlain Shape.operations script = .ok value := by
  have hreads : Reads .expression levelLimit [.number value] (.number value) [] :=
    .expression (.operand (.number value) (by simp)) (.stop (by simp [Stops, Token.nextOperator?]))
  have haffordable : affordable? Shape.operations script = some (.number value) :=
    affordable?_eq_some_iff.mpr ⟨_, hscan, hreads, show 2 ≤ 100000 by decide⟩
  rw [evaluatePlain, haffordable, Option.bind_some, Expression.meaning?]
  exact if_pos hfinite

theorem scan_minus_five : Lexeme.scan "-5".toList = [.char '-', .literal ⟨['5'], none, none⟩] := by
  have hfive : Numeral.split? ['5'] = some (⟨['5'], none, none⟩, []) := rfl
  rw [show "-5".toList = ['-', '5'] from rfl, Lexeme.scan_cons rfl, Lexeme.scan_of_split? hfive,
    Lexeme.scan]

theorem evaluate_minus_five : evaluate "-5" = .ok (-5) := by
  have hplain : plain "-5".toList = .ok "-5.0".toList := by
    rw [plain, scan_minus_five]
    decide +kernel
  have hscan : Token.scan true "-5.0".toList = some [.number (-5)] := by
    rw [show "-5.0".toList = '-' :: '5' :: ".0".toList from rfl, Token.scan_minus_digit rfl,
      show (Token.splitNumber '5' ".0".toList).2 = [] from rfl, Token.scan_nil, Option.map_some,
      show -(Token.splitNumber '5' ".0".toList).1.value = -5 by decide +kernel]
  rw [evaluate, evaluateCounting, hplain]
  exact evaluatePlain_number hscan (by decide +kernel)

theorem sentence_of_minus_five :
    Lexeme.OpensNoComment "-5".toList ∧ evaluate "-5" = .ok (-5) ∧
      Sentence (Lexeme.scan "-5".toList) := by
  have hfree : Lexeme.OpensNoComment "-5".toList := by
    simp [Lexeme.OpensNoComment]
  exact ⟨hfree, evaluate_minus_five, (sentence_of_evaluate_eq_ok hfree evaluate_minus_five).1⟩

/-! ### Comments -/

structure ApartSlashes (lexemes : List Lexeme) : Prop where
  head : ∃ lexeme, lexemes.head? = some lexeme ∧ lexeme ≠ .char '/'
  last : ∃ lexeme, lexemes.getLast? = some lexeme ∧ lexeme ≠ .char '/'
  chain : lexemes.IsChain fun lexeme next => lexeme = .char '/' → next ≠ .char '/'

theorem apartSlashes_singleton {lexeme : Lexeme} (h : lexeme ≠ .char '/') : ApartSlashes [lexeme] :=
  ⟨⟨lexeme, rfl, h⟩, ⟨lexeme, rfl, h⟩, .singleton lexeme⟩

theorem ApartSlashes.append {front middle back : List Lexeme} (hfront : ApartSlashes front)
    (hmiddle : middle.IsChain fun lexeme next => lexeme = .char '/' → next ≠ .char '/')
    (hback : ApartSlashes back) : ApartSlashes (front ++ (middle ++ back)) := by
  obtain ⟨first, hfirst, hne⟩ := hfront.head
  obtain ⟨last, hlast, hne'⟩ := hback.last
  refine ⟨⟨first, ?_, hne⟩, ⟨last, ?_, hne'⟩, ?_⟩
  · rw [List.head?_append, hfirst, Option.some_or]
  · rw [List.getLast?_append, List.getLast?_append, hlast, Option.some_or, Option.some_or]
  · refine List.isChain_append.mpr
      ⟨hfront.chain, List.isChain_append.mpr ⟨hmiddle, hback.chain, ?_⟩, ?_⟩
    · rintro lexeme - next hnext -
      obtain ⟨other, hother, hne⟩ := hback.head
      rw [hother] at hnext
      cases hnext
      exact hne
    · rintro lexeme hlexeme next - rfl
      obtain ⟨other, hother, hne⟩ := hfront.last
      rw [hother] at hlexeme
      cases hlexeme
      exact absurd rfl hne

theorem Sentence.apartSlashes {lexemes : List Lexeme} (h : Sentence lexemes) :
    ApartSlashes lexemes := by
  have hblank : ∀ c ∈ Token.separators, ApartSlashes [.char c] := by
    intro c hc
    refine apartSlashes_singleton ?_
    rintro ⟨⟩
    exact absurd hc (by decide)
  induction h with
  | number numeral => exact apartSlashes_singleton (by simp)
  | parentheses h ih =>
      exact (apartSlashes_singleton (by decide)).append ih.chain (apartSlashes_singleton (by decide))
  | sign hc h ih =>
      refine (apartSlashes_singleton ?_).append .nil ih
      obtain rfl | rfl := hc <;> decide
  | binary hoperator hleft hright ihleft ihright =>
      refine ihleft.append ?_ ihright
      simp only [operators, List.mem_cons, List.not_mem_nil, or_false] at hoperator
      obtain rfl | rfl | rfl | rfl | rfl | rfl := hoperator <;> simp
  | blankBefore hc h ih => exact (hblank _ hc).append .nil ih
  | blankAfter hc h ih => exact ih.append .nil (hblank _ hc)

theorem scan_comment :
    Lexeme.scan "1//2".toList =
      [.literal ⟨['1'], none, none⟩, .char '/', .char '/', .literal ⟨['2'], none, none⟩] := by
  have htwo : Lexeme.scan ['2'] = [.literal ⟨['2'], none, none⟩] := by
    rw [Lexeme.scan_of_split? (show Numeral.split? ['2'] = some (⟨['2'], none, none⟩, []) from rfl),
      Lexeme.scan]
  have hone : Numeral.split? "1//2".toList = some (⟨['1'], none, none⟩, ['/', '/', '2']) := rfl
  rw [Lexeme.scan_of_split? hone, Lexeme.scan_cons rfl, Lexeme.scan_cons rfl, htwo]

theorem evaluate_comment : evaluate "1//2" = .ok 1 := by
  have hplain : plain "1//2".toList = .ok "1.0//2.0".toList := by
    rw [plain, scan_comment]
    decide +kernel
  have hskip : Token.skip "//2.0".toList = [] := by
    rw [show "//2.0".toList = '/' :: '/' :: "2.0".toList from rfl, Token.skip,
      show Token.afterLineComment "2.0".toList = [] from rfl, Token.skip]
  have hscan : Token.scan true "1.0//2.0".toList = some [.number 1] := by
    rw [show "1.0//2.0".toList = '1' :: ".0//2.0".toList from rfl, Token.scan_digit rfl,
      show (Token.splitNumber '1' ".0//2.0".toList).2 = "//2.0".toList from rfl, Token.scan_eq,
      hskip, show (Token.splitNumber '1' ".0//2.0".toList).1.value = 1 by decide +kernel]
    rfl
  rw [evaluate, evaluateCounting, hplain]
  exact evaluatePlain_number hscan (by decide +kernel)

/-- What stands after two slashes is ignored, so the text is no sentence. -/
theorem comment_is_no_sentence :
    evaluate "1//2" = .ok 1 ∧ ¬ Sentence (Lexeme.scan "1//2".toList) := by
  refine ⟨evaluate_comment, fun h => ?_⟩
  have hchain := h.apartSlashes.chain
  rw [scan_comment] at hchain
  simp at hchain

end Spreadsheet.Arithmetic
