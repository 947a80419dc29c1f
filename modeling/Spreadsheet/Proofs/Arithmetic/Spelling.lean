import Spreadsheet.Proofs.Arithmetic.Tokens

/-!
# Spelling of tokens by lexemes

Tokens that a grammar accepts have a spelling: each comes from lexemes of its own.
-/

namespace Spreadsheet.Arithmetic

open Lexeme (Lexical)

/-- A numeral, in plain notation, that is one number before the given lexemes. -/
structure EndsBefore (numeral : Numeral) (lexemes : List Lexeme) : Prop where
  plain : ∃ c digits fraction, Lexeme.plain (.literal numeral) =
    c :: digits ++ Numeral.fractionText fraction ∧ c.isDigit ∧ (∀ c ∈ digits, c.isDigit) ∧
    (∀ c ∈ fraction.getD [], c.isDigit) ∧ (fraction = some [] → lexemes ≠ [])
  not_literal : ∀ other, lexemes.head? ≠ some (.literal other)
  not_point : lexemes.head? ≠ some (.char '.')

/-- The tokens that lexemes spell, whatever the numbers. `sign` tells whether a minus right before a
number belongs to it. -/
inductive Spells : Bool → List Lexeme → List Token → Prop where
  | nil (sign : Bool) : Spells sign [] []
  | blank {sign : Bool} {c : Char} {lexemes : List Lexeme} {tokens : List Token}
    (hc : c ∈ Token.separators) (h : Spells sign lexemes tokens) :
    Spells sign (.char c :: lexemes) tokens
  | number {sign : Bool} {numeral : Numeral} {lexemes : List Lexeme} {tokens : List Token}
    (value : Float) (hnumeral : EndsBefore numeral lexemes) (h : Spells false lexemes tokens) :
    Spells sign (.literal numeral :: lexemes) (.number value :: tokens)
  | signed {numeral : Numeral} {lexemes : List Lexeme} {tokens : List Token}
    (value : Float) (hnumeral : EndsBefore numeral lexemes) (h : Spells false lexemes tokens) :
    Spells true (.char '-' :: .literal numeral :: lexemes) (.number value :: tokens)
  | char {sign : Bool} {c : Char} {token : Token} {lexemes : List Lexeme} {tokens : List Token}
    (hc : Token.ofChar? c = some token)
    (hnext : ∀ d, lexemes.head? = some (.char d) → (c, d) ∉ Token.clashes)
    (hsign : c = '-' → sign = true → ∀ numeral, lexemes.head? ≠ some (.literal numeral))
    (h : Spells token.allowsSign lexemes tokens) :
    Spells sign (.char c :: lexemes) (token :: tokens)
  | stars {sign : Bool} {lexemes : List Lexeme} {tokens : List Token}
    (h : Spells true lexemes tokens) :
    Spells sign (.char '*' :: .char '*' :: lexemes) (.power :: tokens)
  | caret {sign : Bool} {lexemes : List Lexeme} {tokens : List Token}
    (h : Spells true lexemes tokens) :
    Spells sign (.char '^' :: lexemes) (.power :: tokens)

namespace Lexeme

variable {lexemes : List Lexeme} {lexeme : Lexeme}

theorem Lexical.tail (h : Lexical (lexeme :: lexemes)) : Lexical lexemes where
  decimal numeral hmem := h.decimal numeral (List.mem_cons_of_mem _ hmem)
  char c hmem := h.char c (List.mem_cons_of_mem _ hmem)
  adjacent := (List.isChain_cons.mp h.adjacent).2

theorem head?_of_isDecimal {text : List Char} (h : IsDecimal text) :
    ∃ c, text.head? = some c ∧ (c.isDigit ∨ c = '.') := by
  obtain ⟨whole, fraction, rfl, hne, hwhole, -⟩ := h
  cases whole with
  | cons c whole => exact ⟨c, rfl, .inl (hwhole c (by simp))⟩
  | nil =>
      cases fraction with
      | none => simp at hne
      | some digits => exact ⟨'.', rfl, .inr rfl⟩

/-- The character that plain notation starts with comes from the first lexeme. -/
theorem head?_script (h : Lexical lexemes) {d : Char}
    (hd : (lexemes.flatMap plain).head? = some d) :
    (∃ numeral, lexemes.head? = some (.literal numeral) ∧ (d.isDigit ∨ d = '.')) ∨
      ∃ c, lexemes.head? = some (.char c) ∧ c.isDigit = false ∧
        (c = d ∨ c = '^' ∧ d = '*') := by
  cases lexemes with
  | nil => simp at hd
  | cons lexeme rest =>
      rw [List.flatMap_cons] at hd
      cases lexeme with
      | literal numeral =>
          obtain ⟨c, hc, hkind⟩ := head?_of_isDecimal (h.decimal numeral (by simp))
          rw [List.head?_append, hc] at hd
          obtain rfl : c = d := by simpa using hd
          exact .inl ⟨numeral, rfl, hkind⟩
      | char c =>
          refine .inr ⟨c, rfl, (h.char c (by simp)).1, ?_⟩
          by_cases hpower : c = '^'
          · obtain rfl := hpower
            exact .inr ⟨rfl, by simpa [plain] using hd.symm⟩
          · rw [plain_char hpower] at hd
            exact .inl (by simpa using hd)

/-- Plain notation of lexemes that start with neither a literal nor a point starts with neither a
digit nor a point. -/
theorem head?_script_of_not_literal (h : Lexical lexemes)
    (hliteral : ∀ other, lexemes.head? ≠ some (.literal other))
    (hpoint : lexemes.head? ≠ some (.char '.')) :
    ∀ d, (lexemes.flatMap plain).head? = some d → d.isDigit = false ∧ d ≠ '.' := by
  intro d hd
  obtain ⟨numeral, hhead, -⟩ | ⟨c, hhead, hdigit, rfl | ⟨-, rfl⟩⟩ := head?_script h hd
  · exact absurd hhead (hliteral numeral)
  · refine ⟨hdigit, ?_⟩
    rintro rfl
    exact hpoint hhead
  · decide

/-- Characters that do not clash do not clash in plain notation. -/
theorem not_mem_clashes_script {c : Char} (h : Lexical lexemes)
    (hnext : ∀ d, lexemes.head? = some (.char d) → (c, d) ∉ Token.clashes) :
    ∀ d, (lexemes.flatMap plain).head? = some d → (c, d) ∉ Token.clashes := by
  intro d hd
  obtain ⟨numeral, -, hdigit | rfl⟩ | ⟨e, hhead, -, rfl | ⟨rfl, rfl⟩⟩ := head?_script h hd
  · intro hclash
    simp only [Token.clashes, List.mem_cons, Prod.mk.injEq, List.not_mem_nil, or_false] at hclash
    rcases hclash with h | h | h | h | h | h | h | h | h | h | h <;>
      exact absurd (h.2 ▸ hdigit) (by decide)
  · simp [Token.clashes]
  · exact hnext e hhead
  · have hcaret := hnext '^' hhead
    simp only [Token.clashes] at hcaret ⊢
    simp_all

theorem eq_nil_of_script (h : Lexical lexemes) (hscript : lexemes.flatMap plain = []) :
    lexemes = [] := by
  rw [List.flatMap_eq_nil_iff] at hscript
  refine List.eq_nil_iff_forall_not_mem.mpr fun lexeme hmem => ?_
  cases lexeme with
  | literal numeral =>
      obtain ⟨c, hc, -⟩ := head?_of_isDecimal (h.decimal numeral hmem)
      simp [hscript _ hmem] at hc
  | char c =>
      have hplain := hscript _ hmem
      by_cases hpower : c = '^'
      · simp [hpower, plain] at hplain
      · simp [plain_char hpower] at hplain

theorem not_digit_script {sign : Bool} {c : Char} (h : Lexical lexemes)
    (hsign : c = '-' → sign = true → ∀ numeral, lexemes.head? ≠ some (.literal numeral)) :
    c = '-' → sign = true → ∀ d, (lexemes.flatMap plain).head? = some d → d.isDigit = false := by
  intro hc hs d hd
  obtain ⟨numeral, hhead, -⟩ | ⟨e, -, hdigit, rfl | ⟨-, rfl⟩⟩ := head?_script h hd
  · exact absurd hhead (hsign hc hs numeral)
  · exact hdigit
  · decide

end Lexeme

theorem exists_fraction_of_hasPoint {digits : List Char} {fraction : Option (List Char)}
    (hdigits : ∀ c ∈ digits, c.isDigit)
    (h : Lexeme.HasPoint (digits ++ Numeral.fractionText fraction)) : ∃ part, fraction = some part := by
  cases fraction with
  | some part => exact ⟨part, rfl⟩
  | none =>
      obtain ⟨front, rest, heq, -⟩ := h
      have hmem : '.' ∈ digits ++ Numeral.fractionText none := by simp [heq]
      rw [Numeral.fractionText, List.append_nil] at hmem
      exact absurd (hdigits '.' hmem) (by decide)

/-- Where scanning goes on properly after a number, the number ended with its numeral. -/
theorem endsBefore_of_scan {numeral : Numeral} {lexemes : List Lexeme} {tokens : List Token}
    {c : Char} {digits : List Char} {fraction : Option (List Char)}
    (hlexical : Lexical (.literal numeral :: lexemes))
    (hplain : Lexeme.plain (.literal numeral) = c :: digits ++ Numeral.fractionText fraction)
    (hc : c.isDigit) (hdigits : ∀ c ∈ digits, c.isDigit)
    (hfraction : ∀ c ∈ fraction.getD [], c.isDigit)
    (hscan : Token.scan false (Token.splitNumber c (digits ++ (Numeral.fractionText fraction ++
      lexemes.flatMap Lexeme.plain))).2 = some tokens)
    (hproper : Token.Proper false tokens) :
    EndsBefore numeral lexemes ∧ Token.scan false (lexemes.flatMap Lexeme.plain) = some tokens := by
  have hwhole : ∀ d ∈ c :: digits, d.isDigit := by simpa [hc] using hdigits
  -- a numeral with a point is no number if another point can be reached by digits
  have hleft : ∀ front rest, (∀ d ∈ front, d.isDigit) →
      Lexeme.HasPoint (Lexeme.plain (.literal numeral)) →
      lexemes.flatMap Lexeme.plain ≠ front ++ '.' :: rest := by
    rintro front rest hfront hpoint heq
    rw [hplain] at hpoint
    obtain ⟨part, rfl⟩ := exists_fraction_of_hasPoint hwhole hpoint
    have hpart : ∀ d ∈ part ++ front, d.isDigit := List.forall_mem_append.mpr ⟨hfraction, hfront⟩
    obtain ⟨tail, htail⟩ := Token.splitNumber_second_point (c := c) hdigits hpart rest
    rw [heq, Numeral.fractionText, List.cons_append, ← List.append_assoc, htail] at hscan
    exact Token.not_proper_of_point hscan hproper
  have hadjacent := (List.isChain_cons.mp hlexical.adjacent).1
  have hliteral : ∀ other, lexemes.head? ≠ some (.literal other) := by
    intro other hother
    obtain ⟨rest, rfl⟩ := List.head?_eq_some_iff.mp hother
    obtain ⟨hpoint, front, tail, heq, hfront⟩ := hadjacent _ rfl
    refine hleft front (tail ++ rest.flatMap Lexeme.plain) hfront hpoint ?_
    rw [List.flatMap_cons, heq, List.append_assoc, List.cons_append]
  have hpoint : lexemes.head? ≠ some (.char '.') := by
    intro hother
    obtain ⟨rest, rfl⟩ := List.head?_eq_some_iff.mp hother
    exact hleft [] (rest.flatMap Lexeme.plain) (by simp) (hadjacent _ rfl rfl) rfl
  have hhead := Lexeme.head?_script_of_not_literal hlexical.tail hliteral hpoint
  cases fraction with
  | none =>
      rw [Numeral.fractionText, List.nil_append, Token.splitNumber_whole hdigits hhead] at hscan
      exact ⟨⟨⟨c, digits, none, hplain, hc, hdigits, hfraction, by simp⟩, hliteral, hpoint⟩, hscan⟩
  | some part =>
      rw [Numeral.fractionText, List.cons_append] at hscan
      have hne : part ≠ [] ∨ lexemes.flatMap Lexeme.plain ≠ [] := by
        by_contra hnil
        simp only [not_or, not_not] at hnil
        rw [hnil.1, hnil.2, List.append_nil, Token.splitNumber_point_end hdigits] at hscan
        exact Token.not_proper_of_point hscan hproper
      have hpart : ∀ d ∈ part, d.isDigit := hfraction
      rw [Token.splitNumber_fraction hdigits hpart hhead hne] at hscan
      refine ⟨⟨⟨c, digits, some part, hplain, hc, hdigits, hfraction, ?_⟩, hliteral, hpoint⟩, hscan⟩
      rintro hnil rfl
      simp [Option.some.inj hnil] at hne

theorem exists_ofChar? {c : Char} (hdigit : c.isDigit = false) (hplain : isPlain c)
    (hblank : c ∉ Token.separators) (hpoint : c ≠ '.') : ∃ token, Token.ofChar? c = some token := by
  have hmem : c ∈ Token.separators ++ ['+', '-', '*', '/', '(', ')', '.'] := by
    simpa [isPlain, hdigit, Token.separators] using hplain
  simp only [List.mem_append, hblank, false_or, List.mem_cons, List.not_mem_nil, or_false] at hmem
  rcases hmem with rfl | rfl | rfl | rfl | rfl | rfl | rfl <;> first | exact ⟨_, rfl⟩ | contradiction

section Numerals

variable {sign : Bool} {numeral : Numeral} {lexemes : List Lexeme} {tokens : List Token}

theorem Lexeme.Lexical.literal_cases (h : Lexical (.literal numeral :: lexemes)) :
    (∃ fraction, Lexeme.plain (.literal numeral) = '.' :: fraction) ∨
      ∃ c digits fraction, Lexeme.plain (.literal numeral) =
        c :: digits ++ Numeral.fractionText fraction ∧ c.isDigit ∧ (∀ d ∈ digits, d.isDigit) ∧
        ∀ d ∈ fraction.getD [], d.isDigit := by
  obtain ⟨whole, fraction, hplain, hne, hwhole, hfraction⟩ := h.decimal numeral (by simp)
  cases whole with
  | cons c digits =>
      exact .inr ⟨c, digits, fraction, hplain, hwhole c (by simp),
        fun d hd => hwhole d (List.mem_cons_of_mem _ hd), hfraction⟩
  | nil =>
      cases fraction with
      | none => simp at hne
      | some part => exact .inl ⟨part, hplain⟩

theorem exists_number_of_scan (hlexical : Lexical (.literal numeral :: lexemes))
    (hscan : Token.scan sign ((.literal numeral :: lexemes).flatMap Lexeme.plain) = some tokens)
    (hproper : Token.Proper sign tokens) :
    ∃ value rest, tokens = .number value :: rest ∧ EndsBefore numeral lexemes ∧
      Token.scan false (lexemes.flatMap Lexeme.plain) = some rest := by
  obtain ⟨fraction, hplain⟩ | ⟨c, digits, fraction, hplain, hc, hdigits, hfraction⟩ :=
    hlexical.literal_cases
  · rw [List.flatMap_cons, hplain] at hscan
    exact absurd hproper (Token.not_proper_of_point hscan)
  · rw [List.flatMap_cons, hplain, List.cons_append, List.cons_append, List.append_assoc,
      Token.scan_digit hc] at hscan
    obtain ⟨rest, hrest, rfl⟩ := Option.map_eq_some_iff.mp hscan
    exact ⟨_, rest, rfl, endsBefore_of_scan hlexical hplain hc hdigits hfraction hrest hproper.2⟩

theorem exists_signed_of_scan (hlexical : Lexical (.literal numeral :: lexemes))
    (hscan : Token.scan true ('-' :: (.literal numeral :: lexemes).flatMap Lexeme.plain) =
      some tokens)
    (hproper : Token.Proper true tokens) :
    ∃ value rest, tokens = .number value :: rest ∧ EndsBefore numeral lexemes ∧
      Token.scan false (lexemes.flatMap Lexeme.plain) = some rest := by
  obtain ⟨fraction, hplain⟩ | ⟨c, digits, fraction, hplain, hc, hdigits, hfraction⟩ :=
    hlexical.literal_cases
  · -- a minus before a point is a token of its own, and the point is none that can follow it
    rw [List.flatMap_cons, hplain, List.cons_append,
      Token.scan_ofChar (show Token.ofChar? '-' = some .minus from rfl) (by simp [Token.clashes])
        (by simp)] at hscan
    obtain ⟨rest, hrest, rfl⟩ := Option.map_eq_some_iff.mp hscan
    exact absurd hproper.2 (Token.not_proper_of_point hrest)
  · rw [List.flatMap_cons, hplain, List.cons_append, List.cons_append, List.append_assoc,
      Token.scan_minus_digit hc] at hscan
    obtain ⟨rest, hrest, rfl⟩ := Option.map_eq_some_iff.mp hscan
    exact ⟨_, rest, rfl, endsBefore_of_scan hlexical hplain hc hdigits hfraction hrest hproper.2⟩

end Numerals

section Characters

variable {sign : Bool} {c : Char} {lexemes : List Lexeme} {tokens : List Token}
  (hlexical : Lexical (.char c :: lexemes))
  (hscan : Token.scan sign (c :: lexemes.flatMap Lexeme.plain) = some tokens)
  (hproper : Token.Proper sign tokens)

include hlexical hscan hproper

theorem not_mem_clashes_of_scan
    (hstars : ¬ (c = '*' ∧ lexemes.head? = some (.char '*'))) :
    ∀ d, lexemes.head? = some (.char d) → (c, d) ∉ Token.clashes := by
  intro d hhead hclash
  obtain ⟨rest, rfl⟩ := List.head?_eq_some_iff.mp hhead
  refine Token.not_proper_of_clash hclash ?_ ?_ hscan hproper
  · rintro rfl
    obtain ⟨hslash, hstar, hcaret⟩ := (List.isChain_cons.mp hlexical.adjacent).1 _ rfl rfl
    simp [Token.clashes, hslash, hstar, hcaret] at hclash
  · rintro ⟨rfl, rfl⟩
    exact hstars ⟨rfl, rfl⟩

/-- A character that goes with nothing after it is a token by itself. -/
theorem exists_ofChar?_of_scan (hcaret : c ≠ '^') (hblank : c ∉ Token.separators)
    (hstars : ¬ (c = '*' ∧ lexemes.head? = some (.char '*')))
    (hsigned : ¬ (c = '-' ∧ sign = true ∧ ∃ numeral, lexemes.head? = some (.literal numeral))) :
    ∃ token rest, tokens = token :: rest ∧ Token.ofChar? c = some token ∧
      (∀ d, lexemes.head? = some (.char d) → (c, d) ∉ Token.clashes) ∧
      (c = '-' → sign = true → ∀ numeral, lexemes.head? ≠ some (.literal numeral)) ∧
      Token.scan token.allowsSign (lexemes.flatMap Lexeme.plain) = some rest := by
  obtain ⟨hdigit, hplain⟩ := hlexical.char c (by simp)
  have hpoint : c ≠ '.' := by
    rintro rfl
    exact Token.not_proper_of_point hscan hproper
  obtain ⟨token, htoken⟩ := exists_ofChar? hdigit (hplain.resolve_left hcaret) hblank hpoint
  have hnext := not_mem_clashes_of_scan hlexical hscan hproper hstars
  have hsign : c = '-' → sign = true → ∀ numeral, lexemes.head? ≠ some (.literal numeral) :=
    fun hc hs numeral hhead => hsigned ⟨hc, hs, numeral, hhead⟩
  rw [Token.scan_ofChar htoken (Lexeme.not_mem_clashes_script hlexical.tail hnext)
    (Lexeme.not_digit_script hlexical.tail hsign)] at hscan
  obtain ⟨rest, hrest, rfl⟩ := Option.map_eq_some_iff.mp hscan
  exact ⟨token, rest, rfl, htoken, hnext, hsign, hrest⟩

end Characters

/-- Tokens of plain notation that can follow each other are spelled by the lexemes that the notation
came from. -/
theorem spells_of_scan {sign : Bool} {lexemes : List Lexeme} {tokens : List Token}
    (hlexical : Lexical lexemes)
    (hscan : Token.scan sign (lexemes.flatMap Lexeme.plain) = some tokens)
    (hproper : Token.Proper sign tokens) : Spells sign lexemes tokens := by
  induction hlength : lexemes.length using Nat.strong_induction_on
    generalizing sign lexemes tokens with
  | _ length ih =>
  subst hlength
  have hih := fun {sign lexemes tokens} hlt hlexical hscan hproper =>
    @ih _ hlt sign lexemes tokens hlexical hscan hproper rfl
  cases lexemes with
  | nil =>
      obtain rfl : [] = tokens := by simpa [Token.scan_nil] using hscan
      exact .nil sign
  | cons lexeme rest =>
      cases lexeme with
      | literal numeral =>
          obtain ⟨value, tail, rfl, hends, htail⟩ := exists_number_of_scan hlexical hscan hproper
          exact .number value hends (hih (by simp) hlexical.tail htail hproper.2)
      | char c =>
          by_cases hcaret : c = '^'
          · obtain rfl := hcaret
            rw [List.flatMap_cons, Lexeme.plain, List.cons_append, List.singleton_append,
              Token.scan_stars] at hscan
            obtain ⟨tail, htail, rfl⟩ := Option.map_eq_some_iff.mp hscan
            exact .caret (hih (by simp) hlexical.tail htail hproper.2)
          rw [List.flatMap_cons, Lexeme.plain_char hcaret, List.singleton_append] at hscan
          by_cases hblank : c ∈ Token.separators
          · rw [Token.scan_separator hblank] at hscan
            exact .blank hblank (hih (by simp) hlexical.tail hscan hproper)
          by_cases hstars : c = '*' ∧ rest.head? = some (.char '*')
          · obtain ⟨rfl, hhead⟩ := hstars
            obtain ⟨rest, rfl⟩ := List.head?_eq_some_iff.mp hhead
            rw [List.flatMap_cons, Lexeme.plain_char (by decide), List.singleton_append,
              Token.scan_stars] at hscan
            obtain ⟨tail, htail, rfl⟩ := Option.map_eq_some_iff.mp hscan
            exact .stars (hih (by simp +arith) hlexical.tail.tail htail hproper.2)
          by_cases hsigned : c = '-' ∧ sign = true ∧ ∃ numeral, rest.head? = some (.literal numeral)
          · obtain ⟨rfl, rfl, numeral, hhead⟩ := hsigned
            obtain ⟨rest, rfl⟩ := List.head?_eq_some_iff.mp hhead
            obtain ⟨value, tail, rfl, hends, htail⟩ :=
              exists_signed_of_scan hlexical.tail hscan hproper
            exact .signed value hends (hih (by simp +arith) hlexical.tail.tail htail hproper.2)
          obtain ⟨token, tail, rfl, htoken, hnext, hsign, htail⟩ :=
            exists_ofChar?_of_scan hlexical hscan hproper hcaret hblank hstars hsigned
          exact .char htoken hnext hsign (hih (by simp) hlexical.tail htail hproper.2)

theorem EndsBefore.split {numeral : Numeral} {lexemes : List Lexeme}
    (h : EndsBefore numeral lexemes) (hlexical : Lexical lexemes) :
    ∃ c text, Lexeme.plain (.literal numeral) ++ lexemes.flatMap Lexeme.plain = c :: text ∧
      c.isDigit ∧ (Token.splitNumber c text).2 = lexemes.flatMap Lexeme.plain := by
  obtain ⟨c, digits, fraction, hplain, hc, hdigits, hfraction, hne⟩ := h.plain
  have hhead := Lexeme.head?_script_of_not_literal hlexical h.not_literal h.not_point
  refine ⟨c, digits ++ (Numeral.fractionText fraction ++ lexemes.flatMap Lexeme.plain), ?_, hc, ?_⟩
  · rw [hplain, List.append_assoc, List.cons_append]
  · cases fraction with
    | none => rw [Numeral.fractionText, List.nil_append, Token.splitNumber_whole hdigits hhead]
    | some part =>
        have hpart : ∀ d ∈ part, d.isDigit := hfraction
        rw [Numeral.fractionText, List.cons_append, Token.splitNumber_fraction hdigits hpart hhead]
        rw [or_iff_not_imp_left]
        rintro hempty hnil
        obtain rfl : part = [] := not_not.mp hempty
        exact hne rfl (Lexeme.eq_nil_of_script hlexical hnil)

/-- Lexemes spell their tokens: plain notation of them is cut into these tokens, up to the values of
the numbers. -/
theorem scan_of_spells {sign : Bool} {lexemes : List Lexeme} {tokens : List Token}
    (h : Spells sign lexemes tokens) (hlexical : Lexical lexemes) :
    ∃ others, Token.scan sign (lexemes.flatMap Lexeme.plain) = some others ∧
      others.map Token.kind = tokens.map Token.kind := by
  induction h with
  | nil sign => exact ⟨[], Token.scan_nil sign, rfl⟩
  | blank hc h ih =>
      obtain ⟨others, hscan, hkind⟩ := ih hlexical.tail
      refine ⟨others, ?_, hkind⟩
      rw [List.flatMap_cons, Lexeme.plain_char (by rintro rfl; exact absurd hc (by decide)),
        List.singleton_append, Token.scan_separator hc, hscan]
  | number value hnumeral h ih =>
      obtain ⟨others, hscan, hkind⟩ := ih hlexical.tail
      obtain ⟨c, text, htext, hc, hsplit⟩ := hnumeral.split hlexical.tail
      rw [List.flatMap_cons, htext, Token.scan_digit hc, hsplit, hscan]
      exact ⟨_, rfl, by simp [Token.kind, hkind]⟩
  | signed value hnumeral h ih =>
      obtain ⟨others, hscan, hkind⟩ := ih hlexical.tail.tail
      obtain ⟨c, text, htext, hc, hsplit⟩ := hnumeral.split hlexical.tail.tail
      rw [List.flatMap_cons, List.flatMap_cons, htext, Lexeme.plain_char (by decide),
        List.singleton_append, Token.scan_minus_digit hc, hsplit, hscan]
      exact ⟨_, rfl, by simp [Token.kind, hkind]⟩
  | char hc hnext hsign h ih =>
      obtain ⟨others, hscan, hkind⟩ := ih hlexical.tail
      rw [List.flatMap_cons, Lexeme.plain_char (by rintro rfl; cases hc), List.singleton_append,
        Token.scan_ofChar hc (Lexeme.not_mem_clashes_script hlexical.tail hnext)
          (Lexeme.not_digit_script hlexical.tail hsign), hscan]
      exact ⟨_, rfl, by simp [hkind]⟩
  | stars h ih =>
      obtain ⟨others, hscan, hkind⟩ := ih hlexical.tail.tail
      rw [List.flatMap_cons, List.flatMap_cons, Lexeme.plain_char (by decide),
        List.singleton_append, List.singleton_append, Token.scan_stars, hscan]
      exact ⟨_, rfl, by simp [hkind]⟩
  | caret h ih =>
      obtain ⟨others, hscan, hkind⟩ := ih hlexical.tail
      rw [List.flatMap_cons, Lexeme.plain, List.cons_append, List.singleton_append,
        Token.scan_stars, hscan]
      exact ⟨_, rfl, by simp [hkind]⟩

end Spreadsheet.Arithmetic
