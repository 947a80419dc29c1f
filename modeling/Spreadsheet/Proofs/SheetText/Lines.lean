import Spreadsheet.Proofs.SheetText

/-!
# What a text says line by line

A text is read one line after the other, each cell being written, overwritten or cleared. What comes
of it can be said without following the lines: the first faulty line is reported, and if there is
none, each cell has the raw text of the last line that names it.
-/

namespace Spreadsheet.SheetText

/-- The lines of a text. A carriage return before a break is a blank at the end of its line. -/
def lines (text : String) : List (List Char) :=
  text.toList.splitOn '\n'

def Speaks (line : List Char) : Prop :=
  Text.trim line ≠ [] ∧ (Text.trim line).head? ≠ some '#'

inductive Splits (line : List Char) : List Char → List Char → Prop where
  | intro {before after : List Char} (hspeaks : Speaks line)
    (hcut : Text.trim line = before ++ ':' :: after) (hfirst : ':' ∉ before) :
    Splits line (Text.trim before) (Text.trim after)

inductive IsFault (line : List Char) : LineFault → Prop where
  | noColon (hspeaks : Speaks line) (hcolon : ':' ∉ Text.trim line) : IsFault line .noColon
  | badName {name value : List Char} (hsplits : Splits line name value)
    (hname : ∀ cell, Cell.ofName? (String.ofList name) ≠ some cell) :
    IsFault line (.badName (String.ofList name))

/-- A value between quotes stands for the text without its escapes, any other for itself. -/
inductive Decodes : List Char → List Char → Prop where
  | quoted (inner : List Char) : Decodes ('"' :: inner ++ ['"']) (unescape inner)
  | bare {value : List Char} (hbare : ∀ inner, value ≠ '"' :: inner ++ ['"']) :
    Decodes value value

inductive Says (line : List Char) (cell : Cell) : String → Prop where
  | intro {name value raw : List Char} (hsplits : Splits line name value)
    (hname : Cell.ofName? (String.ofList name) = some cell) (hraw : Decodes value raw) :
    Says line cell (String.ofList raw)

/-- A fault in the first line that has one, with the number of lines before it. -/
def FirstFault (lines : List (List Char)) (count : Nat) (fault : LineFault) : Prop :=
  ∃ before line after, lines = before ++ line :: after ∧
    (∀ earlier ∈ before, ∀ other, ¬ IsFault earlier other) ∧ IsFault line fault ∧
    before.length = count

def LastSays (lines : List (List Char)) (cell : Cell) (raw : String) : Prop :=
  ∃ before line after, lines = before ++ line :: after ∧ Says line cell raw ∧
    ∀ later ∈ after, ∀ other, ¬ Says later cell other

/-! ### One line -/

variable {line name value : List Char} {cell : Cell} {raw : String}

theorem readRaw_quoted (inner : List Char) : readRaw ('"' :: inner ++ ['"']) = unescape inner := by
  rw [List.cons_append, readRaw, if_pos List.getLast?_concat, List.dropLast_concat]

theorem readRaw_bare (hbare : ∀ inner, value ≠ '"' :: inner ++ ['"']) : readRaw value = value := by
  unfold readRaw
  split
  · rename_i rest
    rw [if_neg]
    intro hlast
    obtain ⟨inner, rfl⟩ := List.getLast?_eq_some_iff.mp hlast
    exact hbare inner rfl
  · rfl

theorem decodes_iff {decoded : List Char} : Decodes value decoded ↔ readRaw value = decoded := by
  constructor
  · intro h
    cases h with
    | quoted inner => exact readRaw_quoted inner
    | bare hbare => exact readRaw_bare hbare
  · rintro rfl
    by_cases hquoted : ∃ inner, value = '"' :: inner ++ ['"']
    · obtain ⟨inner, rfl⟩ := hquoted
      rw [readRaw_quoted]
      exact .quoted inner
    · have hbare := not_exists.mp hquoted
      rw [readRaw_bare hbare]
      exact .bare hbare

theorem readLine_of_not_speaks (h : ¬ Speaks line) : readLine line = .ok none := by
  have hsilent : Text.trim line = [] ∨ (Text.trim line).head? = some '#' := by
    unfold Speaks at h
    tauto
  unfold readLine
  dsimp only
  rw [if_pos hsilent]

theorem readLine_of_no_colon (hspeaks : Speaks line) (hcolon : ':' ∉ Text.trim line) :
    readLine line = .error .noColon := by
  have hdrop : (Text.trim line).dropWhile (· != ':') = [] := by
    rw [List.dropWhile_eq_nil_iff]
    intro c hc
    rw [bne_iff_ne]
    rintro rfl
    exact hcolon hc
  unfold readLine
  dsimp only
  rw [if_neg (not_or.mpr hspeaks), hdrop]

theorem readLine_of_splits (h : Splits line name value) :
    readLine line =
      match Cell.ofName? (String.ofList name) with
      | none => .error (.badName (String.ofList name))
      | some cell => .ok (some (cell, String.ofList (readRaw value))) := by
  obtain @⟨before, after, hspeaks, hcut, hfirst⟩ := h
  have hbefore : ∀ c ∈ before, (c != ':') = true := by
    intro c hc
    rw [bne_iff_ne]
    rintro rfl
    exact hfirst hc
  have hdrop : (Text.trim line).dropWhile (· != ':') = ':' :: after := by
    rw [hcut, List.dropWhile_append_of_pos hbefore]
    simp
  have htake : (Text.trim line).takeWhile (· != ':') = before := by
    rw [hcut, List.takeWhile_append_of_pos hbefore]
    simp
  unfold readLine
  dsimp only
  cases hname : Cell.ofName? (String.ofList (Text.trim before)) <;>
    rw [if_neg (not_or.mpr hspeaks), hdrop, htake, hname]

/-- A line says nothing, has no colon, or is cut at its first one. -/
theorem line_cases (line : List Char) :
    ¬ Speaks line ∨ (Speaks line ∧ ':' ∉ Text.trim line) ∨ ∃ name value, Splits line name value := by
  by_cases hspeaks : Speaks line
  · by_cases hcolon : ':' ∈ Text.trim line
    · obtain ⟨before, after, hcut, hfirst⟩ := List.eq_append_cons_of_mem hcolon
      exact .inr (.inr ⟨_, _, .intro hspeaks hcut hfirst⟩)
    · exact .inr (.inl ⟨hspeaks, hcolon⟩)
  · exact .inl hspeaks

theorem readLine_eq_error_iff {fault : LineFault} :
    readLine line = .error fault ↔ IsFault line fault := by
  constructor
  · intro h
    obtain hsilent | ⟨hspeaks, hcolon⟩ | ⟨name, value, hsplits⟩ := line_cases line
    · rw [readLine_of_not_speaks hsilent] at h
      cases h
    · rw [readLine_of_no_colon hspeaks hcolon] at h
      cases h
      exact .noColon hspeaks hcolon
    · rw [readLine_of_splits hsplits] at h
      cases hname : Cell.ofName? (String.ofList name) with
      | none =>
          rw [hname] at h
          cases h
          exact .badName hsplits (by simp [hname])
      | some cell =>
          rw [hname] at h
          cases h
  · intro h
    cases h with
    | noColon hspeaks hcolon => exact readLine_of_no_colon hspeaks hcolon
    | badName hsplits hname =>
        rw [readLine_of_splits hsplits, Option.eq_none_iff_forall_ne_some.mpr hname]

theorem readLine_eq_some_iff : readLine line = .ok (some (cell, raw)) ↔ Says line cell raw := by
  constructor
  · intro h
    obtain hsilent | ⟨hspeaks, hcolon⟩ | ⟨name, value, hsplits⟩ := line_cases line
    · rw [readLine_of_not_speaks hsilent] at h
      cases h
    · rw [readLine_of_no_colon hspeaks hcolon] at h
      cases h
    · rw [readLine_of_splits hsplits] at h
      cases hname : Cell.ofName? (String.ofList name) with
      | none =>
          rw [hname] at h
          cases h
      | some found =>
          rw [hname] at h
          cases h
          exact .intro hsplits hname (decodes_iff.mpr rfl)
  · intro h
    cases h with
    | intro hsplits hname hraw =>
        rw [readLine_of_splits hsplits, hname, ← decodes_iff.mp hraw]

theorem Says.unique {other : String} (h : Says line cell raw) (hother : Says line cell other) :
    raw = other := by
  have heq := readLine_eq_some_iff.mpr h
  rw [readLine_eq_some_iff.mpr hother] at heq
  cases heq
  rfl

/-! ### All lines -/

variable {rest : List (List Char)} {texts found : CellTexts} {number : Nat}

theorem firstFault_cons {count : Nat} {fault : LineFault} :
    FirstFault (line :: rest) count fault ↔
      IsFault line fault ∧ count = 0 ∨
        (∀ other, ¬ IsFault line other) ∧ ∃ fewer, FirstFault rest fewer fault ∧
          count = fewer + 1 := by
  constructor
  · rintro ⟨before, first, after, hsplit, hbefore, hfault, rfl⟩
    rcases List.cons_eq_append_iff.mp hsplit with ⟨rfl, heq⟩ | ⟨earlier, rfl, rfl⟩
    · cases heq
      exact .inl ⟨hfault, rfl⟩
    · obtain ⟨hline, hearlier⟩ := List.forall_mem_cons.mp hbefore
      exact .inr ⟨hline, earlier.length, ⟨earlier, first, after, rfl, hearlier, hfault, rfl⟩, rfl⟩
  · rintro (⟨hfault, rfl⟩ | ⟨hline, fewer, ⟨before, first, after, rfl, hbefore, hfault, rfl⟩, rfl⟩)
    · exact ⟨[], line, rest, rfl, by simp, hfault, rfl⟩
    · exact ⟨line :: before, first, after, rfl, List.forall_mem_cons.mpr ⟨hline, hbefore⟩, hfault,
        rfl⟩

theorem lastSays_cons :
    LastSays (line :: rest) cell raw ↔
      LastSays rest cell raw ∨
        Says line cell raw ∧ ∀ later ∈ rest, ∀ other, ¬ Says later cell other := by
  constructor
  · rintro ⟨before, last, after, hsplit, hsaid, hafter⟩
    rcases List.cons_eq_append_iff.mp hsplit with ⟨rfl, heq⟩ | ⟨earlier, rfl, rfl⟩
    · cases heq
      exact .inr ⟨hsaid, hafter⟩
    · exact .inl ⟨earlier, last, after, rfl, hsaid, hafter⟩
  · rintro (⟨before, last, after, rfl, hsaid, hafter⟩ | ⟨hsaid, hafter⟩)
    · exact ⟨line :: before, last, after, rfl, hsaid, hafter⟩
    · exact ⟨[], line, rest, rfl, hsaid, hafter⟩

theorem exists_firstFault_or_forall (all : List (List Char)) :
    (∃ count fault, FirstFault all count fault) ∨ ∀ line ∈ all, ∀ fault, ¬ IsFault line fault := by
  induction all with
  | nil => exact .inr (by simp)
  | cons line rest ih =>
      by_cases hline : ∃ fault, IsFault line fault
      · obtain ⟨fault, hfault⟩ := hline
        exact .inl ⟨0, fault, firstFault_cons.mpr (.inl ⟨hfault, rfl⟩)⟩
      · obtain ⟨count, fault, hfirst⟩ | hrest := ih
        · exact .inl ⟨count + 1, fault,
            firstFault_cons.mpr (.inr ⟨not_exists.mp hline, count, hfirst, rfl⟩)⟩
        · exact .inr (List.forall_mem_cons.mpr ⟨not_exists.mp hline, hrest⟩)

theorem FirstFault.not_forall {all : List (List Char)} {count : Nat} {fault : LineFault}
    (h : FirstFault all count fault) : ¬ ∀ line ∈ all, ∀ other, ¬ IsFault line other := by
  obtain ⟨before, line, after, rfl, -, hfault, -⟩ := h
  exact fun hnone => hnone line (by simp) fault hfault

theorem exists_lastSays_or_forall (all : List (List Char)) (cell : Cell) :
    (∃ raw, LastSays all cell raw) ∨ ∀ line ∈ all, ∀ raw, ¬ Says line cell raw := by
  induction all with
  | nil => exact .inr (by simp)
  | cons line rest ih =>
      obtain ⟨raw, hlast⟩ | hrest := ih
      · exact .inl ⟨raw, lastSays_cons.mpr (.inl hlast)⟩
      · by_cases hline : ∃ raw, Says line cell raw
        · obtain ⟨raw, hsaid⟩ := hline
          exact .inl ⟨raw, lastSays_cons.mpr (.inr ⟨hsaid, hrest⟩)⟩
        · exact .inr (List.forall_mem_cons.mpr ⟨not_exists.mp hline, hrest⟩)

theorem LastSays.not_forall {all : List (List Char)} (h : LastSays all cell raw) :
    ¬ ∀ line ∈ all, ∀ other, ¬ Says line cell other := by
  obtain ⟨before, line, after, rfl, hsaid, -⟩ := h
  exact fun hnone => hnone line (by simp) raw hsaid

theorem LastSays.unique {all : List (List Char)} {other : String} (h : LastSays all cell raw)
    (hother : LastSays all cell other) : raw = other := by
  induction all with
  | nil => simp [LastSays] at h
  | cons line rest ih =>
      obtain hrest | ⟨hsaid, hnone⟩ := lastSays_cons.mp h
      · obtain hrest' | ⟨-, hnone⟩ := lastSays_cons.mp hother
        · exact ih hrest hrest'
        · exact absurd hnone hrest.not_forall
      · obtain hrest | ⟨hsaid', -⟩ := lastSays_cons.mp hother
        · exact absurd hnone hrest.not_forall
        · exact hsaid.unique hsaid'

theorem readLines_eq_error_iff {all : List (List Char)} {error : ParseError} :
    readLines texts number all = .error error ↔
      ∃ count, FirstFault all count error.fault ∧ error.line = number + count := by
  induction all generalizing texts number with
  | nil => simp [readLines, FirstFault]
  | cons line rest ih =>
      unfold readLines
      cases hline : readLine line with
      | error fault =>
          have hfault := readLine_eq_error_iff.mp hline
          constructor
          · rintro ⟨⟩
            exact ⟨0, firstFault_cons.mpr (.inl ⟨hfault, rfl⟩), rfl⟩
          · rintro ⟨count, hfirst, hnumber⟩
            obtain ⟨hother, rfl⟩ | ⟨hnone, -⟩ := firstFault_cons.mp hfirst
            · have hsame := readLine_eq_error_iff.mpr hother
              rw [hline, Except.error.injEq] at hsame
              rw [hsame, ← Nat.add_zero number, ← hnumber]
            · exact absurd hfault (hnone fault)
      | ok said =>
          have hnone : ∀ other, ¬ IsFault line other := by
            intro other hother
            rw [readLine_eq_error_iff.mpr hother] at hline
            cases hline
          have hrest : ∀ texts : CellTexts, readLines texts (number + 1) rest = .error error ↔
              ∃ count, FirstFault (line :: rest) count error.fault ∧
                error.line = number + count := by
            intro texts
            rw [ih]
            constructor
            · rintro ⟨fewer, hfirst, hnumber⟩
              exact ⟨fewer + 1, firstFault_cons.mpr (.inr ⟨hnone, fewer, hfirst, rfl⟩), by omega⟩
            · rintro ⟨count, hfirst, hnumber⟩
              obtain ⟨hfault, -⟩ | ⟨-, fewer, hfewer, rfl⟩ := firstFault_cons.mp hfirst
              · exact absurd hfault (hnone error.fault)
              · exact ⟨fewer, hfewer, by omega⟩
          rcases said with _ | ⟨cell, raw⟩
          · exact hrest texts
          · exact hrest (texts.write cell raw)

/-- A cell has the text that the last line to name it gives it, and otherwise what it had before. -/
theorem getElem?_of_readLines_eq {all : List (List Char)}
    (h : readLines texts number all = .ok found) (cell : Cell) (raw : String) :
    found[cell]? = some raw ↔
      raw ≠ "" ∧ LastSays all cell raw ∨
        (∀ line ∈ all, ∀ other, ¬ Says line cell other) ∧ texts[cell]? = some raw := by
  induction all generalizing texts number with
  | nil =>
      obtain rfl : texts = found := by simpa [readLines] using h
      simp [LastSays]
  | cons line rest ih =>
      rw [lastSays_cons, List.forall_mem_cons]
      simp only [← readLine_eq_some_iff] at ih ⊢
      unfold readLines at h
      rcases hline : readLine line with fault | _ | ⟨named, text⟩
      · rw [hline] at h
        cases h
      · rw [hline] at h
        simpa using ih h
      · rw [hline] at h
        rw [ih h, CellTexts.getElem?_write]
        by_cases hcell : named = cell
        · -- the line speaks of this cell, and counts unless a later one does too
          subst hcell
          by_cases htext : text = raw
          · subst htext
            simp
            tauto
          · simp [htext]
        · simp [hcell]

/-! ### Whole texts -/

theorem read_eq_error_iff {text : String} {error : ParseError} :
    read text = .error error ↔
      ∃ count, FirstFault (lines text) count error.fault ∧ error.line = count + 1 := by
  rw [read, readLines_eq_error_iff, ← lines]
  simp only [Nat.add_comm 1]

theorem exists_read_eq_ok_iff {text : String} :
    (∃ texts, read text = .ok texts) ↔ ∀ line ∈ lines text, ∀ fault, ¬ IsFault line fault := by
  constructor
  · rintro ⟨texts, hread⟩
    refine (exists_firstFault_or_forall (lines text)).resolve_left ?_
    rintro ⟨count, fault, hfirst⟩
    have herror : read text = .error { line := count + 1, fault } :=
      read_eq_error_iff.mpr ⟨count, hfirst, rfl⟩
    rw [hread] at herror
    cases herror
  · intro hnone
    cases hread : read text with
    | error error =>
        obtain ⟨count, hfirst, -⟩ := read_eq_error_iff.mp hread
        exact absurd hnone hfirst.not_forall
    | ok texts => exact ⟨texts, rfl⟩

theorem getElem?_of_read_eq {text : String} (h : read text = .ok found) (cell : Cell)
    (raw : String) :
    found[cell]? = some raw ↔ raw ≠ "" ∧ LastSays (lines text) cell raw := by
  refine (getElem?_of_readLines_eq h cell raw).trans ?_
  simp [lines]

theorem getElem?_eq_none_of_read_eq {text : String} (h : read text = .ok found) (cell : Cell) :
    found[cell]? = none ↔
      LastSays (lines text) cell "" ∨ ∀ line ∈ lines text, ∀ raw, ¬ Says line cell raw := by
  rw [Option.eq_none_iff_forall_ne_some]
  simp only [ne_eq, getElem?_of_read_eq h cell]
  constructor
  · intro hnone
    obtain ⟨raw, hlast⟩ | hunnamed := exists_lastSays_or_forall (lines text) cell
    · have hempty : raw = "" := by
        by_contra hraw
        exact hnone raw ⟨hraw, hlast⟩
      exact .inl (hempty ▸ hlast)
    · exact .inr hunnamed
  · rintro (hempty | hunnamed) raw ⟨hraw, hlast⟩
    · exact hraw (hlast.unique hempty)
    · exact hlast.not_forall hunnamed

theorem read_eq_ok_iff {text : String} {texts : CellTexts} :
    read text = .ok texts ↔
      (∀ line ∈ lines text, ∀ fault, ¬ IsFault line fault) ∧
        ∀ (cell : Cell) (raw : String),
          texts[cell]? = some raw ↔ raw ≠ "" ∧ LastSays (lines text) cell raw := by
  constructor
  · intro hread
    exact ⟨exists_read_eq_ok_iff.mp ⟨texts, hread⟩, getElem?_of_read_eq hread⟩
  · rintro ⟨hnone, htexts⟩
    obtain ⟨found, hread⟩ := exists_read_eq_ok_iff.mpr hnone
    have hsame : found = texts := by
      apply Std.ExtTreeMap.ext_getElem?
      intro cell
      apply Option.ext
      intro raw
      rw [getElem?_of_read_eq hread cell raw, htexts cell raw]
    rw [hread, hsame]

theorem message_of_fault (error : ParseError) :
    error.message = "Parse error at line " ++ Nat.repr error.line ++ ": " ++
      match error.fault with
      | .noColon => "Expected 'CELLREF: VALUE' format"
      | .badName name => "Invalid cell reference: " ++ name := by
  obtain ⟨number, fault⟩ := error
  cases fault <;> rfl

/-- A text is refused if it has a faulty line, and then for the first one. Otherwise each cell has
what the last line that names it says, and nothing if that is empty or no line names it. -/
theorem read_reports_first_fault_or_last_texts (text : String) :
    ((∃ error, read text = .error error) ↔
      ∃ line ∈ lines text, ∃ fault, IsFault line fault) ∧
    (∀ error,
      (read text = .error error ↔
        ∃ count, FirstFault (lines text) count error.fault ∧ error.line = count + 1) ∧
      error.message = "Parse error at line " ++ Nat.repr error.line ++ ": " ++
        match error.fault with
        | .noColon => "Expected 'CELLREF: VALUE' format"
        | .badName name => "Invalid cell reference: " ++ name) ∧
    (∀ texts, read text = .ok texts ↔
      (∀ line ∈ lines text, ∀ fault, ¬ IsFault line fault) ∧
      ∀ cell : Cell,
        (∀ raw, texts[cell]? = some raw ↔ raw ≠ "" ∧ LastSays (lines text) cell raw) ∧
        (texts[cell]? = none ↔
          LastSays (lines text) cell "" ∨ ∀ line ∈ lines text, ∀ raw, ¬ Says line cell raw)) := by
  refine ⟨?_, fun error => ⟨read_eq_error_iff, message_of_fault error⟩, ?_⟩
  · constructor
    · rintro ⟨error, hread⟩
      obtain ⟨count, ⟨before, line, after, hsplit, -, hfault, -⟩, -⟩ := read_eq_error_iff.mp hread
      exact ⟨line, by simp [hsplit], error.fault, hfault⟩
    · rintro ⟨line, hline, fault, hfault⟩
      cases hread : read text with
      | error error => exact ⟨error, rfl⟩
      | ok texts =>
          have hnone := exists_read_eq_ok_iff.mp ⟨texts, hread⟩
          exact absurd hfault (hnone line hline fault)
  · intro texts
    constructor
    · intro hread
      refine ⟨exists_read_eq_ok_iff.mp ⟨texts, hread⟩, fun cell => ⟨?_, ?_⟩⟩
      · exact getElem?_of_read_eq hread cell
      · exact getElem?_eq_none_of_read_eq hread cell
    · rintro ⟨hnone, htexts⟩
      exact read_eq_ok_iff.mpr ⟨hnone, fun cell => (htexts cell).1⟩

example : (read "a1: 5\nB2: 1\n# B2: 2\nA01:\nb002: \" x\"").map (·.toList) =
    .ok [({ row := 1, col := 1 }, " x")] := by
  decide +kernel

end Spreadsheet.SheetText
