import Mathlib.Data.List.DropRight
import Spreadsheet.Proofs.Cell.Name
import Spreadsheet.Proofs.Store
import Spreadsheet.SheetText

/-!
# The text form of a sheet loses nothing

What is written reads back: each cell has a line of its own, no line break is left within it, and a
raw text that would be changed by reading stands between quotes.
-/

namespace Spreadsheet

namespace Text

variable {text : List Char}

theorem isBlank_of_isAlphanum {c : Char} (h : c.isAlphanum) : isBlank c = false := by
  have hblanks : blanks.all fun blank => !blank.isAlphanum := by decide
  by_contra hblank
  rw [Bool.not_eq_false, isBlank, List.contains_iff_mem] at hblank
  have hc := List.all_eq_true.mp hblanks c hblank
  rw [h] at hc
  cases hc

theorem dropWhile_isBlank_eq_self_iff :
    text.dropWhile isBlank = text ↔ ∀ c ∈ text.head?, isBlank c = false := by
  rw [List.dropWhile_eq_self_iff]
  cases text with
  | nil => simp
  | cons c rest => simp

theorem trimEnd_eq_self_iff :
    trimEnd text = text ↔ ∀ c ∈ text.getLast?, isBlank c = false := by
  refine List.rdropWhile_eq_self_iff.trans ?_
  cases text using List.reverseRecOn with
  | nil => simp
  | append_singleton rest c => simp

theorem trim_eq_self_iff :
    trim text = text ↔
      (∀ c ∈ text.head?, isBlank c = false) ∧ ∀ c ∈ text.getLast?, isBlank c = false := by
  rw [← dropWhile_isBlank_eq_self_iff, ← trimEnd_eq_self_iff]
  constructor
  · intro htrim
    -- neither end can lose a blank without the whole getting shorter
    have hdrop : text.dropWhile isBlank = text := by
      apply (List.dropWhile_suffix isBlank).eq_of_length_le
      calc text.length
          = (trim text).length := by rw [htrim]
        _ ≤ (text.dropWhile isBlank).length := (List.rdropWhile_prefix _ _).length_le
    refine ⟨hdrop, ?_⟩
    rwa [trim, hdrop] at htrim
  · rintro ⟨hdrop, hend⟩
    rw [trim, hdrop, hend]

theorem trim_cons_of_isBlank {blank : Char} (h : isBlank blank) : trim (blank :: text) = trim text := by
  rw [trim, List.dropWhile_cons_of_pos h, trim]

end Text

namespace SheetText

/-! ### Quoted text -/

theorem unescape_escape (text : List Char) : unescape (escape text) = text := by
  induction text using escape.induct with
  | case1 => rfl
  | case2 rest ih => rw [escape, unescape, ih]
  | case3 rest ih => rw [escape, unescape, ih]
  | case4 rest ih => rw [escape, unescape, ih]
  | case5 rest ih => rw [escape, unescape, ih]
  | case6 c rest hslash hquote hnewline hreturn ih =>
      rw [escape, unescape, ih] <;> simp_all

theorem newline_not_mem_escape (text : List Char) : '\n' ∉ escape text := by
  induction text using escape.induct with
  | case1 => simp [escape]
  | case2 rest ih => simpa [escape] using ih
  | case3 rest ih => simpa [escape] using ih
  | case4 rest ih => simpa [escape] using ih
  | case5 rest ih => simpa [escape] using ih
  | case6 c rest hslash hquote hnewline hreturn ih =>
      rw [escape] <;> simp_all [eq_comm]

theorem needsQuotes_eq_false_iff {raw : List Char} :
    needsQuotes raw = false ↔
      Text.trim raw = raw ∧ raw.head? ≠ some '"' ∧ '\n' ∉ raw ∧ '\r' ∉ raw := by
  simp [needsQuotes, and_assoc]

theorem writeRaw_of_needsQuotes {raw : List Char} (h : needsQuotes raw = true) :
    writeRaw raw = '"' :: escape raw ++ ['"'] := by
  rw [writeRaw, if_pos h]

theorem writeRaw_of_not_needsQuotes {raw : List Char} (h : needsQuotes raw = false) :
    writeRaw raw = raw := by
  rw [writeRaw, h, if_neg Bool.false_ne_true]

theorem readRaw_writeRaw (raw : List Char) : readRaw (writeRaw raw) = raw := by
  cases hquotes : needsQuotes raw with
  | true =>
      rw [writeRaw_of_needsQuotes hquotes, List.cons_append, readRaw,
        if_pos List.getLast?_concat, List.dropLast_concat, unescape_escape]
  | false =>
      obtain ⟨-, hhead, -⟩ := needsQuotes_eq_false_iff.mp hquotes
      rw [writeRaw_of_not_needsQuotes hquotes]
      unfold readRaw
      split
      · simp at hhead
      · rfl

theorem trim_writeRaw (raw : List Char) : Text.trim (writeRaw raw) = writeRaw raw := by
  cases hquotes : needsQuotes raw with
  | true =>
      have hquote : Text.isBlank '"' = false := by decide
      rw [writeRaw_of_needsQuotes hquotes, Text.trim_eq_self_iff, List.getLast?_concat]
      simp [hquote]
  | false =>
      rw [writeRaw_of_not_needsQuotes hquotes]
      exact (needsQuotes_eq_false_iff.mp hquotes).1

theorem writeRaw_ne_nil {raw : List Char} (h : raw ≠ []) : writeRaw raw ≠ [] := by
  unfold writeRaw
  split
  · simp
  · exact h

theorem newline_not_mem_writeRaw (raw : List Char) : '\n' ∉ writeRaw raw := by
  cases hquotes : needsQuotes raw with
  | true =>
      rw [writeRaw_of_needsQuotes hquotes]
      simp [newline_not_mem_escape]
  | false =>
      rw [writeRaw_of_not_needsQuotes hquotes]
      exact (needsQuotes_eq_false_iff.mp hquotes).2.2.1

/-! ### Lines -/

theorem trim_writeLine (cell : Cell) {raw : String} (hraw : raw ≠ "") :
    Text.trim (writeLine cell raw) = writeLine cell raw := by
  have hvalue : writeRaw raw.toList ≠ [] := writeRaw_ne_nil (by simpa using hraw)
  have hlast : (writeLine cell raw).getLast? = (writeRaw raw.toList).getLast? := by
    rw [writeLine, List.getLast?_append_of_ne_nil _ (by simp), List.getLast?_cons_of_ne_nil (by simp),
      List.getLast?_cons_of_ne_nil hvalue]
  rw [Text.trim_eq_self_iff]
  constructor
  · intro c hc
    rw [writeLine, List.head?_append_of_ne_nil _ cell.toList_name_ne_nil] at hc
    exact Text.isBlank_of_isAlphanum (Cell.isAlphanum_of_mem_name (List.mem_of_mem_head? hc))
  · rw [hlast]
    exact (Text.trim_eq_self_iff.mp (trim_writeRaw raw.toList)).2

theorem not_mem_name (cell : Cell) {c : Char} (h : c.isAlphanum = false) :
    c ∉ cell.name.toList := by
  intro hmem
  rw [Cell.isAlphanum_of_mem_name hmem] at h
  cases h

theorem writeLine_is_no_comment (cell : Cell) (raw : String) :
    ¬ (writeLine cell raw = [] ∨ (writeLine cell raw).head? = some '#') := by
  rw [writeLine, List.head?_append_of_ne_nil _ cell.toList_name_ne_nil]
  rintro (hnil | hcomment)
  · simp at hnil
  · exact not_mem_name cell (by decide) (List.mem_of_mem_head? hcomment)

/-- A line is cut at the colon after the name, which holds none itself. -/
theorem cut_writeLine (cell : Cell) (raw : String) :
    (writeLine cell raw).takeWhile (· != ':') = cell.name.toList ∧
      (writeLine cell raw).dropWhile (· != ':') = ':' :: ' ' :: writeRaw raw.toList := by
  have hname : ∀ c ∈ cell.name.toList, (c != ':') = true := by
    intro c hc
    rw [bne_iff_ne]
    rintro rfl
    exact not_mem_name cell (by decide) hc
  rw [writeLine, List.takeWhile_append_of_pos hname, List.dropWhile_append_of_pos hname]
  simp

theorem trim_name (cell : Cell) : Text.trim cell.name.toList = cell.name.toList := by
  have hblank : ∀ c ∈ cell.name.toList, Text.isBlank c = false := fun c hc =>
    Text.isBlank_of_isAlphanum (Cell.isAlphanum_of_mem_name hc)
  rw [Text.trim_eq_self_iff]
  exact ⟨fun c hc => hblank c (List.mem_of_mem_head? hc),
    fun c hc => hblank c (List.mem_of_mem_getLast? hc)⟩

theorem readLine_writeLine {cell : Cell} {raw : String} (hcell : cell.BelowLastRow)
    (hraw : raw ≠ "") : readLine (writeLine cell raw) = .ok (some (cell, raw)) := by
  obtain ⟨htake, hdrop⟩ := cut_writeLine cell raw
  have hvalue : Text.trim (' ' :: writeRaw raw.toList) = writeRaw raw.toList := by
    rw [Text.trim_cons_of_isBlank (by decide), trim_writeRaw]
  unfold readLine
  dsimp only
  rw [trim_writeLine cell hraw, if_neg (writeLine_is_no_comment cell raw), hdrop, htake]
  dsimp only
  rw [trim_name, String.ofList_toList, Cell.ofName?_name hcell, hvalue, readRaw_writeRaw,
    String.ofList_toList]

theorem newline_not_mem_writeLine (cell : Cell) (raw : String) : '\n' ∉ writeLine cell raw := by
  have hname : '\n' ∉ cell.name.toList := not_mem_name cell (by decide)
  have hvalue : '\n' ∉ writeRaw raw.toList := newline_not_mem_writeRaw raw.toList
  simp [writeLine, hname, hvalue]

/-! ### Whole texts -/

theorem splitOn_flatMap_newline {lines : List (List Char)} (h : ∀ line ∈ lines, '\n' ∉ line) :
    (lines.flatMap (· ++ ['\n'])).splitOn '\n' = lines ++ [[]] := by
  induction lines with
  | nil => rfl
  | cons line rest ih =>
      obtain ⟨hline, hrest⟩ := List.forall_mem_cons.mp h
      rw [List.flatMap_cons, List.append_assoc, List.singleton_append,
        List.splitOn_append_cons_self_of_not_mem hline, ih hrest, List.cons_append]

/-- Lines that were written put their cells in, one after the other. -/
theorem readLines_writeLines {cells : List (Cell × String)}
    (hcells : ∀ pair ∈ cells, pair.1.BelowLastRow ∧ pair.2 ≠ "") (texts : CellTexts)
    (number : Nat) :
    readLines texts number ((cells.map fun (cell, raw) => writeLine cell raw) ++ [[]]) =
      .ok (cells.foldl (fun texts (cell, raw) => texts.insert cell raw) texts) := by
  induction cells generalizing texts number with
  | nil => rfl
  | cons pair rest ih =>
      obtain ⟨cell, raw⟩ := pair
      obtain ⟨⟨hcell, hraw⟩, hrest⟩ := List.forall_mem_cons.mp hcells
      have hwrite : texts.write cell raw = texts.insert cell raw := by
        rw [CellTexts.write, if_neg (by simpa using hraw)]
      rw [List.map_cons, List.cons_append, readLines, readLine_writeLine hcell hraw]
      dsimp only
      rw [ih hrest, hwrite, List.foldl_cons]

theorem read_writeCells {cells : List (Cell × String)}
    (hcells : ∀ pair ∈ cells, pair.1.BelowLastRow) :
    read (writeCells cells) = .ok ((cells.filter fun (_, raw) => raw ≠ "").foldl
      (fun texts (cell, raw) => texts.insert cell raw) ∅) := by
  have hwritten : (cells.filter fun (_, raw) => !raw.isEmpty) =
      cells.filter fun (_, raw) => raw ≠ "" := by
    apply List.filter_congr
    rintro ⟨cell, raw⟩ -
    rw [Bool.eq_iff_iff]
    simp
  have hlines : ∀ line ∈ header :: (cells.filter fun (_, raw) => raw ≠ "").map
      (fun (cell, raw) => writeLine cell raw), '\n' ∉ line := by
    rw [List.forall_mem_cons, List.forall_mem_map]
    exact ⟨by decide, fun pair _ => newline_not_mem_writeLine pair.1 pair.2⟩
  have hheader : readLine header = .ok none := by decide
  rw [read, writeCells, hwritten]
  dsimp only
  rw [String.toList_ofList, splitOn_flatMap_newline hlines, List.cons_append, readLines, hheader]
  dsimp only
  apply readLines_writeLines
  intro pair hpair
  obtain ⟨hmem, hraw⟩ := List.mem_filter.mp hpair
  exact ⟨hcells pair hmem, by simpa using hraw⟩

theorem read_write {texts : CellTexts} (htexts : texts.WellFormed)
    (hcells : ∀ cell ∈ texts, cell.BelowLastRow) : read (write texts) = .ok texts := by
  have hpairs : ∀ pair ∈ texts.toList, pair.1.BelowLastRow ∧ pair.2 ≠ "" := by
    rintro ⟨cell, raw⟩ hpair
    rw [Std.ExtTreeMap.mem_toList_iff_getElem?_eq_some] at hpair
    refine ⟨hcells cell (Std.ExtTreeMap.getElem?_eq_some_iff.mp hpair).1, ?_⟩
    rintro rfl
    exact htexts cell hpair
  have hfilter : (texts.toList.filter fun (_, raw) => raw ≠ "") = texts.toList :=
    List.filter_eq_self.mpr fun pair hpair => by simpa using (hpairs pair hpair).2
  rw [write, read_writeCells fun pair hpair => (hpairs pair hpair).1, hfilter,
    ← Std.ExtTreeMap.ofList_eq_foldl, CellTexts.ofList_toList]

/-- Written cells read back: put in one after the other, cells without text left out, and if they
came from a map, as that map. -/
theorem written_cells_read_back :
    (∀ cells : List (Cell × String), (∀ pair ∈ cells, pair.1.BelowLastRow) →
      read (writeCells cells) = .ok ((cells.filter fun (_, raw) => raw ≠ "").foldl
        (fun texts (cell, raw) => texts.insert cell raw) ∅)) ∧
    ∀ texts : CellTexts, (∀ cell : Cell, texts[cell]? ≠ some "") →
      (∀ cell ∈ texts, cell.BelowLastRow) → read (write texts) = .ok texts :=
  ⟨fun _ hcells => read_writeCells hcells, fun _ htexts hcells => read_write htexts hcells⟩

def awkwardCells : List (Cell × String) :=
  [({ row := 0, col := 0 }, "\""), ({ row := 0, col := 1 }, " \\"), ({ row := 1, col := 0 }, "\r\n"),
    ({ row := 1, col := 27 }, "\u2003: #"), ({ row := 0, col := 0 }, "\"a"),
    ({ row := 0, col := 1 }, "")]

theorem awkward_cells_read_back :
    (∀ pair ∈ awkwardCells, pair.1.BelowLastRow) ∧
    read (writeCells awkwardCells) = .ok ((awkwardCells.filter fun (_, raw) => raw ≠ "").foldl
      (fun texts (cell, raw) => texts.insert cell raw) ∅) :=
  ⟨by decide, written_cells_read_back.1 awkwardCells (by decide)⟩

/-! ### Hand-written texts -/

theorem belowLastRow_of_readLine {line : List Char} {cell : Cell} {raw : String}
    (h : readLine line = .ok (some (cell, raw))) : cell.BelowLastRow := by
  unfold readLine at h
  dsimp only at h
  split at h
  · cases h
  · split at h
    · cases h
    · split at h
      · cases h
      · rename_i hname
        cases h
        exact Cell.belowLastRow_of_ofName?_eq_some hname

/-- Reading keeps what is kept by putting in a cell above the last row, since the name of no other
cell can be read. -/
theorem readLines_keeps (kept : CellTexts → Prop)
    (hwrite : ∀ (texts : CellTexts) (cell : Cell) (raw : String), kept texts →
      cell.BelowLastRow → kept (texts.write cell raw))
    {texts found : CellTexts} {number : Nat} {lines : List (List Char)}
    (hread : readLines texts number lines = .ok found) (h : kept texts) : kept found := by
  induction lines generalizing texts number with
  | nil =>
      obtain rfl : texts = found := by simpa [readLines] using hread
      exact h
  | cons line rest ih =>
      unfold readLines at hread
      split at hread
      · cases hread
      · exact ih hread h
      · rename_i cell raw hline
        exact ih hread (hwrite texts cell raw h (belowLastRow_of_readLine hline))

theorem wellFormed_of_read {text : String} {found : CellTexts} (h : read text = .ok found) :
    found.WellFormed :=
  readLines_keeps CellTexts.WellFormed (fun _ cell raw htexts _ => htexts.write cell raw) h
    CellTexts.wellFormed_empty

theorem belowLastRow_write {texts : CellTexts} {cell : Cell}
    (h : ∀ other ∈ texts, other.BelowLastRow) (hcell : cell.BelowLastRow) (raw : String) :
    ∀ other ∈ texts.write cell raw, other.BelowLastRow := by
  intro other hother
  rcases CellTexts.eq_or_mem_of_mem_write hother with rfl | hmem
  · exact hcell
  · exact h other hmem

/-- However a text was written, the cells read from it can be written. -/
theorem belowLastRow_of_read {text : String} {found : CellTexts} (h : read text = .ok found) :
    ∀ cell ∈ found, cell.BelowLastRow :=
  readLines_keeps (fun texts => ∀ cell ∈ texts, cell.BelowLastRow)
    (fun _ _ raw htexts hcell => belowLastRow_write htexts hcell raw) h (by simp)

end SheetText

end Spreadsheet
