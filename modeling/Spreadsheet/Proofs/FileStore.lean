import Spreadsheet.Proofs.Disk
import Spreadsheet.Proofs.SheetText
import Spreadsheet.Store.File

/-!
# A store and its file

Opening the file of a store again gives the cells of the store: a write changes both or neither.
-/

namespace Spreadsheet.FileStore

variable {store : FileStore} {disk other : Disk} {path : String} {access : Access}

theorem load_congr (h : disk.AgreesAt other path) : load disk path = load other path := by
  unfold load
  rw [h.1, h.readText?_eq]

theorem load_of_readText? {text : String} (hthere : disk.contains path = true)
    (htext : disk.readText? path = some text) :
    load disk path = (SheetText.read text).mapError .parse := by
  rw [load, if_pos hthere, htext]
  dsimp only
  cases SheetText.read text <;> rfl

theorem open_of_load_eq {texts : CellTexts} (h : load disk path = .ok texts) (access : Access) :
    FileStore.open disk path access = .ok { path, texts, access, disk } := by
  rw [FileStore.open, h]
  rfl

theorem load_of_open_eq (h : FileStore.open disk path access = .ok store) :
    load disk path = .ok store.texts ∧ store.disk = disk ∧ store.path = path := by
  unfold FileStore.open at h
  cases hload : load disk path with
  | error error =>
      rw [hload] at h
      cases h
  | ok texts =>
      rw [hload] at h
      cases h
      exact ⟨rfl, rfl, rfl⟩

theorem load_cases {texts : CellTexts} (h : load disk path = .ok texts) :
    texts = ∅ ∨ ∃ text, SheetText.read text = .ok texts := by
  unfold load at h
  split at h
  · split at h
    · cases h
    · split at h
      · cases h
      · rename_i found hread
        cases h
        exact .inr ⟨_, hread⟩
  · cases h
    exact .inl rfl

theorem belowLastRow_of_load_eq {texts : CellTexts} (h : load disk path = .ok texts) :
    ∀ cell ∈ texts, cell.BelowLastRow := by
  rcases load_cases h with rfl | ⟨text, hread⟩
  · simp
  · exact SheetText.belowLastRow_of_read hread

theorem wellFormed_of_open (h : FileStore.open disk path access = .ok store) :
    LawfulCellStore.WellFormed store := by
  change store.texts.WellFormed
  rcases load_cases (load_of_open_eq h).1 with hempty | ⟨text, hread⟩
  · rw [hempty]
    exact CellTexts.wellFormed_empty
  · exact SheetText.wellFormed_of_read hread

structure InStep (store : FileStore) : Prop where
  load_eq : load store.disk store.path = .ok store.texts
  wellFormed : store.texts.WellFormed
  belowLastRow : ∀ cell ∈ store.texts, cell.BelowLastRow

theorem inStep_of_open_eq (h : FileStore.open disk path access = .ok store) : store.InStep := by
  obtain ⟨hload, rfl, rfl⟩ := load_of_open_eq h
  exact ⟨hload, wellFormed_of_open h, belowLastRow_of_load_eq hload⟩

/-! ### Histories -/

/-- The stores that come of opening a file and writing cells. Between the calls anything on the disk
may change but what stands at the path, so that one write may be refused and the next succeed. -/
inductive Arises : FileStore → Prop where
  | «open» {store : FileStore} (disk : Disk) (path : String) (access : Access)
    (hopen : FileStore.open disk path access = .ok store) : Arises store
  | write {store : FileStore} (cell : Cell) (text : String) (hcell : cell.BelowLastRow)
    (h : Arises store) : Arises (store.write cell text).2
  | elsewhere {store : FileStore} (disk : Disk) (hagrees : disk.AgreesAt store.disk store.path)
    (h : Arises store) : Arises { store with disk }

namespace InStep

theorem elsewhere (h : store.InStep) (hagrees : disk.AgreesAt store.disk store.path) :
    InStep { store with disk } where
  load_eq := (load_congr hagrees).trans h.load_eq
  wellFormed := h.wellFormed
  belowLastRow := h.belowLastRow

theorem write (h : store.InStep) {cell : Cell} (hcell : cell.BelowLastRow) (text : String) :
    (store.write cell text).2.InStep := by
  rcases store.write_outcomes cell text with
    ⟨disk, hwrite, hthere, htext⟩ | ⟨error, disk, hwrite, hagrees⟩
  · have hwellFormed := h.wellFormed.write cell text
    have hbelow := SheetText.belowLastRow_write h.belowLastRow hcell text
    rw [hwrite]
    refine ⟨?_, hwellFormed, hbelow⟩
    change load disk store.path = .ok (store.texts.write cell text)
    rw [load_of_readText? hthere htext, SheetText.read_write hwellFormed hbelow]
    rfl
  · rw [hwrite]
    exact h.elsewhere hagrees

end InStep

theorem Arises.inStep (h : store.Arises) : store.InStep := by
  induction h with
  | «open» disk path access hopen => exact inStep_of_open_eq hopen
  | write cell text hcell _ ih => exact ih.write hcell text
  | elsewhere disk hagrees _ ih => exact ih.elsewhere hagrees

/-- A store and its file stay in step, whatever is written: the file opens again and holds the cells
of the store. A write that succeeds changes the text of its cell, and one that fails changes neither
the cells nor the file. -/
theorem Arises.reopens_with_same_cells (store : FileStore) (h : store.Arises) :
    (∀ access, ∃ reopened, FileStore.open store.disk store.path access = .ok reopened ∧
      CellStore.cells reopened = CellStore.cells store) ∧
    ∀ cell text,
      ((store.write cell text).1 = .ok () → ∀ other raw,
        (other, raw) ∈ CellStore.cells (store.write cell text).2 ↔
          if other = cell then raw = text ∧ text ≠ "" else (other, raw) ∈ CellStore.cells store) ∧
      ∀ error, (store.write cell text).1 = .error error →
        CellStore.cells (store.write cell text).2 = CellStore.cells store ∧
        (store.write cell text).2.disk.AgreesAt store.disk store.path := by
  have hinStep := h.inStep
  refine ⟨fun access => ⟨_, open_of_load_eq hinStep.load_eq access, rfl⟩, fun cell text => ?_⟩
  rcases store.write_outcomes cell text with
    ⟨disk, hwrite, -⟩ | ⟨error, disk, hwrite, hagrees⟩
  · rw [hwrite]
    refine ⟨fun _ other raw => CellTexts.mem_toList_write, ?_⟩
    rintro error ⟨⟩
  · rw [hwrite]
    refine ⟨?_, fun _ _ => ⟨rfl, hagrees⟩⟩
    rintro ⟨⟩

def handWrittenText : String :=
  "b01 : 5\r\n# note\n\nA1:\" x\"\nB1: \"=a1+1"

def handWrittenStore : FileStore where
  path := "s.grd"
  texts := (CellTexts.write ∅ { row := 0, col := 1 } "\"=a1+1").write { row := 0, col := 0 } " x"
  access := .writable
  disk := Disk.ofFiles ["home"] [("s.grd", handWrittenText.toUTF8)]

theorem hand_written_file_reopens_after_write :
    (handWrittenStore.write { row := 0, col := 1 } "\"").2.Arises ∧
    ∃ reopened, FileStore.open (handWrittenStore.write { row := 0, col := 1 } "\"").2.disk
        (handWrittenStore.write { row := 0, col := 1 } "\"").2.path .readOnly = .ok reopened ∧
      CellStore.cells reopened =
        CellStore.cells (handWrittenStore.write { row := 0, col := 1 } "\"").2 := by
  have hload : load handWrittenStore.disk "s.grd" = .ok handWrittenStore.texts := by
    have htext : handWrittenStore.disk.readText? "s.grd" = some handWrittenText :=
      Disk.readText?_of_read? rfl
    rw [load_of_readText? (by decide) htext]
    rfl
  have harises : (handWrittenStore.write { row := 0, col := 1 } "\"").2.Arises :=
    .write { row := 0, col := 1 } "\"" (by decide)
      (.open handWrittenStore.disk "s.grd" .writable (open_of_load_eq hload .writable))
  exact ⟨harises, (Arises.reopens_with_same_cells _ harises).1 .readOnly⟩

end Spreadsheet.FileStore
