import Mathlib.Logic.Function.Basic
import Spreadsheet.Proofs.Disk
import Spreadsheet.Store.File
import Spreadsheet.Store.Memory

/-!
# What is asked of a store

Everything that is calculated depends on a store only through the contract below: it lists just the
cells that hold text, a write changes one cell, and a refused write changes none. Both kinds of
store keep it.
-/

namespace Spreadsheet

namespace CellTexts

variable {texts : CellTexts}

def WellFormed (texts : CellTexts) : Prop :=
  ∀ cell : Cell, texts[cell]? ≠ some ""

theorem wellFormed_empty : WellFormed ∅ := by
  intro cell
  simp

theorem raw_eq (texts : CellTexts) (cell : Cell) : texts.raw cell = texts[cell]?.getD "" :=
  Std.ExtTreeMap.getD_eq_getD_getElem?

theorem getElem?_write (texts : CellTexts) (cell other : Cell) (text : String) :
    (texts.write cell text)[other]? =
      if cell = other then if text = "" then none else some text else texts[other]? := by
  unfold write
  by_cases htext : text = ""
  · simp [htext, Std.ExtTreeMap.getElem?_erase]
  · simp [htext, Std.ExtTreeMap.getElem?_insert]

theorem eq_or_mem_of_mem_write {cell other : Cell} {text : String}
    (h : other ∈ texts.write cell text) : other = cell ∨ other ∈ texts := by
  rw [Std.ExtTreeMap.mem_iff_isSome_getElem?, getElem?_write] at h
  by_cases hcell : cell = other
  · exact .inl hcell.symm
  · rw [if_neg hcell] at h
    exact .inr (Std.ExtTreeMap.mem_iff_isSome_getElem?.mpr h)

theorem raw_write (texts : CellTexts) (cell : Cell) (text : String) :
    (texts.write cell text).raw = Function.update texts.raw cell text := by
  funext other
  rw [raw_eq, getElem?_write, Function.update_apply, raw_eq]
  by_cases hcell : cell = other
  · by_cases htext : text = "" <;> simp [hcell, htext]
  · simp [hcell, Ne.symm hcell]

theorem WellFormed.write (h : WellFormed texts) (cell : Cell) (text : String) :
    WellFormed (texts.write cell text) := by
  intro other
  rw [getElem?_write]
  by_cases hcell : cell = other
  · by_cases htext : text = "" <;> simp [hcell, htext]
  · rw [if_neg hcell]
    exact h other

theorem WellFormed.mem_toList_iff (h : WellFormed texts) {cell : Cell} {text : String} :
    (cell, text) ∈ texts.toList ↔ texts.raw cell = text ∧ text ≠ "" := by
  rw [Std.ExtTreeMap.mem_toList_iff_getElem?_eq_some, raw_eq]
  constructor
  · intro hfound
    rw [hfound]
    refine ⟨rfl, ?_⟩
    rintro rfl
    exact h cell hfound
  · rintro ⟨rfl, hne⟩
    cases hfound : texts[cell]? with
    | none => simp [hfound] at hne
    | some text => rfl

theorem mem_toList_write {cell other : Cell} {text raw : String} :
    (other, raw) ∈ (texts.write cell text).toList ↔
      if other = cell then raw = text ∧ text ≠ "" else (other, raw) ∈ texts.toList := by
  rw [Std.ExtTreeMap.mem_toList_iff_getElem?_eq_some, Std.ExtTreeMap.mem_toList_iff_getElem?_eq_some,
    getElem?_write]
  by_cases hcell : other = cell
  · by_cases htext : text = ""
    · simp [hcell, htext]
    · simp [hcell, htext, eq_comm]
  · simp [hcell, Ne.symm hcell]

theorem ofList_toList (texts : CellTexts) : Std.ExtTreeMap.ofList texts.toList = texts := by
  apply Std.ExtTreeMap.ext_getElem?
  intro cell
  cases hcell : texts[cell]? with
  | none =>
      apply Std.ExtTreeMap.getElem?_ofList_of_contains_eq_false
      rw [Std.ExtTreeMap.map_fst_toList_eq_keys]
      simpa using hcell
  | some raw =>
      exact Std.ExtTreeMap.getElem?_ofList_of_mem Std.compare_self texts.distinct_keys_toList
        (Std.ExtTreeMap.mem_toList_iff_getElem?_eq_some.mpr hcell)

theorem nodup_cells (texts : CellTexts) : (texts.toList.map Prod.fst).Nodup := by
  rw [List.Nodup, List.pairwise_map]
  exact texts.distinct_keys_toList.imp fun hcompare heq => hcompare (by simp [heq])

end CellTexts

/-- A store that keeps the contract, as long as it is well formed. -/
class LawfulCellStore (Store : Type) [CellStore Store] where
  WellFormed : Store → Prop
  mem_cells_iff {store : Store} {cell : Cell} {text : String} (h : WellFormed store) :
    (cell, text) ∈ CellStore.cells store ↔ CellStore.raw store cell = text ∧ text ≠ ""
  nodup_cells (store : Store) : ((CellStore.cells store).map Prod.fst).Nodup
  wellFormed_write {store : Store} (h : WellFormed store) (cell : Cell) (text : String) :
    WellFormed (CellStore.write store cell text).2
  raw_write {store : Store} {cell : Cell} {text : String}
    (h : (CellStore.write store cell text).1 = .ok ()) :
    CellStore.raw (CellStore.write store cell text).2 =
      Function.update (CellStore.raw store) cell text
  raw_write_of_error {store : Store} {cell : Cell} {text : String} {error : StoreError}
    (h : (CellStore.write store cell text).1 = .error error) :
    CellStore.raw (CellStore.write store cell text).2 = CellStore.raw store

namespace MemoryStore

instance : LawfulCellStore MemoryStore where
  WellFormed store := store.texts.WellFormed
  mem_cells_iff h := CellTexts.WellFormed.mem_toList_iff h
  nodup_cells store := store.texts.nodup_cells
  wellFormed_write := by
    rintro ⟨texts, access⟩ h cell text
    cases access with
    | writable => exact CellTexts.WellFormed.write h cell text
    | readOnly => exact h
  raw_write := by
    rintro ⟨texts, access⟩ cell text h
    cases access with
    | writable => exact texts.raw_write cell text
    | readOnly => cases h
  raw_write_of_error := by
    rintro ⟨texts, access⟩ cell text error h
    cases access with
    | writable => cases h
    | readOnly => rfl

theorem wellFormed_insert {store : MemoryStore} (h : LawfulCellStore.WellFormed store)
    (cell : Cell) (text : String) : LawfulCellStore.WellFormed (store.insert cell text) :=
  CellTexts.WellFormed.write h cell text

end MemoryStore

namespace FileStore

theorem write_of_writable {store : FileStore} (h : store.access = .writable) (cell : Cell)
    (text : String) :
    store.write cell text =
      if (store.disk.replace store.path (SheetText.write (store.texts.write cell text)).toUTF8).1 then
        (.ok (), { store with
          texts := store.texts.write cell text
          disk := (store.disk.replace store.path
            (SheetText.write (store.texts.write cell text)).toUTF8).2 })
      else
        (.error .io, { store with
          disk := (store.disk.replace store.path
            (SheetText.write (store.texts.write cell text)).toUTF8).2 }) := by
  unfold FileStore.write
  rw [h]
  dsimp only
  rcases store.disk.replace store.path (SheetText.write (store.texts.write cell text)).toUTF8 with
    ⟨_ | _, disk⟩ <;> rfl

/-- A write that succeeds has put the text of all cells at the path; one that is refused has left
the cells and the path alone. -/
theorem write_outcomes (store : FileStore) (cell : Cell) (text : String) :
    (∃ disk, store.write cell text =
        (.ok (), { store with texts := store.texts.write cell text, disk }) ∧
      disk.contains store.path = true ∧
      disk.readText? store.path = some (SheetText.write (store.texts.write cell text))) ∨
    ∃ error disk, store.write cell text = (.error error, { store with disk }) ∧
      disk.AgreesAt store.disk store.path := by
  obtain ⟨path, texts, access, disk⟩ := store
  cases access with
  | readOnly => exact .inr ⟨.readOnly, disk, rfl, .refl disk path⟩
  | writable =>
      unfold write
      dsimp only
      rcases disk.replace_cases path (SheetText.write (texts.write cell text)).toUTF8 with
        ⟨replaced, hreplaced, hthere, hread⟩ | ⟨left, hreplaced, hagrees⟩
      · rw [hreplaced]
        exact .inl ⟨replaced, rfl, hthere, Disk.readText?_of_read? hread⟩
      · rw [hreplaced]
        exact .inr ⟨.io, left, rfl, hagrees⟩

theorem path_write (store : FileStore) (cell : Cell) (raw : String) :
    (store.write cell raw).2.path = store.path := by
  rcases store.write_outcomes cell raw with ⟨disk, hwrite, -⟩ | ⟨error, disk, hwrite, -⟩ <;>
    rw [hwrite]

theorem access_write (store : FileStore) (cell : Cell) (raw : String) :
    (store.write cell raw).2.access = store.access := by
  rcases store.write_outcomes cell raw with ⟨disk, hwrite, -⟩ | ⟨error, disk, hwrite, -⟩ <;>
    rw [hwrite]

theorem write_keepsBeside (store : FileStore) (cell : Cell) (raw : String) :
    Disk.KeepsBeside store.path store.disk (store.write cell raw).2.disk := by
  have hreplace := store.disk.replace_keepsBeside store.path
    (SheetText.write (store.texts.write cell raw)).toUTF8
  cases haccess : store.access with
  | readOnly =>
      unfold write
      rw [haccess]
      exact .refl _ _
  | writable =>
      rw [write_of_writable haccess]
      split <;> exact hreplace

instance : LawfulCellStore FileStore where
  WellFormed store := store.texts.WellFormed
  mem_cells_iff h := CellTexts.WellFormed.mem_toList_iff h
  nodup_cells store := store.texts.nodup_cells
  wellFormed_write := by
    intro store h cell text
    change (store.write cell text).2.texts.WellFormed
    rcases store.write_outcomes cell text with ⟨disk, hwrite, -⟩ | ⟨error, disk, hwrite, -⟩
    · rw [hwrite]
      exact CellTexts.WellFormed.write h cell text
    · rw [hwrite]
      exact h
  raw_write := by
    intro store cell text h
    change (store.write cell text).1 = .ok () at h
    change (store.write cell text).2.texts.raw = Function.update store.texts.raw cell text
    rcases store.write_outcomes cell text with ⟨disk, hwrite, -⟩ | ⟨error, disk, hwrite, -⟩
    · rw [hwrite]
      exact store.texts.raw_write cell text
    · rw [hwrite] at h
      cases h
  raw_write_of_error := by
    intro store cell text error h
    change (store.write cell text).1 = .error error at h
    change (store.write cell text).2.texts.raw = store.texts.raw
    rcases store.write_outcomes cell text with ⟨disk, hwrite, -⟩ | ⟨error, disk, hwrite, -⟩
    · rw [hwrite] at h
      cases h
    · rw [hwrite]

end FileStore

end Spreadsheet
