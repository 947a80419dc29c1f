import Mathlib.Data.List.Sort
import Spreadsheet.Proofs.Store

/-!
# One store for another

A store of either kind is a map from cells to texts in which the empty text stands for no entry.
What it holds is fixed by the writes that it accepted, the last one to each cell, and there is one
way to list that row by row. So no kind of store, and no handle on shared memory, is told from
another by what was written to it.
-/

namespace Spreadsheet

/-! ### What writes leave in a map -/

/-- A cell has a text after some writes: the last one to it gave it that text, or there was none and
it had the text before. -/
def Reads (initial : Cell → String) (writes : List (Cell × String)) (cell : Cell)
    (text : String) : Prop :=
  (∃ before after, writes = before ++ (cell, text) :: after ∧ cell ∉ after.map Prod.fst) ∨
    cell ∉ writes.map Prod.fst ∧ initial cell = text

section Reads

variable {initial : Cell → String} {rest : List (Cell × String)} {written cell : Cell}
  {new text : String}

theorem reads_nil : Reads initial [] cell text ↔ initial cell = text := by
  simp [Reads]

/-- The first of some writes is made before the others. -/
theorem reads_cons :
    Reads initial ((written, new) :: rest) cell text ↔
      Reads (Function.update initial written new) rest cell text := by
  unfold Reads
  rw [Function.update_apply]
  constructor
  · rintro (⟨before, after, hsplit, hafter⟩ | ⟨hnone, hinitial⟩)
    · rcases List.cons_eq_append_iff.mp hsplit with ⟨rfl, heq⟩ | ⟨earlier, rfl, hrest⟩
      · cases heq
        exact .inr ⟨hafter, if_pos rfl⟩
      · exact .inl ⟨earlier, after, hrest, hafter⟩
    · rw [List.map_cons, List.mem_cons, not_or] at hnone
      exact .inr ⟨hnone.2, by rwa [if_neg hnone.1]⟩
  · rintro (⟨before, after, rfl, hafter⟩ | ⟨hnone, htext⟩)
    · exact .inl ⟨(written, new) :: before, after, rfl, hafter⟩
    · by_cases hcell : cell = written
      · rw [if_pos hcell] at htext
        subst hcell htext
        exact .inl ⟨[], rest, rfl, hnone⟩
      · rw [if_neg hcell] at htext
        exact .inr ⟨by simpa [hcell] using hnone, htext⟩

end Reads

/-! ### The one list of a map -/

def compareEntries : Cell × String → Cell × String → Ordering :=
  compareLex (compareOn Prod.fst) (compareOn Prod.snd)

def entryOrder (left right : Cell × String) : Bool :=
  (compareEntries left right).isLE

namespace Cell

theorem IsBefore.irrefl (cell : Cell) : ¬ cell.IsBefore cell := by
  simp [IsBefore]

theorem IsBefore.asymm {left right : Cell} (h : left.IsBefore right) : ¬ right.IsBefore left := by
  rw [← compare_eq_lt_iff] at h ⊢
  rw [Std.OrientedCmp.gt_of_lt h]
  decide

end Cell

section Entries

variable {entries others : List (Cell × String)}

/-- Entries in row-major order are fixed by which entries they are. -/
theorem eq_of_mem_iff_of_pairwise (h : (entries.map Prod.fst).Pairwise Cell.IsBefore)
    (hothers : (others.map Prod.fst).Pairwise Cell.IsBefore)
    (hmem : ∀ entry, entry ∈ entries ↔ entry ∈ others) : entries = others := by
  rw [List.pairwise_map] at h hothers
  have hnodup : ∀ {list : List (Cell × String)},
      list.Pairwise (fun left right => left.1.IsBefore right.1) → list.Nodup := by
    intro list hlist
    refine hlist.imp ?_
    rintro entry _ hbefore rfl
    exact Cell.IsBefore.irrefl entry.1 hbefore
  exact ((List.perm_ext_iff_of_nodup (hnodup h) (hnodup hothers)).mpr hmem).eq_of_pairwise
    (fun _ _ _ _ hbefore hafter => absurd hafter hbefore.asymm) h hothers

instance : Std.TransCmp compareEntries :=
  inferInstanceAs (Std.TransCmp (compareLex (compareOn Prod.fst) (compareOn Prod.snd)))

theorem entryOrder_total (left right : Cell × String) :
    entryOrder left right || entryOrder right left := by
  have hswap : compareEntries left right = (compareEntries right left).swap :=
    Std.OrientedCmp.eq_swap
  rw [entryOrder, entryOrder, hswap]
  cases compareEntries right left <;> rfl

theorem eq_of_entryOrder {left right : Cell × String} (hle : entryOrder left right)
    (hge : entryOrder right left) : left = right := by
  have heq := Std.OrientedCmp.isLE_antisymm hle hge
  rw [compareEntries, compareLex_eq_eq] at heq
  exact Prod.ext (Std.LawfulEqCmp.eq_of_compare heq.1) (Std.LawfulEqCmp.eq_of_compare heq.2)

theorem entryOrder_of_isBefore {left right : Cell × String} (h : left.1.IsBefore right.1) :
    entryOrder left right := by
  have hlt : compareOn Prod.fst left right = .lt := Cell.compare_eq_lt_iff.mpr h
  rw [entryOrder, compareEntries, compareLex, hlt]
  rfl

/-- In whatever order the entries of a map come, sorting them lists the map. -/
theorem mergeSort_eq_of_perm (h : (entries.map Prod.fst).Pairwise Cell.IsBefore)
    (hperm : others.Perm entries) : others.mergeSort entryOrder = entries := by
  have hsorted : (others.mergeSort entryOrder).Pairwise fun left right => entryOrder left right :=
    List.pairwise_mergeSort (fun _ _ _ => Std.TransCmp.isLE_trans) entryOrder_total others
  have hentries : entries.Pairwise fun left right => entryOrder left right :=
    (List.pairwise_map.mp h).imp entryOrder_of_isBefore
  exact ((List.mergeSort_perm others _).trans hperm).eq_of_pairwise
    (fun _ _ _ _ => eq_of_entryOrder) hsorted hentries

end Entries

/-! ### Stores as maps -/

section Follows

variable {Store Other : Type} [CellStore Store] [CellStore Other] {initial : Cell → String}
  {writes : List (Cell × String)} {store : Store} {other : Other}

/-- A store holds what some writes leave of the texts before them, and lists the cells that hold text
row by row. -/
structure Follows (initial : Cell → String) (writes : List (Cell × String)) (store : Store) :
    Prop where
  raw_eq_iff : ∀ cell text, CellStore.raw store cell = text ↔ Reads initial writes cell text
  ordered : ((CellStore.cells store).map Prod.fst).Pairwise Cell.IsBefore
  mem_cells_iff : ∀ cell text,
    (cell, text) ∈ CellStore.cells store ↔ CellStore.raw store cell = text ∧ text ≠ ""

namespace Follows

theorem raw_eq (h : Follows initial writes store) (hother : Follows initial writes other) :
    CellStore.raw store = CellStore.raw other := by
  funext cell
  rw [h.raw_eq_iff, ← hother.raw_eq_iff]

theorem cells_eq (h : Follows initial writes store) (hother : Follows initial writes other) :
    CellStore.cells store = CellStore.cells other := by
  refine eq_of_mem_iff_of_pairwise h.ordered hother.ordered ?_
  rintro ⟨cell, text⟩
  rw [h.mem_cells_iff, hother.mem_cells_iff, h.raw_eq hother]

end Follows

theorem CellTexts.pairwise_cells (texts : CellTexts) :
    (texts.toList.map Prod.fst).Pairwise Cell.IsBefore := by
  rw [List.pairwise_map]
  exact texts.ordered_keys_toList.imp Cell.compare_eq_lt_iff.mp

end Follows

/-! ### Writes in turn -/

namespace Access

def outcome : Access → Except StoreError Unit
  | .writable => .ok ()
  | .readOnly => .error .readOnly

def accepted (access : Access) (writes : List (Cell × String)) : List (Cell × String) :=
  if access = .writable then writes else []

end Access

section Writes

variable {Store : Type} [CellStore Store]

def outcomes (store : Store) : List (Cell × String) → List (Except StoreError Unit)
  | [] => []
  | (cell, text) :: rest =>
    (CellStore.write store cell text).1 :: outcomes (CellStore.write store cell text).2 rest

def afterWrites (store : Store) : List (Cell × String) → Store
  | [] => store
  | (cell, text) :: rest => afterWrites (CellStore.write store cell text).2 rest

theorem wellFormed_afterWrites [LawfulCellStore Store] {store : Store}
    (h : LawfulCellStore.WellFormed store) (writes : List (Cell × String)) :
    LawfulCellStore.WellFormed (afterWrites store writes) := by
  induction writes generalizing store with
  | nil => exact h
  | cons write rest ih => exact ih (LawfulCellStore.wellFormed_write h write.1 write.2)

section Obeys

variable {access : Access} {obeys : Store → Prop}
  (hobeys : ∀ store, obeys store → ∀ cell text,
    (CellStore.write store cell text).1 = access.outcome ∧
      obeys (CellStore.write store cell text).2)

include hobeys

theorem outcomes_eq {store : Store} (h : obeys store) (writes : List (Cell × String)) :
    outcomes store writes = writes.map fun _ => access.outcome := by
  induction writes generalizing store with
  | nil => rfl
  | cons write rest ih =>
      obtain ⟨hfirst, hrest⟩ := hobeys store h write.1 write.2
      rw [outcomes, hfirst, ih hrest, List.map_cons]

theorem raw_afterWrites_eq_iff [LawfulCellStore Store] {store : Store} (h : obeys store)
    (writes : List (Cell × String)) (cell : Cell) (text : String) :
    CellStore.raw (afterWrites store writes) cell = text ↔
      Reads (CellStore.raw store) (access.accepted writes) cell text := by
  induction writes generalizing store with
  | nil =>
      rw [Access.accepted, ite_self, reads_nil]
      rfl
  | cons write rest ih =>
      obtain ⟨hfirst, hrest⟩ := hobeys store h write.1 write.2
      rw [afterWrites, ih hrest]
      cases access with
      | readOnly =>
          rw [LawfulCellStore.raw_write_of_error hfirst]
          rfl
      | writable =>
          rw [LawfulCellStore.raw_write hfirst]
          exact reads_cons.symm

end Obeys

end Writes

namespace MemoryStore

theorem write_eq_outcome (store : MemoryStore) (cell : Cell) (text : String) :
    (store.write cell text).1 = store.access.outcome ∧
      (store.write cell text).2.access = store.access := by
  obtain ⟨texts, access⟩ := store
  cases access <;> exact ⟨rfl, rfl⟩

theorem follows_afterWrites {store : MemoryStore} (h : LawfulCellStore.WellFormed store)
    (writes : List (Cell × String)) :
    outcomes store writes = writes.map (fun _ => store.access.outcome) ∧
      Follows (CellStore.raw store) (store.access.accepted writes) (afterWrites store writes) := by
  have hobeys : ∀ other : MemoryStore, other.access = store.access → ∀ cell text,
      (other.write cell text).1 = store.access.outcome ∧
        (other.write cell text).2.access = store.access := by
    intro other hother cell text
    rw [← hother]
    exact other.write_eq_outcome cell text
  exact ⟨outcomes_eq hobeys rfl writes, raw_afterWrites_eq_iff hobeys rfl writes,
    CellTexts.pairwise_cells _,
    fun _ _ => LawfulCellStore.mem_cells_iff (wellFormed_afterWrites h writes)⟩

end MemoryStore

namespace FileStore

def CanSave (store : FileStore) : Prop :=
  store.access = .writable → ∀ bytes, (store.disk.replace store.path bytes).1 = true

theorem write_eq_outcome {store : FileStore} (h : store.CanSave) (cell : Cell) (text : String) :
    (store.write cell text).1 = store.access.outcome := by
  obtain ⟨path, texts, access, disk⟩ := store
  cases access with
  | readOnly => rfl
  | writable =>
      rw [write_of_writable rfl, if_pos (h rfl _)]
      rfl

theorem CanSave.write {store : FileStore} (h : store.CanSave) (cell : Cell) (text : String) :
    (store.write cell text).2.CanSave := by
  intro hwritable bytes
  rw [access_write] at hwritable
  rw [path_write]
  exact ((store.write_keepsBeside cell text).replace_succeeds_iff bytes bytes).mpr
    (h hwritable bytes)

theorem follows_afterWrites {store : FileStore} (h : LawfulCellStore.WellFormed store)
    (hsave : store.CanSave) (writes : List (Cell × String)) :
    outcomes store writes = writes.map (fun _ => store.access.outcome) ∧
      Follows (CellStore.raw store) (store.access.accepted writes) (afterWrites store writes) := by
  have hobeys : ∀ other : FileStore, other.CanSave ∧ other.access = store.access → ∀ cell text,
      (other.write cell text).1 = store.access.outcome ∧
        (other.write cell text).2.CanSave ∧ (other.write cell text).2.access = store.access := by
    rintro other ⟨hother, haccess⟩ cell text
    rw [← haccess]
    exact ⟨write_eq_outcome hother cell text, hother.write cell text, other.access_write cell text⟩
  exact ⟨outcomes_eq hobeys ⟨hsave, rfl⟩ writes,
    raw_afterWrites_eq_iff hobeys ⟨hsave, rfl⟩ writes, CellTexts.pairwise_cells _,
    fun _ _ => LawfulCellStore.mem_cells_iff (wellFormed_afterWrites h writes)⟩

end FileStore

/-! ### Handles on shared memory -/

namespace SharedMemory

inductive Call (Handle : Type) where
  | insert (handle : Handle) (cell : Cell) (text : String)
  | write (handle : Handle) (cell : Cell) (text : String)
  | restrict (handle : Handle)

variable {Handle : Type} [DecidableEq Handle]

def respond (memory : SharedMemory Handle) :
    Call Handle → Except StoreError Unit × SharedMemory Handle
  | .insert handle cell text => (.ok (), memory.insert handle cell text)
  | .write handle cell text => memory.write handle cell text
  | .restrict handle => (.ok (), memory.restrict handle)

def answers (memory : SharedMemory Handle) : List (Call Handle) → List (Except StoreError Unit)
  | [] => []
  | call :: rest => (memory.respond call).1 :: (memory.respond call).2.answers rest

def afterCalls (memory : SharedMemory Handle) : List (Call Handle) → SharedMemory Handle
  | [] => memory
  | call :: rest => (memory.respond call).2.afterCalls rest

/-- The answers that the rights of the handles call for. -/
def expected (access : Handle → Access) : List (Call Handle) → List (Except StoreError Unit)
  | [] => []
  | .insert _ _ _ :: rest => .ok () :: expected access rest
  | .write handle _ _ :: rest => (access handle).outcome :: expected access rest
  | .restrict handle :: rest =>
    .ok () :: expected (Function.update access handle .readOnly) rest

def accepted (access : Handle → Access) : List (Call Handle) → List (Cell × String)
  | [] => []
  | .insert _ cell text :: rest => (cell, text) :: accepted access rest
  | .write handle cell text :: rest =>
    (access handle).accepted [(cell, text)] ++ accepted access rest
  | .restrict handle :: rest => accepted (Function.update access handle .readOnly) rest

variable (memory : SharedMemory Handle)

theorem access_restrict (handle : Handle) :
    (memory.restrict handle).access = Function.update memory.access handle .readOnly := by
  funext other
  rw [Function.update_apply]
  rfl

omit [DecidableEq Handle] in
theorem write_eq_outcome (handle : Handle) (cell : Cell) (text : String) :
    memory.write handle cell text =
      ((memory.access handle).outcome,
        { memory with texts :=
            if memory.access handle = .writable then memory.texts.write cell text
            else memory.texts }) := by
  unfold write MemoryStore.write store
  cases memory.access handle <;> rfl

theorem answers_eq_expected (calls : List (Call Handle)) :
    memory.answers calls = expected memory.access calls := by
  induction calls generalizing memory with
  | nil => rfl
  | cons call rest ih =>
      rw [answers, ih]
      cases call with
      | insert handle cell text => rfl
      | write handle cell text =>
          rw [respond, write_eq_outcome]
          rfl
      | restrict handle =>
          rw [respond, access_restrict]
          rfl

theorem raw_afterCalls_eq_iff (calls : List (Call Handle)) (cell : Cell) (text : String) :
    (memory.afterCalls calls).texts.raw cell = text ↔
      Reads memory.texts.raw (accepted memory.access calls) cell text := by
  induction calls generalizing memory with
  | nil => exact reads_nil.symm
  | cons call rest ih =>
      rw [afterCalls, ih]
      cases call with
      | insert handle written new =>
          rw [accepted, reads_cons, ← CellTexts.raw_write]
          rfl
      | write handle written new =>
          rw [respond, write_eq_outcome, accepted, Access.accepted]
          dsimp only
          split
          · rw [List.singleton_append, reads_cons, CellTexts.raw_write]
          · rw [List.nil_append]
      | restrict handle =>
          rw [respond, access_restrict]
          rfl

theorem wellFormed_afterCalls {memory : SharedMemory Handle} (h : memory.texts.WellFormed)
    (calls : List (Call Handle)) : (memory.afterCalls calls).texts.WellFormed := by
  induction calls generalizing memory with
  | nil => exact h
  | cons call rest ih =>
      apply ih
      cases call with
      | insert handle cell text => exact h.write cell text
      | write handle cell text =>
          rw [respond, write_eq_outcome]
          dsimp only
          split
          · exact h.write cell text
          · exact h
      | restrict handle => exact h

theorem follows_afterCalls {memory : SharedMemory Handle} (h : memory.texts.WellFormed)
    (calls : List (Call Handle)) (handle : Handle) :
    Follows memory.texts.raw (accepted memory.access calls)
      ((memory.afterCalls calls).store handle) :=
  ⟨memory.raw_afterCalls_eq_iff calls, CellTexts.pairwise_cells _,
    fun _ _ => (wellFormed_afterCalls h calls).mem_toList_iff⟩

end SharedMemory

/-- Whatever is written, a store in memory and one with a file give the same outcomes and hold the
same cells: those of a map that took the writes that the access allows. Handles on shared memory all
hold what the writes left that any of them was allowed to make. The cells are listed row by row, in
whatever order memory finds them. -/
theorem stores_hold_accepted_writes (file : FileStore) (memory : MemoryStore)
    (hfile : LawfulCellStore.WellFormed file)
    (hcells : CellStore.cells memory = CellStore.cells file) (haccess : memory.access = file.access)
    (hsave : file.CanSave) (writes : List (Cell × String)) {Handle : Type} [DecidableEq Handle]
    (shared : SharedMemory Handle) (hshared : shared.texts.WellFormed)
    (calls : List (SharedMemory.Call Handle)) :
    (outcomes file writes = writes.map (fun _ => file.access.outcome) ∧
      outcomes memory writes = outcomes file writes ∧
      CellStore.raw (afterWrites memory writes) = CellStore.raw (afterWrites file writes) ∧
      CellStore.cells (afterWrites memory writes) = CellStore.cells (afterWrites file writes) ∧
      Follows (CellStore.raw file) (file.access.accepted writes) (afterWrites file writes)) ∧
    shared.answers calls = SharedMemory.expected shared.access calls ∧
    ∀ handle,
      Follows shared.texts.raw (SharedMemory.accepted shared.access calls)
        ((shared.afterCalls calls).store handle) ∧
      ∀ entries : List (Cell × String),
        entries.Perm (CellStore.cells ((shared.afterCalls calls).store handle)) →
        entries.mergeSort entryOrder = CellStore.cells ((shared.afterCalls calls).store handle) := by
  have htexts : memory.texts = file.texts := by
    rw [← memory.texts.ofList_toList, ← file.texts.ofList_toList]
    exact congrArg (Std.ExtTreeMap.ofList ·) hcells
  obtain ⟨houtcomes, hfollows⟩ := FileStore.follows_afterWrites hfile hsave writes
  have hmemory : memory.texts.WellFormed := htexts ▸ hfile
  obtain ⟨houtcomes', hfollows'⟩ := MemoryStore.follows_afterWrites hmemory writes
  have hraw : CellStore.raw memory = CellStore.raw file := congrArg CellTexts.raw htexts
  rw [haccess] at houtcomes' hfollows'
  rw [hraw] at hfollows'
  refine ⟨⟨houtcomes, houtcomes'.trans houtcomes.symm, hfollows'.raw_eq hfollows,
    hfollows'.cells_eq hfollows, hfollows⟩, shared.answers_eq_expected calls, fun handle => ?_⟩
  have hhandle := SharedMemory.follows_afterCalls hshared calls handle
  exact ⟨hhandle, fun entries hperm => mergeSort_eq_of_perm hhandle.ordered hperm⟩

def noteTexts : CellTexts :=
  CellTexts.write ∅ { row := 1, col := 0 } "x"

def noteFile : FileStore where
  path := "s.grd"
  texts := noteTexts
  access := .writable
  disk := Disk.ofFiles ["home"] [("s.grd", "A2: x\n".toUTF8)]

/-- Memory that two handles share, of which `true` may write. -/
def noteMemory : SharedMemory Bool where
  texts := noteTexts
  access handle := if handle then .writable else .readOnly

theorem accepted_writes_of_notes :
    let memory : MemoryStore := { texts := noteTexts, access := .writable }
    let writes : List (Cell × String) :=
      [({ row := 0, col := 1 }, "y"), ({ row := 1, col := 0 }, "")]
    let calls : List (SharedMemory.Call Bool) :=
      [.write false { row := 1, col := 0 } "v", .insert false { row := 1, col := 0 } "w",
        .restrict true, .write true { row := 1, col := 0 } ""]
    (LawfulCellStore.WellFormed noteFile ∧ CellStore.cells memory = CellStore.cells noteFile ∧
      memory.access = noteFile.access ∧ noteFile.CanSave ∧ noteMemory.texts.WellFormed) ∧
    CellStore.cells (afterWrites memory writes) = CellStore.cells (afterWrites noteFile writes) ∧
    noteMemory.answers calls = [.error .readOnly, .ok (), .ok (), .error .readOnly] ∧
    ∀ handle, CellStore.raw ((noteMemory.afterCalls calls).store handle) { row := 1, col := 0 } =
      "w" := by
  intro memory writes calls
  have htexts : noteTexts.WellFormed := CellTexts.wellFormed_empty.write _ _
  have hsave : noteFile.CanSave := fun _ _ => Disk.replace_succeeds_iff.mpr
    ⟨⟨["home", "s.grd.tmp"], by decide +kernel⟩, ["home", "s.grd"], by decide +kernel⟩
  obtain ⟨⟨-, -, -, hcells, -⟩, hanswers, hhandles⟩ := stores_hold_accepted_writes noteFile memory
    htexts rfl rfl hsave writes noteMemory htexts calls
  refine ⟨⟨htexts, rfl, rfl, hsave, htexts⟩, hcells, hanswers, fun handle => ?_⟩
  exact ((hhandles handle).1.raw_eq_iff _ _).mpr (.inl ⟨[], [], rfl, by simp⟩)

end Spreadsheet
