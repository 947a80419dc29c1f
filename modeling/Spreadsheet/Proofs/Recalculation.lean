import Spreadsheet.Proofs.Evaluation.Locality
import Spreadsheet.Proofs.Graph.Affected
import Spreadsheet.Proofs.Graph.Schedule
import Spreadsheet.Proofs.Store
import Spreadsheet.Sheet

/-!
# What an edit recomputes

A sheet is up to date when its graph and its values are those that its store gives. An edit keeps
it so, because a value that is not recomputed depends on no cell that was written.
-/

namespace Spreadsheet

namespace DependencyGraph

variable {graph : DependencyGraph} {refers : Cell → Cell → Prop} {changed cell : Cell}

def recomputed (graph : DependencyGraph) (changed : Cell) : List Cell :=
  let schedule := graph.schedule (graph.affected changed)
  changed :: (schedule.ordered ++ schedule.cyclic)

theorem Mirrors.mem_recomputed_iff (h : graph.Mirrors refers) :
    cell ∈ graph.recomputed changed ↔ Relation.ReflTransGen refers cell changed := by
  have hperm := h.perm_schedule (graph.nodup_affected changed)
  rw [recomputed, List.mem_cons, hperm.mem_iff, h.mem_affected_iff,
    Relation.reflTransGen_iff_eq_or_transGen]
  by_cases hcell : cell = changed
  · simp [hcell]
  · simp [hcell, Ne.symm hcell]

theorem Mirrors.nodup_recomputed (h : graph.Mirrors refers) (changed : Cell) :
    (graph.recomputed changed).Nodup := by
  have hnodup := graph.nodup_affected changed
  have hperm := h.perm_schedule hnodup
  refine List.nodup_cons.mpr ⟨?_, hperm.nodup_iff.mpr hnodup⟩
  rw [hperm.mem_iff, h.mem_affected_iff]
  simp

end DependencyGraph

namespace Sheet

variable {Store : Type} [CellStore Store]

def written (sheet : Sheet Store) (cell : Cell) (text : String) : Sheet Store :=
  { sheet with
    store := (CellStore.write sheet.store cell text).2
    graph := sheet.graph.write cell text }

def renewed (sheet : Sheet Store) (cells : List Cell) : CellMap Value :=
  cells.foldl (fun values cell => sheet.renew values cell (sheet.evaluator.compute cell))
    sheet.values

def recalculation (sheet : Sheet Store) (changed : Cell) : Recalculation :=
  { updates := (sheet.graph.recomputed changed).map fun cell => (cell, sheet.evaluator.compute cell)
    cycles := (sheet.graph.schedule (sheet.graph.affected changed)).cyclic }

variable {sheet : Sheet Store} {cell : Cell} {text : String}

theorem edit_of_error {error : StoreError}
    (h : (CellStore.write sheet.store cell text).1 = .error error) :
    sheet.edit cell text = (.error (.store error),
      { sheet with store := (CellStore.write sheet.store cell text).2 }) := by
  unfold edit
  rcases hwrite : CellStore.write sheet.store cell text with ⟨result, store⟩
  rw [hwrite] at h
  dsimp only at h
  rw [h]

theorem order_recalculation (sheet : Sheet Store) (changed : Cell) :
    (sheet.recalculation changed).order = sheet.graph.recomputed changed := by
  rw [Recalculation.order, recalculation, List.map_map]
  exact List.map_id _

theorem renewed_eq (sheet : Sheet Store) (changed : Cell) :
    sheet.renewed (sheet.graph.recomputed changed) =
      (sheet.recalculation changed).updates.foldl
        (fun values (cell, value) => sheet.renew values cell value) sheet.values := by
  rw [renewed, recalculation, List.foldl_map]

theorem edit_of_ok (h : (CellStore.write sheet.store cell text).1 = .ok ()) :
    sheet.edit cell text =
      (.ok ((sheet.written cell text).recalculation cell),
        { sheet.written cell text with
          values := (sheet.written cell text).renewed
            ((sheet.written cell text).graph.recomputed cell) }) := by
  obtain ⟨store, hwrite⟩ : ∃ store, CellStore.write sheet.store cell text = (.ok (), store) :=
    ⟨_, Prod.ext h rfl⟩
  rw [renewed_eq]
  unfold edit written
  rw [hwrite]
  rfl

/-- An edit succeeds because the store has taken the text. -/
theorem write_of_edit_eq_ok {recalculation : Recalculation}
    (h : (sheet.edit cell text).1 = .ok recalculation) :
    (CellStore.write sheet.store cell text).1 = .ok () ∧
      recalculation = (sheet.written cell text).recalculation cell := by
  cases hwrite : (CellStore.write sheet.store cell text).1 with
  | error error =>
      rw [edit_of_error hwrite] at h
      cases h
  | ok _ =>
      rw [edit_of_ok hwrite] at h
      exact ⟨rfl, (Except.ok.inj h).symm⟩

theorem getElem?_renew (values : CellMap Value) (cell other : Cell) (value : Value) :
    (sheet.renew values cell value)[other]? =
      if cell = other then if sheet.raw other = "" then none else some value
      else values[other]? := by
  unfold renew
  by_cases hcell : cell = other
  · subst hcell
    by_cases hraw : sheet.raw cell = "" <;> simp [hraw]
  · by_cases hraw : (sheet.raw cell).isEmpty
    · simp [hraw, hcell, Std.ExtTreeMap.getElem?_erase]
    · simp [hraw, hcell, Std.ExtTreeMap.getElem?_insert]

theorem getElem?_renewed (cells : List Cell) (cell : Cell) :
    (sheet.renewed cells)[cell]? =
      if cell ∈ cells then
        if sheet.raw cell = "" then none else some (sheet.evaluator.compute cell)
      else sheet.values[cell]? := by
  unfold renewed
  induction cells using List.reverseRecOn with
  | nil => simp
  | append_singleton cells last ih =>
      rw [List.foldl_append, List.foldl_cons, List.foldl_nil, getElem?_renew, ih]
      by_cases hlast : last = cell
      · simp [hlast]
      · simp [hlast, Ne.symm hlast]

variable [LawfulCellStore Store]

structure UpToDate (sheet : Sheet Store) : Prop where
  wellFormed : LawfulCellStore.WellFormed sheet.store
  graph : sheet.graph.Mirrors (Refers sheet.raw)
  values : ∀ cell : Cell, sheet.values[cell]? =
    if sheet.raw cell = "" then none else some (sheet.evaluator.compute cell)

theorem getElem?_load (h : LawfulCellStore.WellFormed sheet.store) (cell : Cell) :
    sheet.load.values[cell]? =
      if sheet.raw cell = "" then none else some (sheet.evaluator.compute cell) := by
  let pairs := (CellStore.cells sheet.store).map fun pair =>
    (pair.1, sheet.evaluator.compute pair.1)
  have hkeys : pairs.map Prod.fst = (CellStore.cells sheet.store).map Prod.fst :=
    List.map_map
  have hnodup := LawfulCellStore.nodup_cells sheet.store
  change (Std.ExtTreeMap.ofList pairs)[cell]? = _
  by_cases hraw : sheet.raw cell = ""
  · rw [if_pos hraw]
    apply Std.ExtTreeMap.getElem?_ofList_of_contains_eq_false
    rw [hkeys, ← Bool.not_eq_true, List.contains_iff_mem]
    intro hmem
    obtain ⟨⟨cell, text⟩, hcell, rfl⟩ := List.mem_map.mp hmem
    obtain ⟨htext, hne⟩ := (LawfulCellStore.mem_cells_iff h).mp hcell
    exact hne (htext.symm.trans hraw)
  · rw [if_neg hraw]
    refine Std.ExtTreeMap.getElem?_ofList_of_mem Std.compare_self ?_ ?_
    · rw [← hkeys, List.Nodup, List.pairwise_map] at hnodup
      exact hnodup.imp fun hne => by simpa using hne
    · exact List.mem_map.mpr
        ⟨(cell, sheet.raw cell), (LawfulCellStore.mem_cells_iff h).mpr ⟨rfl, hraw⟩, rfl⟩

theorem upToDate_load (h : LawfulCellStore.WellFormed sheet.store) : sheet.load.UpToDate where
  wellFormed := h
  graph := DependencyGraph.mirrors_ofCells (LawfulCellStore.nodup_cells sheet.store)
    fun _ _ => LawfulCellStore.mem_cells_iff h
  values := getElem?_load h

namespace UpToDate

/-- Nothing changes when a sheet that is up to date is worked out again. -/
theorem eq_load (h : sheet.UpToDate) : sheet = sheet.load := by
  have hload := upToDate_load h.wellFormed
  have hgraph : sheet.graph = sheet.load.graph := h.graph.eq hload.graph
  have hvalues : sheet.values = sheet.load.values :=
    Std.ExtTreeMap.ext_getElem? fun cell => (h.values cell).trans (hload.values cell).symm
  obtain ⟨store, graph, values, arithmetic, maxDepth⟩ := sheet
  unfold load at hgraph hvalues ⊢
  dsimp only at hgraph hvalues ⊢
  rw [← hgraph, ← hvalues]

theorem raw_written (hok : (CellStore.write sheet.store cell text).1 = .ok ()) :
    (sheet.written cell text).raw = Function.update sheet.raw cell text :=
  LawfulCellStore.raw_write hok

theorem mirrors_written (h : sheet.UpToDate)
    (hok : (CellStore.write sheet.store cell text).1 = .ok ()) :
    (sheet.written cell text).graph.Mirrors (Refers (sheet.written cell text).raw) := by
  rw [raw_written hok]
  exact h.graph.write cell text

/-- A cell from which no references lead to the written cell keeps its value. -/
theorem compute_written (hok : (CellStore.write sheet.store cell text).1 = .ok ()) {other : Cell}
    (hother : ¬ Reaches (sheet.written cell text).raw other cell) :
    (sheet.written cell text).evaluator.compute other = sheet.evaluator.compute other := by
  have hraw : CellStore.raw (sheet.written cell text).store =
      Function.update (CellStore.raw sheet.store) cell text := raw_written hok
  -- read from the new texts: whatever `other` leads to is not the written cell
  symm
  apply Evaluator.compute_congr
  · rfl
  · rfl
  · intro target hreach
    change CellStore.raw sheet.store target = CellStore.raw (sheet.written cell text).store target
    rw [hraw, Function.update_of_ne]
    rintro rfl
    exact hother hreach

theorem edit_of_error (h : sheet.UpToDate) {error : StoreError}
    (herror : (CellStore.write sheet.store cell text).1 = .error error) :
    (sheet.edit cell text).2.UpToDate := by
  have hraw := LawfulCellStore.raw_write_of_error herror
  rw [Sheet.edit_of_error herror]
  refine ⟨LawfulCellStore.wellFormed_write h.wellFormed cell text, ?_, ?_⟩
  · unfold raw
    dsimp only
    rw [hraw]
    exact h.graph
  · intro other
    unfold raw evaluator
    dsimp only
    rw [hraw]
    exact h.values other

theorem edit_of_ok (h : sheet.UpToDate)
    (hok : (CellStore.write sheet.store cell text).1 = .ok ()) :
    (sheet.edit cell text).2.UpToDate := by
  have hgraph := h.mirrors_written hok
  rw [Sheet.edit_of_ok hok]
  refine ⟨LawfulCellStore.wellFormed_write h.wellFormed cell text, hgraph, ?_⟩
  intro other
  refine (getElem?_renewed _ other).trans ?_
  by_cases hmem : other ∈ (sheet.written cell text).graph.recomputed cell
  · rw [if_pos hmem]
    rfl
  · rw [if_neg hmem]
    rw [hgraph.mem_recomputed_iff] at hmem
    have hraw : (sheet.written cell text).raw other = sheet.raw other := by
      rw [raw_written hok, Function.update_of_ne]
      rintro rfl
      exact hmem .refl
    change sheet.values[other]? = if (sheet.written cell text).raw other = "" then none
      else some ((sheet.written cell text).evaluator.compute other)
    rw [compute_written hok hmem, hraw]
    exact h.values other

/-- An edit keeps a sheet up to date, whether it succeeds or not. -/
theorem edit (h : sheet.UpToDate) (cell : Cell) (text : String) :
    (sheet.edit cell text).2.UpToDate := by
  cases hwrite : (CellStore.write sheet.store cell text).1 with
  | error error => exact h.edit_of_error hwrite
  | ok _ => exact h.edit_of_ok hwrite

theorem editByName (h : sheet.UpToDate) (name text : String) :
    (sheet.editByName name text).2.UpToDate := by
  unfold Sheet.editByName
  cases Cell.ofName? name with
  | none => exact h
  | some cell => exact h.edit cell text

end UpToDate

/-- A recalculation starts with the edited cell, goes over no cell twice and leaves out no cell
whose value differs from before. -/
def Covers (sheet : Sheet Store) (changed : Cell)
    (answer : Except EditError Recalculation × Sheet Store) : Prop :=
  ∀ recalculation, answer.1 = .ok recalculation →
    recalculation.order.head? = some changed ∧ recalculation.order.Nodup ∧
      ∀ cell, answer.2.evaluator.compute cell ≠ sheet.evaluator.compute cell →
        cell ∈ recalculation.order

theorem UpToDate.covers_edit (h : sheet.UpToDate) (cell : Cell) (text : String) :
    sheet.Covers cell (sheet.edit cell text) := by
  intro recalculation hrecalculation
  obtain ⟨hwrite, rfl⟩ := write_of_edit_eq_ok hrecalculation
  have hgraph := h.mirrors_written hwrite
  rw [Sheet.edit_of_ok hwrite, order_recalculation]
  refine ⟨rfl, hgraph.nodup_recomputed cell, ?_⟩
  intro other hdiffers
  rw [hgraph.mem_recomputed_iff]
  by_contra hother
  exact hdiffers (UpToDate.compute_written hwrite hother)

/-- The sheets that calls make of a sheet over a store, each call succeeding or failing. Before a
sheet is read again, others may have written to its store. -/
inductive Arises : Sheet Store → Prop where
  | ofStore (store : Store) (hstore : LawfulCellStore.WellFormed store) (maxDepth : Nat)
    (arithmetic : String → Except Arithmetic.Error Float) :
    Arises (ofStore store maxDepth arithmetic)
  | edit {sheet : Sheet Store} (cell : Cell) (text : String) (h : Arises sheet) :
    Arises (sheet.edit cell text).2
  | editByName {sheet : Sheet Store} (name text : String) (h : Arises sheet) :
    Arises (sheet.editByName name text).2
  | clear {sheet : Sheet Store} (cell : Cell) (h : Arises sheet) : Arises (sheet.clear cell).2
  | load {sheet : Sheet Store} (store : Store) (hstore : LawfulCellStore.WellFormed store)
    (h : Arises sheet) : Arises (load { sheet with store })

theorem Arises.upToDate (h : sheet.Arises) : sheet.UpToDate := by
  induction h with
  | ofStore store hstore maxDepth arithmetic => exact upToDate_load hstore
  | edit cell text _ ih => exact ih.edit cell text
  | editByName name text _ ih => exact ih.editByName name text
  | clear cell _ ih => exact ih.edit cell ""
  | load store hstore _ _ => exact upToDate_load hstore

/-- Whatever calls were made of a sheet, it is the fresh sheet over its store: its values are those
of the cells that hold text, its graph is rebuilt from their texts, and every edit reports all
cells whose value it changes. -/
theorem Arises.eq_ofStore (sheet : Sheet Store) (h : sheet.Arises) :
    (∀ cell : Cell, sheet.values[cell]? =
      if sheet.raw cell = "" then none else some (sheet.evaluator.compute cell)) ∧
    sheet.graph = DependencyGraph.ofCells (CellStore.cells sheet.store) ∧
    sheet = Sheet.ofStore sheet.store sheet.maxDepth sheet.arithmetic ∧
    (∀ cell text, sheet.Covers cell (sheet.edit cell text)) ∧
    (∀ cell, sheet.Covers cell (sheet.clear cell)) ∧
    ∀ name text cell, Cell.ofName? name = some cell →
      sheet.Covers cell (sheet.editByName name text) := by
  have hupToDate := h.upToDate
  have heq : sheet = sheet.load := hupToDate.eq_load
  refine ⟨hupToDate.values, congrArg graph heq, heq, ?_, ?_, ?_⟩
  · exact hupToDate.covers_edit
  · exact fun cell => hupToDate.covers_edit cell ""
  · intro name text cell hname
    unfold Sheet.editByName
    rw [hname]
    exact hupToDate.covers_edit cell text

def circleStore : MemoryStore :=
  MemoryStore.insert (.insert { texts := ∅, access := .writable } (inColumnA 0) "=A2")
    (inColumnA 1) "=A1"

theorem eq_ofStore_of_opened_circle :
    ((ofStore circleStore 3 Arithmetic.evaluate).edit (inColumnA 1) "=A3").2.Arises ∧
    ((ofStore circleStore 3 Arithmetic.evaluate).edit (inColumnA 1) "=A3").2 =
      ofStore ((ofStore circleStore 3 Arithmetic.evaluate).edit (inColumnA 1) "=A3").2.store 3
        Arithmetic.evaluate := by
  have hstore : LawfulCellStore.WellFormed circleStore :=
    MemoryStore.wellFormed_insert
      (MemoryStore.wellFormed_insert CellTexts.wellFormed_empty (inColumnA 0) "=A2")
      (inColumnA 1) "=A1"
  have harises : ((ofStore circleStore 3 Arithmetic.evaluate).edit (inColumnA 1) "=A3").2.Arises :=
    .edit (inColumnA 1) "=A3" (.ofStore circleStore hstore 3 Arithmetic.evaluate)
  exact ⟨harises, (Arises.eq_ofStore _ harises).2.2.1⟩

end Sheet

end Spreadsheet
