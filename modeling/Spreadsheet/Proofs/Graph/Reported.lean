import Spreadsheet.Proofs.Graph.Circles
import Spreadsheet.Proofs.Graph.Distance
import Spreadsheet.Proofs.Store

/-!
# Which circles are reported

The changed cell is none of the cells that a change affects, so a circle through it is no circle of
theirs. Every other circle is affected as a whole or not at all, and shows among the affected cells
as it does in the whole graph.
-/

namespace Spreadsheet

namespace DependencyGraph

def EdgePast (graph : DependencyGraph) (changed cell target : Cell) : Prop :=
  graph.Edge cell target ∧ cell ≠ changed ∧ target ≠ changed

namespace Mirrors

variable {graph : DependencyGraph} {refers : Cell → Cell → Prop} {changed cell target : Cell}
  (hgraph : graph.Mirrors refers)

include hgraph

/-- What refers to an affected cell is affected too, unless it is the changed cell. -/
theorem mem_affected_of_edge (hedge : graph.Edge cell target) (hcell : cell ≠ changed)
    (htarget : target ∈ graph.affected changed) : cell ∈ graph.affected changed := by
  obtain ⟨-, hbelow⟩ := hgraph.mem_affected_iff.mp htarget
  exact hgraph.mem_affected_iff.mpr ⟨hcell, .head (hgraph.edge_iff.mp hedge) hbelow⟩

theorem edgePast_of_edgeAmong (h : graph.EdgeAmong (graph.affected changed) cell target) :
    graph.EdgePast changed cell target := by
  obtain ⟨hcell, htarget, hedge⟩ := h
  exact ⟨hedge, (hgraph.mem_affected_iff.mp hcell).1, (hgraph.mem_affected_iff.mp htarget).1⟩

theorem edgeAmong_of_edgePast (h : graph.EdgePast changed cell target)
    (htarget : target ∈ graph.affected changed) :
    graph.EdgeAmong (graph.affected changed) cell target :=
  ⟨hgraph.mem_affected_of_edge h.1 h.2.1 htarget, htarget, h.1⟩

/-- References past the changed cell that end in an affected cell stay among the affected cells. -/
theorem reaches_among (h : Relation.ReflTransGen (graph.EdgePast changed) cell target)
    (htarget : target ∈ graph.affected changed) :
    Relation.ReflTransGen (graph.EdgeAmong (graph.affected changed)) cell target ∧
      cell ∈ graph.affected changed := by
  induction h using Relation.ReflTransGen.head_induction_on with
  | refl => exact ⟨.refl, htarget⟩
  | head hedge _ ih =>
      have hamong := hgraph.edgeAmong_of_edgePast hedge ih.2
      exact ⟨.head hamong ih.1, hamong.1⟩

theorem circle_among (h : Relation.TransGen (graph.EdgePast changed) cell cell)
    (hcell : cell ∈ graph.affected changed) :
    Relation.TransGen (graph.EdgeAmong (graph.affected changed)) cell cell := by
  obtain ⟨next, hedge, hback⟩ := Relation.TransGen.head'_iff.mp h
  obtain ⟨hreach, hnext⟩ := hgraph.reaches_among hback hcell
  exact .head' (hgraph.edgeAmong_of_edgePast hedge hnext) hreach

/-- A cell is left over when references past the changed cell lead from it into an affected circle
that the changed cell is not on. -/
theorem mem_cyclic_iff_exists_circle_past :
    cell ∈ (graph.schedule (graph.affected changed)).cyclic ↔
      ∃ circle ∈ graph.affected changed,
        Relation.ReflTransGen (graph.EdgePast changed) cell circle ∧
          Relation.TransGen (graph.EdgePast changed) circle circle := by
  rw [hgraph.mem_cyclic_iff_exists_circle (graph.nodup_affected changed)]
  have hpast : ∀ cell target, graph.EdgeAmong (graph.affected changed) cell target →
      graph.EdgePast changed cell target := fun _ _ => hgraph.edgePast_of_edgeAmong
  constructor
  · rintro ⟨circle, hreach, hcircle⟩
    obtain ⟨next, hedge, -⟩ := Relation.TransGen.head'_iff.mp hcircle
    exact ⟨circle, hedge.1, Relation.ReflTransGen.mono hpast _ _ hreach,
      Relation.TransGen.mono hpast _ _ hcircle⟩
  · rintro ⟨circle, haffected, hreach, hcircle⟩
    exact ⟨circle, (hgraph.reaches_among hreach haffected).1,
      hgraph.circle_among hcircle haffected⟩

end Mirrors

end DependencyGraph

open DependencyGraph

section Store

variable {Store : Type} [CellStore Store] [LawfulCellStore Store]

theorem mirrors_of_store {store : Store} (hstore : LawfulCellStore.WellFormed store) :
    (ofCells (CellStore.cells store)).Mirrors (Refers (CellStore.raw store)) :=
  mirrors_ofCells (LawfulCellStore.nodup_cells store)
    fun _ _ => LawfulCellStore.mem_cells_iff hstore

/-- An affected cell on a circle that does not go through the changed cell is reported, and no cell
is but those from which references past the changed cell lead into such a circle of affected cells.
Whatever circle an affected cell is on, its new value is an abort marker. -/
theorem circles_past_changed_are_reported (store : Store)
    (hstore : LawfulCellStore.WellFormed store)
    (arithmetic : String → Except Arithmetic.Error Float) (maxDepth : Nat) (changed : Cell) :
    let graph := ofCells (CellStore.cells store)
    let affected := graph.affected changed
    let recalculation :=
      propagate graph (.make (CellStore.raw store) arithmetic maxDepth) changed
    (∀ cell ∈ affected, Relation.TransGen (graph.EdgePast changed) cell cell →
      cell ∈ recalculation.cycles) ∧
    (∀ cell, cell ∈ recalculation.cycles ↔
      ∃ circle ∈ affected, Relation.ReflTransGen (graph.EdgePast changed) cell circle ∧
        Relation.TransGen (graph.EdgePast changed) circle circle) ∧
    ∀ cell ∈ affected, Relation.TransGen graph.Edge cell cell →
      recalculation.valueOf? cell = some (.marker (.abort .circular)) ∨
        recalculation.valueOf? cell = some (.marker (.abort .tooDeep)) := by
  intro graph affected recalculation
  have hgraph : graph.Mirrors (Refers (CellStore.raw store)) := mirrors_of_store hstore
  have hcycles : ∀ cell, cell ∈ recalculation.cycles ↔
      ∃ circle ∈ affected, Relation.ReflTransGen (graph.EdgePast changed) cell circle ∧
        Relation.TransGen (graph.EdgePast changed) circle circle :=
    fun _ => hgraph.mem_cyclic_iff_exists_circle_past
  refine ⟨fun cell hcell hcircle => (hcycles cell).mpr ⟨cell, hcell, .refl, hcircle⟩, hcycles, ?_⟩
  intro cell hcell hcircle
  have hreaches : ReachesCircle (CellStore.raw store) cell :=
    ⟨cell, .refl, Relation.TransGen.mono (fun _ _ => hgraph.edge_iff.mp) _ _ hcircle⟩
  have habort := (Evaluator.make (CellStore.raw store) arithmetic
    maxDepth).compute_eq_abort_of_reachesCircle hreaches
  have hvalue : recalculation.valueOf? cell =
      some ((Evaluator.make (CellStore.raw store) arithmetic maxDepth).compute cell) :=
    Recalculation.valueOf?_of_updates_eq rfl
      ((hgraph.perm_schedule (graph.nodup_affected changed)).mem_iff.mpr hcell)
  rw [hvalue]
  exact habort.imp (congrArg some) (congrArg some)

end Store

def pairStore : MemoryStore where
  texts := ((CellTexts.write ∅ { row := 0, col := 0 } "1").write { row := 0, col := 1 } "=A1+C1").write
    { row := 0, col := 2 } "=B1"
  access := .writable

theorem circles_past_changed_are_reported_of_pair :
    LawfulCellStore.WellFormed pairStore ∧
    (let graph := ofCells (CellStore.cells pairStore)
    ({ row := 0, col := 2 } : Cell) ∈ graph.affected { row := 0, col := 0 } ∧
    Relation.TransGen (graph.EdgePast { row := 0, col := 0 })
      { row := 0, col := 2 } { row := 0, col := 2 } ∧
    ({ row := 0, col := 2 } : Cell) ∈ (propagate graph
      (.make (CellStore.raw pairStore) Arithmetic.evaluate 256) { row := 0, col := 0 }).cycles) := by
  have hstore : LawfulCellStore.WellFormed pairStore :=
    ((CellTexts.wellFormed_empty.write _ _).write _ _).write _ _
  have haffected : ({ row := 0, col := 2 } : Cell) ∈
      (ofCells (CellStore.cells pairStore)).affected { row := 0, col := 0 } := by decide +kernel
  have hcircle : Relation.TransGen
      ((ofCells (CellStore.cells pairStore)).EdgePast { row := 0, col := 0 })
      { row := 0, col := 2 } { row := 0, col := 2 } := by
    have hthere : (ofCells (CellStore.cells pairStore)).Edge
        { row := 0, col := 2 } { row := 0, col := 1 } := ⟨_, rfl, by decide +kernel⟩
    have hback : (ofCells (CellStore.cells pairStore)).Edge
        { row := 0, col := 1 } { row := 0, col := 2 } := ⟨_, rfl, by decide +kernel⟩
    exact .head ⟨hthere, by decide, by decide⟩ (.single ⟨hback, by decide, by decide⟩)
  exact ⟨hstore, haffected, hcircle, (circles_past_changed_are_reported pairStore hstore
    Arithmetic.evaluate 256 { row := 0, col := 0 }).1 _ haffected hcircle⟩

def loopStore : MemoryStore where
  texts := (CellTexts.write ∅ { row := 0, col := 0 } "=B1").write { row := 0, col := 1 } "=A1"
  access := .writable

/-- A circle through the changed cell is not reported: the other cells on it wait for nothing. -/
theorem circle_through_changed_is_not_reported :
    let graph := ofCells (CellStore.cells loopStore)
    ({ row := 0, col := 1 } : Cell) ∈ graph.affected { row := 0, col := 0 } ∧
    Relation.TransGen graph.Edge { row := 0, col := 1 } { row := 0, col := 1 } ∧
    ({ row := 0, col := 1 } : Cell) ∉ (propagate graph
      (.make (CellStore.raw loopStore) Arithmetic.evaluate 256) { row := 0, col := 0 }).cycles := by
  intro graph
  have hthere : graph.Edge { row := 0, col := 1 } { row := 0, col := 0 } :=
    ⟨_, rfl, by decide +kernel⟩
  have hback : graph.Edge { row := 0, col := 0 } { row := 0, col := 1 } :=
    ⟨_, rfl, by decide +kernel⟩
  exact ⟨by decide +kernel, .head hthere (.single hback), by decide +kernel⟩

end Spreadsheet
