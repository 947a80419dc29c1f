import Mathlib.Data.Fintype.Pigeonhole
import Mathlib.Order.Monotone.Basic
import Spreadsheet.Proofs.Evaluation.Values
import Spreadsheet.Proofs.Graph.Propagation

/-!
# What cannot be ordered

A cell is left over exactly when references among the affected cells lead from it into a circle of
them: each cell left over refers to another one, and along cells in order the positions fall.
-/

namespace Spreadsheet

namespace DependencyGraph

def EdgeAmong (graph : DependencyGraph) (members : List Cell) (cell target : Cell) : Prop :=
  cell ∈ members ∧ target ∈ members ∧
    ∃ targets, graph.referencesOf? cell = some targets ∧ target ∈ targets

/-- A walk that can always go on in a finite set comes to a place it was at before. -/
theorem exists_circle_of_forall_exists {α : Type} [Finite α] {step : α → α → Prop}
    (h : ∀ place, ∃ next, step place next) (start : α) :
    ∃ place, Relation.ReflTransGen step start place ∧ Relation.TransGen step place place := by
  choose next hnext using h
  have hwalk : ∀ n, step (next^[n] start) (next^[n + 1] start) := fun n => by
    rw [Function.iterate_succ_apply']
    exact hnext _
  obtain ⟨first, second, hlt, heq⟩ : ∃ first second, first < second ∧
      next^[first] start = next^[second] start := by
    obtain ⟨i, j, hne, heq⟩ := Finite.exists_ne_map_eq_of_infinite fun n => next^[n] start
    rcases hne.lt_or_gt with hlt | hlt
    · exact ⟨i, j, hlt, heq⟩
    · exact ⟨j, i, hlt, heq.symm⟩
  refine ⟨next^[first] start, ?_, ?_⟩
  · exact Nat.rel_of_forall_rel_succ_of_le (Relation.ReflTransGen step)
      (fun n => .single (hwalk n)) (Nat.zero_le first)
  · have hround := Nat.rel_of_forall_rel_succ_of_lt (Relation.TransGen step)
      (fun n => .single (hwalk n)) hlt
    rwa [← heq] at hround

variable {graph : DependencyGraph} {refers : Cell → Cell → Prop} {cells : List Cell}
  {cell target : Cell} (hgraph : graph.Mirrors refers)

include hgraph

theorem Mirrors.edgeAmong_iff :
    graph.EdgeAmong cells cell target ↔ cell ∈ cells ∧ target ∈ cells ∧ refers cell target := by
  rw [EdgeAmong, hgraph.refers_iff_exists_referencesOf?]

variable (hnodup : cells.Nodup)

include hnodup

/-- The cells left over are those that refer to others left over. -/
theorem Mirrors.mem_cyclic_iff_exists_edge :
    cell ∈ (graph.schedule cells).cyclic ↔
      ∃ target ∈ (graph.schedule cells).cyclic, graph.EdgeAmong cells cell target := by
  have hordered : cell ∈ (graph.schedule cells).ordered ↔ cell ∈ cells ∧
      ∀ target ∈ cells, refers cell target → target ∈ (graph.schedule cells).ordered :=
    hgraph.mem_ordered_iff hnodup
  simp only [mem_cyclic_iff, hgraph.edgeAmong_iff]
  constructor
  · rintro ⟨hcell, hleft⟩
    rw [hordered] at hleft
    push Not at hleft
    obtain ⟨target, htarget, href, hnot⟩ := hleft hcell
    exact ⟨target, ⟨htarget, hnot⟩, hcell, htarget, href⟩
  · rintro ⟨target, ⟨htarget, hnot⟩, hcell, -, href⟩
    exact ⟨hcell, fun h => hnot ((hordered.mp h).2 target htarget href)⟩

theorem Mirrors.exists_circle_of_mem_cyclic (h : cell ∈ (graph.schedule cells).cyclic) :
    ∃ circle, Relation.ReflTransGen (graph.EdgeAmong cells) cell circle ∧
      Relation.TransGen (graph.EdgeAmong cells) circle circle := by
  have hnext : ∀ place : {cell // cell ∈ (graph.schedule cells).cyclic},
      ∃ next : {cell // cell ∈ (graph.schedule cells).cyclic},
        graph.EdgeAmong cells place.1 next.1 := by
    intro place
    obtain ⟨target, htarget, hedge⟩ := (hgraph.mem_cyclic_iff_exists_edge hnodup).mp place.2
    exact ⟨⟨target, htarget⟩, hedge⟩
  obtain ⟨circle, hreach, hcircle⟩ := exists_circle_of_forall_exists hnext ⟨cell, h⟩
  exact ⟨circle.1, hreach.lift Subtype.val fun _ _ hedge => hedge,
    hcircle.lift Subtype.val fun _ _ hedge => hedge⟩

/-- References lead from a cell in order to cells in order only, and to smaller positions. -/
theorem Mirrors.idxOf_lt_of_edges (hordered : cell ∉ (graph.schedule cells).cyclic)
    (h : Relation.TransGen (graph.EdgeAmong cells) cell target) :
    let order := (graph.schedule cells).ordered ++ (graph.schedule cells).cyclic
    target ∉ (graph.schedule cells).cyclic ∧ order.idxOf target < order.idxOf cell := by
  intro order
  have hstep : ∀ cell target, cell ∉ (graph.schedule cells).cyclic →
      graph.EdgeAmong cells cell target →
        target ∉ (graph.schedule cells).cyclic ∧ order.idxOf target < order.idxOf cell := by
    intro cell target hordered hedge
    refine ⟨fun htarget => ?_, ?_⟩
    · exact hordered ((hgraph.mem_cyclic_iff_exists_edge hnodup).mpr ⟨target, htarget, hedge⟩)
    · obtain ⟨hcell, htarget, href⟩ := hgraph.edgeAmong_iff.mp hedge
      exact hgraph.idxOf_lt_of_refers hnodup hcell hordered href htarget
  induction h with
  | single hedge => exact hstep _ _ hordered hedge
  | tail _ hedge ih =>
      obtain ⟨htarget, hlt⟩ := hstep _ _ ih.1 hedge
      exact ⟨htarget, hlt.trans ih.2⟩

theorem Mirrors.mem_cyclic_iff_exists_circle :
    cell ∈ (graph.schedule cells).cyclic ↔
      ∃ circle, Relation.ReflTransGen (graph.EdgeAmong cells) cell circle ∧
        Relation.TransGen (graph.EdgeAmong cells) circle circle := by
  refine ⟨hgraph.exists_circle_of_mem_cyclic hnodup, ?_⟩
  rintro ⟨circle, hreach, hcircle⟩
  have hleft : circle ∈ (graph.schedule cells).cyclic := by
    by_contra hordered
    exact absurd (hgraph.idxOf_lt_of_edges hnodup hordered hcircle).2 (lt_irrefl _)
  induction hreach using Relation.ReflTransGen.head_induction_on with
  | refl => exact hleft
  | head hedge _ ih => exact (hgraph.mem_cyclic_iff_exists_edge hnodup).mpr ⟨_, ih, hedge⟩

end DependencyGraph

open DependencyGraph

/-- The cells that a recalculation puts in no order are the affected cells from which references
among the affected cells lead into a circle of them. -/
theorem cycles_propagate (changes : List Change) (evaluator : Evaluator) (changed : Cell) :
    let graph := ofChanges changes
    let affected := graph.affected changed
    let recalculation := propagate graph evaluator changed
    (∀ cell, cell ∈ recalculation.cycles ↔
      ∃ circle, Relation.ReflTransGen (graph.EdgeAmong affected) cell circle ∧
        Relation.TransGen (graph.EdgeAmong affected) circle circle) ∧
    ((∀ cell, Formula.dependencies (lastTexts changes cell) =
        Formula.dependencies (evaluator.raw cell)) →
      ∀ cell ∈ recalculation.cycles,
        recalculation.valueOf? cell = some (.marker (.abort .circular)) ∨
          recalculation.valueOf? cell = some (.marker (.abort .tooDeep))) := by
  intro graph affected recalculation
  have hgraph : graph.Mirrors (Refers (lastTexts changes)) := mirrors_ofChanges changes
  have hnodup : affected.Nodup := graph.nodup_affected changed
  refine ⟨fun cell => hgraph.mem_cyclic_iff_exists_circle hnodup, ?_⟩
  intro hsame cell hcell
  have hedge : ∀ cell target, graph.EdgeAmong affected cell target →
      Refers evaluator.raw cell target := by
    intro cell target hedge
    have href : Refers (lastTexts changes) cell target := (hgraph.edgeAmong_iff.mp hedge).2.2
    rwa [Refers, hsame] at href
  obtain ⟨circle, hreach, hcircle⟩ := (hgraph.mem_cyclic_iff_exists_circle hnodup).mp hcell
  have habort := evaluator.compute_eq_abort_of_reachesCircle
    ⟨circle, Relation.ReflTransGen.mono hedge _ _ hreach, Relation.TransGen.mono hedge _ _ hcircle⟩
  have hvalue : recalculation.valueOf? cell = some (evaluator.compute cell) :=
    Recalculation.valueOf?_of_updates_eq rfl (List.mem_append_right _ hcell)
  rw [hvalue]
  exact habort.imp (congrArg some) (congrArg some)

def circleChanges : List Change :=
  [.write { row := 0, col := 0 } "1", .write { row := 0, col := 1 } "=A1+C1",
    .write { row := 0, col := 2 } "=B1"]

theorem cycles_propagate_of_circle :
    (∀ cell, Formula.dependencies (lastTexts circleChanges cell) =
      Formula.dependencies
        ((Evaluator.make (lastTexts circleChanges) Arithmetic.evaluate 3).raw cell)) ∧
    (let recalculation := propagate (ofChanges circleChanges)
      (.make (lastTexts circleChanges) Arithmetic.evaluate 3) { row := 0, col := 0 }
    recalculation.valueOf? { row := 0, col := 2 } = some (.marker (.abort .circular)) ∨
      recalculation.valueOf? { row := 0, col := 2 } = some (.marker (.abort .tooDeep))) := by
  have hsame : ∀ cell, Formula.dependencies (lastTexts circleChanges cell) =
      Formula.dependencies
        ((Evaluator.make (lastTexts circleChanges) Arithmetic.evaluate 3).raw cell) :=
    fun _ => rfl
  exact ⟨hsame, (cycles_propagate circleChanges _ _).2 hsame _ (by decide +kernel)⟩

end Spreadsheet
