import Mathlib.Data.List.Nodup
import Spreadsheet.Proofs.Graph.Affected
import Spreadsheet.Proofs.Graph.History
import Spreadsheet.Proofs.Graph.Schedule

/-!
# The order of updates

A cell is recomputed when all affected cells that it refers to were; what waits for a circle comes
after everything else.
-/

namespace Spreadsheet

namespace DependencyGraph

variable {graph : DependencyGraph} {members : CellSet} {waiting : CellMap Nat}
  {cells done ready before after : List Cell} {cell target : Cell} {refers : Cell → Cell → Prop}

/-- A cell is taken only when no input of its own is left. -/
theorem Underway.pending_of_orderFrom_eq {steps : Nat}
    (h : graph.Underway members done waiting ready) (hgraph : graph.Mirrors refers)
    (hsplit : graph.orderFrom steps waiting ready = before ++ cell :: after) :
    graph.pending members (done ++ before) cell = ∅ := by
  induction steps generalizing done waiting ready before with
  | zero => simp [DependencyGraph.orderFrom] at hsplit
  | succ steps ih =>
      cases ready with
      | nil => simp [DependencyGraph.orderFrom] at hsplit
      | cons taken ready =>
          rw [DependencyGraph.orderFrom] at hsplit
          cases before with
          | nil =>
              obtain ⟨rfl, -⟩ := List.cons.inj hsplit
              rw [List.append_nil]
              exact ((h.mem_iff taken).mp (by simp)).2
          | cons first before =>
              -- what is taken now is done when the rest of the prefix is taken
              obtain ⟨rfl, hrest⟩ := List.cons.inj hsplit
              have hlater := ih (h.take hgraph) hrest
              rwa [List.append_assoc, List.singleton_append] at hlater

theorem Mirrors.mem_of_ordered_eq (hgraph : graph.Mirrors refers) (hnodup : cells.Nodup)
    (hsplit : (graph.schedule cells).ordered = before ++ cell :: after) (href : refers cell target)
    (htarget : target ∈ cells) : target ∈ before := by
  have hnone : graph.pending (Std.ExtTreeSet.ofList cells) before cell = ∅ :=
    (underway_nil hnodup).pending_of_orderFrom_eq hgraph hsplit
  by_contra hleft
  have hpending : target ∈ graph.pending (Std.ExtTreeSet.ofList cells) before cell :=
    hgraph.mem_pending.mpr ⟨href, by simpa using htarget, hleft⟩
  rw [hnone] at hpending
  exact Finset.notMem_empty target hpending

theorem idxOf_lt_idxOf (hnodup : (before ++ cell :: after).Nodup) (h : target ∈ before) :
    (before ++ cell :: after).idxOf target < (before ++ cell :: after).idxOf cell := by
  have hcell : cell ∉ before := fun hmem =>
    List.disjoint_of_nodup_append hnodup hmem List.mem_cons_self
  calc (before ++ cell :: after).idxOf target
      = before.idxOf target := List.idxOf_append_of_mem h
    _ < before.length := List.idxOf_lt_length_of_mem h
    _ = (before ++ cell :: after).idxOf cell := by
      rw [List.idxOf_append_of_notMem hcell, List.idxOf_cons_self, Nat.add_zero]

/-- A cell that waits for no circle comes after all cells of the list that it refers to. -/
theorem Mirrors.idxOf_lt_of_refers (hgraph : graph.Mirrors refers) (hnodup : cells.Nodup)
    (hcell : cell ∈ cells) (hordered : cell ∉ (graph.schedule cells).cyclic)
    (href : refers cell target) (htarget : target ∈ cells) :
    let order := (graph.schedule cells).ordered ++ (graph.schedule cells).cyclic
    order.idxOf target < order.idxOf cell := by
  intro order
  have hperm : order.Perm cells := hgraph.perm_schedule hnodup
  have hmem : cell ∈ (graph.schedule cells).ordered :=
    (List.mem_append.mp (hperm.mem_iff.mpr hcell)).resolve_right hordered
  obtain ⟨before, after, hsplit⟩ := List.append_of_mem hmem
  have horder : order = before ++ cell :: (after ++ (graph.schedule cells).cyclic) := by
    change (graph.schedule cells).ordered ++ _ = _
    rw [hsplit, List.append_assoc, List.cons_append]
  rw [horder]
  apply idxOf_lt_idxOf
  · rw [← horder]
    exact hperm.nodup_iff.mpr hnodup
  · exact hgraph.mem_of_ordered_eq hnodup hsplit href htarget

end DependencyGraph

open DependencyGraph

theorem order_propagate (graph : DependencyGraph) (evaluator : Evaluator) (changed : Cell) :
    (propagate graph evaluator changed).order =
      (graph.schedule (graph.affected changed)).ordered ++
        (propagate graph evaluator changed).cycles := by
  rw [Recalculation.order, propagate, List.map_map]
  exact List.map_id _

theorem Recalculation.valueOf?_of_updates_eq {recalculation : Recalculation} {cells : List Cell}
    {value : Cell → Value}
    (hupdates : recalculation.updates = cells.map fun cell => (cell, value cell))
    {cell : Cell} (hcell : cell ∈ cells) : recalculation.valueOf? cell = some (value cell) := by
  obtain ⟨found, hfound⟩ : ∃ found, cells.find? (fun updated => updated = cell) = some found :=
    Option.isSome_iff_exists.mp (List.find?_isSome.mpr ⟨cell, hcell, decide_eq_true rfl⟩)
  have heq : found = cell := by simpa using List.find?_some hfound
  rw [heq] at hfound
  rw [valueOf?, hupdates, List.find?_map]
  change Option.map _ (Option.map _ (cells.find? fun updated => updated = cell)) = _
  rw [hfound]
  rfl

/-- Every affected cell is recomputed once, after the affected cells that its formula names unless
it waits for a circle; those that do come last, in the order they were found. -/
theorem propagate_recomputes_in_order (changes : List Change) (evaluator : Evaluator)
    (changed : Cell) :
    let graph := ofChanges changes
    let affected := graph.affected changed
    let recalculation := propagate graph evaluator changed
    recalculation.order.Perm affected ∧ recalculation.order.Nodup ∧
    (∀ cell value, (cell, value) ∈ recalculation.updates → value = evaluator.compute cell) ∧
    (∀ cell ∈ affected, cell ∉ recalculation.cycles →
      ∀ targets, graph.referencesOf? cell = some targets →
        ∀ target ∈ targets, target ∈ affected →
          recalculation.order.idxOf target < recalculation.order.idxOf cell) ∧
    (∃ ordered, recalculation.order = ordered ++ recalculation.cycles) ∧
    recalculation.cycles.Sublist affected := by
  intro graph affected recalculation
  have hgraph : graph.Mirrors (Refers (lastTexts changes)) := mirrors_ofChanges changes
  have hnodup : affected.Nodup := graph.nodup_affected changed
  have horder := order_propagate graph evaluator changed
  have hperm : recalculation.order.Perm affected := by
    rw [horder]
    exact hgraph.perm_schedule hnodup
  refine ⟨hperm, hperm.nodup_iff.mpr hnodup, ?_, ?_, ⟨_, horder⟩, List.filter_sublist⟩
  · intro cell value hupdate
    obtain ⟨updated, -, heq⟩ := List.mem_map.mp hupdate
    obtain ⟨rfl, rfl⟩ := Prod.mk.inj heq
    rfl
  · intro cell hcell hordered targets htargets target htarget haffected
    have href : Refers (lastTexts changes) cell target :=
      hgraph.refers_iff_exists_referencesOf?.mpr ⟨targets, htargets, htarget⟩
    rw [horder]
    exact hgraph.idxOf_lt_of_refers hnodup hcell hordered href haffected

end Spreadsheet
