import Mathlib.Data.List.Nodup
import Mathlib.Data.List.Perm.Subperm
import Mathlib.Logic.Relation
import Spreadsheet.Proofs.Graph.Mirror
import Spreadsheet.Recalculation

/-!
# The cells that a change affects

The cells of a search stand in one line: those whose dependents were looked at, then those that
wait. The dependents of the former are all in the line, so when none waits any more the line is
closed under dependents. That happens in time, since the line has no repetition and all of it but
its first cell holds formulas.
-/

namespace Spreadsheet

section Fresh

variable {seen : CellSet} {cells : List Cell} {cell : Cell}

theorem mem_fresh : cell ∈ fresh seen cells ↔ cell ∈ cells ∧ cell ∉ seen := by
  induction cells generalizing seen with
  | nil => simp [fresh]
  | cons head rest ih =>
      unfold fresh
      by_cases hhead : head ∈ seen
      · rw [if_pos hhead, ih, List.mem_cons]
        constructor
        · rintro ⟨hmem, hnew⟩
          exact ⟨.inr hmem, hnew⟩
        · rintro ⟨rfl | hmem, hnew⟩
          · exact absurd hhead hnew
          · exact ⟨hmem, hnew⟩
      · rw [if_neg hhead, List.mem_cons, List.mem_cons, ih, Std.ExtTreeSet.mem_insert,
          Std.compare_eq_iff_eq, not_or]
        by_cases hcell : cell = head
        · simp [hcell, hhead]
        · simp [hcell, Ne.symm hcell]

theorem nodup_fresh (seen : CellSet) (cells : List Cell) : (fresh seen cells).Nodup := by
  induction cells generalizing seen with
  | nil => exact List.nodup_nil
  | cons head rest ih =>
      unfold fresh
      by_cases hhead : head ∈ seen
      · rw [if_pos hhead]
        exact ih seen
      · rw [if_neg hhead]
        refine List.nodup_cons.mpr ⟨?_, ih (seen.insert head)⟩
        rw [mem_fresh]
        simp

end Fresh

namespace DependencyGraph

theorem mem_insertMany {seen : CellSet} {found : List Cell} {cell : Cell} :
    cell ∈ seen.insertMany found ↔ cell ∈ seen ∨ cell ∈ found := by
  rw [Std.ExtTreeSet.mem_insertMany_list, List.contains_iff_mem]

namespace Search

variable {graph : DependencyGraph} {changed cell : Cell} {done : List Cell} {search : Search}

/-- The cells seen are in one line: those done, whose dependents are seen too, and those that
wait. -/
structure Underway (graph : DependencyGraph) (changed : Cell) (done : List Cell)
    (search : Search) : Prop where
  line : changed :: search.found = done ++ search.worklist
  mem_seen : ∀ cell, cell ∈ search.seen ↔ cell ∈ changed :: search.found
  nodup : (changed :: search.found).Nodup
  depends : ∀ cell ∈ search.found,
    Relation.TransGen (fun cell target => cell ∈ graph.dependentsOf target) cell changed
  closed : ∀ target ∈ done, ∀ cell ∈ graph.dependentsOf target, cell ∈ changed :: search.found

theorem underway_start (graph : DependencyGraph) (changed : Cell) :
    Underway graph changed [] (start changed) where
  line := rfl
  mem_seen := by
    intro cell
    simp [start, eq_comm (a := changed)]
  nodup := List.nodup_singleton changed
  depends := by simp [start]
  closed := by simp

theorem step_of_worklist_eq_nil (h : search.worklist = []) : search.step graph = search := by
  rw [step, h]

theorem step_of_worklist_eq_cons {taken : Cell} {rest : List Cell}
    (h : search.worklist = taken :: rest) :
    search.step graph =
      { seen := search.seen.insertMany (search.new graph taken)
        found := search.found ++ search.new graph taken
        worklist := rest ++ search.new graph taken } := by
  rw [step, h]

theorem run_add (graph : DependencyGraph) (steps more : Nat) (search : Search) :
    run graph (steps + more) search = run graph more (run graph steps search) := by
  induction steps generalizing search with
  | zero => rw [Nat.zero_add, run]
  | succ steps ih => rw [Nat.succ_add, run, run, ih]

theorem run_of_worklist_eq_nil (h : search.worklist = []) (steps : Nat) :
    run graph steps search = search := by
  induction steps with
  | zero => rfl
  | succ steps ih => rw [run, step_of_worklist_eq_nil h, ih]

namespace Underway

variable {taken : Cell} {rest : List Cell}

theorem mem_new (h : Underway graph changed done search) :
    cell ∈ search.new graph taken ↔
      cell ∈ graph.dependentsOf taken ∧ cell ∉ changed :: search.found := by
  rw [new, mem_fresh, h.mem_seen]

theorem reaches (h : Underway graph changed done search) (hcell : cell ∈ changed :: search.found) :
    Relation.ReflTransGen (fun cell target => cell ∈ graph.dependentsOf target) cell changed := by
  rcases List.mem_cons.mp hcell with rfl | hfound
  · exact .refl
  · exact (h.depends cell hfound).to_reflTransGen

/-- To take a cell puts it among those done, and its new dependents at the end of the line. -/
theorem step (h : Underway graph changed done search) (hworklist : search.worklist = taken :: rest) :
    Underway graph changed (done ++ [taken]) (search.step graph) := by
  have htaken : taken ∈ changed :: search.found := by
    rw [h.line, hworklist]
    simp
  rw [step_of_worklist_eq_cons hworklist]
  constructor
  · dsimp only
    rw [← List.cons_append, h.line, hworklist]
    simp
  · intro cell
    rw [mem_insertMany, h.mem_seen, ← List.cons_append, List.mem_append]
  · rw [← List.cons_append]
    refine h.nodup.append (nodup_fresh _ _) ?_
    intro cell hold hnew
    exact (h.mem_new.mp hnew).2 hold
  · intro cell hcell
    rcases List.mem_append.mp hcell with hold | hnew
    · exact h.depends cell hold
    · exact .head' (h.mem_new.mp hnew).1 (h.reaches htaken)
  · -- a dependent of the cell taken was seen before or is new
    intro target htarget cell hcell
    rw [← List.cons_append, List.mem_append]
    by_cases hold : cell ∈ changed :: search.found
    · exact .inl hold
    · refine .inr (h.mem_new.mpr ⟨?_, hold⟩)
      rcases List.mem_append.mp htarget with hdone | hlast
      · exact absurd (h.closed target hdone cell hcell) hold
      · obtain rfl := List.mem_singleton.mp hlast
        exact hcell

/-- A search goes on until no cell waits. -/
theorem run (h : Underway graph changed done search) (steps : Nat) :
    ∃ done', Underway graph changed done' (run graph steps search) ∧
      ((Search.run graph steps search).worklist = [] ∨ done'.length = done.length + steps) := by
  induction steps generalizing done search with
  | zero => exact ⟨done, h, .inr rfl⟩
  | succ steps ih =>
      rw [Search.run]
      cases hworklist : search.worklist with
      | nil =>
          rw [step_of_worklist_eq_nil hworklist, run_of_worklist_eq_nil hworklist]
          exact ⟨done, h, .inl hworklist⟩
      | cons taken rest =>
          obtain ⟨done', hlater, hend⟩ := ih (h.step hworklist)
          refine ⟨done', hlater, hend.imp_right fun hlength => ?_⟩
          rw [hlength, List.length_append, List.length_singleton]
          omega

end Underway

/-- With more steps than there are formulas, a search comes to its end. -/
theorem worklist_run_eq_nil {refers : Cell → Cell → Prop} (hgraph : graph.Mirrors refers)
    {steps : Nat} (hsteps : graph.size < steps) :
    (run graph steps (start changed)).worklist = [] := by
  obtain ⟨done, hlast, hend | hlength⟩ := (underway_start graph changed).run steps
  · exact hend
  · -- more cells would be done than there are in the line
    have hkeys : (run graph steps (start changed)).found ⊆ graph.references.keys := by
      intro cell hcell
      obtain ⟨target, hdepends, -⟩ := Relation.TransGen.head'_iff.mp (hlast.depends cell hcell)
      exact Std.ExtTreeMap.mem_keys.mpr
        (hgraph.mem_references_of_refers (hgraph.mem_dependentsOf.mp hdepends))
    have hfound : (run graph steps (start changed)).found.length ≤ graph.size := by
      rw [size, ← Std.ExtTreeMap.length_keys]
      exact ((List.nodup_cons.mp hlast.nodup).2.subperm hkeys).length_le
    have hline := congrArg List.length hlast.line
    rw [List.length_cons, List.length_append, hlength, List.length_nil] at hline
    exact List.eq_nil_of_length_eq_zero (by omega)

end Search

open Search

theorem nodup_affected (graph : DependencyGraph) (changed : Cell) :
    (graph.affected changed).Nodup := by
  obtain ⟨done, hlast, -⟩ := (underway_start graph changed).run (graph.size + 1)
  exact (List.nodup_cons.mp hlast.nodup).2

theorem Mirrors.mem_dependentsOf_eq {graph : DependencyGraph} {refers : Cell → Cell → Prop}
    (h : graph.Mirrors refers) : (fun cell target => cell ∈ graph.dependentsOf target) = refers := by
  funext cell target
  exact propext h.mem_dependentsOf

/-- The cells that a change affects are the others from which references lead to it. -/
theorem Mirrors.mem_affected_iff {graph : DependencyGraph} {refers : Cell → Cell → Prop}
    (h : graph.Mirrors refers) {changed cell : Cell} :
    cell ∈ graph.affected changed ↔ cell ≠ changed ∧ Relation.TransGen refers cell changed := by
  obtain ⟨done, hlast, -⟩ := (underway_start graph changed).run (graph.size + 1)
  constructor
  · intro hcell
    have hbelow := hlast.depends cell hcell
    rw [h.mem_dependentsOf_eq] at hbelow
    refine ⟨?_, hbelow⟩
    rintro rfl
    exact (List.nodup_cons.mp hlast.nodup).1 hcell
  · rintro ⟨hne, hbelow⟩
    have hdone : changed :: graph.affected changed = done := by
      have hline := hlast.line
      rwa [worklist_run_eq_nil h (Nat.lt_succ_self _), List.append_nil] at hline
    have hclosed : ∀ target ∈ changed :: graph.affected changed, ∀ cell, refers cell target →
        cell ∈ changed :: graph.affected changed := by
      intro target htarget cell href
      rw [hdone] at htarget
      exact hlast.closed target htarget cell (h.mem_dependentsOf.mpr href)
    have hfound : ∀ cell, Relation.TransGen refers cell changed →
        cell ∈ changed :: graph.affected changed := by
      intro cell hbelow
      induction hbelow using Relation.TransGen.head_induction_on with
      | single href => exact hclosed changed List.mem_cons_self _ href
      | head href _ ih => exact hclosed _ ih _ href
    exact (List.mem_cons.mp (hfound cell hbelow)).resolve_left hne

end DependencyGraph

end Spreadsheet
