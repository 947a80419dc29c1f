import Mathlib.Order.Lattice.Nat
import Spreadsheet.Proofs.Graph.Affected
import Spreadsheet.Proofs.Graph.History

/-!
# Nearest first

A search meets the cells that depend on a changed one in the order of how many references in a row
lead to it. All along, the cells that wait are as far away as the first of them, or one reference
farther and then behind those; and no cell that is as near as the first was overlooked.
-/

namespace Spreadsheet

namespace DependencyGraph

def Edge (graph : DependencyGraph) (cell target : Cell) : Prop :=
  ∃ targets, graph.referencesOf? cell = some targets ∧ target ∈ targets

def LeadsIn (graph : DependencyGraph) : Nat → Cell → Cell → Prop
  | 0, cell, target => cell = target
  | steps + 1, cell, target => ∃ next, graph.Edge cell next ∧ graph.LeadsIn steps next target

noncomputable def distance (graph : DependencyGraph) (cell target : Cell) : Nat :=
  sInf {steps | graph.LeadsIn steps cell target}

theorem Mirrors.edge_iff {graph : DependencyGraph} {refers : Cell → Cell → Prop}
    (h : graph.Mirrors refers) {cell target : Cell} : graph.Edge cell target ↔ refers cell target :=
  h.refers_iff_exists_referencesOf?.symm

theorem mirrors_edge (changes : List Change) :
    (ofChanges changes).Mirrors (ofChanges changes).Edge :=
  (mirrors_ofChanges changes).congr fun _ _ => (mirrors_ofChanges changes).edge_iff.symm

section Distance

variable {graph : DependencyGraph} {cell next target : Cell} {steps : Nat}

theorem exists_leadsIn_iff :
    (∃ steps, graph.LeadsIn steps cell target) ↔ Relation.ReflTransGen graph.Edge cell target := by
  constructor
  · rintro ⟨steps, h⟩
    induction steps generalizing cell with
    | zero =>
        obtain rfl : cell = target := h
        exact .refl
    | succ steps ih =>
        obtain ⟨next, hedge, hnext⟩ := h
        exact .head hedge (ih hnext)
  · intro h
    induction h using Relation.ReflTransGen.head_induction_on with
    | refl => exact ⟨0, rfl⟩
    | head hedge _ ih =>
        obtain ⟨steps, hnext⟩ := ih
        exact ⟨steps + 1, _, hedge, hnext⟩

theorem distance_le (h : graph.LeadsIn steps cell target) : graph.distance cell target ≤ steps :=
  Nat.sInf_le h

theorem leadsIn_distance (h : Relation.ReflTransGen graph.Edge cell target) :
    graph.LeadsIn (graph.distance cell target) cell target :=
  Nat.sInf_mem (exists_leadsIn_iff.mpr h)

theorem distance_self (cell : Cell) : graph.distance cell cell = 0 :=
  Nat.le_zero.mp (distance_le (show graph.LeadsIn 0 cell cell from rfl))

theorem distance_le_succ (hedge : graph.Edge cell next)
    (h : Relation.ReflTransGen graph.Edge next target) :
    graph.distance cell target ≤ graph.distance next target + 1 :=
  distance_le ⟨next, hedge, leadsIn_distance h⟩

/-- The first of the fewest references comes one nearer. -/
theorem exists_nearer (h : Relation.ReflTransGen graph.Edge cell target)
    (hdistance : graph.distance cell target = steps + 1) :
    ∃ next, graph.Edge cell next ∧ Relation.ReflTransGen graph.Edge next target ∧
      graph.distance next target ≤ steps := by
  have hleads := leadsIn_distance h
  rw [hdistance] at hleads
  obtain ⟨next, hedge, hnext⟩ := hleads
  exact ⟨next, hedge, exists_leadsIn_iff.mp ⟨steps, hnext⟩, distance_le hnext⟩

end Distance

namespace Search

variable {graph : DependencyGraph} {changed cell taken : Cell} {done near far : List Cell}
  {level : Nat} {search : Search}

/-- The cells that wait are `level` references away, or one more and then behind the others. The
line is in order of distance, and no cell up to that level is missing from it. -/
structure Layered (graph : DependencyGraph) (changed : Cell) (search : Search)
    (near far : List Cell) (level : Nat) : Prop where
  worklist : search.worklist = near ++ far
  distance_near : ∀ cell ∈ near, graph.distance cell changed = level
  distance_far : ∀ cell ∈ far, graph.distance cell changed = level + 1
  distance_le : ∀ cell ∈ changed :: search.found, graph.distance cell changed ≤ level + 1
  sorted : (changed :: search.found).Pairwise fun nearer farther =>
    graph.distance nearer changed ≤ graph.distance farther changed
  complete : ∀ cell, Relation.ReflTransGen graph.Edge cell changed →
    graph.distance cell changed ≤ level → cell ∈ changed :: search.found

theorem layered_start (graph : DependencyGraph) (changed : Cell) :
    Layered graph changed (start changed) [changed] [] 0 where
  worklist := rfl
  distance_near := by simp [distance_self]
  distance_far := by simp
  distance_le := by simp [start, distance_self]
  sorted := List.pairwise_singleton _ _
  complete := by
    intro cell hreach hdistance
    have hleads := leadsIn_distance hreach
    rw [Nat.le_zero.mp hdistance] at hleads
    obtain rfl : cell = changed := hleads
    exact List.mem_cons_self

namespace Layered

variable (hgraph : graph.Mirrors graph.Edge)

include hgraph

/-- When the last cell of a level is done, the next level is complete: each cell of it refers to one
of those done. -/
theorem next (h : Layered graph changed search [] far level)
    (hline : Underway graph changed done search) :
    Layered graph changed search far [] (level + 1) where
  worklist := by rw [h.worklist, List.append_nil, List.nil_append]
  distance_near := h.distance_far
  distance_far := by simp
  distance_le := fun cell hcell => Nat.le_succ_of_le (h.distance_le cell hcell)
  sorted := h.sorted
  complete := by
    intro cell hreach hdistance
    rcases Nat.le_or_eq_of_le_succ hdistance with hless | hlevel
    · exact h.complete cell hreach hless
    · obtain ⟨next, hedge, hnext, hnear⟩ := exists_nearer hreach hlevel
      have hseen : next ∈ done ++ far := by
        have hmem := h.complete next hnext hnear
        rwa [hline.line, h.worklist] at hmem
      have hdone : next ∈ done := by
        refine (List.mem_append.mp hseen).resolve_right fun hfar => ?_
        have := h.distance_far next hfar
        omega
      exact hline.closed next hdone cell (hgraph.mem_dependentsOf.mpr hedge)

/-- What a cell finds is one reference farther away than it. -/
theorem distance_new (h : Layered graph changed search (taken :: near) far level)
    (hline : Underway graph changed done search) (hcell : cell ∈ search.new graph taken) :
    graph.distance cell changed = level + 1 := by
  obtain ⟨hdependent, hunseen⟩ := hline.mem_new.mp hcell
  have hedge : graph.Edge cell taken := hgraph.mem_dependentsOf.mp hdependent
  have htaken : Relation.ReflTransGen graph.Edge taken changed := by
    rw [← hgraph.mem_dependentsOf_eq]
    apply hline.reaches
    rw [hline.line, h.worklist]
    simp
  have hle := distance_le_succ hedge htaken
  rw [h.distance_near taken List.mem_cons_self] at hle
  -- any nearer, and the cell would be in the line already
  have hgt : ¬ graph.distance cell changed ≤ level :=
    fun hnear => hunseen (h.complete cell (.head hedge htaken) hnear)
  omega

theorem step (h : Layered graph changed search (taken :: near) far level)
    (hline : Underway graph changed done search) :
    Layered graph changed (search.step graph) near (far ++ search.new graph taken) level := by
  have hnew : ∀ cell ∈ search.new graph taken, graph.distance cell changed = level + 1 :=
    fun cell => h.distance_new hgraph hline
  rw [step_of_worklist_eq_cons h.worklist]
  constructor
  · exact List.append_assoc _ _ _
  · exact fun cell hcell => h.distance_near cell (List.mem_cons_of_mem taken hcell)
  · intro cell hcell
    exact (List.mem_append.mp hcell).elim (h.distance_far cell) (hnew cell)
  · intro cell hcell
    rw [← List.cons_append, List.mem_append] at hcell
    exact hcell.elim (h.distance_le cell) fun hcell => (hnew cell hcell).le
  · rw [← List.cons_append, List.pairwise_append]
    refine ⟨h.sorted, ?_, ?_⟩
    · exact List.pairwise_of_forall_mem_list fun cell hcell other hother =>
        ((hnew cell hcell).trans (hnew other hother).symm).le
    · intro cell hcell other hother
      rw [hnew other hother]
      exact h.distance_le cell hcell
  · intro cell hreach hnear
    exact List.mem_append_left _ (h.complete cell hreach hnear)

theorem run (h : Layered graph changed search near far level)
    (hline : Underway graph changed done search) (steps : Nat) :
    ∃ near far level, Layered graph changed (run graph steps search) near far level := by
  induction steps generalizing done search near far level with
  | zero => exact ⟨near, far, level, h⟩
  | succ steps ih =>
      rw [Search.run]
      cases near with
      | cons taken near => exact ih (h.step hgraph hline) (hline.step h.worklist)
      | nil =>
          cases far with
          | nil =>
              have hend : search.worklist = [] := h.worklist
              rw [step_of_worklist_eq_nil hend]
              exact ih h hline
          | cons taken far =>
              have hnext := h.next hgraph hline
              exact ih (hnext.step hgraph hline) (hline.step hnext.worklist)

end Layered

/-- A search that has come to its end finds nothing more. -/
theorem run_eq_of_size_lt (hgraph : graph.Mirrors graph.Edge) {steps : Nat}
    (hsteps : graph.size < steps) :
    run graph steps (start changed) = run graph (graph.size + 1) (start changed) := by
  obtain ⟨more, rfl⟩ := Nat.exists_eq_add_of_le hsteps
  rw [run_add, run_of_worklist_eq_nil (worklist_run_eq_nil hgraph (Nat.lt_succ_self _))]

end Search

end DependencyGraph

open DependencyGraph

/-- The search for what a change affects comes to its end by itself. It finds the other cells from
which references lead to the changed cell, each once, nearest first. -/
theorem affected_nearest_first (changes : List Change) (changed : Cell) :
    let graph := ofChanges changes
    let affected := graph.affected changed
    (∀ steps, graph.size < steps →
      ((Search.start changed).run graph steps).worklist = [] ∧
        ((Search.start changed).run graph steps).found = affected) ∧
    affected.Nodup ∧
    (∀ cell, cell ∈ affected ↔ cell ≠ changed ∧ Relation.TransGen graph.Edge cell changed) ∧
    affected.Pairwise fun nearer farther =>
      graph.distance nearer changed ≤ graph.distance farther changed := by
  intro graph affected
  have hgraph : graph.Mirrors graph.Edge := mirrors_edge changes
  refine ⟨?_, graph.nodup_affected changed, fun cell => hgraph.mem_affected_iff, ?_⟩
  · intro steps hsteps
    exact ⟨Search.worklist_run_eq_nil hgraph hsteps,
      congrArg Search.found (Search.run_eq_of_size_lt hgraph hsteps)⟩
  · obtain ⟨near, far, level, hlast⟩ := (Search.layered_start graph changed).run hgraph
      (Search.underway_start graph changed) (graph.size + 1)
    exact (List.pairwise_cons.mp hlast.sorted).2

/-- `B1` and `D1` name `A1`, and `C1` names `B1`. -/
example :
    (ofChanges [.write { row := 0, col := 1 } "=A1", .write { row := 0, col := 2 } "=B1",
      .write { row := 0, col := 3 } "=A1"]).affected { row := 0, col := 0 } =
      [{ row := 0, col := 1 }, { row := 0, col := 3 }, { row := 0, col := 2 }] := by
  decide +kernel

end Spreadsheet
