import Mathlib.Logic.Function.Basic
import Spreadsheet.Graph
import Spreadsheet.Proofs.References

/-!
# A graph mirrors the references

Both indexes of a dependency graph say the same, each from its own end: which cell refers to which.
A graph is fixed by the relation that it mirrors, and a write changes what is mirrored as it changes
the raw texts.
-/

namespace Spreadsheet

theorem refers_update {raw : Cell → String} {changed cell target : Cell} {text : String} :
    Refers (Function.update raw changed text) cell target ↔
      cell ≠ changed ∧ Refers raw cell target ∨
        cell = changed ∧ target ∈ Formula.dependencies text := by
  unfold Refers
  by_cases hcell : cell = changed
  · simp [hcell]
  · simp [hcell]

namespace DependencyGraph

/-! ### Indexes -/

def listed (index : CellMap CellSet) (cell : Cell) : CellSet :=
  index.getD cell ∅

def Full (index : CellMap CellSet) : Prop :=
  ∀ cell : Cell, index[cell]? ≠ some ∅

theorem listed_of_getElem?_eq_none {index : CellMap CellSet} {cell : Cell}
    (h : index[cell]? = none) : listed index cell = ∅ := by
  rw [listed, Std.ExtTreeMap.getD_eq_getD_getElem?, h, Option.getD_none]

theorem listed_of_getElem?_eq_some {index : CellMap CellSet} {cell : Cell} {cells : CellSet}
    (h : index[cell]? = some cells) : listed index cell = cells := by
  rw [listed, Std.ExtTreeMap.getD_eq_getD_getElem?, h, Option.getD_some]

theorem Full.getElem?_eq_none_iff {index : CellMap CellSet} (h : Full index) {cell : Cell} :
    index[cell]? = none ↔ listed index cell = ∅ := by
  constructor
  · exact listed_of_getElem?_eq_none
  · intro hempty
    cases hcells : index[cell]? with
    | none => rfl
    | some cells =>
        rw [listed_of_getElem?_eq_some hcells] at hempty
        exact absurd (hempty ▸ hcells) (h cell)

/-- Two indexes without empty sets that list the same cells are equal. -/
theorem Full.eq_of_listed {left right : CellMap CellSet} (hleft : Full left) (hright : Full right)
    (h : ∀ cell, listed left cell = listed right cell) : left = right := by
  apply Std.ExtTreeMap.ext_getElem?
  intro cell
  cases hcells : left[cell]? with
  | none =>
      rw [hleft.getElem?_eq_none_iff, h] at hcells
      exact (hright.getElem?_eq_none_iff.mpr hcells).symm
  | some cells =>
      cases hothers : right[cell]? with
      | none =>
          rw [hright.getElem?_eq_none_iff, ← h, listed_of_getElem?_eq_some hcells] at hothers
          exact absurd (hothers ▸ hcells) (hleft cell)
      | some others =>
          rw [← listed_of_getElem?_eq_some hcells, ← listed_of_getElem?_eq_some hothers, h]

theorem full_empty : Full ∅ := by
  intro cell
  simp

section Alter

variable {index : CellMap CellSet} (cell target : Cell)

theorem mem_listed_withDependent {dependent other : Cell} :
    dependent ∈ listed (withDependent cell index target) other ↔
      dependent ∈ listed index other ∨ dependent = cell ∧ other = target := by
  unfold withDependent listed
  rw [Std.ExtTreeMap.getD_eq_getD_getElem?, Std.ExtTreeMap.getD_eq_getD_getElem?,
    Std.ExtTreeMap.getElem?_alter]
  by_cases hother : target = other
  · subst hother
    cases index[target]? <;> simp [eq_comm (a := dependent), or_comm]
  · simp [hother, Ne.symm hother]

theorem full_withDependent (h : Full index) : Full (withDependent cell index target) := by
  intro other
  unfold withDependent
  rw [Std.ExtTreeMap.getElem?_alter]
  by_cases hother : target = other
  · subst hother
    cases index[target]? <;> simp
  · simpa [hother] using h other

theorem mem_listed_withoutDependent {dependent other : Cell} :
    dependent ∈ listed (withoutDependent cell index target) other ↔
      dependent ∈ listed index other ∧ ¬ (dependent = cell ∧ other = target) := by
  unfold withoutDependent listed
  rw [Std.ExtTreeMap.getD_eq_getD_getElem?, Std.ExtTreeMap.getD_eq_getD_getElem?,
    Std.ExtTreeMap.getElem?_alter]
  by_cases hother : target = other
  · subst hother
    cases hcells : index[target]? with
    | none => simp
    | some cells =>
        by_cases hempty : (cells.erase cell).isEmpty
        · have hnone : dependent ∉ cells.erase cell := by
            rw [Std.ExtTreeSet.isEmpty_iff.mp hempty]
            simp
          simpa [hempty, eq_comm (a := dependent), and_comm] using hnone
        · simp [hempty, eq_comm (a := dependent), and_comm]
  · simp [hother, Ne.symm hother]

theorem full_withoutDependent (h : Full index) : Full (withoutDependent cell index target) := by
  intro other
  unfold withoutDependent
  rw [Std.ExtTreeMap.getElem?_alter]
  by_cases hother : target = other
  · subst hother
    cases hcells : index[target]? with
    | none => simp
    | some cells =>
        by_cases hempty : (cells.erase cell).isEmpty
        · simp [hempty]
        · rw [Std.ExtTreeSet.isEmpty_iff] at hempty
          simp [hempty]
  · simpa [hother] using h other

variable (targets : List Cell)

theorem mem_listed_foldl_withDependent {dependent other : Cell} :
    dependent ∈ listed (targets.foldl (withDependent cell) index) other ↔
      dependent ∈ listed index other ∨ dependent = cell ∧ other ∈ targets := by
  induction targets generalizing index with
  | nil => simp
  | cons target targets ih =>
      rw [List.foldl_cons, ih, mem_listed_withDependent, List.mem_cons]
      tauto

theorem full_foldl_withDependent (h : Full index) :
    Full (targets.foldl (withDependent cell) index) := by
  induction targets generalizing index with
  | nil => exact h
  | cons target targets ih => exact ih (full_withDependent cell target h)

theorem mem_listed_foldl_withoutDependent {dependent other : Cell} :
    dependent ∈ listed (targets.foldl (withoutDependent cell) index) other ↔
      dependent ∈ listed index other ∧ ¬ (dependent = cell ∧ other ∈ targets) := by
  induction targets generalizing index with
  | nil => simp
  | cons target targets ih =>
      rw [List.foldl_cons, ih, mem_listed_withoutDependent, List.mem_cons]
      tauto

theorem full_foldl_withoutDependent (h : Full index) :
    Full (targets.foldl (withoutDependent cell) index) := by
  induction targets generalizing index with
  | nil => exact h
  | cons target targets ih => exact ih (full_withoutDependent cell target h)

end Alter

/-! ### Graphs -/

/-- Both indexes of a graph list a relation between cells, without empty sets. -/
structure Mirrors (graph : DependencyGraph) (refers : Cell → Cell → Prop) : Prop where
  mem_references : ∀ cell target, target ∈ listed graph.references cell ↔ refers cell target
  mem_dependents : ∀ cell target, cell ∈ listed graph.dependents target ↔ refers cell target
  full_references : Full graph.references
  full_dependents : Full graph.dependents

namespace Mirrors

variable {graph other : DependencyGraph} {refers : Cell → Cell → Prop}

theorem empty : DependencyGraph.empty.Mirrors fun _ _ => False where
  mem_references := by simp [DependencyGraph.empty, listed]
  mem_dependents := by simp [DependencyGraph.empty, listed]
  full_references := full_empty
  full_dependents := full_empty

/-- A graph is fixed by what it mirrors. -/
theorem eq (h : graph.Mirrors refers) (hother : other.Mirrors refers) : graph = other := by
  have hreferences : graph.references = other.references :=
    h.full_references.eq_of_listed hother.full_references fun cell =>
      Std.ExtTreeSet.ext_mem fun target =>
        (h.mem_references cell target).trans (hother.mem_references cell target).symm
  have hdependents : graph.dependents = other.dependents :=
    h.full_dependents.eq_of_listed hother.full_dependents fun target =>
      Std.ExtTreeSet.ext_mem fun cell =>
        (h.mem_dependents cell target).trans (hother.mem_dependents cell target).symm
  obtain ⟨references, dependents⟩ := graph
  obtain ⟨references', dependents'⟩ := other
  obtain rfl : references = references' := hreferences
  obtain rfl : dependents = dependents' := hdependents
  rfl

theorem congr (h : graph.Mirrors refers) {refers' : Cell → Cell → Prop}
    (hiff : ∀ cell target, refers cell target ↔ refers' cell target) : graph.Mirrors refers' where
  mem_references cell target := (h.mem_references cell target).trans (hiff cell target)
  mem_dependents cell target := (h.mem_dependents cell target).trans (hiff cell target)
  full_references := h.full_references
  full_dependents := h.full_dependents

theorem forget (h : graph.Mirrors refers) (changed : Cell) :
    (graph.forget changed).Mirrors fun cell target => cell ≠ changed ∧ refers cell target := by
  unfold DependencyGraph.forget
  cases hcells : graph.references[changed]? with
  | none =>
      have hnone : ∀ target, ¬ refers changed target := by
        intro target href
        rw [← h.mem_references, listed_of_getElem?_eq_none hcells] at href
        simp at href
      refine h.congr fun cell target => ⟨fun href => ⟨?_, href⟩, And.right⟩
      rintro rfl
      exact hnone target href
  | some targets =>
      have htargets : ∀ target, target ∈ targets ↔ refers changed target := by
        intro target
        rw [← h.mem_references, listed_of_getElem?_eq_some hcells]
      constructor
      · intro cell target
        rw [← h.mem_references]
        unfold listed
        rw [Std.ExtTreeMap.getD_erase]
        by_cases hcell : changed = cell
        · simp [hcell]
        · simp [hcell, Ne.symm hcell]
      · intro cell target
        rw [mem_listed_foldl_withoutDependent, h.mem_dependents, Std.ExtTreeSet.mem_toList,
          htargets]
        constructor
        · rintro ⟨href, hother⟩
          refine ⟨?_, href⟩
          rintro rfl
          exact hother ⟨rfl, href⟩
        · rintro ⟨hcell, href⟩
          exact ⟨href, fun hboth => hcell hboth.1⟩
      · intro cell
        rw [Std.ExtTreeMap.getElem?_erase]
        by_cases hcell : changed = cell
        · simp [hcell]
        · simpa [hcell] using h.full_references cell
      · exact full_foldl_withoutDependent changed targets.toList h.full_dependents

theorem record (h : graph.Mirrors refers) {changed : Cell}
    (hnone : ∀ target, ¬ refers changed target) (targets : CellSet) :
    (graph.record changed targets).Mirrors fun cell target =>
      refers cell target ∨ cell = changed ∧ target ∈ targets := by
  unfold DependencyGraph.record
  by_cases hempty : targets.isEmpty
  · rw [if_pos hempty]
    rw [Std.ExtTreeSet.isEmpty_iff] at hempty
    exact h.congr fun cell target => by simp [hempty]
  · rw [if_neg hempty]
    rw [Std.ExtTreeSet.isEmpty_iff] at hempty
    constructor
    · intro cell target
      unfold listed
      rw [Std.ExtTreeMap.getD_insert]
      by_cases hcell : changed = cell
      · subst hcell
        simp [hnone]
      · have hsame := h.mem_references cell target
        unfold listed at hsame
        simpa [hcell, Ne.symm hcell] using hsame
    · intro cell target
      rw [mem_listed_foldl_withDependent, h.mem_dependents, Std.ExtTreeSet.mem_toList]
    · intro cell
      rw [Std.ExtTreeMap.getElem?_insert]
      by_cases hcell : changed = cell
      · simpa [hcell] using hempty
      · simpa [hcell] using h.full_references cell
    · exact full_foldl_withDependent changed targets.toList h.full_dependents

/-- Writing a cell replaces what it refers to. -/
theorem write {raw : Cell → String} (h : graph.Mirrors (Refers raw)) (changed : Cell)
    (text : String) :
    (graph.write changed text).Mirrors (Refers (Function.update raw changed text)) := by
  have hforgotten := h.forget changed
  exact (hforgotten.record (by simp) _).congr fun cell target => refers_update.symm

theorem mem_dependentsOf (h : graph.Mirrors refers) {cell target : Cell} :
    cell ∈ graph.dependentsOf target ↔ refers cell target := by
  rw [← h.mem_dependents]
  unfold dependentsOf
  cases hcells : graph.dependents[target]? with
  | none => simp [listed_of_getElem?_eq_none hcells]
  | some cells => simp [listed_of_getElem?_eq_some hcells]

theorem mem_references_of_refers (h : graph.Mirrors refers) {cell target : Cell}
    (href : refers cell target) : cell ∈ graph.references := by
  rw [← h.mem_references] at href
  by_contra hcell
  rw [listed_of_getElem?_eq_none (by simpa using hcell)] at href
  simp at href

end Mirrors

theorem nodup_toList (cells : CellSet) : cells.toList.Nodup :=
  cells.distinct_toList.imp fun hcompare heq => hcompare (by simp [heq])

theorem nodup_dependentsOf (graph : DependencyGraph) (cell : Cell) :
    (graph.dependentsOf cell).Nodup := by
  unfold dependentsOf
  cases graph.dependents[cell]? with
  | none => exact List.nodup_nil
  | some cells => exact nodup_toList cells

/-! ### Many writes -/

def overwrite (raw : Cell → String) (writes : List (Cell × String)) : Cell → String :=
  writes.foldl (fun raw (cell, text) => Function.update raw cell text) raw

theorem overwrite_cons (raw : Cell → String) (cell : Cell) (text : String)
    (writes : List (Cell × String)) :
    overwrite raw ((cell, text) :: writes) = overwrite (Function.update raw cell text) writes :=
  rfl

theorem overwrite_of_not_mem {raw : Cell → String} {writes : List (Cell × String)} {cell : Cell}
    (h : cell ∉ writes.map Prod.fst) : overwrite raw writes cell = raw cell := by
  induction writes generalizing raw with
  | nil => rfl
  | cons write writes ih =>
      obtain ⟨written, text⟩ := write
      rw [List.map_cons, List.mem_cons, not_or] at h
      rw [overwrite_cons, ih h.2, Function.update_of_ne h.1]

theorem overwrite_of_mem {raw : Cell → String} {writes : List (Cell × String)} {cell : Cell}
    {text : String} (hnodup : (writes.map Prod.fst).Nodup) (h : (cell, text) ∈ writes) :
    overwrite raw writes cell = text := by
  induction writes generalizing raw with
  | nil => cases h
  | cons write writes ih =>
      obtain ⟨hfresh, hrest⟩ := List.nodup_cons.mp hnodup
      rcases List.mem_cons.mp h with rfl | hmem
      · rw [overwrite_cons, overwrite_of_not_mem hfresh, Function.update_self]
      · obtain ⟨written, other⟩ := write
        exact ih hrest hmem

theorem Mirrors.overwrite {graph : DependencyGraph} {raw : Cell → String}
    (h : graph.Mirrors (Refers raw)) (writes : List (Cell × String)) :
    (writes.foldl (fun graph (cell, text) => graph.write cell text) graph).Mirrors
      (Refers (overwrite raw writes)) := by
  induction writes generalizing graph raw with
  | nil => exact h
  | cons write writes ih => exact ih (h.write write.1 write.2)

theorem mirrors_empty : DependencyGraph.empty.Mirrors (Refers fun _ => "") :=
  Mirrors.empty.congr fun cell target => by simp [Refers, Formula.dependencies, Formula.body?]

theorem mirrors_ofCells {raw : Cell → String} {cells : List (Cell × String)}
    (hnodup : (cells.map Prod.fst).Nodup)
    (hcells : ∀ cell text, (cell, text) ∈ cells ↔ raw cell = text ∧ text ≠ "") :
    (ofCells cells).Mirrors (Refers raw) := by
  have hraw : DependencyGraph.overwrite (fun _ => "") cells = raw := by
    funext cell
    by_cases htext : raw cell = ""
    · rw [overwrite_of_not_mem, htext]
      intro hmem
      obtain ⟨⟨cell, text⟩, hcell, rfl⟩ := List.mem_map.mp hmem
      obtain ⟨rfl, hne⟩ := (hcells cell text).mp hcell
      exact hne htext
    · exact overwrite_of_mem hnodup ((hcells cell (raw cell)).mpr ⟨rfl, htext⟩)
  rw [← hraw]
  exact mirrors_empty.overwrite cells

end DependencyGraph

end Spreadsheet
