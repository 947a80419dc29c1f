import Mathlib.Data.Set.Card
import Spreadsheet.Proofs.Graph.Mirror

/-!
# What a graph keeps of its history

However often cells are written, a graph holds no more than the references in the texts last given.
-/

namespace Spreadsheet.DependencyGraph

inductive Change where
  | write (cell : Cell) (text : String)
  | clear

def apply (graph : DependencyGraph) : Change → DependencyGraph
  | .write cell text => graph.write cell text
  | .clear => graph.clear

def ofChanges (changes : List Change) : DependencyGraph :=
  changes.foldl apply empty

/-- The text last given for a cell since the last clear, if there is one. Here the last call comes
first. -/
def lastText? (cell : Cell) : List Change → Option String
  | [] | .clear :: _ => none
  | .write written text :: earlier => if written = cell then some text else lastText? cell earlier

def lastTexts (changes : List Change) (cell : Cell) : String :=
  (lastText? cell changes.reverse).getD ""

theorem ofChanges_append (changes : List Change) (change : Change) :
    ofChanges (changes ++ [change]) = (ofChanges changes).apply change := by
  rw [ofChanges, List.foldl_append]
  rfl

theorem lastTexts_append_write (changes : List Change) (cell : Cell) (text : String) :
    lastTexts (changes ++ [.write cell text]) =
      Function.update (lastTexts changes) cell text := by
  funext other
  rw [lastTexts, List.reverse_append, List.reverse_singleton, List.singleton_append, lastText?,
    Function.update_apply]
  by_cases hcell : cell = other
  · simp [hcell]
  · simp [hcell, Ne.symm hcell, lastTexts]

theorem lastTexts_append_clear (changes : List Change) :
    lastTexts (changes ++ [.clear]) = fun _ => "" := by
  funext other
  rw [lastTexts, List.reverse_append, List.reverse_singleton, List.singleton_append, lastText?]
  rfl

theorem mirrors_ofChanges (changes : List Change) :
    (ofChanges changes).Mirrors (Refers (lastTexts changes)) := by
  -- on the last call: the graph was built up to it, and it alone overrides an earlier text
  induction changes using List.reverseRecOn with
  | nil => exact mirrors_empty
  | append_singleton changes change ih =>
      rw [ofChanges_append]
      cases change with
      | write cell text =>
          rw [lastTexts_append_write]
          exact ih.write cell text
      | clear =>
          rw [lastTexts_append_clear]
          exact mirrors_empty

/-! ### What can be read off a graph -/

namespace Mirrors

variable {graph : DependencyGraph} {refers : Cell → Cell → Prop} {raw : Cell → String}

theorem refers_iff_exists_referencesOf? (h : graph.Mirrors refers) {cell target : Cell} :
    refers cell target ↔ ∃ targets, graph.referencesOf? cell = some targets ∧ target ∈ targets := by
  rw [← h.mem_references, referencesOf?]
  cases htargets : graph.references[cell]? with
  | none => simp [listed_of_getElem?_eq_none htargets]
  | some targets => simp [listed_of_getElem?_eq_some htargets]

theorem referencesOf?_eq_some_iff (h : graph.Mirrors (Refers raw)) {cell : Cell}
    {targets : CellSet} :
    graph.referencesOf? cell = some targets ↔
      Formula.dependencies (raw cell) = targets ∧ targets ≠ ∅ := by
  have hlisted : listed graph.references cell = Formula.dependencies (raw cell) :=
    Std.ExtTreeSet.ext_mem fun target => h.mem_references cell target
  rw [← hlisted, referencesOf?]
  constructor
  · intro htargets
    refine ⟨listed_of_getElem?_eq_some htargets, ?_⟩
    rintro rfl
    exact h.full_references cell htargets
  · rintro ⟨rfl, hne⟩
    cases htargets : graph.references[cell]? with
    | none => exact absurd (listed_of_getElem?_eq_none htargets) hne
    | some targets => rw [listed_of_getElem?_eq_some htargets]

end Mirrors

theorem dependencies_eq_iff {text? : Option String} {targets : CellSet} (hne : targets ≠ ∅) :
    Formula.dependencies (text?.getD "") = targets ↔
      ∃ text body, text? = some text ∧ Formula.body? text = some body ∧
        Formula.referencedCells body = targets := by
  cases text? with
  | none => simp [Formula.dependencies, Formula.body?, Ne.symm hne]
  | some text =>
      rw [Option.getD_some, Formula.dependencies]
      cases hbody : Formula.body? text with
      | none => simp [hbody, Ne.symm hne]
      | some body => simp [hbody]

theorem pairwise_dependentsOf (graph : DependencyGraph) (target : Cell) :
    (graph.dependentsOf target).Pairwise Cell.IsBefore := by
  unfold dependentsOf
  cases graph.dependents[target]? with
  | none => exact List.Pairwise.nil
  | some cells => exact cells.ordered_toList.imp Cell.compare_eq_lt_iff.mp

theorem encard_referencesOf? (graph : DependencyGraph) :
    {cell | (graph.referencesOf? cell).isSome}.encard = graph.size := by
  have hkeys : {cell | (graph.referencesOf? cell).isSome} =
      (graph.references.keys.toFinset : Set Cell) := by
    ext cell
    simp [referencesOf?]
  have hnodup : graph.references.keys.Nodup :=
    graph.references.distinct_keys.imp fun hcompare heq => hcompare (by simp [heq])
  calc {cell | (graph.referencesOf? cell).isSome}.encard
      = graph.references.keys.toFinset.card := by rw [hkeys, Set.encard_coe_eq_coe_finsetCard]
    _ = graph.references.keys.length := by rw [List.toFinset_card_of_nodup hnodup]
    _ = graph.size := by rw [Std.ExtTreeMap.length_keys, size]

/-- A graph holds, from both ends and row by row, what the texts last given refer to, and nothing
else of its history. -/
theorem ofChanges_reflects_last_texts (changes : List Change) :
    let graph := ofChanges changes
    (∀ cell targets, graph.referencesOf? cell = some targets ↔
      targets ≠ ∅ ∧ ∃ text body, lastText? cell changes.reverse = some text ∧
        Formula.body? text = some body ∧ Formula.referencedCells body = targets) ∧
    (∀ target, (graph.dependentsOf target).Pairwise Cell.IsBefore ∧
      (graph.dependentsOf target).Nodup ∧
      ∀ cell, cell ∈ graph.dependentsOf target ↔
        ∃ targets, graph.referencesOf? cell = some targets ∧ target ∈ targets) ∧
    {cell | (graph.referencesOf? cell).isSome}.encard = graph.size ∧
    Full graph.references ∧ Full graph.dependents ∧
    ∀ others, (∀ cell, lastText? cell others.reverse = lastText? cell changes.reverse) →
      ofChanges others = graph := by
  intro graph
  have hgraph : graph.Mirrors (Refers (lastTexts changes)) := mirrors_ofChanges changes
  refine ⟨?_, ?_, graph.encard_referencesOf?, hgraph.full_references, hgraph.full_dependents, ?_⟩
  · intro cell targets
    rw [hgraph.referencesOf?_eq_some_iff, and_comm]
    exact and_congr_right fun hne => dependencies_eq_iff hne
  · intro target
    refine ⟨graph.pairwise_dependentsOf target, graph.nodup_dependentsOf target, fun cell => ?_⟩
    rw [hgraph.mem_dependentsOf, hgraph.refers_iff_exists_referencesOf?]
  · intro others hsame
    have htexts : lastTexts others = lastTexts changes := by
      funext cell
      rw [lastTexts, hsame, lastTexts]
    have hothers := mirrors_ofChanges others
    rw [htexts] at hothers
    exact hothers.eq hgraph

end Spreadsheet.DependencyGraph
