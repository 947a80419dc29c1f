import Mathlib.Data.Finset.Card
import Mathlib.Data.List.Perm.Subperm
import Spreadsheet.Proofs.Graph.Mirror
import Spreadsheet.Recalculation

/-!
# The order of a recalculation

Cells are taken when no input of theirs is left. All along, the count kept for a cell is the number
of its inputs that were not taken yet; a cell is therefore put among the ready ones once, when its
last input is taken.
-/

namespace Spreadsheet.DependencyGraph

variable {graph : DependencyGraph} {members : CellSet} {waiting : CellMap Nat}
  {cells done ready : List Cell}

/-! ### Counting down -/

theorem release_cons_of_none {cell : Cell} {rest : List Cell} (h : waiting[cell]? = none) :
    release waiting (cell :: rest) = release waiting rest := by
  rw [release, h]

theorem release_cons_of_some {cell : Cell} {rest : List Cell} {count : Nat}
    (h : waiting[cell]? = some count) :
    release waiting (cell :: rest) =
      ((release (waiting.insert cell (count - 1)) rest).1,
        if count - 1 = 0 then cell :: (release (waiting.insert cell (count - 1)) rest).2
        else (release (waiting.insert cell (count - 1)) rest).2) := by
  rw [release, h]

theorem getElem?_release (hnodup : cells.Nodup) (cell : Cell) :
    (release waiting cells).1[cell]? =
      if cell ∈ cells then waiting[cell]?.map (· - 1) else waiting[cell]? := by
  induction cells generalizing waiting with
  | nil => simp [release]
  | cons head rest ih =>
      obtain ⟨hhead, hrest⟩ := List.nodup_cons.mp hnodup
      cases hcount : waiting[head]? with
      | none =>
          rw [release_cons_of_none hcount, ih hrest]
          by_cases hcell : cell = head
          · subst hcell
            simp [hhead, hcount]
          · simp [hcell]
      | some count =>
          rw [release_cons_of_some hcount, ih hrest, Std.ExtTreeMap.getElem?_insert]
          by_cases hcell : cell = head
          · subst hcell
            simp [hhead, hcount]
          · simp [hcell, Ne.symm hcell]

theorem release_sublist (waiting : CellMap Nat) (cells : List Cell) :
    (release waiting cells).2.Sublist cells := by
  induction cells generalizing waiting with
  | nil => exact List.Sublist.refl []
  | cons head rest ih =>
      cases hcount : waiting[head]? with
      | none =>
          rw [release_cons_of_none hcount]
          exact (ih waiting).cons head
      | some count =>
          rw [release_cons_of_some hcount]
          split
          · exact (ih _).cons_cons head
          · exact (ih _).cons head

theorem mem_release (hnodup : cells.Nodup) {cell : Cell} :
    cell ∈ (release waiting cells).2 ↔
      cell ∈ cells ∧ ∃ count, waiting[cell]? = some count ∧ count - 1 = 0 := by
  induction cells generalizing waiting with
  | nil => simp [release]
  | cons head rest ih =>
      obtain ⟨hhead, hrest⟩ := List.nodup_cons.mp hnodup
      cases hcount : waiting[head]? with
      | none =>
          rw [release_cons_of_none hcount, ih hrest, List.mem_cons]
          by_cases hcell : cell = head
          · subst hcell
            simp [hhead, hcount]
          · simp [hcell]
      | some count =>
          have hlater : cell ∈ (release (waiting.insert head (count - 1)) rest).2 ↔
              cell ∈ rest ∧ ∃ count, waiting[cell]? = some count ∧ count - 1 = 0 := by
            rw [ih hrest, Std.ExtTreeMap.getElem?_insert]
            by_cases hcell : cell = head
            · simp [hcell, hhead]
            · simp [Ne.symm hcell]
          rw [release_cons_of_some hcount]
          by_cases hcell : cell = head
          · subst hcell
            by_cases hlast : count - 1 = 0
            · simp [hlast, hcount]
            · simp [hlast, hcount, hlater, hhead]
          · rw [List.mem_cons, or_iff_right hcell, ← hlater]
            split
            · rw [List.mem_cons, or_iff_right hcell]
            · rfl

/-! ### Inputs that are left -/

def pending (graph : DependencyGraph) (members : CellSet) (done : List Cell) (cell : Cell) :
    Finset Cell :=
  (listed graph.references cell).toList.toFinset.filter fun target =>
    target ∈ members ∧ target ∉ done

theorem Mirrors.mem_pending {refers : Cell → Cell → Prop} (h : graph.Mirrors refers)
    {cell target : Cell} :
    target ∈ graph.pending members done cell ↔
      refers cell target ∧ target ∈ members ∧ target ∉ done := by
  rw [pending, Finset.mem_filter, List.mem_toFinset, Std.ExtTreeSet.mem_toList, h.mem_references]

theorem pending_append (graph : DependencyGraph) (members : CellSet) (done : List Cell)
    (taken cell : Cell) :
    graph.pending members (done ++ [taken]) cell =
      (graph.pending members done cell).erase taken := by
  ext target
  simp only [pending, Finset.mem_filter, Finset.mem_erase, List.mem_append, List.mem_singleton]
  tauto

theorem inputsAmong_eq (graph : DependencyGraph) (members : CellSet) (cell : Cell) :
    graph.inputsAmong members cell = (graph.pending members [] cell).card := by
  unfold inputsAmong referencesOf? pending
  cases hcells : graph.references[cell]? with
  | none =>
      rw [listed_of_getElem?_eq_none hcells]
      rfl
  | some targets =>
      rw [listed_of_getElem?_eq_some hcells]
      dsimp only
      rw [← List.toFinset_card_of_nodup ((nodup_toList targets).filter _), List.toFinset_filter]
      simp

/-! ### The cells taken -/

/-- The state in which some cells were taken and others are ready: the members that no input holds
up are those, each once, and the counts are those of the inputs left. -/
structure Underway (graph : DependencyGraph) (members : CellSet) (done : List Cell)
    (waiting : CellMap Nat) (ready : List Cell) : Prop where
  nodup : (done ++ ready).Nodup
  mem_iff : ∀ cell, cell ∈ done ++ ready ↔
    cell ∈ members ∧ graph.pending members done cell = ∅
  waiting_eq : ∀ cell, waiting[cell]? =
    if cell ∈ members then some (graph.pending members done cell).card else none

theorem underway_nil {cells : List Cell} (hnodup : cells.Nodup) :
    graph.Underway (Std.ExtTreeSet.ofList cells) []
      (Std.ExtTreeMap.ofList (cells.map fun cell =>
        (cell, graph.inputsAmong (Std.ExtTreeSet.ofList cells) cell)))
      (cells.filter (graph.inputsAmong (Std.ExtTreeSet.ofList cells) · = 0)) where
  nodup := hnodup.filter _
  mem_iff := by
    intro cell
    rw [List.nil_append, List.mem_filter, Std.ExtTreeSet.mem_ofList, List.contains_iff_mem,
      inputsAmong_eq, decide_eq_true_iff, Finset.card_eq_zero]
  waiting_eq := by
    intro cell
    by_cases hcell : cell ∈ cells
    · rw [if_pos (by simpa using hcell), ← inputsAmong_eq]
      refine Std.ExtTreeMap.getElem?_ofList_of_mem Std.compare_self ?_
        (List.mem_map.mpr ⟨cell, hcell, rfl⟩)
      rw [List.pairwise_map]
      exact hnodup.imp fun hne => by simpa using hne
    · rw [if_neg (by simpa using hcell)]
      exact Std.ExtTreeMap.getElem?_ofList_of_contains_eq_false (by simpa using hcell)

namespace Underway

variable {refers : Cell → Cell → Prop} {taken cell : Cell}

theorem mem_pending_taken (h : graph.Underway members done waiting (taken :: ready))
    (hgraph : graph.Mirrors refers) :
    taken ∈ graph.pending members done cell ↔ cell ∈ graph.dependentsOf taken := by
  have hmem : taken ∈ members := ((h.mem_iff taken).mp (by simp)).1
  have hnew : taken ∉ done := fun hdone =>
    List.disjoint_of_nodup_append h.nodup hdone List.mem_cons_self
  rw [hgraph.mem_pending, hgraph.mem_dependentsOf]
  simp [hmem, hnew]

/-- The cells released are the members that only the cell taken held up. -/
theorem mem_release_taken (h : graph.Underway members done waiting (taken :: ready))
    (hgraph : graph.Mirrors refers) :
    cell ∈ (release waiting (graph.dependentsOf taken)).2 ↔
      cell ∈ members ∧ taken ∈ graph.pending members done cell ∧
        graph.pending members (done ++ [taken]) cell = ∅ := by
  rw [mem_release (graph.nodup_dependentsOf taken), h.waiting_eq, ← h.mem_pending_taken hgraph,
    pending_append]
  by_cases hmember : cell ∈ members
  · by_cases htaken : taken ∈ graph.pending members done cell
    · rw [← Finset.card_eq_zero, Finset.card_erase_of_mem htaken]
      simp [hmember, htaken]
    · simp [htaken]
  · simp [hmember]

theorem waiting_eq_release (h : graph.Underway members done waiting (taken :: ready))
    (hgraph : graph.Mirrors refers) (cell : Cell) :
    (release waiting (graph.dependentsOf taken)).1[cell]? =
      if cell ∈ members then some (graph.pending members (done ++ [taken]) cell).card
      else none := by
  rw [getElem?_release (graph.nodup_dependentsOf taken), h.waiting_eq, pending_append]
  by_cases hmember : cell ∈ members
  · by_cases htaken : taken ∈ graph.pending members done cell
    · rw [if_pos ((h.mem_pending_taken hgraph).mp htaken), Finset.card_erase_of_mem htaken]
      simp [hmember]
    · rw [if_neg (mt (h.mem_pending_taken hgraph).mpr htaken), Finset.erase_eq_of_notMem htaken]
  · simp [hmember]

/-- To take a ready cell counts down its dependents and makes those ready that it held up last. -/
theorem take (h : graph.Underway members done waiting (taken :: ready))
    (hgraph : graph.Mirrors refers) :
    graph.Underway members (done ++ [taken]) (release waiting (graph.dependentsOf taken)).1
      (ready ++ (release waiting (graph.dependentsOf taken)).2) := by
  have hlist : (done ++ [taken]) ++ (ready ++ (release waiting (graph.dependentsOf taken)).2) =
      (done ++ taken :: ready) ++ (release waiting (graph.dependentsOf taken)).2 := by simp
  constructor
  · rw [hlist]
    apply h.nodup.append ((release_sublist _ _).nodup (graph.nodup_dependentsOf taken))
    -- what was ready before has no input left, what is released had one: the cell taken
    intro cell hold hreleased
    obtain ⟨-, htaken, -⟩ := (h.mem_release_taken hgraph).mp hreleased
    rw [((h.mem_iff cell).mp hold).2] at htaken
    simp at htaken
  · intro cell
    rw [hlist, List.mem_append, h.mem_iff, h.mem_release_taken hgraph, ← and_or_left,
      pending_append]
    apply and_congr_right
    intro _
    by_cases htaken : taken ∈ graph.pending members done cell
    · constructor
      · rintro (hnone | ⟨-, hlast⟩)
        · rw [hnone] at htaken
          simp at htaken
        · exact hlast
      · exact fun hlast => .inr ⟨htaken, hlast⟩
    · rw [Finset.erase_eq_of_notMem htaken]
      simp [htaken]
  · exact h.waiting_eq_release hgraph

end Underway

/-- Cells are taken until none is ready. -/
theorem Underway.orderFrom {refers : Cell → Cell → Prop} {steps : Nat}
    (h : graph.Underway (Std.ExtTreeSet.ofList cells) done waiting ready)
    (hgraph : graph.Mirrors refers) (hsteps : cells.length ≤ done.length + steps) :
    ∃ waiting', graph.Underway (Std.ExtTreeSet.ofList cells)
      (done ++ graph.orderFrom steps waiting ready) waiting' [] := by
  induction steps generalizing done waiting ready with
  | zero =>
      have hsubset : done ++ ready ⊆ cells := fun cell hcell => by
        simpa using ((h.mem_iff cell).mp hcell).1
      have hlength := (h.nodup.subperm hsubset).length_le
      obtain rfl : ready = [] := by
        rw [List.length_append] at hlength
        exact List.eq_nil_of_length_eq_zero (by omega)
      exact ⟨waiting, by simpa [DependencyGraph.orderFrom] using h⟩
  | succ steps ih =>
      cases ready with
      | nil => exact ⟨waiting, by simpa [DependencyGraph.orderFrom] using h⟩
      | cons taken ready =>
          have hlength : cells.length ≤ (done ++ [taken]).length + steps := by
            rw [List.length_append, List.length_singleton]
            omega
          have hnext := ih (h.take hgraph) hlength
          rw [List.append_assoc] at hnext
          exact hnext

theorem mem_cyclic_iff {cell : Cell} :
    cell ∈ (graph.schedule cells).cyclic ↔
      cell ∈ cells ∧ cell ∉ (graph.schedule cells).ordered := by
  change cell ∈ cells.filter (· ∉ (Std.ExtTreeSet.ofList (graph.schedule cells).ordered)) ↔ _
  simp

section Mirrors

variable {refers : Cell → Cell → Prop} (hgraph : graph.Mirrors refers) (hnodup : cells.Nodup)

include hgraph hnodup

/-- A schedule ends when nothing is ready any more. -/
theorem Mirrors.underway_schedule :
    ∃ waiting, graph.Underway (Std.ExtTreeSet.ofList cells) (graph.schedule cells).ordered
      waiting [] :=
  (underway_nil hnodup).orderFrom hgraph (Nat.le_add_left _ _)

/-- The cells in order are those that refer to no others than such. -/
theorem Mirrors.mem_ordered_iff {cell : Cell} :
    cell ∈ (graph.schedule cells).ordered ↔
      cell ∈ cells ∧ ∀ target ∈ cells, refers cell target →
        target ∈ (graph.schedule cells).ordered := by
  obtain ⟨waiting, hlast⟩ := hgraph.underway_schedule hnodup
  have hmem := hlast.mem_iff cell
  rw [List.append_nil, Std.ExtTreeSet.mem_ofList, List.contains_iff_mem] at hmem
  rw [hmem, Finset.eq_empty_iff_forall_notMem]
  apply and_congr_right
  intro _
  apply forall_congr'
  intro target
  rw [hgraph.mem_pending, Std.ExtTreeSet.mem_ofList, List.contains_iff_mem]
  tauto

/-- A schedule goes over its cells, each once. -/
theorem Mirrors.perm_schedule :
    ((graph.schedule cells).ordered ++ (graph.schedule cells).cyclic).Perm cells := by
  obtain ⟨waiting, hlast⟩ := hgraph.underway_schedule hnodup
  have hordered : (graph.schedule cells).ordered.Nodup := by simpa using hlast.nodup
  rw [List.perm_ext_iff_of_nodup ?_ hnodup]
  · intro cell
    have hsubset : cell ∈ (graph.schedule cells).ordered → cell ∈ cells :=
      fun hcell => ((hgraph.mem_ordered_iff hnodup).mp hcell).1
    rw [List.mem_append, mem_cyclic_iff]
    tauto
  · refine hordered.append (hnodup.filter _) ?_
    intro cell hfirst hsecond
    exact (mem_cyclic_iff.mp hsecond).2 hfirst

end Mirrors

end Spreadsheet.DependencyGraph
