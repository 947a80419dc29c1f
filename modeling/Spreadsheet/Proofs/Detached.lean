import Spreadsheet.Proofs.Graph.Propagation
import Spreadsheet.Proofs.Recalculation

/-!
# Formulas that stand in no cell

A text evaluated on its own takes a level as if it stood in a cell, but no cell is on the chain. It
comes to the same as the text of any cell that its references do not lead back to.
-/

namespace Spreadsheet

theorem Evaluator.compute_of_raw_eq_empty (evaluator : Evaluator) {cell : Cell}
    (h : evaluator.raw cell = "") : evaluator.compute cell = Value.empty := by
  change (evaluator.run (evaluator.raw cell) (.startingAt cell)).value = Value.empty
  rw [h]
  rfl

/-- Writing a cell that the text does not lead to changes no text below, and the written cell is
not met again, so that the chain may begin with it. -/
theorem Evaluator.compute_update (evaluator : Evaluator) {cell : Cell} {text : String}
    (h : ∀ target ∈ Formula.targets text, ¬ Reaches evaluator.raw target cell) :
    compute { evaluator with raw := Function.update evaluator.raw cell text } cell =
      evaluator.evaluateDetached text := by
  have hne : ∀ target ∈ Formula.targets text, ∀ below, Reaches evaluator.raw target below →
      below ≠ cell := by
    rintro target htarget below hreach rfl
    exact h target htarget hreach
  change (run _ (Function.update evaluator.raw cell text cell) (.startingAt cell)).value =
    (evaluator.run text .detached).value
  rw [Function.update_self]
  apply run_value_congr
  · rfl
  · rfl
  · rfl
  · rfl
  · intro target htarget below hreach
    exact Function.update_of_ne (hne target htarget below hreach) _ _
  · intro target htarget below hreach
    simp [Trail.startingAt, Trail.detached, Trail.empty, hne target htarget below hreach]

namespace Sheet

variable {Store : Type} [CellStore Store]

theorem getD_renewed {sheet : Sheet Store} {cells : List Cell} {cell : Cell}
    (hcell : cell ∈ cells) :
    (sheet.renewed cells).getD cell Value.empty = sheet.evaluator.compute cell := by
  rw [Std.ExtTreeMap.getD_eq_getD_getElem?, getElem?_renewed, if_pos hcell]
  by_cases hraw : sheet.raw cell = ""
  · rw [if_pos hraw, sheet.evaluator.compute_of_raw_eq_empty hraw]
    rfl
  · rw [if_neg hraw]
    rfl

variable [LawfulCellStore Store]

/-- A text comes to the same, whether it is evaluated on its own or stored in a cell that its
references do not lead to and read there. -/
theorem evaluateFormula_eq_value_edit (sheet : Sheet Store) (cell : Cell) (text : String)
    (recalculation : Recalculation)
    (hunreached : ∀ target ∈ Formula.dependencies text, ¬ Reaches sheet.raw target cell)
    (hedit : (sheet.edit cell text).1 = .ok recalculation) :
    sheet.evaluateFormula text = (sheet.edit cell text).2.value cell ∧
      recalculation.valueOf? cell = some (sheet.evaluateFormula text) := by
  obtain ⟨hwrite, rfl⟩ := write_of_edit_eq_ok hedit
  have hwritten :
      (sheet.written cell text).evaluator.compute cell = sheet.evaluateFormula text := by
    have hraw : CellStore.raw (sheet.written cell text).store =
        Function.update (CellStore.raw sheet.store) cell text := LawfulCellStore.raw_write hwrite
    rw [evaluator, hraw]
    exact sheet.evaluator.compute_update fun target htarget =>
      hunreached target (Formula.mem_dependencies_iff.mpr htarget)
  have hfirst : cell ∈ (sheet.written cell text).graph.recomputed cell :=
    List.mem_cons_self
  rw [edit_of_ok hwrite, ← hwritten]
  exact ⟨(getD_renewed hfirst).symm, Recalculation.valueOf?_of_updates_eq rfl hfirst⟩

def stackStore : MemoryStore :=
  MemoryStore.insert (.insert (.insert { texts := ∅, access := .writable }
    (inColumnA 0) "=A2+1") (inColumnA 1) "=A3+1") (inColumnA 2) "1"

theorem evaluateFormula_eq_value_edit_of_stack :
    (∀ target ∈ Formula.dependencies "=A1",
      ¬ Reaches (ofStore stackStore 3 Arithmetic.evaluate).raw target { row := 0, col := 1 }) ∧
    (ofStore stackStore 3 Arithmetic.evaluate).evaluateFormula "=A1" =
      ((ofStore stackStore 3 Arithmetic.evaluate).edit { row := 0, col := 1 } "=A1").2.value
        { row := 0, col := 1 } := by
  have hcolumn : ∀ target ∈ Formula.dependencies "=A1", ∀ below,
      Reaches (CellStore.raw stackStore) target below →
        below ∈ [inColumnA 0, inColumnA 1, inColumnA 2] := by
    intro target htarget below hreach
    induction hreach with
    | refl =>
        have hmem : target ∈ [inColumnA 0] := Formula.mem_dependencies_iff.mp htarget
        simp [List.mem_singleton.mp hmem]
    | @tail cell below _ href ih =>
        rw [refers_iff_mem_targets] at href
        simp only [List.mem_cons, List.not_mem_nil, or_false] at ih
        rcases ih with rfl | rfl | rfl
        · have hmem : below ∈ [inColumnA 1] := href
          simp [List.mem_singleton.mp hmem]
        · have hmem : below ∈ [inColumnA 2] := href
          simp [List.mem_singleton.mp hmem]
        · have hmem : below ∈ [] := href
          simp at hmem
  have hunreached : ∀ target ∈ Formula.dependencies "=A1",
      ¬ Reaches (ofStore stackStore 3 Arithmetic.evaluate).raw target { row := 0, col := 1 } :=
    fun target htarget hreach => absurd (hcolumn target htarget _ hreach) (by decide)
  exact ⟨hunreached, (evaluateFormula_eq_value_edit _ _ _ _ hunreached
    (congrArg Prod.fst (edit_of_ok rfl))).1⟩

end Sheet

end Spreadsheet
