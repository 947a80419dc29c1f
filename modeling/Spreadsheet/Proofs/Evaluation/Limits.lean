import Spreadsheet.Proofs.Evaluation.Depth
import Spreadsheet.Proofs.Evaluation.Locality

/-!
# Raising the limit

An evaluation that runs out of levels anywhere shows `#DEPTH` itself, since an abort is never taken
for a number. One that does not has met no end of its levels, and takes the same steps under any
higher limit.
-/

namespace Spreadsheet.Evaluator

variable {raw : Cell → String} {arithmetic : String → Except Arithmetic.Error Float}
  {fewer more : Nat}

/-- The limit only counts where an evaluation starts. Below, the levels left are handed on. -/
theorem resolve_make (left right levels : Nat) (chain : List Cell) :
    (make raw arithmetic left).resolve levels chain =
      (make raw arithmetic right).resolve levels chain := by
  have harithmetic : (make raw arithmetic left).arithmetic =
      (make raw arithmetic right).arithmetic := rfl
  funext cell
  exact resolve_congr harithmetic (fun _ _ => rfl) (fun _ _ => Iff.rfl) levels

theorem run_value_of_le (h : fewer ≤ more) {text : String} {trail : Trail}
    (hvalue : ((make raw arithmetic fewer).run text trail).value ≠ .marker (.abort .tooDeep)) :
    ((make raw arithmetic more).run text trail).value =
      ((make raw arithmetic fewer).run text trail).value := by
  let shallow := make raw arithmetic fewer
  let deep := make raw arithmetic more
  let start : Progress := { resolved := trail.resolved, events := [] }
  have hlevels : shallow.limit - trail.depth ≤ deep.limit - trail.depth := by
    simp only [shallow, deep, make]
    omega
  -- the same evaluator walks twice, with the levels that either limit leaves
  have hsame : SameUnlessDeep
      ((shallow.evaluateWith (shallow.resolve (deep.limit - trail.depth) trail.chain) text).answer
        start)
      ((shallow.evaluateWith (shallow.resolve (shallow.limit - trail.depth) trail.chain)
        text).answer start) :=
    shallow.evaluateWith_lockstep _ _ Eq
      (fun _ _ _ _ hsame => shallow.resolve_lockstep hlevels hsame) rfl
  rw [run_value] at hvalue
  rw [run_value, run_value, resolve_make more fewer]
  rcases hsame with hdeep | ⟨hresult, -⟩
  · exact absurd (congrArg Value.ofResult hdeep) hvalue
  · exact congrArg Value.ofResult hresult

/-- A higher limit changes no value but `#DEPTH`, whether the text stands in a cell or not and
whatever was remembered before. -/
theorem higher_limit_changes_depth_markers_only (raw : Cell → String)
    (arithmetic : String → Except Arithmetic.Error Float) (fewer more : Nat) (h : fewer ≤ more) :
    let shallow := make raw arithmetic fewer
    let deep := make raw arithmetic more
    (∀ cell, shallow.compute cell ≠ .marker (.abort .tooDeep) →
      deep.compute cell = shallow.compute cell) ∧
    (∀ text, shallow.evaluateDetached text ≠ .marker (.abort .tooDeep) →
      deep.evaluateDetached text = shallow.evaluateDetached text) ∧
    ∀ text trail, (shallow.run text trail).value ≠ .marker (.abort .tooDeep) →
      (deep.run text trail).value = (shallow.run text trail).value :=
  ⟨fun _ => run_value_of_le h, fun _ => run_value_of_le h, fun _ _ => run_value_of_le h⟩

/-- `B1` has a value within three levels because it names `A3` first. -/
theorem higher_limit_keeps_value_of_detour :
    3 ≤ 2000 ∧
    (make detourTexts Arithmetic.evaluate 3).compute { row := 0, col := 1 } ≠
      .marker (.abort .tooDeep) ∧
    (make detourTexts Arithmetic.evaluate 2000).compute { row := 0, col := 1 } =
      (make detourTexts Arithmetic.evaluate 3).compute { row := 0, col := 1 } := by
  have hshown : ((make detourTexts (fun _ => .ok 0) 3).compute
      { row := 0, col := 1 }).marker? = none := by decide +kernel
  have hvalue : (make detourTexts Arithmetic.evaluate 3).compute { row := 0, col := 1 } ≠
      .marker (.abort .tooDeep) := by
    rw [ne_eq, compute_eq_abort_congr (make detourTexts Arithmetic.evaluate 3)
      (make detourTexts (fun _ => .ok 0) 3) rfl rfl, ← Value.marker?_eq_some_iff, hshown]
    simp
  exact ⟨by decide, hvalue, (higher_limit_changes_depth_markers_only detourTexts Arithmetic.evaluate
    3 2000 (by decide)).1 _ hvalue⟩

end Spreadsheet.Evaluator
