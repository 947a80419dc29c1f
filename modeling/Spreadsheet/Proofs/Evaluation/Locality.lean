import Spreadsheet.Evaluation
import Spreadsheet.Proofs.References

/-!
# An evaluation reads no more than it reaches

Two evaluators that agree on the raw texts of all cells that references lead to evaluate a cell in
the same way, down to the steps taken.
-/

namespace Spreadsheet.Evaluator

theorem substitute_congr {left right : Cell → Resolution Float} {pieces : List Formula.Piece}
    (h : ∀ target ∈ pieces.filterMap Formula.Piece.target?, left target = right target) :
    substitute left pieces = substitute right pieces := by
  induction pieces with
  | nil => rfl
  | cons piece rest ih =>
      rw [List.filterMap_cons] at h
      cases piece with
      | plain text => rw [substitute, substitute, ih h]
      | reference token =>
          cases htarget : Formula.target? token with
          | none =>
              simp only [Formula.Piece.target?, htarget] at h
              simp only [substitute, htarget, ih h]
          | some target =>
              simp only [Formula.Piece.target?, htarget, List.forall_mem_cons] at h
              simp only [substitute, htarget, h.1, ih h.2]

section Agree

variable {left right : Evaluator} (harithmetic : left.arithmetic = right.arithmetic)

include harithmetic

theorem evaluateWith_congr {number other : Cell → Resolution Float} {raw : String}
    (h : ∀ target ∈ Formula.targets raw, number target = other target) :
    left.evaluateWith number raw = right.evaluateWith other raw := by
  unfold evaluateWith
  unfold Formula.targets at h
  cases hbody : Formula.body? raw with
  | none => rfl
  | some body =>
      rw [hbody] at h
      dsimp only
      rw [substitute_congr h, harithmetic]

/-- The number of a cell is found in the same way where all raw texts below agree, and the chains
hold the same of the cells below. -/
theorem resolve_congr {cell : Cell} {chain other : List Cell}
    (hraw : ∀ target, Reaches right.raw cell target → left.raw target = right.raw target)
    (hchain : ∀ target, Reaches right.raw cell target → (target ∈ chain ↔ target ∈ other))
    (levels : Nat) : left.resolve levels chain cell = right.resolve levels other cell := by
  induction levels generalizing cell chain other with
  | zero =>
      unfold resolve
      simp only [hchain cell .refl]
  | succ levels ih =>
      have hevaluate : left.evaluateWith (left.resolve levels (cell :: chain)) (left.raw cell) =
          right.evaluateWith (right.resolve levels (cell :: other)) (right.raw cell) := by
        rw [hraw cell .refl]
        refine evaluateWith_congr harithmetic fun target htarget => ?_
        have href : Refers right.raw cell target := refers_iff_mem_targets.mpr htarget
        refine ih (fun below hreach => hraw below (.head href hreach)) fun below hreach => ?_
        rw [List.mem_cons, List.mem_cons, hchain below (.head href hreach)]
      rw [resolve, resolve]
      simp only [hevaluate, hchain cell .refl]

/-- Trails that take as many levels and have found the same numbers lead to the same value, if
their chains differ in no cell below. -/
theorem run_value_congr (hlimit : left.limit = right.limit) {raw : String} {trail other : Trail}
    (hdepth : trail.depth = other.depth) (hresolved : trail.resolved = other.resolved)
    (hraw : ∀ cell ∈ Formula.targets raw, ∀ target, Reaches right.raw cell target →
      left.raw target = right.raw target)
    (hchain : ∀ cell ∈ Formula.targets raw, ∀ target, Reaches right.raw cell target →
      (target ∈ trail.chain ↔ target ∈ other.chain)) :
    (left.run raw trail).value = (right.run raw other).value := by
  have hevaluate : left.evaluateWith
        (left.resolve (left.limit - trail.depth) trail.chain) raw =
      right.evaluateWith (right.resolve (right.limit - other.depth) other.chain) raw := by
    rw [hlimit, hdepth]
    exact evaluateWith_congr harithmetic fun cell hcell =>
      resolve_congr harithmetic (hraw cell hcell) (hchain cell hcell) _
  unfold run
  dsimp only
  rw [hevaluate, hresolved]
  rfl

/-- The value of a cell depends on the raw texts that references lead to from it. -/
theorem compute_congr (hlimit : left.limit = right.limit) {cell : Cell}
    (hraw : ∀ target, Reaches right.raw cell target → left.raw target = right.raw target) :
    left.compute cell = right.compute cell := by
  change (left.run (left.raw cell) (.startingAt cell)).value =
    (right.run (right.raw cell) (.startingAt cell)).value
  rw [hraw cell .refl]
  refine run_value_congr harithmetic hlimit rfl rfl (fun target htarget other hreach => ?_)
    fun _ _ _ _ => Iff.rfl
  exact hraw other (.head (refers_iff_mem_targets.mpr htarget) hreach)

end Agree

end Spreadsheet.Evaluator
