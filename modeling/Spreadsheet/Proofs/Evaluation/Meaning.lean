import Spreadsheet.Proofs.Evaluation.Traversal

/-!
# The meaning of a cell

Where every chain of references ends, the value of a cell can be said by recursion on the references
alone: nothing is carried along, nothing is remembered, and there is no limit.
-/

namespace Spreadsheet

namespace Formula

/-- The text of pieces with the number of each cell in the place of every reference to it. A
reference that names no cell is zero. -/
def fill (number : Cell → Float) (pieces : List Piece) : List Char :=
  pieces.flatMap fun
    | .plain text => text
    | .reference token => Number.literal ((target? token).elim 0 number)

theorem splice_map (number : Cell → Float) (pieces : List Piece) :
    splice ((pieces.filterMap Piece.target?).map number) pieces = fill number pieces := by
  induction pieces with
  | nil => rfl
  | cons piece rest ih =>
      rw [fill, List.flatMap_cons, ← fill, List.filterMap_cons]
      cases piece with
      | plain text => simp only [Piece.target?, splice, ih]
      | reference token =>
          cases htarget : target? token <;> simp [Piece.target?, splice, htarget, ih]

end Formula

/-- The formula in `cell` names `target`, and every chain of references from `cell` ends. -/
def Feeds (raw : Cell → String) (target cell : Cell) : Prop :=
  Refers raw cell target ∧ Grounded raw cell

theorem feeds_wellFounded (raw : Cell → String) : WellFounded (Feeds raw) := by
  constructor
  intro cell
  by_cases hgrounded : Grounded raw cell
  · induction hgrounded with
    | intro cell _ ih => exact Acc.intro cell fun target hfeeds => ih target hfeeds.1
  · exact Acc.intro cell fun target hfeeds => absurd hfeeds.2 hgrounded

namespace Evaluator

variable (evaluator : Evaluator)

def valueFrom (number : Cell → Float) (raw : String) : Value :=
  match Formula.body? raw with
  | none => .text raw
  | some body => evaluator.calculate (Formula.fill number (Formula.pieces body))

theorem valueAt_map (number : Cell → Float) (raw : String) :
    evaluator.valueAt raw ((Formula.targets raw).map number) = evaluator.valueFrom number raw := by
  unfold valueAt valueFrom Formula.targets
  cases Formula.body? raw with
  | none => rfl
  | some body => simp only [Formula.splice_map]

theorem valueFrom_congr {left right : Cell → Float} {raw : String}
    (h : ∀ target ∈ Formula.targets raw, left target = right target) :
    evaluator.valueFrom left raw = evaluator.valueFrom right raw := by
  rw [← valueAt_map, ← valueAt_map, List.map_congr_left h]

theorem answer_evaluateWith_pure (number : Cell → Float) (raw : String) (progress : Progress) :
    ((evaluator.evaluateWith (fun target => pure (number target)) raw).answer progress).1 =
      .ok (evaluator.valueFrom number raw) := by
  rw [answer_evaluateWith, List.mapM_pure, Resolution.answer_pure]
  exact congrArg Except.ok (evaluator.valueAt_map number raw)

/-- The value of a cell by recursion on its references: literal text stands for itself, and a
formula for the result of its arithmetic on the numbers of the cells it names. -/
noncomputable def meaning (cell : Cell) : Value :=
  open Classical in
  evaluator.valueFrom
    (fun target => if _ : Feeds evaluator.raw target cell then (meaning target).toNumber else 0)
    (evaluator.raw cell)
termination_by (feeds_wellFounded evaluator.raw).wrap cell
decreasing_by assumption

theorem meaning_eq {cell : Cell} (h : Grounded evaluator.raw cell) :
    evaluator.meaning cell =
      evaluator.valueFrom (fun target => (evaluator.meaning target).toNumber)
        (evaluator.raw cell) := by
  rw [meaning]
  refine evaluator.valueFrom_congr fun target htarget => ?_
  exact dif_pos ⟨refers_iff_mem_targets.mpr htarget, h⟩

end Evaluator

end Spreadsheet
