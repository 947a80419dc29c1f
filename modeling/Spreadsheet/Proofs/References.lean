import Mathlib.Data.List.Chain
import Mathlib.Logic.Relation
import Spreadsheet.Formula

/-!
# Which cells refer to which

The reference relation of a sheet is read off the raw texts: a cell refers to the cells that its
formula names. Chains, circles and the cells from which every chain ends are stated for this
relation, so that the evaluator and the dependency graph can both be compared with it.
-/

namespace Spreadsheet

namespace Formula

def Piece.target? : Piece → Option Cell
  | .plain _ => none
  | .reference token => Formula.target? token

def targets (raw : String) : List Cell :=
  match body? raw with
  | none => []
  | some body => (pieces body).filterMap Piece.target?

theorem filterMap_cell_locate (offset : Nat) (pieces : List Piece) :
    (locate offset pieces).filterMap Reference.cell = pieces.filterMap Piece.target? := by
  induction pieces generalizing offset with
  | nil => rfl
  | cons piece rest ih =>
      cases piece with
      | plain text => simp only [locate, List.filterMap_cons, Piece.target?, ih]
      | reference token => simp only [locate, List.filterMap_cons, Piece.target?, ih]

theorem mem_dependencies_iff {raw : String} {target : Cell} :
    target ∈ dependencies raw ↔ target ∈ targets raw := by
  unfold dependencies targets
  cases body? raw with
  | none => simp
  | some body => simp [referencedCells, references, filterMap_cell_locate]

end Formula

variable (raw : Cell → String)

def Refers (cell target : Cell) : Prop :=
  target ∈ Formula.dependencies (raw cell)

abbrev Reaches : Cell → Cell → Prop :=
  Relation.ReflTransGen (Refers raw)

def OnCircle (cell : Cell) : Prop :=
  Relation.TransGen (Refers raw) cell cell

def ReachesCircle (cell : Cell) : Prop :=
  ∃ target, Reaches raw cell target ∧ OnCircle raw target

/-- Every chain of references from a cell ends. -/
def Grounded (cell : Cell) : Prop :=
  Acc (fun target cell => Refers raw cell target) cell

variable {raw}

theorem refers_iff_mem_targets {cell target : Cell} :
    Refers raw cell target ↔ target ∈ Formula.targets (raw cell) :=
  Formula.mem_dependencies_iff

theorem grounded_of_forall_refers {cell : Cell}
    (h : ∀ target, Refers raw cell target → Grounded raw target) : Grounded raw cell :=
  Acc.intro cell h

theorem Grounded.of_refers {cell target : Cell} (h : Grounded raw cell)
    (href : Refers raw cell target) : Grounded raw target :=
  h.inv href

theorem Grounded.of_reaches {cell target : Cell} (h : Grounded raw cell)
    (hreach : Reaches raw cell target) : Grounded raw target := by
  induction hreach with
  | refl => exact h
  | tail _ href ih => exact ih.of_refers href

theorem ReachesCircle.of_refers {cell target : Cell} (href : Refers raw cell target)
    (h : ReachesCircle raw target) : ReachesCircle raw cell := by
  obtain ⟨circle, hreach, hcircle⟩ := h
  exact ⟨circle, .head href hreach, hcircle⟩

theorem OnCircle.exists_refers {cell : Cell} (h : OnCircle raw cell) :
    ∃ target, Refers raw cell target ∧ Reaches raw target cell :=
  Relation.TransGen.head'_iff.mp h

theorem onCircle_of_refers_of_reaches {cell target : Cell} (href : Refers raw cell target)
    (hreach : Reaches raw target cell) : OnCircle raw cell :=
  Relation.TransGen.head' href hreach

/-- A cell that leads into a circle refers to one that does. -/
theorem ReachesCircle.exists_refers {cell : Cell} (h : ReachesCircle raw cell) :
    ∃ target, Refers raw cell target ∧ ReachesCircle raw target := by
  obtain ⟨circle, hreach, hcircle⟩ := h
  rcases hreach.cases_head with heq | ⟨target, href, hrest⟩
  · subst heq
    obtain ⟨target, href, hback⟩ := hcircle.exists_refers
    exact ⟨target, href, cell, hback, hcircle⟩
  · exact ⟨target, href, circle, hrest, hcircle⟩

theorem Grounded.not_reachesCircle {cell : Cell} (h : Grounded raw cell) :
    ¬ ReachesCircle raw cell := by
  induction h with
  | intro cell _ ih =>
      intro hcircle
      obtain ⟨target, href, htarget⟩ := hcircle.exists_refers
      exact ih target href htarget

/-! ### Ranks

A rank that falls along every reference bounds all chains. -/

section Rank

variable {rank : Cell → Nat}
  (hrank : ∀ cell target, Refers raw cell target → rank target < rank cell)

include hrank

theorem grounded_of_rank (cell : Cell) : Grounded raw cell :=
  Subrelation.accessible (hrank _ _) (InvImage.accessible rank (Nat.lt_wfRel.wf.apply (rank cell)))

theorem length_le_of_rank {cell : Cell} {path : List Cell}
    (hpath : List.IsChain (Refers raw) (cell :: path)) : path.length ≤ rank cell := by
  induction path generalizing cell with
  | nil => exact Nat.zero_le _
  | cons target path ih =>
      obtain ⟨href, hrest⟩ := List.isChain_cons_cons.mp hpath
      have hlength := ih hrest
      have hlt := hrank cell target href
      rw [List.length_cons]
      omega

end Rank

def inColumnA (row : UInt64) : Cell :=
  { row, col := 0 }

end Spreadsheet
