import Spreadsheet.Formula

namespace Spreadsheet

/-- Which formulas refer to which cells, indexed from both ends. Neither index holds an empty
set. -/
structure DependencyGraph where
  references : CellMap CellSet
  dependents : CellMap CellSet

namespace DependencyGraph

def empty : DependencyGraph :=
  { references := ∅, dependents := ∅ }

def withoutDependent (cell : Cell) (dependents : CellMap CellSet) (target : Cell) :
    CellMap CellSet :=
  dependents.alter target fun
    | none => none
    | some cells => if (cells.erase cell).isEmpty then none else some (cells.erase cell)

def withDependent (cell : Cell) (dependents : CellMap CellSet) (target : Cell) :
    CellMap CellSet :=
  dependents.alter target fun
    | none => some {cell}
    | some cells => some (cells.insert cell)

def referencesOf? (graph : DependencyGraph) (cell : Cell) : Option CellSet :=
  graph.references[cell]?

def dependentsOf (graph : DependencyGraph) (cell : Cell) : List Cell :=
  match graph.dependents[cell]? with
  | some cells => cells.toList
  | none => []

def size (graph : DependencyGraph) : Nat :=
  graph.references.size

def isEmpty (graph : DependencyGraph) : Bool :=
  graph.references.isEmpty

def forget (graph : DependencyGraph) (cell : Cell) : DependencyGraph :=
  match graph.references[cell]? with
  | none => graph
  | some targets =>
    { references := graph.references.erase cell
      dependents := targets.toList.foldl (withoutDependent cell) graph.dependents }

/-- Records that `cell`, which refers to nothing so far, refers to `targets`. -/
def record (graph : DependencyGraph) (cell : Cell) (targets : CellSet) : DependencyGraph :=
  if targets.isEmpty then graph
  else
    { references := graph.references.insert cell targets
      dependents := targets.toList.foldl (withDependent cell) graph.dependents }

def write (graph : DependencyGraph) (cell : Cell) (raw : String) : DependencyGraph :=
  (graph.forget cell).record cell (Formula.dependencies raw)

def clear (_graph : DependencyGraph) : DependencyGraph :=
  empty

def ofCells (cells : List (Cell × String)) : DependencyGraph :=
  cells.foldl (fun graph (cell, raw) => graph.write cell raw) empty

end DependencyGraph

end Spreadsheet
