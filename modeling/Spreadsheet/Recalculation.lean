import Spreadsheet.Evaluation
import Spreadsheet.Graph

namespace Spreadsheet

def fresh (seen : CellSet) : List Cell → List Cell
  | [] => []
  | cell :: rest =>
    if cell ∈ seen then fresh seen rest else cell :: fresh (seen.insert cell) rest

/-- The order in which the cells that an edit affects are recomputed. Those that lie on a circle of
affected cells, or behind one, come in no order. -/
structure Schedule where
  ordered : List Cell
  cyclic : List Cell

/-- The cells that an edit recomputed with their new values, in order, and those of them that
could not be ordered. -/
structure Recalculation where
  updates : List (Cell × Value)
  cycles : List Cell

namespace DependencyGraph

/-- A search underway for the cells that depend on one: the cells seen so far, the other ones in the
order they were found, and those whose own dependents were not looked at yet. -/
structure Search where
  seen : CellSet
  found : List Cell
  worklist : List Cell

namespace Search

def start (changed : Cell) : Search :=
  { seen := {changed}, found := [], worklist := [changed] }

def new (graph : DependencyGraph) (search : Search) (cell : Cell) : List Cell :=
  fresh search.seen (graph.dependentsOf cell)

/-- Takes the first cell that waits. Its new dependents are found, and wait in turn. -/
def step (graph : DependencyGraph) (search : Search) : Search :=
  match search.worklist with
  | [] => search
  | cell :: rest =>
    let new := search.new graph cell
    { seen := search.seen.insertMany new
      found := search.found ++ new
      worklist := rest ++ new }

def run (graph : DependencyGraph) : Nat → Search → Search
  | 0, search => search
  | steps + 1, search => run graph steps (search.step graph)

end Search

/-- The other cells that depend on `changed`, directly or not, nearest first. Every cell that waits
but the first holds a formula and waits once, which bounds the steps until none waits any more. -/
def affected (graph : DependencyGraph) (changed : Cell) : List Cell :=
  (Search.run graph (graph.size + 1) (.start changed)).found

def inputsAmong (graph : DependencyGraph) (members : CellSet) (cell : Cell) : Nat :=
  match graph.referencesOf? cell with
  | some targets => (targets.toList.filter (· ∈ members)).length
  | none => 0

/-- Counts down the inputs that cells still wait for, and lists those that wait no longer. -/
def release (waiting : CellMap Nat) : List Cell → CellMap Nat × List Cell
  | [] => (waiting, [])
  | cell :: rest =>
    match waiting[cell]? with
    | none => release waiting rest
    | some count =>
      let (after, ready) := release (waiting.insert cell (count - 1)) rest
      (after, if count - 1 = 0 then cell :: ready else ready)

/-- Takes ready cells in turn; each may make cells that depend on it ready. -/
def orderFrom (graph : DependencyGraph) : Nat → CellMap Nat → List Cell → List Cell
  | 0, _, _ | _, _, [] => []
  | steps + 1, waiting, cell :: ready =>
    let (waiting, released) := release waiting (graph.dependentsOf cell)
    cell :: graph.orderFrom steps waiting (ready ++ released)

/-- Orders affected cells so that each follows the affected cells it refers to. -/
def schedule (graph : DependencyGraph) (cells : List Cell) : Schedule :=
  let members : CellSet := Std.ExtTreeSet.ofList cells
  let inputs := graph.inputsAmong members
  let waiting : CellMap Nat := Std.ExtTreeMap.ofList (cells.map fun cell => (cell, inputs cell))
  let ordered := graph.orderFrom cells.length waiting (cells.filter (inputs · = 0))
  let done : CellSet := Std.ExtTreeSet.ofList ordered
  { ordered, cyclic := cells.filter (· ∉ done) }

end DependencyGraph

namespace Recalculation

def order (recalculation : Recalculation) : List Cell :=
  recalculation.updates.map Prod.fst

def valueOf? (recalculation : Recalculation) (cell : Cell) : Option Value :=
  (recalculation.updates.find? fun (updated, _) => updated = cell).map Prod.snd

end Recalculation

/-- Recomputes every cell that a change of `changed` affects, each from scratch. -/
def propagate (graph : DependencyGraph) (evaluator : Evaluator) (changed : Cell) :
    Recalculation :=
  let schedule := graph.schedule (graph.affected changed)
  { updates := (schedule.ordered ++ schedule.cyclic).map fun cell => (cell, evaluator.compute cell)
    cycles := schedule.cyclic }

end Spreadsheet
