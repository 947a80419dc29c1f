import Spreadsheet.Recalculation
import Spreadsheet.Store.Access

namespace Spreadsheet

/-- The raw texts of cells in a store, with what follows from them: which cell refers to which, and
the value of every cell that holds text. -/
structure Sheet (Store : Type) where
  store : Store
  graph : DependencyGraph
  values : CellMap Value
  arithmetic : String → Except Arithmetic.Error Float
  maxDepth : Nat

inductive EditError where
  | store (error : StoreError)
  | badName (name : String)
deriving DecidableEq

def EditError.message : EditError → String
  | .store error => "Could not save cell: " ++ error.message
  | .badName name => "Invalid cell reference: " ++ name

namespace Sheet

variable {Store : Type} [CellStore Store]

def evaluator (sheet : Sheet Store) : Evaluator :=
  Evaluator.make (CellStore.raw sheet.store) sheet.arithmetic sheet.maxDepth

/-- Works out the graph and every value from the store alone. -/
def load (sheet : Sheet Store) : Sheet Store :=
  let cells := CellStore.cells sheet.store
  { sheet with
    graph := DependencyGraph.ofCells cells
    values := Std.ExtTreeMap.ofList
      (cells.map fun (cell, _) => (cell, sheet.evaluator.compute cell)) }

def ofStore (store : Store) (maxDepth : Nat)
    (arithmetic : String → Except Arithmetic.Error Float) : Sheet Store :=
  load { store, graph := DependencyGraph.empty, values := ∅, arithmetic, maxDepth }

def raw (sheet : Sheet Store) (cell : Cell) : String :=
  CellStore.raw sheet.store cell

def value (sheet : Sheet Store) (cell : Cell) : Value :=
  sheet.values.getD cell Value.empty

def display (sheet : Sheet Store) (cell : Cell) : String :=
  (sheet.value cell).display

def dependentsOf (sheet : Sheet Store) (cell : Cell) : List Cell :=
  sheet.graph.dependentsOf cell

def computedCells (sheet : Sheet Store) : List (Cell × Value) :=
  sheet.values.toList

def evaluateFormula (sheet : Sheet Store) (text : String) : Value :=
  sheet.evaluator.evaluateDetached text

def renew (sheet : Sheet Store) (values : CellMap Value) (cell : Cell) (value : Value) :
    CellMap Value :=
  if (sheet.raw cell).isEmpty then values.erase cell else values.insert cell value

/-- Writes a cell's raw text and recomputes the cell and all that depends on it. The store is
written first; when it refuses, neither the graph nor a value changes. -/
def edit (sheet : Sheet Store) (cell : Cell) (raw : String) :
    Except EditError Recalculation × Sheet Store :=
  match CellStore.write sheet.store cell raw with
  | (.error error, store) => (.error (.store error), { sheet with store })
  | (.ok (), store) =>
    let edited := { sheet with store, graph := sheet.graph.write cell raw }
    let recalculation := propagate edited.graph edited.evaluator cell
    let updates := (cell, edited.evaluator.compute cell) :: recalculation.updates
    let values := updates.foldl (fun values (cell, value) => edited.renew values cell value)
      edited.values
    (.ok { recalculation with updates }, { edited with values })

def editByName (sheet : Sheet Store) (name raw : String) :
    Except EditError Recalculation × Sheet Store :=
  match Cell.ofName? name with
  | none => (.error (.badName name), sheet)
  | some cell => sheet.edit cell raw

def clear (sheet : Sheet Store) (cell : Cell) :
    Except EditError Recalculation × Sheet Store :=
  sheet.edit cell ""

/-- The texts that arithmetic is done on when cells are computed one after the other. -/
def calculations (sheet : Sheet Store) (cells : List Cell) : List (List Char) :=
  cells.flatMap fun cell => (sheet.evaluator.runCell cell).calculations

end Sheet

end Spreadsheet
