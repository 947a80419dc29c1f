import Spreadsheet.Arithmetic.Evaluate
import Spreadsheet.Formula
import Spreadsheet.Settings.Depth
import Spreadsheet.Value

namespace Spreadsheet

/-- What an evaluation carries along: the cells being resolved, innermost first, the levels taken
by something that is no cell, and the numbers already found. -/
structure Trail where
  base : Nat
  chain : List Cell
  resolved : CellMap Float

namespace Trail

def empty : Trail :=
  { base := 0, chain := [], resolved := ∅ }

def startingAt (cell : Cell) : Trail :=
  { empty with chain := [cell] }

/-- The trail for a formula that stands in no cell; the formula takes a level like a stored one. -/
def detached : Trail :=
  { empty with base := 1 }

def depth (trail : Trail) : Nat :=
  trail.base + trail.chain.length

end Trail

/-- A step of an evaluation that later answers can tell: a raw text was fetched, or arithmetic
was done on a text without references. -/
inductive Event where
  | fetched (cell : Cell)
  | calculated (text : List Char)

/-- What an evaluation has found so far, and its events, the latest first. -/
structure Progress where
  resolved : CellMap Float
  events : List Event

abbrev Resolution (α : Type) := ExceptT Abort (StateM Progress) α

namespace Resolution

def log (event : Event) : Resolution Unit :=
  modify fun progress => { progress with events := event :: progress.events }

def remember (cell : Cell) (n : Float) : Resolution Unit :=
  modify fun progress => { progress with resolved := progress.resolved.insert cell n }

end Resolution

/-- What formulas are evaluated against: the raw text of every cell, arithmetic, and the longest
chain of cells allowed. -/
structure Evaluator where
  raw : Cell → String
  arithmetic : String → Except Arithmetic.Error Float
  limit : Nat

namespace Evaluator

/-- Chains are never longer than the ceiling, whatever depth is asked for. -/
def make (raw : Cell → String) (arithmetic : String → Except Arithmetic.Error Float)
    (maxDepth : Nat) : Evaluator :=
  { raw, arithmetic, limit := min maxDepth depthCeiling }

/-- The pieces put together again with every reference replaced by the number of its cell; a
reference that names no cell is zero. -/
def substitute (number : Cell → Resolution Float) :
    List Formula.Piece → Resolution (List Char)
  | [] => return []
  | .plain text :: rest => return text ++ (← substitute number rest)
  | .reference token :: rest => do
    let n ←
      match Formula.target? token with
      | some cell => number cell
      | none => pure 0
    return Number.literal n ++ (← substitute number rest)

def evaluateWith (evaluator : Evaluator) (number : Cell → Resolution Float) (raw : String) :
    Resolution Value := do
  match Formula.body? raw with
  | none => return .text raw
  | some body =>
    let text ← substitute number (Formula.pieces body)
    Resolution.log (.calculated text)
    match evaluator.arithmetic (String.ofList text) with
    | .ok n => return .number n
    | .error _ => return .marker .malformed

/-- The number of a cell, with `levels` more cells allowed on the chain. A cell on the chain is a
circle, even when its number or the end of the levels is at hand too. -/
def resolve (evaluator : Evaluator) : Nat → List Cell → Cell → Resolution Float
  | levels, chain, cell => do
    if cell ∈ chain then
      throw .circular
    match (← get).resolved[cell]? with
    | some n => return n
    | none =>
      match levels with
      | 0 => throw .tooDeep
      | levels + 1 =>
        Resolution.log (.fetched cell)
        let value ←
          evaluator.evaluateWith (evaluator.resolve levels (cell :: chain)) (evaluator.raw cell)
        Resolution.remember cell value.toNumber
        return value.toNumber

structure Outcome where
  value : Value
  trail : Trail
  events : List Event

def Outcome.calculations (outcome : Outcome) : List (List Char) :=
  outcome.events.filterMap fun
    | .calculated text => some text
    | .fetched _ => none

def run (evaluator : Evaluator) (raw : String) (trail : Trail) : Outcome :=
  let number := evaluator.resolve (evaluator.limit - trail.depth) trail.chain
  let (result, progress) :=
    (evaluator.evaluateWith number raw).run.run { resolved := trail.resolved, events := [] }
  { value :=
      match result with
      | .ok value => value
      | .error abort => .marker (.abort abort)
    trail := { trail with resolved := progress.resolved }
    events := progress.events.reverse }

def runCell (evaluator : Evaluator) (cell : Cell) : Outcome :=
  let outcome := evaluator.run (evaluator.raw cell) (Trail.startingAt cell)
  { outcome with events := .fetched cell :: outcome.events }

def compute (evaluator : Evaluator) (cell : Cell) : Value :=
  (evaluator.runCell cell).value

def runDetached (evaluator : Evaluator) (text : String) : Outcome :=
  evaluator.run text Trail.detached

def evaluateDetached (evaluator : Evaluator) (text : String) : Value :=
  (evaluator.runDetached text).value

end Evaluator

end Spreadsheet
