namespace Spreadsheet

def depthCeiling : Nat := 1024

def defaultDepth : Nat := 256

/-- A depth outside the range that settings may choose from. -/
structure DepthOutOfRange where
  depth : Nat
deriving DecidableEq

def DepthOutOfRange.message (error : DepthOutOfRange) : String :=
  "max_depth must be between 1 and 1024, got " ++ Nat.repr error.depth

def checkDepth (depth : Nat) : Except DepthOutOfRange Unit :=
  if 1 ≤ depth ∧ depth ≤ depthCeiling then .ok () else .error { depth }

end Spreadsheet
