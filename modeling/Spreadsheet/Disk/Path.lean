namespace Spreadsheet.Path

def names (path : String) : List String :=
  (path.toList.splitOn '/').map String.ofList

def maxNameBytes : Nat := 255

def maxBytes : Nat := 4095

def isStill (name : String) : Bool :=
  name = "" || name = "."

/-- A file name without its last extension. A dot in front starts no extension. -/
def stem (name : List Char) : List Char :=
  match name.reverse.dropWhile (· != '.') with
  | [] => name
  | _ :: before => if before = [] then name else before.reverse

/-- The path without the slashes and single dots at its end. -/
def trimmed (path : String) : List (List Char) :=
  ((path.toList.splitOn '/').reverse.dropWhile fun name => isStill (String.ofList name)).reverse

/-- The path of the file that a new content is first written to: the path with its extension
replaced, if it ends in a name at all. The old extension goes first, so a name like `..a` at the
very end is cut down to a step up, which takes no new one. -/
def temporary (path : String) : String :=
  match (trimmed path).reverse with
  | [] => path
  | last :: directories =>
    let replaced (name : List Char) : String :=
      String.ofList (['/'].intercalate (directories.reverse ++ [name]))
    if last = ['.', '.'] then path
    else if stem last = ['.'] ∧ trimmed path = path.toList.splitOn '/' then replaced ['.', '.']
    else replaced (stem last ++ ".grd.tmp".toList)

end Spreadsheet.Path
