import Spreadsheet.Text.Blank

namespace Spreadsheet.CommandLine

structure Edit where
  name : String
  raw : String
deriving DecidableEq

/-- The edit that a text such as `A1=5` asks for. The name ends at the first equals sign and is
taken without the blanks around it; the raw text is taken as it stands. -/
def Edit.ofText? (text : String) : Option Edit :=
  match text.toList.dropWhile (· != '=') with
  | [] => none
  | _ :: raw =>
    match Text.trim (text.toList.takeWhile (· != '=')) with
    | [] => none
    | name => some { name := String.ofList name, raw := String.ofList raw }

end Spreadsheet.CommandLine
