import Spreadsheet.Text.Blank

namespace Spreadsheet.SheetText

def escape : List Char → List Char
  | [] => []
  | '\\' :: rest => '\\' :: '\\' :: escape rest
  | '"' :: rest => '\\' :: '"' :: escape rest
  | '\n' :: rest => '\\' :: 'n' :: escape rest
  | '\r' :: rest => '\\' :: 'r' :: escape rest
  | c :: rest => c :: escape rest

/-- Text without the backslashes of escapes. A backslash that starts no escape stays. -/
def unescape : List Char → List Char
  | [] => []
  | '\\' :: '\\' :: rest => '\\' :: unescape rest
  | '\\' :: '"' :: rest => '"' :: unescape rest
  | '\\' :: 'n' :: rest => '\n' :: unescape rest
  | '\\' :: 'r' :: rest => '\r' :: unescape rest
  | '\\' :: c :: rest => '\\' :: c :: unescape rest
  | c :: rest => c :: unescape rest

/-- Whether a raw text would not read back the same without quotes. -/
def needsQuotes (raw : List Char) : Bool :=
  Text.trim raw ≠ raw || raw.head? = some '"' || raw.contains '\n' || raw.contains '\r'

def writeRaw (raw : List Char) : List Char :=
  if needsQuotes raw then '"' :: escape raw ++ ['"'] else raw

def readRaw : List Char → List Char
  | '"' :: rest => if rest.getLast? = some '"' then unescape rest.dropLast else '"' :: rest
  | value => value

end Spreadsheet.SheetText
