import Spreadsheet.Toml.Scalar

namespace Spreadsheet.Toml

open Reader

/-- A value, as far as settings tell values apart. A table keeps its keys as they were written. -/
inductive Value where
  | string
  | integer (n : Int)
  | float
  | boolean (b : Bool)
  | datetime
  | array (elements : List Value)
  | table (entries : List (List String × Value))

/-- Whether no key is the start of another or equal to it, so that every value has a place of its
own. -/
def areSeparate : List (List String) → Bool
  | [] => true
  | key :: rest =>
    rest.all (fun other => !key.isPrefixOf other && !other.isPrefixOf key) && areSeparate rest

def scalar : Reader Value :=
  oneOf
    [string *> pure .string,
      datetime *> pure .datetime,
      decimalFloat *> pure .float,
      specialFloat *> pure .float,
      .integer <$> integer,
      exactly ['t', 'r', 'u', 'e'] *> pure (.boolean true),
      exactly ['f', 'a', 'l', 's', 'e'] *> pure (.boolean false)]

/-- An array of values, over several lines if need be, perhaps with a comma after the last. -/
def array (value : Reader Value) : Reader Value := do
  discard (char '[')
  let elements ← optional (separated (filler *> value <* filler) (char ','))
  if elements.isSome then
    discard (optional (char ','))
  filler
  discard (char ']')
  return .array (elements.getD [])

/-- A table on one line, without a comma after the last entry. -/
def inlineTable (value : Reader Value) : Reader Value := do
  discard (char '{')
  let entries ← optional (separated
    (do
      let key ← key
      discard (char '=')
      spaces
      let value ← value
      spaces
      return (key, value))
    (char ','))
  let entries := entries.getD []
  spaces
  discard (char '}')
  if areSeparate (entries.map Prod.fst) then return .table entries else fail

/-- A value in which arrays and tables nest at most so many levels. -/
def valueWithin : Nat → Reader Value
  | 0 => scalar
  | levels + 1 =>
    let inner := valueWithin levels
    oneOf [array inner, inlineTable inner, scalar]

def value : Reader Value :=
  valueWithin (nestingLimit - 1)

end Spreadsheet.Toml
