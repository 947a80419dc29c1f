import Spreadsheet.Toml.Value

/-!
A document is a list of statements. Each header names the table that the assignments after it go
to. The tables and values that statements make are kept by their paths from the top.
-/

namespace Spreadsheet.Toml

open Reader

inductive Statement where
  | header (path : List String)
  | arrayHeader (path : List String)
  | assignment (key : List String) (value : Value)

def header : Reader Statement := do
  discard (char '[')
  let path ← key
  discard (char ']')
  return .header path

def arrayHeader : Reader Statement := do
  exactly ['[', '[']
  let path ← key
  exactly [']', ']']
  return .arrayHeader path

def assignment : Reader Statement := do
  let key ← key
  discard (char '=')
  spaces
  let value ← value
  return .assignment key value

def statementLine : Reader (Option Statement) := do
  let statement ←
    oneOf
      [some <$> (oneOf [arrayHeader, header, assignment] <* lineEnd),
        comment *> lineEnd *> pure none,
        newline *> pure none]
  spaces
  return statement

/-- All statements of a text, which may start with a byte order mark. -/
def statements (text : List Char) : Option (List Statement) :=
  let text := if text.head? = some '\ufeff' then text.tail else text
  (whole (spaces *> many statementLine) text).map fun lines => lines.filterMap id

/-- A step down from a table: to the entry of a key, or to an element of an array of tables. -/
inductive Step where
  | key (name : String)
  | element (index : Nat)
deriving DecidableEq

/-- How a table came to be: by its own header, on the way to another table, or by a dotted key. -/
inductive TableForm where
  | explicit
  | implied
  | dotted
deriving DecidableEq

inductive Entry where
  | value (value : Value)
  | table (form : TableForm)
  | tables (count : Nat)

/-- Everything that statements made so far; of two entries for a path the first counts. -/
abbrev Document := List (List Step × Entry)

namespace Document

def entry? (document : Document) (path : List Step) : Option Entry :=
  document.lookup path

def put (document : Document) (path : List Step) (entry : Entry) : Document :=
  (path, entry) :: document

/-- Goes down from a table by keys and makes the tables that are missing. A dotted key may not
enter a table that has its own header. -/
def descend (form : TableForm) (document : Document) (path : List Step) :
    List String → Option (Document × List Step)
  | [] => some (document, path)
  | name :: rest =>
    let next := path ++ [.key name]
    match document.entry? next with
    | none => descend form (document.put next (.table form)) next rest
    | some (.value _) => none
    | some (.tables count) => descend form document (next ++ [.element (count - 1)]) rest
    | some (.table existing) =>
      if form = .dotted ∧ existing = .explicit then none else descend form document next rest

/-- Opens the table of a header. A table has one header at most, and none if a dotted key made
it. -/
def openTable (document : Document) (path : List String) : Option (Document × List Step) := do
  let (document, parent) ← descend .implied document [] path.dropLast
  let name ← path.getLast?
  let place := parent ++ [.key name]
  match document.entry? place with
  | none | some (.table .implied) => return (document.put place (.table .explicit), place)
  | _ => none

def openElement (document : Document) (path : List String) : Option (Document × List Step) := do
  let (document, parent) ← descend .implied document [] path.dropLast
  let name ← path.getLast?
  let place := parent ++ [.key name]
  match document.entry? place with
  | none => return (document.put place (.tables 1), place ++ [.element 0])
  | some (.tables count) =>
    return (document.put place (.tables (count + 1)), place ++ [.element count])
  | _ => none

/-- Assigns a value to a key of an open table. The tables on the way must be dotted keys' own. -/
def assign (document : Document) (table : List Step) (key : List String) (value : Value) :
    Option Document := do
  let (document, parent) ← descend .dotted document table key.dropLast
  let name ← key.getLast?
  let isOwn :=
    match document.entry? parent with
    | some (.table .dotted) => true
    | _ => key.dropLast = []
  let place := parent ++ [.key name]
  match isOwn, document.entry? place with
  | true, none => return document.put place (.value value)
  | _, _ => none

def build (document : Document) (table : List Step) : List Statement → Option Document
  | [] => some document
  | .header path :: rest => do
    let (document, table) ← openTable document path
    build document table rest
  | .arrayHeader path :: rest => do
    let (document, table) ← openElement document path
    build document table rest
  | .assignment key value :: rest => do
    build (← assign document table key value) table rest

def parse? (text : String) : Option Document := do
  build [] [] (← statements text.toList)

def topKeys (document : Document) : List String :=
  document.filterMap fun (path, _) =>
    match path with
    | [.key name] => some name
    | _ => none

end Document

end Spreadsheet.Toml
