import Spreadsheet.Disk
import Spreadsheet.Settings.Depth
import Spreadsheet.Store.Access
import Spreadsheet.Toml.Document

/-!
Settings are a TOML text. At the top it may have the keys `read_only` and `engine` and no others;
of what stands under `engine` only `max_depth` counts.
-/

namespace Spreadsheet

/-- How a sheet is opened and how deep its formulas may refer to each other. -/
structure Settings where
  access : Access
  maxDepth : Nat
deriving DecidableEq

inductive SettingsError where
  | io
  | malformed
  | depth (error : DepthOutOfRange)
deriving DecidableEq

def SettingsError.message : SettingsError → String
  | .io => "IO error"
  | .malformed => "Config error"
  | .depth error => "Invalid engine settings: " ++ error.message

namespace Settings

def standard : Settings :=
  { access := .writable, maxDepth := defaultDepth }

/-- The depth that a value of `max_depth` gives. -/
def depth? : Toml.Value → Option Nat
  | .integer n => if 0 ≤ n then some n.toNat else none
  | _ => none

/-- The depth that a value of `engine` gives: that of its key `max_depth` if it is a table, its
first element if it is an array. A date has no part that counts. -/
def engineDepth? : Toml.Value → Option Nat
  | .table entries =>
    match entries.find? fun (key, _) => key.head? = some "max_depth" with
    | none => some defaultDepth
    | some (key, value) => if key = ["max_depth"] then depth? value else none
  | .array [] => some defaultDepth
  | .array (first :: _) => depth? first
  | .datetime => some defaultDepth
  | _ => none

def documentAccess? (document : Toml.Document) : Option Access :=
  match document.entry? [.key "read_only"] with
  | none => some .writable
  | some (.value (.boolean isReadOnly)) => some (if isReadOnly then .readOnly else .writable)
  | some _ => none

def documentDepth? (document : Toml.Document) : Option Nat :=
  match document.entry? [.key "engine"] with
  | none => some defaultDepth
  | some (.value value) => engineDepth? value
  | some (.table _) =>
    match document.entry? [.key "engine", .key "max_depth"] with
    | none => some defaultDepth
    | some (.value value) => depth? value
    | some _ => none
  | some (.tables _) => none

def ofDocument? (document : Toml.Document) : Option Settings := do
  guard (document.topKeys.all fun name => name = "read_only" || name = "engine")
  return { access := ← documentAccess? document, maxDepth := ← documentDepth? document }

def check (settings : Settings) : Except DepthOutOfRange Settings := do
  checkDepth settings.maxDepth
  return settings

def read (text : String) : Except SettingsError Settings :=
  match (Toml.Document.parse? text).bind ofDocument? with
  | none => .error .malformed
  | some settings => settings.check.mapError .depth

/-- The settings in the file at a path; the standard ones if there is no file. -/
def load (disk : Disk) (path : String) : Except SettingsError Settings :=
  if disk.contains path then
    match disk.readText? path with
    | none => .error .io
    | some text => read text
  else
    .ok standard

end Settings

end Spreadsheet
