import Spreadsheet.Settings
import Spreadsheet.Sheet
import Spreadsheet.Store.File

namespace Spreadsheet.CommandLine

inductive Failure where
  | noSettingsFile (path : String)
  | settings (path : String) (error : SettingsError)
  | depth (error : DepthOutOfRange)
  | opening (path : String) (error : OpenError)
  | notAnEdit (text : String)
  | edit (name : String) (error : EditError)
deriving DecidableEq

namespace Failure

def accounts : Failure → List String
  | .noSettingsFile path => ["config file not found: " ++ path]
  | .settings path (.depth error) =>
    ["loading " ++ path, SettingsError.message (.depth error), error.message]
  | .settings path error => ["loading " ++ path, error.message]
  | .depth error => [error.message]
  | .opening path error => ["opening " ++ path, error.message]
  | .notAnEdit text => ["expected REF=RAW, got '" ++ text ++ "'"]
  | .edit name (.store error) =>
    ["setting " ++ name, EditError.message (.store error), error.message]
  | .edit name error => ["setting " ++ name, error.message]

def message (failure : Failure) : String :=
  ": ".intercalate failure.accounts

end Failure

end Spreadsheet.CommandLine
