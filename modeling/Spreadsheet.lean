import Spreadsheet.Main
import Spreadsheet.Proofs.Evaluation.Transparency
import Spreadsheet.Proofs.Evaluation.Levels
import Spreadsheet.Proofs.Evaluation.Depth
import Spreadsheet.Proofs.Evaluation.Limits
import Spreadsheet.Proofs.Evaluation.Fetches
import Spreadsheet.Proofs.Evaluation.Path
import Spreadsheet.Proofs.Evaluation.Remembered
import Spreadsheet.Proofs.Recalculation
import Spreadsheet.Proofs.FailedEdits
import Spreadsheet.Proofs.Graph.History
import Spreadsheet.Proofs.Graph.Propagation
import Spreadsheet.Proofs.Graph.Reported
import Spreadsheet.Proofs.Cell.Name
import Spreadsheet.Proofs.Cell.Spelling
import Spreadsheet.Proofs.SheetText
import Spreadsheet.Proofs.SheetText.Lines
import Spreadsheet.Proofs.Disk
import Spreadsheet.Proofs.Disk.Beside
import Spreadsheet.Proofs.FileStore
import Spreadsheet.Proofs.Store.Interchange
import Spreadsheet.Proofs.CommandLine.Sessions
import Spreadsheet.Proofs.CommandLine.Footprint
import Spreadsheet.Proofs.Number.Literals
import Spreadsheet.Proofs.Arithmetic.Lexemes
import Spreadsheet.Proofs.Arithmetic.Tokens
import Spreadsheet.Proofs.Arithmetic.Spelling
import Spreadsheet.Proofs.Arithmetic.Readings
import Spreadsheet.Proofs.Arithmetic.Sentences
import Spreadsheet.Proofs.Arithmetic.Parentheses
import Spreadsheet.Proofs.Arithmetic.Assignments
import Spreadsheet.Proofs.Arithmetic.Rejection
import Spreadsheet.Proofs.Arithmetic.Digits
import Spreadsheet.Proofs.Arithmetic.Nesting
import Spreadsheet.Proofs.Detached
import Spreadsheet.Proofs.Graph.Circles
import Spreadsheet.Proofs.Graph.Distance
import Spreadsheet.Proofs.Formula.Search
import Spreadsheet.Proofs.Formula.References
import Spreadsheet.Proofs.Formula.Substitution
import Spreadsheet.Proofs.Arithmetic.Constants
import Spreadsheet.Proofs.Arithmetic.Joining
