import Spreadsheet.CommandLine.Run

namespace Spreadsheet.CommandLine

/-- What a program leaves behind: its two texts, its exit code, and the disk. -/
structure Outcome where
  output : String
  complaint : String
  code : UInt32
  disk : Disk

def helpText : String :=
  "Recalculate a spreadsheet sheet from the command line\n\n" ++
  "Usage: gridcalc [OPTIONS] [FILE]\n\n" ++
  "  [FILE]                   sheet file to open; without one, an empty sheet in memory\n" ++
  "  -s, --set <REF=RAW>      write a cell before printing; may be repeated\n" ++
  "  -c, --command <FORMULA>  print the value of one formula instead of the cells\n" ++
  "      --config <FILE>      settings file to use instead of the user's own\n" ++
  "      --no-config          use no settings file\n" ++
  "      --read-only          open the sheet without permission to write\n" ++
  "      --max-depth <N>      longest chain of cells to follow, from 1 to 1024\n" ++
  "  -h, --help               print this text\n" ++
  "  -V, --version            print the version\n"

def versionText : String := "gridcalc 0.1.0\n"

/-- What a run leaves behind. A formula without a value is no complaint, but its exit code tells. -/
def Outcome.ofRun : Except Failure Report × Disk → Outcome
  | (.ok report, disk) =>
    { output := String.join (report.lines.map (· ++ "\n"))
      complaint := ""
      code := if report.hasValue then 0 else 1
      disk }
  | (.error failure, disk) =>
    { output := "", complaint := "Error: " ++ failure.message ++ "\n", code := 1, disk }

def outcome (arguments : List String) (disk : Disk) (ownFile : Option String) : Outcome :=
  match Arguments.read arguments with
  | .ok arguments => Outcome.ofRun (run arguments disk ownFile)
  | .error .help => { output := helpText, complaint := "", code := 0, disk }
  | .error .version => { output := versionText, complaint := "", code := 0, disk }
  | .error (.refusal error) =>
    { output := "", complaint := "error: " ++ error.message ++ "\n", code := 2, disk }

end Spreadsheet.CommandLine
