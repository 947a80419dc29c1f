import Spreadsheet.CommandLine.Outcome

/-!
The program takes a picture of what its paths lead to, works on the picture, and then gives the
sheet file, and the file beside it, the content that they have there.
-/

namespace Spreadsheet.CommandLine

def isThere (path : String) : IO Bool :=
  try
    discard (IO.FS.Handle.mk path .read)
    return true
  catch
    | .noFileOrDirectory .. | .inappropriateType .. => return false
    | _ => return true

def content? (path : String) : IO (Option ByteArray) :=
  try
    some <$> IO.FS.readBinFile path
  catch _ =>
    return none

def stages (path : String) : List String :=
  (List.range (Path.names path).length).map fun i =>
    "/".intercalate ((Path.names path).take (i + 1))

/-- Adds to a picture what a path leads to. What cannot be read counts as a directory. -/
def look (disk : Disk) (path : String) : IO Disk := do
  match disk.locate path with
  | some (.entry place) =>
    match ← content? path with
    | some bytes => return { disk with files := disk.files.insert place bytes }
    | none =>
      if ← isThere path then
        return { disk with directories := disk.directories.insert place }
      else
        return disk
  | _ => return disk

def picture (paths : List String) : IO Disk := do
  let home := (← IO.currentDir).toString
  (paths.flatMap stages).foldlM look (Disk.ofFiles (Disk.placeOf [] home) [])

def ownSettingsFile : IO (Option String) := do
  let settingsHome ← IO.getEnv "XDG_CONFIG_HOME"
  let home ← IO.getEnv "HOME"
  let directory :=
    match settingsHome.filter (·.startsWith "/"), home with
    | some directory, _ => some directory
    | none, some home => some (home ++ "/.config")
    | none, none => none
  return directory.map (· ++ "/gridcalc/config.toml")

def Arguments.paths (arguments : Arguments) : List String :=
  (arguments.file.toList.flatMap fun path => [path, Path.temporary path]) ++
    arguments.settingsFile.toList

/-- Gives a file and the one beside it the content that they have after a run. -/
def save (before after : Disk) (path : String) : IO Unit := do
  let beside := Path.temporary path
  let isSame (path : String) := after.read? path == before.read? path
  if isSame path && isSame beside then return
  match after.read? beside, after.read? path with
  | some bytes, _ => IO.FS.writeBinFile beside bytes
  | none, some bytes =>
    IO.FS.writeBinFile beside bytes
    IO.FS.rename beside path
  | none, none => return

end Spreadsheet.CommandLine

open Spreadsheet CommandLine in
def main (arguments : List String) : IO UInt32 := do
  let ownFile ← ownSettingsFile
  let given := (Arguments.read arguments).toOption
  let before ← picture (ownFile.toList ++ (given.map Arguments.paths).getD [])
  let outcome := outcome arguments before ownFile
  match given.bind Arguments.file with
  | some path => save before outcome.disk path
  | none => pure ()
  (← IO.getStdout).putStr outcome.output
  (← IO.getStderr).putStr outcome.complaint
  return outcome.code
