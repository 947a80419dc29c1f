import Spreadsheet.Disk.Path
import Std.Data.ExtTreeMap
import Std.Data.ExtTreeSet

namespace Spreadsheet

/-- The files a program sees, by their places, the directories among those places, and the place
of the program's own directory. A place is the list of names that lead to it from the root. There
are no symbolic and no hard links: two places are never the same file or directory, and a change at
one place is seen at no other. -/
structure Disk where
  files : Std.ExtTreeMap (List String) ByteArray
  directories : Std.ExtTreeSet (List String)
  home : List String

namespace Disk

def placeOf (home : List String) (path : String) : List String :=
  (if path.toList.head? = some '/' then [] else home) ++
    (Path.names path).filter (!Path.isStill ·)

def ancestors (place : List String) : List (List String) :=
  (List.range place.length).map place.take

def ofFiles (home : List String) (files : List (String × ByteArray)) : Disk :=
  let placed := files.map fun (path, bytes) => (placeOf home path, bytes)
  { files := Std.ExtTreeMap.ofList placed
    directories :=
      Std.ExtTreeSet.ofList
        (home :: ancestors home ++ placed.flatMap fun (place, _) => ancestors place)
    home }

/-- What a path leads to: a directory, or a place in a directory where a file may be. -/
inductive Target where
  | directory (place : List String)
  | entry (place : List String)
deriving DecidableEq

def isDirectory (disk : Disk) (place : List String) : Bool :=
  place = [] || place ∈ disk.directories

/-- Follows names from a directory. A step up from the root stays there, and a name that is too
long leads nowhere. -/
def follow (disk : Disk) (place : List String) : List String → Option Target
  | [] => some (.directory place)
  | name :: rest =>
    if Path.isStill name then disk.follow place rest
    else if name = ".." then disk.follow place.dropLast rest
    else if disk.isDirectory (place ++ [name]) then disk.follow (place ++ [name]) rest
    else if rest = [] ∧ name.utf8ByteSize ≤ Path.maxNameBytes then some (.entry (place ++ [name]))
    else none

/-- What a path leads to, if all directories on the way are there. A path starts at the root if a
slash is in front. The empty path leads nowhere, nor does one that is too long. -/
def locate (disk : Disk) (path : String) : Option Target :=
  if path.utf8ByteSize > Path.maxBytes then none
  else
    match Path.names path with
    | [""] => none
    | "" :: rest => disk.follow [] rest
    | names => disk.follow disk.home names

def contains (disk : Disk) (path : String) : Bool :=
  match disk.locate path with
  | some (.directory _) => true
  | some (.entry place) => place ∈ disk.files
  | none => false

def read? (disk : Disk) (path : String) : Option ByteArray :=
  match disk.locate path with
  | some (.entry place) => disk.files[place]?
  | _ => none

def readText? (disk : Disk) (path : String) : Option String :=
  (disk.read? path).bind String.fromUTF8?

def write? (disk : Disk) (path : String) (bytes : ByteArray) : Option Disk :=
  match disk.locate path with
  | some (.entry place) => some { disk with files := disk.files.insert place bytes }
  | _ => none

/-- Gives a file another path, in place of the file that was there. -/
def move? (disk : Disk) (source target : String) : Option Disk :=
  match disk.locate source, disk.locate target with
  | some (.entry source), some (.entry target) =>
    match disk.files[source]? with
    | some bytes => some { disk with files := (disk.files.erase source).insert target bytes }
    | none => none
  | _, _ => none

/-- Replaces the content of a file as a whole: the new content goes to a file beside it, which
then takes its path. Also gives what a failure leaves on the disk. -/
def replace (disk : Disk) (path : String) (bytes : ByteArray) : Bool × Disk :=
  match disk.write? (Path.temporary path) bytes with
  | none => (false, disk)
  | some written =>
    match written.move? (Path.temporary path) path with
    | none => (false, written)
    | some moved => (true, moved)

end Disk

end Spreadsheet
