import GridCatalog.Disk.Basic
import GridCatalog.Text.Pieces

/-! Paths as they are written, and names of files.

    A written path has its names between slashes. An empty name and `.` stay where they are, `..`
    goes up, and each of them needs a directory to stand in; a slash at the start means the root.
    Names and whole paths have a greatest length, in bytes of UTF-8. -/

namespace GridCatalog

namespace PathText

def longestName : Nat := 255

def longestPath : Nat := 4095

def isTooLong (name : String) : Bool := longestName < name.utf8ByteSize

/-- Why a text is the path of nothing, whatever stands on the disk. -/
def fault? (text : String) : Option FileFault :=
  if text.toList.contains '\u0000' then some .zeroInPath
  else if text = "" then some .missing
  else if longestPath < text.utf8ByteSize then some .nameTooLong
  else none

/-- The names of a written path, empty ones included. -/
def names (text : String) : List String := (Text.pieces '/' text.toList).map String.ofList

/-- Whether a written path starts at the root. -/
def isAbsolute (text : String) : Bool := text.toList.head? = some '/'

/-- A written path inside a directory; a path from the root stands for itself. -/
def join (directory text : String) : String :=
  if directory = "" || isAbsolute text then text
  else if directory.toList.getLast? = some '/' then directory ++ text
  else directory ++ "/" ++ text

/-- A reversed path without the slashes and dots at its end. -/
def withoutEnd : List Char → List Char
  | '/' :: rest => withoutEnd rest
  | '.' :: '/' :: rest => withoutEnd rest
  | rest => rest

/-- The written path of the directory that a written path lies in. -/
def parent (text : String) : String :=
  let whole := withoutEnd text.toList.reverse
  String.ofList (withoutEnd (whole.dropWhile (· ≠ '/'))).reverse

/-- The part of a file name in front of its last point, and the part behind it. A name without a
    point, or with its only point in front, has no second part. -/
def splitName (name : String) : String × Option String :=
  let parts := Text.pieces '.' name.toList
  let stem := Text.glue '.' parts.dropLast
  if stem = [] then (name, none)
  else (String.ofList stem, parts.getLast?.map String.ofList)

def stem (name : String) : String := (splitName name).1

def extension? (name : String) : Option String := (splitName name).2

end PathText

namespace Disk

/-- Where a name leads from a directory. -/
def follow (p : Path) : String → Path
  | "" | "." => p
  | ".." => p.dropLast
  | name => p ++ [name]

/-- Follows a name from a path, which has to be a directory. -/
def enter (d : Disk) (p : Path) (name : String) : Except FileFault Path :=
  match d.look p with
  | .ok .directory => if PathText.isTooLong name then .error .nameTooLong else .ok (follow p name)
  | .ok (.file _) => .error .notADirectory
  | .error fault => .error fault

/-- Where a written path starts. -/
def start (base : Path) (text : String) : Path := if PathText.isAbsolute text then [] else base

/-- The path that a written path leads to, seen from a directory. Something need not stand there. -/
def resolve (d : Disk) (base : Path) (text : String) : Except FileFault Path :=
  match PathText.fault? text with
  | some fault => .error fault
  | none => (PathText.names text).foldlM d.enter (start base text)

def nodeAt? (d : Disk) (base : Path) (text : String) : Option Node :=
  (d.resolve base text).toOption.bind d.node?

/-- Whether a file stands at a written path. -/
def isFileAt (d : Disk) (base : Path) (text : String) : Bool :=
  (d.resolve base text).toOption.any d.isFile

/-- The bytes of the file at a written path. -/
def readAt (d : Disk) (base : Path) (text : String) : Except FileFault (List UInt8) :=
  (d.resolve base text).bind d.read

def writeAt (d : Disk) (base : Path) (text : String) (bytes : List UInt8) :
    Except FileFault Disk :=
  (d.resolve base text).bind fun p => d.write p bytes

def removeAt (d : Disk) (base : Path) (text : String) : Except FileFault Disk :=
  (d.resolve base text).bind d.remove

/-- Follows names from a directory and makes the directories that are missing. `made` tells whether
    one has been made so far: then a file on the way is reported as existing already, and otherwise
    as not being a directory. -/
def makeWay (d : Disk) (p : Path) (made : Bool) : List String → Except FileFault Unit × Disk
  | [] => (.ok (), d)
  | name :: rest =>
    let next := follow p name
    if PathText.isTooLong name then (.error .nameTooLong, d)
    else match d.node? next with
      | some .directory => d.makeWay next made rest
      | some (.file _) => (.error (if made then .alreadyExists else .notADirectory), d)
      | none => (d.makeDirectory next).makeWay next true rest

/-- Makes the directory at a written path, with all directories on the way to it. What has been
    made before a fault stays. -/
def makeDirectoriesAt (d : Disk) (base : Path) (text : String) : Except FileFault Unit × Disk :=
  match PathText.fault? text with
  | some fault => (.error fault, d)
  | none => d.makeWay (start base text) false (PathText.names text)

/-- Makes the directory at a written path, unless something stands there. -/
def ensureDirectoryAt (d : Disk) (base : Path) (text : String) : Except FileFault Unit × Disk :=
  if (d.nodeAt? base text).isSome then (.ok (), d) else d.makeDirectoriesAt base text

/-- A path as it is written, seen from a directory, without looking at the disk. -/
def normalize (base : Path) (text : String) : Path :=
  (PathText.names text).foldl follow (start base text)

end Disk

end GridCatalog
