import GridCatalog.Table

/-! A file system: files and directories under paths.

    A path is the list of names from the root down to a file or directory. Reading, writing and
    removing a file fail with a fault: nothing is there, something on the way is not a directory,
    or what is there is a directory. Written paths have faults of their own. -/

namespace GridCatalog

abbrev Path := List String

/-- What stands at a path. -/
inductive Node where
  | file (bytes : List UInt8)
  | directory
deriving DecidableEq, Repr

/-- Why a file or a directory cannot be reached or made. -/
inductive FileFault where
  | missing
  | notADirectory
  | isADirectory
  /-- A file stands where a directory is to be made. -/
  | alreadyExists
  /-- A name, or a whole written path, has too many bytes. -/
  | nameTooLong
  /-- A written path holds the character zero, which no name has. -/
  | zeroInPath
deriving DecidableEq, Repr

def FileFault.message : FileFault → String
  | .missing => "No such file or directory (os error 2)"
  | .notADirectory => "Not a directory (os error 20)"
  | .isADirectory => "Is a directory (os error 21)"
  | .alreadyExists => "File exists (os error 17)"
  | .nameTooLong => "File name too long (os error 36)"
  | .zeroInPath => "file name contained an unexpected NUL byte"

/-- The files and directories below the root. -/
structure Disk where
  nodes : Table Path Node

namespace Disk

def empty : Disk := ⟨Table.empty⟩

/-- What stands at a path; the root is a directory. -/
def node? (d : Disk) (p : Path) : Option Node :=
  if p = [] then some .directory else d.nodes.get? p

def isFile (d : Disk) (p : Path) : Bool :=
  match d.node? p with
  | some (.file _) => true
  | _ => false

def isDirectory (d : Disk) (p : Path) : Bool := d.node? p = some .directory

/-- The nonempty beginnings of a path, the whole included. -/
def beginnings (p : Path) : List Path := (List.range p.length).map fun n => p.take (n + 1)

/-- What stands at a path, or why nothing is reached there. -/
def look (d : Disk) (p : Path) : Except FileFault Node :=
  match d.node? p with
  | some node => .ok node
  | none => if (beginnings p.dropLast).any d.isFile then .error .notADirectory else .error .missing

def read (d : Disk) (p : Path) : Except FileFault (List UInt8) :=
  match d.look p with
  | .ok (.file bytes) => .ok bytes
  | .ok .directory => .error .isADirectory
  | .error fault => .error fault

/-- Writes a file into a directory that exists. -/
def write (d : Disk) (p : Path) (bytes : List UInt8) : Except FileFault Disk :=
  match d.look p.dropLast with
  | .error fault => .error fault
  | .ok (.file _) => .error .notADirectory
  | .ok .directory =>
    if d.isDirectory p then .error .isADirectory else .ok ⟨d.nodes.insert p (.file bytes)⟩

def makeDirectory (d : Disk) (p : Path) : Disk :=
  if (d.node? p).isSome then d else ⟨d.nodes.insert p .directory⟩

/-- Makes a directory and all directories above it, unless something stands there. -/
def makeDirectories (d : Disk) (p : Path) : Disk := (beginnings p).foldl makeDirectory d

def remove (d : Disk) (p : Path) : Except FileFault Disk :=
  match d.look p with
  | .ok (.file _) => .ok ⟨d.nodes.erase p⟩
  | .ok .directory => .error .isADirectory
  | .error fault => .error fault

/-- Removes whatever stands at a path, with all that is below it. -/
def removeTree (d : Disk) (p : Path) : Disk :=
  ⟨(d.nodes.keys.filter fun q => p.isPrefixOf q).foldl Table.erase d.nodes⟩

def names (d : Disk) (p : Path) : List String :=
  d.nodes.keys.filterMap fun q => if q.dropLast = p then q.getLast? else none

/-- Writing puts the bytes at the path and changes nothing else. -/
theorem node?_write {d e : Disk} {p : Path} {bytes : List UInt8} (h : d.write p bytes = .ok e)
    (q : Path) : e.node? q = if q = p then some (.file bytes) else d.node? q := by
  unfold write at h
  split at h
  · cases h
  · cases h
  · split at h
    · cases h
    · rename_i hdir
      cases h
      by_cases hq : q = []
      · subst hq
        by_cases hp : p = []
        · subst hp; simp [isDirectory, node?] at hdir
        · have : ¬ [] = p := fun e => hp e.symm
          simp [node?, this]
      · simp [node?, hq, Table.get?_insert]

/-- Removing takes a file away and changes nothing else. -/
theorem node?_remove {d e : Disk} {p : Path} (h : d.remove p = .ok e) (q : Path) :
    e.node? q = if q = p then none else d.node? q := by
  unfold remove look at h
  by_cases hp : p = []
  · subst hp
    simp [node?] at h
  · split at h
    · cases h
      by_cases hq : q = []
      · subst hq
        have : ¬ [] = p := fun e => hp e.symm
        simp [node?, this]
      · simp [node?, hq, Table.get?_erase]
    · cases h
    · cases h

end Disk

end GridCatalog
