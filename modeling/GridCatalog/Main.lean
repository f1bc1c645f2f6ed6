import GridCatalog.CommandLine.Run
import Std.Time

/-! The program.

    The files that a command line names are copied onto a disk, the command line is carried out
    there, and what it changed is written back. -/

namespace GridCatalog.Program

def written (p : Path) : String := "/" ++ "/".intercalate p

/-- What stands at a path of the machine. -/
def look (p : Path) : IO (Option Node) := do
  let place := (← IO.currentDir) / written p
  if ← place.isDir then return some .directory
  else if ← place.pathExists then return some (.file (← IO.FS.readBinFile place).toList)
  else return none

/-- The names in a directory of the machine. -/
def names (p : Path) : IO (List String) := do
  let place := (← IO.currentDir) / written p
  return (← place.readDir).toList.map fun entry => entry.fileName

/-- Copies what stands at a path onto a disk. -/
def copy (d : Disk) (p : Path) : IO Disk := do
  if p = [] then return d
  match ← look p with
  | some node => return ⟨d.nodes.insert p node⟩
  | none => return d

/-- Copies what a written path leads through onto a disk, with the files of the directory at its
    end. -/
def copyAt (working : Path) (d : Disk) (text : String) : IO Disk := do
  let step (state : Disk × Path) (name : String) : IO (Disk × Path) := do
    let p := Disk.follow state.2 name
    return (← copy state.1 p, p)
  let (d, p) ← (PathText.names text).foldlM step (d, Disk.start working text)
  if d.isDirectory p then (← names p).foldlM (fun d name => copy d (p ++ [name])) d
  else return d

/-- The written paths that a command line may reach. -/
def reached (i : CommandLine.Invocation) : List String :=
  let store := i.globals.store
  [PathText.join store "dataset", PathText.join store "metadata"] ++ i.globals.config.toList ++
    match i.command with
    | .ingest source _ _ => [source]
    | .approveFile _ file _ => [file]
    | _ => []

/-- Writes a node of a disk to the machine. -/
def put (p : Path) : Node → IO Unit
  | .directory => IO.FS.createDirAll (written p)
  | .file bytes => IO.FS.writeBinFile (written p) ⟨bytes.toArray⟩

/-- Writes the changes of a disk to the machine. -/
def writeBack (before after : Disk) : IO Unit := do
  for (p, node) in after.nodes.rows do
    if before.node? p ≠ some node then put p node
  for p in before.nodes.keys do
    if after.node? p = none then IO.FS.removeFile (written p)

def idAlphabet : List Char :=
  "ABCDEFGHIJKLMNOPQRSTUVWXYZabcdefghijklmnopqrstuvwxyz0123456789".toList

def idLength : Nat := 20

/-- The characters of an id, drawn one after the other. -/
def draw : Nat → StdGen → List Char
  | 0, _ => []
  | n + 1, generator =>
    let (k, generator) := randNat generator 0 (idAlphabet.length - 1)
    idAlphabet.getD k 'A' :: draw n generator

/-- The ids of a run, from a random number. -/
def freshId (seed n : Nat) : String := String.ofList (draw idLength (mkStdGen (seed + n)))

/-- The time of the clock, and then a nanosecond more for each call. -/
def clockFrom (nanos : Int) (n : Nat) : Instant :=
  let total := nanos + n
  let seconds := total / 1000000000
  (Instant.ofParts? (seconds / 86400) (seconds % 86400).toNat (total % 1000000000).toNat).getD
    default

/-- Carries out a command line on the machine. -/
def execute (arguments : List String) : IO UInt32 := do
  let working := Disk.normalize [] (← IO.currentDir).toString
  let paths := match CommandLine.invocation arguments with
    | .ok i => reached i
    | .error _ => []
  let before ← paths.foldlM (copyAt working) Disk.empty
  let nanos := (← Std.Time.Timestamp.now).toNanosecondsSinceUnixEpoch.val
  let seed := (← IO.getRandomBytes 8).toList.foldl (fun n b => 256 * n + b.toNat) 0
  let setting : CommandLine.Setting := ⟨working, freshId seed, clockFrom nanos⟩
  let outcome := CommandLine.run setting (copyWorking working before) arguments
  writeBack before outcome.disk
  IO.print outcome.output
  IO.eprint outcome.errors
  return outcome.code.toUInt32
where
  /-- The directories above the working directory stand on every disk. -/
  copyWorking (working : Path) (d : Disk) : Disk := d.makeDirectories working

end GridCatalog.Program

def main (arguments : List String) : IO UInt32 := GridCatalog.Program.execute arguments
