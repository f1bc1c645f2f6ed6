import GridCatalog.Disk.PathText
import GridCatalog.Json.Reader
import GridCatalog.Json.Writer
import GridCatalog.Record
import GridCatalog.Store.Basic

/-! Stores on a disk: a file for each dataset and each entry.

    A record lies in the directory of its kind, in a file named by its id, as indented JSON. The
    directories are made by the first write. An id that is not made of letters, digits, `-` and `_`
    names nothing, so no id leads out of the directory of its kind. -/

namespace GridCatalog

/-- The place of a store on a disk. -/
structure JsonDirectory where
  /-- The directory that a relative path starts from. -/
  base : Path
  /-- The written path of the store. It is followed anew by every call. -/
  root : String

/-- The kinds of records. -/
inductive RecordKind where
  | dataset
  | entry
deriving DecidableEq, Repr

def RecordKind.directory : RecordKind → String
  | .dataset => "dataset"
  | .entry => "metadata"

namespace JsonDirectory

/-- Whether an id may be the name of a file. -/
def isSafeId (id : String) : Bool :=
  !id.toList.isEmpty && id.toList.all fun c => c.isAlphanum || c = '-' || c = '_'

def fileName (id : String) : String := id ++ ".json"

/-- The written path of the directory of a kind. -/
def directory (s : JsonDirectory) (kind : RecordKind) : String :=
  PathText.join s.root kind.directory

/-- The written path of the file of a record. -/
def file (s : JsonDirectory) (kind : RecordKind) (id : String) : String :=
  PathText.join (s.directory kind) (fileName id)

/-- The error of a fault with the file of a record. -/
def faultError (path id : String) : FileFault → StoreError
  | .missing => .notFound id
  | fault => .file path fault

/-- The record in the bytes of a file. -/
def decode {α : Type} (read : Json → Option α) (bytes : List UInt8) : Except StoreError α :=
  match (Json.ofBytes? bytes).bind read with
  | some a => .ok a
  | none => .error .malformed

/-- The record in the file at a written path. A directory counts as a file that cannot be read. -/
def loadAt {α : Type} (s : JsonDirectory) (read : Json → Option α) (path id : String) (d : Disk) :
    Except StoreError α :=
  match d.readAt s.base path with
  | .ok bytes => decode read bytes
  | .error .isADirectory => .error .malformed
  | .error fault => .error (faultError path id fault)

def load {α : Type} (s : JsonDirectory) (kind : RecordKind) (read : Json → Option α) (id : String)
    (d : Disk) : Except StoreError α :=
  if isSafeId id then s.loadAt read (s.file kind id) id d else .error (.notFound id)

/-- Writes the file of a record with a safe id; a failed write leaves the directories made. -/
def save {α : Type} (s : JsonDirectory) (kind : RecordKind) (id : String) (value : Json) (a : α)
    (d : Disk) : Except StoreError α × Disk :=
  match d.ensureDirectoryAt s.base (s.directory kind) with
  | (.error fault, d) => (.error (.file (s.directory kind) fault), d)
  | (.ok (), d) =>
    match d.writeAt s.base (s.file kind id) (Text.utf8Encode (Json.indented 0 value)) with
    | .ok d => (.ok a, d)
    | .error fault => (.error (.file (s.file kind id) fault), d)

/-- Writes the file of a record that has to be there. -/
def replace {α : Type} (s : JsonDirectory) (kind : RecordKind) (id : String) (value : Json) (a : α)
    (d : Disk) : Except StoreError α × Disk :=
  if isSafeId id && d.isFileAt s.base (s.file kind id) then s.save kind id value a d
  else (.error (.notFound id), d)

def discard (s : JsonDirectory) (kind : RecordKind) (id : String) (d : Disk) :
    Except StoreError Unit × Disk :=
  if !isSafeId id then (.error (.notFound id), d)
  else match d.removeAt s.base (s.file kind id) with
    | .ok d => (.ok (), d)
    | .error fault => (.error (faultError (s.file kind id) id fault), d)

/-- The names of the files with entries in a directory. -/
def entryNames (d : Disk) (p : Path) : List String :=
  (d.names p).filter fun name => PathText.extension? name = some "json"

/-- All entries; one that cannot be read spoils the answer. -/
def entries (s : JsonDirectory) (d : Disk) : Except StoreError (List Entry) :=
  let directory := s.directory .entry
  match d.resolve s.base directory with
  | .error _ => .ok []
  | .ok p =>
    match d.node? p with
    | none => .ok []
    | some (.file _) => .error (.file directory .notADirectory)
    | some .directory => (entryNames d p).mapM fun name =>
      s.loadAt Entry.ofJson? (PathText.join directory name) (PathText.stem name) d

def run (s : JsonDirectory) {α : Type} (call : Call α) (stamp : Stamp) (d : Disk) :
    Except StoreError α × Disk :=
  match call with
  | .createDataset dataset =>
    let dataset := dataset.stamped stamp
    if isSafeId dataset.id then s.save .dataset dataset.id dataset.toJson dataset d
    else (.error (.notFound dataset.id), d)
  | .readDataset id => (s.load .dataset Dataset.ofJson? id d, d)
  | .updateDataset dataset =>
    let dataset := dataset.touched stamp.now
    s.replace .dataset dataset.id dataset.toJson dataset d
  | .deleteDataset id => s.discard .dataset id d
  | .createEntry entry =>
    let entry := entry.stamped stamp
    if isSafeId entry.id then s.save .entry entry.id entry.toJson entry d
    else (.error (.notFound entry.id), d)
  | .readEntry id => (s.load .entry Entry.ofJson? id d, d)
  | .listEntries query => ((s.entries d).map query.page, d)
  | .expiredEntries retention now =>
    ((s.entries d).map fun entries => entries.filter fun e => retention.isExpired e now, d)
  | .updateEntry entry =>
    let entry := entry.touched stamp.now
    s.replace .entry entry.id entry.toJson entry d
  | .deleteEntry id => s.discard .entry id d

def store (s : JsonDirectory) : Store Disk := ⟨s.run⟩

end JsonDirectory

end GridCatalog
