import GridCatalog.Delimited.Detection
import GridCatalog.Delimited.Reader
import GridCatalog.Disk.PathText
import GridCatalog.Source.Basic

/-! Delimited text files as a source.

    The id of a document is a written path. A file is a document with one sheet; a directory is a
    document with a sheet for each file in it, by file name. A sheet has the title of its file
    without the extension, and it is a grid if the extension is one of delimited texts. -/

namespace GridCatalog

/-- The files that are read, and how. -/
structure TextFiles where
  disk : Disk
  /-- The directory that relative paths start from. -/
  base : Path
  /-- A written path that is put in front of the ids. -/
  root : Option String
  /-- The delimiter of all files; without one it is found for each file. -/
  delimiter : Option UInt8

/-- A file of a document. -/
structure TextFile where
  name : String
  /-- The written path of the file. -/
  path : String
deriving DecidableEq, Repr

namespace TextFile

/-- The extensions of delimited texts, in lower case. -/
def gridExtensions : List String := ["csv", "tsv", "txt", "psv"]

/-- Whether a file name has the extension of a delimited text, in any case. -/
def isGridName (name : String) : Bool :=
  (PathText.extension? name).any fun ext =>
    gridExtensions.contains (String.ofList (ext.toList.map Char.toLower))

def sheet (file : TextFile) : Sheet := ⟨PathText.stem file.name, isGridName file.name⟩

end TextFile

namespace TextFiles

def pathText (f : TextFiles) (sourceId : String) : String :=
  match f.root with
  | some root => PathText.join root sourceId
  | none => sourceId

/-- The files in a directory, by name. -/
def filesIn (f : TextFiles) (p : Path) (path : String) : List TextFile :=
  let names := (f.disk.names p).mergeSort fun a b => a ≤ b
  (names.map fun name => ⟨name, PathText.join path name⟩).filter fun file =>
    f.disk.isFileAt f.base file.path

def files (f : TextFiles) (sourceId : String) : Except SourceError (List TextFile) :=
  let path := f.pathText sourceId
  match f.disk.resolve f.base path with
  | .error _ => .error (.notFound sourceId)
  | .ok p =>
    match f.disk.node? p with
    | some (.file _) => .ok [⟨p.getLast?.getD "", path⟩]
    | some .directory => .ok (f.filesIn p path)
    | none => .error (.notFound sourceId)

/-- The grid in the bytes of a file; a file without lines has no rows. -/
def parse (f : TextFiles) (bytes : List UInt8) : Except SourceError Grid :=
  match f.delimiter.or ((Delimited.detect? bytes).map Char.toUInt8) with
  | none => .ok []
  | some delimiter =>
    match Delimited.grid? delimiter bytes with
    | some grid => .ok grid
    | none => .error .malformed

/-- The grid of the first grid sheet with a title. -/
def readGrid (f : TextFiles) (sourceId title : String) (range : CellRange) :
    Except SourceError Grid := do
  let files ← f.files sourceId
  match files.find? fun file => file.sheet.title = title && file.sheet.isGrid with
  | none => throw (.sheetNotFound sourceId title)
  | some file =>
    match f.disk.readAt f.base file.path with
    | .ok bytes => return range.cut (← f.parse bytes)
    | .error fault => throw (.file file.path fault)

def toSource (f : TextFiles) : Source where
  provenance := .uploadedFile
  sheets := fun sourceId => (f.files sourceId).map fun files => files.map TextFile.sheet
  readGrid := f.readGrid

end TextFiles

end GridCatalog
