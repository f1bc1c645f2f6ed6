import GridCatalog.Source.Basic
import GridCatalog.Table

/-! Documents that are held in memory. -/

namespace GridCatalog

/-- Documents with their sheets; a sheet that is no grid has no rows. -/
structure Library where
  provenance : Provenance
  documents : Table String (List (Sheet × Grid))

namespace Library

def empty (provenance : Provenance) : Library := ⟨provenance, Table.empty⟩

/-- Adds a document without sheets, unless there is one with the id. -/
def addDocument (l : Library) (sourceId : String) : Library :=
  if (l.documents.get? sourceId).isSome then l
  else { l with documents := l.documents.insert sourceId [] }

/-- Adds a sheet behind the other sheets of a document. -/
def addSheet (l : Library) (sourceId : String) (sheet : Sheet) (grid : Grid) : Library :=
  let before := (l.documents.get? sourceId).getD []
  { l with documents := l.documents.insert sourceId (before ++ [(sheet, grid)]) }

/-- The sheets of a document with their grids. -/
def document (l : Library) (sourceId : String) : Except SourceError (List (Sheet × Grid)) :=
  match l.documents.get? sourceId with
  | some sheets => .ok sheets
  | none => .error (.notFound sourceId)

/-- The grid of the first grid sheet with a title. -/
def readGrid (l : Library) (sourceId title : String) (range : CellRange) :
    Except SourceError Grid := do
  match (← l.document sourceId).find? fun (sheet, _) => sheet.title = title && sheet.isGrid with
  | some (_, grid) => return range.cut grid
  | none => throw (.sheetNotFound sourceId title)

def toSource (l : Library) : Source where
  provenance := l.provenance
  sheets := fun sourceId => (l.document sourceId).map fun sheets => sheets.map Prod.fst
  readGrid := l.readGrid

end Library

end GridCatalog
