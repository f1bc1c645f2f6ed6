import GridCatalog.Service.Basic

/-! Reading a document into the catalog.

    Every grid sheet of a document becomes a dataset with a temporary entry. All sheets are read
    before anything is written; a failure later on leaves what has been written. -/

namespace GridCatalog.Service

variable {σ : Type}

def quoted (text : String) : String := "'" ++ text ++ "'"

def documentUnreadable (sourceId : String) (e : SourceError) : Failure :=
  .unreadable "source-unavailable" ("Can not read source " ++ quoted sourceId) (.source e)

def sheetUnreadable (title : String) (e : SourceError) : Failure :=
  .unreadable "source-unavailable" ("Can not read sheet " ++ quoted title) (.source e)

def noValues : Failure := .refused "no-values" "No values found"

/-- Reports the kinds of the columns of a dataset that was built from a sheet. -/
def reportColumns (title : String) (d : Dataset) : Task σ Unit :=
  d.header.forM fun c =>
    report .debug ("sheet " ++ quoted title ++ ": column " ++ quoted c.title ++ " inferred as " ++
      c.kind.label)

/-- The dataset of a sheet, if the sheet holds one. -/
def build (s : Service σ) (sourceId : String) (range : CellRange) (sheet : Sheet) :
    Task σ (Option Dataset) := do
  if sheet.isGrid then
    match s.source.readGrid sourceId sheet.title range with
    | .error e => throw (sheetUnreadable sheet.title e)
    | .ok grid =>
      match Dataset.ofGrid? s.settings.inference sheet.title s.settings.ingest.userId grid with
      | some d => reportColumns sheet.title d; return some d
      | none =>
        report .warning ("sheet " ++ quoted sheet.title ++ " has no values, skipping")
        return none
  else
    report .debug ("skipping non-grid sheet " ++ quoted sheet.title)
    return none

def create (s : Service σ) (sourceId : String) (d : Dataset) : Task σ Entry := do
  let d ← s.callOr datasetUnsaved (.createDataset d)
  let entry := Entry.preview "" d s.source.provenance sourceId
  let entry ← s.callOr entryUnsaved (.createEntry entry)
  report .info ("ingested sheet " ++ quoted d.name ++ " as metadata " ++ entry.id ++ " (" ++
    Text.natText entry.size ++ " rows, " ++ Text.natText entry.header.length ++ " columns)")
  return entry

/-- Reads a document into the catalog and gives the new entries, in the order of the sheets. A
    document without sheets gives none. -/
def ingest (s : Service σ) (sourceId : String) : Task σ (List Entry) := do
  match s.settings.range, s.source.sheets sourceId with
  | .error failure, _ => throw failure
  | .ok _, .error e => throw (documentUnreadable sourceId e)
  | .ok _, .ok [] =>
    report .info ("source " ++ quoted sourceId ++ " has no sheets")
    return []
  | .ok range, .ok sheets =>
    match (← sheets.mapM (s.build sourceId range)).filterMap id with
    | [] => throw noValues
    | datasets => datasets.mapM (s.create sourceId)

end GridCatalog.Service
