import GridCatalog.Dataset

/-! Catalog entries: previews of stored datasets.

    An entry copies the name, owner, columns and first rows of its dataset. It is temporary until
    it is approved; an archived entry keeps the state it had before. -/

namespace GridCatalog

/-- Where a grid came from. -/
inductive Provenance where
  | worksheet
  | uploadedFile
deriving DecidableEq, Repr, Inhabited

/-- What a dataset is used for. -/
inductive Purpose where
  | training
  | validation
  | prediction
deriving DecidableEq, Repr, Inhabited

/-- The preview of a dataset. -/
structure Entry where
  id : String
  name : String
  userId : String
  header : List Column
  /-- The first rows of the dataset. -/
  examples : List Row
  /-- The number of rows of the dataset. -/
  size : Nat
  purpose : Purpose
  /-- The id of the dataset. -/
  datasetId : String
  provenance : Provenance
  sourceId : String
  isTemporary : Bool
  isArchived : Bool
  created : Option Instant
  updated : Option Instant
  synced : Option Instant
  archived : Option Instant
deriving DecidableEq, Repr

namespace Entry

/-- The number of rows that an entry shows. -/
def exampleRows : Nat := 3

/-- The entry of a dataset that has just been read. -/
def preview (id : String) (d : Dataset) (provenance : Provenance) (sourceId : String) : Entry :=
  { id, name := d.name, userId := d.userId, header := d.header
    examples := d.body.take exampleRows, size := d.rowCount, purpose := .training
    datasetId := d.id, provenance, sourceId, isTemporary := true, isArchived := false
    created := none, updated := none, synced := none, archived := none }

/-- The word for the state of an entry. -/
def stateLabel (e : Entry) : String :=
  if e.isArchived then "archived" else if e.isTemporary then "temporary" else "approved"

end Entry

end GridCatalog
