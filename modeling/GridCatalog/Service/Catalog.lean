import GridCatalog.Approval
import GridCatalog.Service.Basic

/-! Looking at the catalog and changing its entries.

    Reading leaves the store as it is. Approving writes the reshaped dataset first and then its new
    entry; if the second write fails, the first one stays. -/

namespace GridCatalog.Service

variable {σ : Type}

/-- The approved entries that are not archived, newest first, a page at a time. -/
def list (s : Service σ) (after : Option String) (limit : Int) : Task σ (List Entry) :=
  if limit < 1 then throw (.refused "bad-model" "Limit can not be less than 1")
  else s.callOr entriesUnreadable (.listEntries (Query.listed after limit.toNat))

def entry (s : Service σ) (id : String) : Task σ Entry := s.callOr entryUnreadable (.readEntry id)

/-- The entry with an id and its dataset. -/
def entryAndDataset (s : Service σ) (id : String) : Task σ (Entry × Dataset) := do
  let entry ← s.entry id
  let dataset ← s.callOr datasetUnreadable (.readDataset entry.datasetId)
  return (entry, dataset)

/-- The rows of an entry's dataset from position `skip` to before position `limit`. -/
def read (s : Service σ) (id : String) (skip limit : Int) : Task σ Dataset := do
  let (_, dataset) ← s.entryAndDataset id
  return dataset.page skip limit

/-- The entry of a dataset that has been approved in place of a former entry. -/
def approvedEntry (former : Entry) (d : Dataset) : Entry :=
  { Entry.preview former.id d former.provenance former.sourceId with
    purpose := former.purpose
    created := former.created
    updated := former.updated
    synced := former.synced
    isTemporary := false }

/-- Reshapes the dataset of an entry as an approval asks for it, and makes the entry permanent. -/
def approve (s : Service σ) (id : String) (approval : Approval) : Task σ Entry := do
  if approval.selections.isEmpty then throw (.refused "bad-model" "No entities selected")
  let (former, dataset) ← s.entryAndDataset id
  let dataset := { dataset.reshape approval with entryId := some former.id }
  let _ ← s.callOr datasetUnsaved (.updateDataset dataset)
  let entry ← s.callOr entryUnsaved (.updateEntry (approvedEntry former dataset))
  report .info ("approved metadata " ++ entry.id ++ " as '" ++ entry.name ++ "' with " ++
    Text.natText entry.header.length ++ " columns")
  return entry

/-- Takes an entry off the lists; it is removed when it has been archived for long enough. -/
def archive (s : Service σ) (id : String) : Task σ Entry := do
  let entry ← s.entry id
  let now ← s.now
  let entry ← s.callOr entryUnarchived
    (.updateEntry { entry with isArchived := true, archived := some now })
  report .info ("archived metadata " ++ entry.id)
  return entry

end GridCatalog.Service
