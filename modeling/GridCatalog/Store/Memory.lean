import GridCatalog.Store.Basic
import GridCatalog.Table

/-! Stores in memory.

    Datasets and entries are kept in tables under their ids, in the order in which they came. -/

namespace GridCatalog

/-- The datasets and entries of a store in memory. -/
structure Memory where
  datasets : Table String Dataset
  entries : Table String Entry

namespace Memory

def empty : Memory := ⟨Table.empty, Table.empty⟩

/-- What is found under an id. -/
def found {α : Type} (id : String) : Option α → Except StoreError α
  | some a => .ok a
  | none => .error (.notFound id)

/-- Puts an entry in under its own id as it is. -/
def insertEntry (m : Memory) (e : Entry) : Memory := { m with entries := m.entries.insert e.id e }

/-- Puts a dataset in under its own id as it is. -/
def insertDataset (m : Memory) (d : Dataset) : Memory :=
  { m with datasets := m.datasets.insert d.id d }

def run {α : Type} (call : Call α) (stamp : Stamp) (m : Memory) : Except StoreError α × Memory :=
  match call with
  | .createDataset d =>
    let d := d.stamped stamp
    (.ok d, m.insertDataset d)
  | .readDataset id => (found id (m.datasets.get? id), m)
  | .updateDataset d =>
    if (m.datasets.get? d.id).isSome then
      let d := d.touched stamp.now
      (.ok d, m.insertDataset d)
    else (.error (.notFound d.id), m)
  | .deleteDataset id =>
    if (m.datasets.get? id).isSome then (.ok (), { m with datasets := m.datasets.erase id })
    else (.error (.notFound id), m)
  | .createEntry e =>
    let e := e.stamped stamp
    (.ok e, m.insertEntry e)
  | .readEntry id => (found id (m.entries.get? id), m)
  | .listEntries query => (.ok (query.page m.entries.values), m)
  | .expiredEntries retention now =>
    (.ok (m.entries.values.filter fun e => retention.isExpired e now), m)
  | .updateEntry e =>
    if (m.entries.get? e.id).isSome then
      let e := e.touched stamp.now
      (.ok e, m.insertEntry e)
    else (.error (.notFound e.id), m)
  | .deleteEntry id =>
    if (m.entries.get? id).isSome then (.ok (), { m with entries := m.entries.erase id })
    else (.error (.notFound id), m)

def store : Store Memory := ⟨run⟩

end Memory

end GridCatalog
