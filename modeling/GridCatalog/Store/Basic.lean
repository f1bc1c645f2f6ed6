import GridCatalog.Failure
import GridCatalog.Query
import GridCatalog.Retention

/-! Stores of datasets and catalog entries.

    A store answers calls. The type of a call says what it answers with. Every call comes with a
    stamp: an id that has not been used and the time; a creation takes both, and an update takes
    the time. -/

namespace GridCatalog

/-- A call to a store, by the type of its answer. -/
inductive Call : Type → Type where
  /-- Stores a new dataset under a fresh id. -/
  | createDataset (dataset : Dataset) : Call Dataset
  | readDataset (id : String) : Call Dataset
  /-- Replaces a stored dataset. -/
  | updateDataset (dataset : Dataset) : Call Dataset
  | deleteDataset (id : String) : Call Unit
  /-- Stores a new entry under a fresh id. -/
  | createEntry (entry : Entry) : Call Entry
  | readEntry (id : String) : Call Entry
  | listEntries (query : Query) : Call (List Entry)
  | expiredEntries (retention : Retention) (now : Instant) : Call (List Entry)
  /-- Replaces a stored entry. -/
  | updateEntry (entry : Entry) : Call Entry
  | deleteEntry (id : String) : Call Unit

/-- The kinds of calls. -/
inductive CallKind where
  | createDataset
  | readDataset
  | updateDataset
  | deleteDataset
  | createEntry
  | readEntry
  | listEntries
  | expiredEntries
  | updateEntry
  | deleteEntry
deriving DecidableEq, Repr

def Call.kind {α : Type} : Call α → CallKind
  | createDataset _ => .createDataset
  | readDataset _ => .readDataset
  | updateDataset _ => .updateDataset
  | deleteDataset _ => .deleteDataset
  | createEntry _ => .createEntry
  | readEntry _ => .readEntry
  | listEntries _ => .listEntries
  | expiredEntries _ _ => .expiredEntries
  | updateEntry _ => .updateEntry
  | deleteEntry _ => .deleteEntry

/-- A fresh id and the time. -/
structure Stamp where
  id : String
  now : Instant
deriving DecidableEq, Repr

/-- A new dataset with its id and times. -/
def Dataset.stamped (d : Dataset) (s : Stamp) : Dataset :=
  { d with id := s.id, created := some s.now, updated := some s.now }

/-- A new entry with its id and times. -/
def Entry.stamped (e : Entry) (s : Stamp) : Entry :=
  { e with id := s.id, created := some s.now, updated := some s.now, synced := some s.now }

/-- A dataset with the time of its update. -/
def Dataset.touched (d : Dataset) (now : Instant) : Dataset := { d with updated := some now }

/-- An entry with the time of its update. -/
def Entry.touched (e : Entry) (now : Instant) : Entry := { e with updated := some now }

/-- A kind of store: how it answers calls in a state, and the state that it is in afterwards. -/
structure Store (σ : Type) where
  run : {α : Type} → Call α → Stamp → σ → Except StoreError α × σ

end GridCatalog
