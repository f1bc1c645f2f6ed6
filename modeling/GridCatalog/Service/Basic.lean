import GridCatalog.Settings
import GridCatalog.Source.Basic
import GridCatalog.Store.Basic

/-! The catalog service and the world around it.

    The service holds no state of its own. The world holds the state of the store, the number of
    store calls so far and the log. The surroundings say, for the number of a call, whether it
    fails, which id is fresh and what time it is. -/

namespace GridCatalog

/-- How much a line of the log matters. -/
inductive LogLevel where
  | debug
  | info
  | warning
  | error
deriving DecidableEq, Repr

/-- A line of the log. -/
structure LogLine where
  level : LogLevel
  text : String
deriving DecidableEq, Repr

/-- What the service does not decide itself. -/
structure Surroundings where
  /-- The error that a call ends with before it reaches the store, if it does. -/
  fault : Nat → CallKind → Option StoreError
  freshId : Nat → String
  clock : Nat → Instant

/-- The state of a store and what has happened to it. -/
structure World (σ : Type) where
  store : σ
  /-- The number of store calls so far. -/
  calls : Nat
  /-- The lines of the log in order. -/
  log : List LogLine

/-- The world around a store that has not been called. -/
def World.start {σ : Type} (store : σ) : World σ := ⟨store, 0, []⟩

/-- The catalog service over a kind of store. -/
structure Service (σ : Type) where
  store : Store σ
  source : Source
  settings : Settings
  surroundings : Surroundings

/-- Something that the service does: it changes the world and may fail. -/
abbrev Task (σ α : Type) := ExceptT Failure (StateM (World σ)) α

namespace Service

variable {σ α : Type}

def stamp (s : Service σ) (w : World σ) : Stamp :=
  ⟨s.surroundings.freshId w.calls, s.surroundings.clock w.calls⟩

/-- Calls the store. A call that fails beforehand leaves the store as it is. -/
def call (s : Service σ) (c : Call α) : StateM (World σ) (Except StoreError α) := fun w =>
  match s.surroundings.fault w.calls c.kind with
  | some e => (.error e, { w with calls := w.calls + 1 })
  | none =>
    let (answer, store) := s.store.run c (s.stamp w) w.store
    (answer, { w with store, calls := w.calls + 1 })

/-- Calls the store, and fails as `blame` says if the call does. -/
def callOr (s : Service σ) (blame : StoreError → Failure) (c : Call α) : Task σ α :=
  ExceptT.mk do
    match ← s.call c with
    | .ok a => return .ok a
    | .error e => return .error (blame e)

def now (s : Service σ) : StateM (World σ) Instant := fun w => (s.surroundings.clock w.calls, w)

def note (level : LogLevel) (text : String) : StateM (World σ) Unit :=
  modify fun w => { w with log := w.log ++ [⟨level, text⟩] }

/-- Writes a line into the log in the middle of a task. -/
def report (level : LogLevel) (text : String) : Task σ Unit := ExceptT.lift (note level text)

/-! ### Failures of single calls -/

def datasetUnsaved (e : StoreError) : Failure :=
  .unsaved "dataset-write" "Can not save dataset" e

def entryUnsaved (e : StoreError) : Failure :=
  .unsaved "metadata-write" "Can not save dataset metadata" e

def entryUnarchived (e : StoreError) : Failure :=
  .unsaved "metadata-archive-error" "Can not archive metadata" e

def entriesUnreadable (e : StoreError) : Failure :=
  .unreadable "store-unavailable" "Can not read metadata" (.store e)

def entryUnreadable (e : StoreError) : Failure :=
  if e.isNotFound then .absent "not-found" "Metadata not found" else entriesUnreadable e

def datasetUnreadable (e : StoreError) : Failure :=
  if e.isNotFound then .absent "not-found" "Dataset not found"
  else .unreadable "store-unavailable" "Can not read dataset" (.store e)

end Service

end GridCatalog
