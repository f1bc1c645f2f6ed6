import GridCatalog.Service.Basic

/-! Removing expired entries with their datasets.

    A sweep goes on after a failure and reports it. A dataset is removed only after its entry. -/

namespace GridCatalog

/-- The ids of the expired entries, by what became of them. -/
structure SweepReport where
  /-- The entries that were removed with their datasets. -/
  removed : List String
  /-- The entries of which something is left. -/
  failed : List String
deriving DecidableEq, Repr

namespace SweepReport

def isClean (r : SweepReport) : Bool := r.failed.isEmpty

def toJson (r : SweepReport) : Json :=
  .ofMembers [("removed", .array (r.removed.map Json.ofString)),
    ("failed", .array (r.failed.map Json.ofString))]

def add (r : SweepReport) (id : String) (isRemoved : Bool) : SweepReport :=
  if isRemoved then { r with removed := r.removed ++ [id] }
  else { r with failed := r.failed ++ [id] }

end SweepReport

namespace Service

variable {σ : Type}

/-- Removes an entry and its dataset, and tells whether both are gone. -/
def discard (s : Service σ) (e : Entry) : StateM (World σ) Bool := do
  match ← s.call (.deleteEntry e.id) with
  | .error error =>
    note .error ("Can not delete expired metadata " ++ e.id ++ ": " ++ error.message)
    return false
  | .ok () =>
    match ← s.call (.deleteDataset e.datasetId) with
    | .error error =>
      note .error ("Can not delete expired dataset " ++ e.datasetId ++ ": " ++ error.message)
      return false
    | .ok () => return true

/-- Removes the given entries one after the other. -/
def discardAll (s : Service σ) (report : SweepReport) : List Entry → StateM (World σ) SweepReport
  | [] => return report
  | e :: rest => do
    let isRemoved ← s.discard e
    s.discardAll (report.add e.id isRemoved) rest

/-- Removes everything that has expired at a time. -/
def sweepAt (s : Service σ) (now : Instant) : StateM (World σ) SweepReport := do
  match ← s.call (.expiredEntries s.settings.retention now) with
  | .error error =>
    note .error ("Can not read expired metadata: " ++ error.message)
    return ⟨[], []⟩
  | .ok expired =>
    let report ← s.discardAll ⟨[], []⟩ expired
    note .info ("sweep removed " ++ Text.natText report.removed.length ++ " entries, " ++
      Text.natText report.failed.length ++ " failed")
    return report

def sweep (s : Service σ) : StateM (World σ) SweepReport := do
  s.sweepAt (← s.now)

end Service

end GridCatalog
