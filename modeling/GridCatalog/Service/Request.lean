import GridCatalog.Service.Catalog
import GridCatalog.Service.Ingest
import GridCatalog.Service.Sweep

/-! Requests to the service as data, and runs of requests. -/

namespace GridCatalog

/-- Something that the service is asked for. -/
inductive Request where
  | ingest (sourceId : String)
  | list (after : Option String) (limit : Int)
  | entry (id : String)
  | read (id : String) (skip limit : Int)
  | approve (id : String) (approval : Approval)
  | archive (id : String)
  /-- A sweep at a given time, or else at the time of the clock. -/
  | sweep (now : Option Instant)
deriving DecidableEq, Repr

/-- What the service answers with. -/
inductive Answer where
  | entries (entries : List Entry)
  | entry (entry : Entry)
  | dataset (dataset : Dataset)
  | report (report : SweepReport)
deriving DecidableEq, Repr

namespace Service

variable {σ : Type}

def handle (s : Service σ) : Request → Task σ Answer
  | .ingest sourceId => return .entries (← s.ingest sourceId)
  | .list after limit => return .entries (← s.list after limit)
  | .entry id => return .entry (← s.entry id)
  | .read id skip limit => return .dataset (← s.read id skip limit)
  | .approve id approval => return .entry (← s.approve id approval)
  | .archive id => return .entry (← s.archive id)
  | .sweep (some now) => return .report (← s.sweepAt now)
  | .sweep none => return .report (← s.sweep)

/-- Serves requests one after the other, whether they fail or not. -/
def runAll (s : Service σ) (w : World σ) (requests : List Request) : World σ :=
  requests.foldl (fun w request => (s.handle request w).2) w

/-- A bound of a page from its text. -/
def pageBound (name text : String) : Except Failure Int :=
  match Text.signed? Text.intBound64 (Text.trim text.toList) with
  | some n => .ok n
  | none => .error (.refused "bad-param" ("Bad " ++ name ++ " param"))

end Service

end GridCatalog
