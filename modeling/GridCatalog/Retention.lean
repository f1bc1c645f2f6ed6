import GridCatalog.Entry

/-! How long entries are kept.

    A temporary entry expires some minutes after its creation, an archived one some calendar months
    after it was archived. An entry without the time in question does not expire through it, and
    nothing expires through a span that leads out of the calendar. -/

namespace GridCatalog

/-- The spans after which entries expire. -/
structure Retention where
  temporaryMinutes : Int64
  archivedMonths : UInt32
deriving DecidableEq, Repr

namespace Retention

/-- Half an hour for temporary entries and a month for archived ones. -/
def default : Retention := ⟨30, 1⟩

/-- Whether a time is at or before a cutoff; both have to exist. -/
def reaches (time cutoff : Option Instant) : Bool :=
  match time, cutoff with
  | some time, some cutoff => time ≤ cutoff
  | _, _ => false

def isExpired (r : Retention) (e : Entry) (now : Instant) : Bool :=
  (e.isTemporary && reaches e.created (now.minusMinutes? r.temporaryMinutes.toInt)) ||
    (e.isArchived && reaches e.archived (now.minusMonths? r.archivedMonths.toNat))

end Retention

end GridCatalog
