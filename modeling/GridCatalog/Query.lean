import GridCatalog.Entry

/-! Queries for catalog entries.

    A query keeps the entries with the asked flags, sorts them by time of creation and, at the same
    time, by id, and gives one page. A page starts behind the entry with the cursor's id, or at the
    start if no entry has it. Entries without a time count as the oldest. -/

namespace GridCatalog

/-- The order of entries by time of creation. -/
inductive EntryOrder where
  | newestFirst
  | oldestFirst
deriving DecidableEq, Repr

/-- A query for one page of entries. -/
structure Query where
  /-- The id of the last entry of the page before. -/
  after : Option String
  limit : Nat
  /-- The flag that entries must have, if one is asked for. -/
  isTemporary : Option Bool
  /-- The flag that entries must have, if one is asked for. -/
  isArchived : Option Bool
  order : EntryOrder
deriving DecidableEq, Repr

namespace Query

/-- The number of entries on a page when none is asked for. -/
def defaultLimit : Nat := 20

/-- The first page of all entries, newest first. -/
def default : Query := ⟨none, defaultLimit, none, none, .newestFirst⟩

/-- A page of the approved entries that are not archived. -/
def listed (after : Option String) (limit : Nat) : Query :=
  ⟨after, limit, some false, some false, .newestFirst⟩

/-- Whether an asked flag is there. -/
def agrees (asked : Option Bool) (flag : Bool) : Bool := asked.all (· = flag)

/-- Whether an entry has the asked flags. -/
def accepts (q : Query) (e : Entry) : Bool :=
  agrees q.isTemporary e.isTemporary && agrees q.isArchived e.isArchived

/-- Whether a time is earlier than another; no time is earlier than any. -/
def isEarlier : Option Instant → Option Instant → Bool
  | _, none => false
  | none, some _ => true
  | some a, some b => a < b

/-- Whether an entry stands before another or at the same place. -/
def precedes (order : EntryOrder) (a b : Entry) : Bool :=
  let (first, second) := match order with
    | .oldestFirst => (a.created, b.created)
    | .newestFirst => (b.created, a.created)
  isEarlier first second || (!isEarlier second first && a.id ≤ b.id)

/-- The entries behind the one with the cursor's id. -/
def behind (after : Option String) (entries : List Entry) : List Entry :=
  match after.bind fun id => entries.findIdx? fun e => e.id = id with
  | some position => entries.drop (position + 1)
  | none => entries

/-- All entries that a query accepts, in order. -/
def matching (q : Query) (entries : List Entry) : List Entry :=
  (entries.filter q.accepts).mergeSort (precedes q.order)

def page (q : Query) (entries : List Entry) : List Entry :=
  (behind q.after (q.matching entries)).take q.limit

end Query

end GridCatalog
