import GridCatalog.Calendar.Instant
import GridCatalog.Column

/-! Datasets: typed columns and a body of rows.

    Nothing forces a row to have one cell per column; the datasets that are built from grids have
    it, and reshaping makes it so. -/

namespace GridCatalog

/-- The cells of a row, in the order of the columns. -/
abbrev Row := List Cell

/-- A table with typed columns. -/
structure Dataset where
  /-- Empty until a store gives an id. -/
  id : String
  name : String
  /-- The catalog entry that the dataset was approved for. -/
  entryId : Option String
  userId : String
  header : List Column
  body : List Row
  created : Option Instant
  updated : Option Instant
deriving DecidableEq, Repr

namespace Dataset

/-- A dataset that no store has seen yet. -/
def new (name userId : String) (header : List Column) (body : List Row) : Dataset :=
  { id := "", name, entryId := none, userId, header, body, created := none, updated := none }

def rowCount (d : Dataset) : Nat := d.body.length

def columnCount (d : Dataset) : Nat := d.header.length

/-- The cell at a row and a column. -/
def cell? (d : Dataset) (row column : Nat) : Option Cell := do
  let cells ← d.body[row]?
  cells[column]?

end Dataset

/-- Rows with their empty cells retyped to the kinds of the columns; cells behind the last column
    are kept. -/
def retypeRow : List CellKind → Row → Row
  | kind :: kinds, cell :: cells => cell.retype kind :: retypeRow kinds cells
  | [], cells => cells
  | _, [] => []

/-- A number of a page bound, held between 0 and `size`. -/
def clampBound (size : Nat) (bound : Int) : Nat := min bound.toNat size

/-- The positions `start ≤ i < stop` of a page of `size` rows; `stop` is never below `start`. -/
def pageBounds (size : Nat) (skip limit : Int) : Nat × Nat :=
  let start := clampBound size skip
  (start, max start (clampBound size limit))

/-- The rows from position `skip` to before position `limit`. -/
def pageRows {α : Type} (rows : List α) (skip limit : Int) : List α :=
  let (start, stop) := pageBounds rows.length skip limit
  (rows.drop start).take (stop - start)

/-- A dataset cut down to the rows from position `skip` to before position `limit`. -/
def Dataset.page (d : Dataset) (skip limit : Int) : Dataset :=
  { d with body := pageRows d.body skip limit }

/-- The bounds are in order and inside the rows. -/
theorem pageBounds_le (size : Nat) (skip limit : Int) :
    (pageBounds size skip limit).1 ≤ (pageBounds size skip limit).2 ∧
      (pageBounds size skip limit).2 ≤ size := by
  simp only [pageBounds, clampBound]
  omega

end GridCatalog
