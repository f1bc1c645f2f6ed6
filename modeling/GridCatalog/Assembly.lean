import GridCatalog.Dataset
import GridCatalog.Inference.ColumnType
import GridCatalog.Inference.Heading

/-! Datasets from grids.

    A grid is a list of rows of texts. It is cut into columns, each column is typed, and the typed
    columns are laid out as rows again. A row that lacks a cell contributes nothing to that column,
    so the values below it move up. -/

namespace GridCatalog

abbrev Grid := List (List String)

namespace Grid

/-- The texts of a column, from the rows that reach it. -/
def column (rows : Grid) (position : Nat) : List String :=
  rows.filterMap fun row => row[position]?

def columns (rows : Grid) (width : Nat) : List (List String) :=
  (List.range width).map rows.column

/-- The rows that hold data: all but a heading. -/
def dataRows (grid : Grid) : Grid :=
  match grid with
  | [] => []
  | first :: rest => if Inference.isHeading first then rest else grid

end Grid

namespace Dataset

/-- One typed column for each title: columns without a title are dropped, and titles without a
    column get one without cells. -/
def fitColumns (width : Nat) (columns : List TypedColumn) : List TypedColumn :=
  let kept := columns.take width
  kept ++ List.replicate (width - kept.length) ⟨.numbers, []⟩

def longest (columns : List TypedColumn) : Nat :=
  columns.foldl (fun n c => max n c.cells.length) 0

/-- The cell of a column in a row; below its end a column has empty cells. -/
def cellAt (column : TypedColumn) (row : Nat) : Cell :=
  column.cells[row]?.getD (Cell.empty column.kind)

/-- A dataset with the given titles and columns. -/
def assemble (name userId : String) (titles : List String) (columns : List TypedColumn) : Dataset :=
  let columns := fitColumns titles.length columns
  let header := (titles.zip columns).zipIdx.map fun ((title, column), position) =>
    Column.atPosition title position column.kind
  let body := (List.range (longest columns)).map fun row => columns.map fun c => cellAt c row
  new name userId header body

/-- The dataset of a grid. There is none if the first row is missing or empty, or if no row is left
    below a heading. -/
def ofGrid? (settings : InferenceSettings) (name userId : String) (grid : Grid) : Option Dataset :=
  match grid with
  | [] => none
  | first :: _ =>
    let rows := grid.dataRows
    if first.isEmpty || rows.isEmpty then none
    else
      let columns := (rows.columns first.length).map (Inference.infer settings)
      some (assemble name userId (Inference.titles first) columns)

end Dataset

end GridCatalog
