import GridCatalog.Inference.Pattern
import GridCatalog.Text.Numeral

/-! The heading row of a grid.

    A first row whose cells all look like titles is a heading; any other first row is data, and
    its columns are numbered. -/

namespace GridCatalog.Inference

def isHeading (row : List String) : Bool :=
  !row.isEmpty && row.all fun text => isTitle text.toList

/-- The title of a column without one, from its number. -/
def numberTitle (number : Nat) : String := "column-" ++ Text.natText number

/-- The title of a column without one, from its position. -/
def numberedTitle (position : Nat) : String := numberTitle (position + 1)

/-- The titles of the columns, one for each cell of the first row. -/
def titles (firstRow : List String) : List String :=
  if isHeading firstRow then firstRow
  else (List.range firstRow.length).map numberedTitle

theorem length_titles (firstRow : List String) : (titles firstRow).length = firstRow.length := by
  unfold titles
  split <;> simp

end GridCatalog.Inference
