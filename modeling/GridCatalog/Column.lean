import GridCatalog.Cell

/-! Column headings.

    A column remembers in `origin` where it stood in the grid it was read from; `index` is its
    place in the current order, which an approval may change. -/

namespace GridCatalog

/-- The heading of a column. -/
structure Column where
  title : String
  /-- The place of the column in the grid it was read from. -/
  origin : Nat
  /-- The place that approvals name the column by. -/
  index : Nat
  kind : CellKind
  /-- The decimal places that its numbers are meant to be read with. -/
  decimals : Int8
  isOutput : Bool
deriving DecidableEq, Repr

/-- A column as it is read from a grid. -/
def Column.atPosition (title : String) (position : Nat) (kind : CellKind) : Column :=
  { title, origin := position, index := position, kind, decimals := 0, isOutput := false }

end GridCatalog
