import GridCatalog.CellRange
import GridCatalog.Entry
import GridCatalog.Failure

/-! Sources of grids.

    A source knows documents by their ids. A document has sheets, in order; some hold grids, and
    the others are listed but cannot be read. -/

namespace GridCatalog

/-- A sheet of a document. -/
structure Sheet where
  title : String
  isGrid : Bool
deriving DecidableEq, Repr

/-- A source of grids. -/
structure Source where
  /-- Where the grids come from. -/
  provenance : Provenance
  /-- The sheets of a document. -/
  sheets : String → Except SourceError (List Sheet)
  /-- The cells of a sheet that lie in a range. -/
  readGrid : String → String → CellRange → Except SourceError Grid

end GridCatalog
