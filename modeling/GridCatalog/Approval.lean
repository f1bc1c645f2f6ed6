import GridCatalog.Dataset

/-! Approvals and how they reshape a dataset.

    An approval is a list of selections. Each selection names a column by its current index and
    gives the column a new index, title, decimal places and role. A column named by several
    selections follows the one with the least new index, and among those with the same new index
    the first; a column named by none is dropped. The new columns stand in the order of their
    selections. -/

namespace GridCatalog

/-- The choice of one column. -/
structure Selection where
  /-- The current index of the column. -/
  column : Nat
  /-- The new index. -/
  index : Nat
  title : String
  decimals : Int8
  isOutput : Bool
deriving DecidableEq, Repr

/-- A new name and the columns to keep. -/
structure Approval where
  name : String
  selections : List Selection
deriving DecidableEq, Repr

/-- The selections by new index; those with the same index keep their order. -/
def Approval.ranked (a : Approval) : List Selection :=
  a.selections.mergeSort fun s t => s.index ≤ t.index

/-- A column that is kept, with the selection that it follows. -/
structure Pick where
  /-- The place of the selection among the ranked selections. -/
  rank : Nat
  selection : Selection
  /-- The place of the column in the header. -/
  position : Nat
  column : Column
deriving DecidableEq, Repr

namespace Pick

/-- The selection that a column follows: the first of the ranked selections that names it. -/
def find? (ranked : List Selection) (column : Column) (position : Nat) : Option Pick :=
  (ranked.zipIdx.find? fun (s, _) => s.column = column.index).map fun (s, rank) =>
    ⟨rank, s, position, column⟩

def heading (p : Pick) : Column :=
  { p.column with
    title := p.selection.title
    index := p.selection.index
    decimals := p.selection.decimals
    isOutput := p.selection.isOutput }

/-- The cell of the kept column in a row of the old order; a row that is too short gives an empty
    cell. -/
def cell (p : Pick) (row : Row) : Cell := row[p.position]?.getD (Cell.empty p.column.kind)

end Pick

/-- The kept columns in their new order; columns that follow the same selection stay in order. -/
def Approval.picks (a : Approval) (header : List Column) : List Pick :=
  (header.zipIdx.filterMap fun (c, position) => Pick.find? a.ranked c position).mergeSort
    fun p q => p.rank ≤ q.rank

/-- A dataset as an approval asks for it. -/
def Dataset.reshape (d : Dataset) (a : Approval) : Dataset :=
  let picks := a.picks d.header
  { d with
    name := a.name
    header := picks.map Pick.heading
    body := d.body.map fun row => picks.map fun p => p.cell row }

/-- Reshaping keeps the number of rows. -/
theorem Dataset.rowCount_reshape (d : Dataset) (a : Approval) :
    (d.reshape a).rowCount = d.rowCount := by simp [reshape, rowCount]

/-- After reshaping every row has one cell per column. -/
theorem Dataset.length_row_reshape {d : Dataset} {a : Approval} {row : Row}
    (h : row ∈ (d.reshape a).body) : row.length = (d.reshape a).columnCount := by
  simp only [reshape, List.mem_map] at h
  obtain ⟨_, _, rfl⟩ := h
  simp [reshape, columnCount]

end GridCatalog
