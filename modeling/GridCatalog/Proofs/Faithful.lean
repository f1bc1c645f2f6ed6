import GridCatalog.Entry
import GridCatalog.Proofs.GridRows
import GridCatalog.Proofs.Picks

/-! Rows whose JSON form shows all of them.

    An empty cell is written without its kind, and a number that is not finite without its value. Rows are `Faithful`
    to a header if nothing is lost by that: their numbers are finite, and their empty cells have the kinds that reading
    gives them. The rows of a grid are, and neither reshaping nor cutting changes it. -/

namespace GridCatalog

/-- The numbers of a cell. -/
def Cell.floats : Cell → List Float
  | numbers xs => xs
  | texts _ => []

def Cell.Finite (c : Cell) : Prop := ∀ x ∈ c.floats, x.isFinite = true

/-- Every number is finite, and every empty cell has the kind of its column, or holds numbers if it stands beyond the
    header. -/
structure FaithfulRows (header : List Column) (rows : List Row) : Prop where
  finite : ∀ row ∈ rows, ∀ cell ∈ row, cell.Finite
  inside : ∀ row ∈ rows, ∀ {i : Nat} {cell : Cell} {column : Column},
    row[i]? = some cell → header[i]? = some column → cell.isEmpty = true → cell.kind = column.kind
  beyond : ∀ row ∈ rows, ∀ {i : Nat} {cell : Cell},
    row[i]? = some cell → header.length ≤ i → cell.isEmpty = true → cell.kind = .numbers

def Dataset.Faithful (d : Dataset) : Prop := FaithfulRows d.header d.body

def Entry.Faithful (e : Entry) : Prop := FaithfulRows e.header e.examples

variable {header : List Column} {rows rows' : List Row} {c : Cell} {k : CellKind}

theorem Cell.finite_empty (k : CellKind) : (Cell.empty k).Finite := by
  cases k <;> exact fun x hx => by cases hx

theorem FaithfulRows.subset (h : FaithfulRows header rows) (hrows : ∀ row ∈ rows', row ∈ rows) :
    FaithfulRows header rows' where
  finite row hrow := h.finite row (hrows row hrow)
  inside row hrow := h.inside row (hrows row hrow)
  beyond row hrow := h.beyond row (hrows row hrow)

/-! ### Retyping -/

theorem Cell.retype_eq_self : c.retype k = c ↔ (c.isEmpty = true → c.kind = k) := by
  unfold retype
  split
  · rename_i hempty
    refine ⟨fun heq _ => ?_, fun hkind => ?_⟩
    · rw [← heq, kind_empty]
    · rw [← hkind hempty]
      exact (eq_empty_of_isEmpty hempty).symm
  · rename_i hfull
    exact ⟨fun _ hempty => absurd hempty hfull, fun _ => rfl⟩

theorem Cell.isEmpty_retype (k : CellKind) (c : Cell) : (c.retype k).isEmpty = c.isEmpty := by
  unfold retype
  split
  · rename_i hempty
    rw [isEmpty_empty, hempty]
  · rfl

theorem Cell.kind_retype (h : (c.retype k).isEmpty = true) : (c.retype k).kind = k := by
  rw [isEmpty_retype] at h
  rw [retype, if_pos h, kind_empty]

theorem Cell.retype_retype (k k' : CellKind) (c : Cell) : (c.retype k').retype k = c.retype k := by
  by_cases h : c.isEmpty = true
  · rw [retype, if_pos (by rwa [isEmpty_retype]), retype, if_pos h]
  · rw [retype_of_not_isEmpty (Bool.eq_false_iff.mpr h) k']

theorem Cell.finite_retype (h : c.Finite) (k : CellKind) : (c.retype k).Finite := by
  unfold retype
  split
  · exact finite_empty k
  · exact h

/-- The kind that reading gives an empty cell at a place. -/
def kindAt (header : List Column) (i : Nat) : CellKind := ((header.map Column.kind)[i]?).getD .numbers

theorem kindAt_of_getElem? {i : Nat} {column : Column} (h : header[i]? = some column) : kindAt header i = column.kind := by
  rw [kindAt, List.getElem?_map, h]
  rfl

theorem kindAt_of_le {i : Nat} (h : header.length ≤ i) : kindAt header i = .numbers := by
  rw [kindAt, List.getElem?_map, List.getElem?_eq_none h]
  rfl

theorem FaithfulRows.kind (h : FaithfulRows header rows) {row : Row} (hrow : row ∈ rows) {i : Nat} (hc : row[i]? = some c)
    (hempty : c.isEmpty = true) : c.kind = kindAt header i := by
  by_cases hi : i < header.length
  · have hcolumn := List.getElem?_eq_getElem hi
    rw [kindAt_of_getElem? hcolumn]
    exact h.inside row hrow hc hcolumn hempty
  · rw [kindAt_of_le (Nat.le_of_not_lt hi)]
    exact h.beyond row hrow hc (Nat.le_of_not_lt hi) hempty

theorem FaithfulRows.of_kind (finite : ∀ row ∈ rows, ∀ cell ∈ row, cell.Finite)
    (kind : ∀ row ∈ rows, ∀ {i : Nat} {c : Cell}, row[i]? = some c → c.isEmpty = true → c.kind = kindAt header i) :
    FaithfulRows header rows where
  finite := finite
  inside row hrow _ _ _ hc hcolumn hempty := (kind row hrow hc hempty).trans (kindAt_of_getElem? hcolumn)
  beyond row hrow _ _ hc hi hempty := (kind row hrow hc hempty).trans (kindAt_of_le hi)

theorem getElem?_retypeRow (kinds : List CellKind) (row : Row) (i : Nat) :
    (retypeRow kinds row)[i]? = row[i]?.map fun c => (kinds[i]?.map c.retype).getD c := by
  induction kinds generalizing row i with
  | nil => simp [retypeRow]
  | cons k kinds ih =>
    cases row with
    | nil => simp [retypeRow]
    | cons c row => cases i <;> simp [retypeRow, ih]

/-- The cells of a row as they are read: an empty one is first taken for one of numbers and then retyped. -/
def readRow (header : List Column) (row : Row) : Row :=
  retypeRow (header.map Column.kind) (row.map (Cell.retype .numbers))

theorem getElem?_readRow (header : List Column) (row : Row) (i : Nat) :
    (readRow header row)[i]? = row[i]?.map (Cell.retype (kindAt header i)) := by
  simp only [readRow, kindAt, getElem?_retypeRow, List.getElem?_map, Option.map_map]
  refine congrArg (Option.map · row[i]?) (funext fun c => ?_)
  cases header[i]? with
  | none => rfl
  | some column => exact Cell.retype_retype column.kind .numbers c

/-- Reading keeps faithful rows. -/
theorem FaithfulRows.map_readRow (h : FaithfulRows header rows) : rows.map (readRow header) = rows := by
  refine (List.map_congr_left fun row hrow => List.ext_getElem? fun i => ?_).trans (List.map_id rows)
  rw [getElem?_readRow, id]
  rcases hc : row[i]? with _ | c
  · rfl
  · exact congrArg some (Cell.retype_eq_self.mpr (h.kind hrow hc))

/-- Whatever is read is faithful. -/
theorem faithfulRows_readRow (finite : ∀ row ∈ rows, ∀ cell ∈ row, cell.Finite) :
    FaithfulRows header (rows.map (readRow header)) := by
  have origin {row : Row} {i : Nat} {c : Cell} (hc : (readRow header row)[i]? = some c) :
      ∃ c₀ ∈ row, c = c₀.retype (kindAt header i) := by
    rw [getElem?_readRow] at hc
    obtain ⟨c₀, hc₀, rfl⟩ := Option.map_eq_some_iff.mp hc
    exact ⟨c₀, List.mem_of_getElem? hc₀, rfl⟩
  refine .of_kind (fun row' hrow' c hc => ?_) fun row' hrow' i c hc hempty => ?_
  · obtain ⟨row, hrow, rfl⟩ := List.mem_map.mp hrow'
    obtain ⟨i, hi⟩ := List.getElem?_of_mem hc
    obtain ⟨c₀, hc₀, rfl⟩ := origin hi
    exact Cell.finite_retype (finite row hrow c₀ hc₀) _
  · obtain ⟨row, -, rfl⟩ := List.mem_map.mp hrow'
    obtain ⟨c₀, -, rfl⟩ := origin hc
    exact Cell.kind_retype hempty

/-! ### Grids -/

section Grid
open Inference

variable {settings : InferenceSettings}

theorem Inference.Rule.finite_cell (settings : InferenceSettings) (rule : Rule) (text : String) :
    (rule.cell settings text).Finite := by
  rw [cell]
  rcases h : rule.cell? settings text with _ | c
  · exact Cell.finite_empty _
  obtain ⟨-, rfl⟩ := cell?_eq_some.mp h
  intro x hx
  unfold made at hx
  cases hkind : rule.kind with
  | numbers =>
    rw [hkind] at hx
    obtain ⟨part, -, rfl⟩ := List.mem_map.mp hx
    exact isFinite_numberOf part
  | texts =>
    rw [hkind] at hx
    cases hx

theorem Grid.finite_cellOf (rows : Grid) (settings : InferenceSettings) (c : Nat) (row : List String) :
    (rows.cellOf settings c row).Finite := by
  unfold cellOf
  cases row[c]? with
  | none => exact Cell.finite_empty _
  | some text => exact Inference.Rule.finite_cell _ _ text

end Grid

namespace Dataset
variable {d : Dataset}

/-- The rows of a grid are faithful: every cell has the kind of its column. -/
theorem faithful_ofGrid? {settings : InferenceSettings} {name userId : String} {grid : Grid}
    (h : ofGrid? settings name userId grid = some d) : d.Faithful := by
  have cell {row : Row} (hrow : row ∈ d.body) {i : Nat} {c : Cell} (hc : row[i]? = some c) :
      i < grid.width ∧ ∃ source, c = grid.dataRows.cellOf settings i source := by
    obtain ⟨hi, -⟩ := List.getElem?_eq_some_iff.mp hc
    rw [length_row_ofGrid? h hrow] at hi
    obtain ⟨r, hr⟩ := List.getElem?_of_mem hrow
    obtain ⟨hlt, -⟩ := List.getElem?_eq_some_iff.mp hr
    have hcell := cell?_ofGrid? h hlt hi
    rw [cell?, hr, Option.bind_eq_bind, Option.bind_some, hc, Option.some.injEq] at hcell
    exact ⟨hi, _, hcell⟩
  refine .of_kind (fun row hrow c hc => ?_) fun row hrow i c hc _ => ?_
  · obtain ⟨i, hi⟩ := List.getElem?_of_mem hc
    obtain ⟨-, source, rfl⟩ := cell hrow hi
    exact Grid.finite_cellOf _ _ _ source
  · obtain ⟨hi, source, rfl⟩ := cell hrow hc
    obtain ⟨title, -, hcolumn⟩ := header_ofGrid? h hi
    rw [Grid.kind_cellOf, kindAt_of_getElem? hcolumn]
    rfl

/-- Reshaping keeps rows faithful: a column takes its cells along, and gaps are filled with cells of its kind. -/
theorem Faithful.reshape (h : d.Faithful) (a : Approval) : (d.reshape a).Faithful := by
  have cell {row' : Row} (hrow' : row' ∈ (d.reshape a).body) {i : Nat} {c : Cell} (hc : row'[i]? = some c) :
      c.Finite ∧ (c.isEmpty = true → c.kind = kindAt (d.reshape a).header i) := by
    obtain ⟨row, hrow, rfl⟩ := List.mem_map.mp hrow'
    rw [List.getElem?_map] at hc
    obtain ⟨p, hp, rfl⟩ := Option.map_eq_some_iff.mp hc
    have hcolumn : (d.reshape a).header[i]? = some p.heading := by
      rw [header_reshape, List.getElem?_map, hp]
      rfl
    obtain ⟨hposition, -⟩ := Approval.mem_picks.mp (List.mem_of_getElem? hp)
    rw [kindAt_of_getElem? hcolumn, Pick.cell]
    -- A row that is too short gets an empty cell of the kind that the column had.
    rcases hold : row[p.position]? with _ | c
    · exact ⟨Cell.finite_empty _, fun _ => Cell.kind_empty _⟩
    · have kind := h.inside row hrow hold hposition
      exact ⟨h.finite row hrow c (List.mem_of_getElem? hold), kind⟩
  refine .of_kind (fun row hrow c hc => ?_) fun row hrow i c hc => (cell hrow hc).2
  obtain ⟨i, hi⟩ := List.getElem?_of_mem hc
  exact (cell hrow hi).1

theorem Faithful.page (h : d.Faithful) (skip limit : Int) : (d.page skip limit).Faithful :=
  FaithfulRows.subset h fun _ hrow => List.mem_of_mem_drop (List.mem_of_mem_take hrow)

theorem Faithful.preview (h : d.Faithful) (id : String) (provenance : Provenance) (sourceId : String) :
    (Entry.preview id d provenance sourceId).Faithful :=
  FaithfulRows.subset h fun _ hrow => List.mem_of_mem_take hrow

end Dataset

end GridCatalog
