import GridCatalog.Assembly
import GridCatalog.Proofs.RuleChoice

/-! The rows of a dataset that is built from a grid.

    A column is filled from the rows that reach it, so its cells stand next to the cells of the same
    row in other columns only as long as no row reaches further than an earlier one
    (`rowsTogether_iff`). -/

namespace GridCatalog

namespace Grid

/-- The length of the first row. -/
def width (grid : Grid) : Nat := (grid.headD []).length

/-- The rows that have a cell in a column. -/
def reaching (rows : Grid) (c : Nat) : Grid := rows.filter fun row => c < row.length

/-- The cell for a row in a column: its own text converted as the column is, or an empty cell. -/
def cellOf (rows : Grid) (settings : InferenceSettings) (c : Nat) (row : List String) : Cell :=
  let rule := Inference.ruleOf settings (rows.column c)
  match row[c]? with
  | some text => rule.cell settings text
  | none => .empty rule.kind

/-- No row is empty, and up to a width no row reaches further than an earlier one. -/
def Tapers (rows : Grid) (width : Nat) : Prop :=
  (∀ row ∈ rows, row ≠ []) ∧ rows.Pairwise fun a b => min b.length width ≤ min a.length width

/-- Each row of a grid has a row of the dataset for itself. -/
def RowsTogether (rows : Grid) (settings : InferenceSettings) (width : Nat) (d : Dataset) : Prop :=
  d.body.length = rows.length ∧
    ∀ {r row c}, rows[r]? = some row → c < width → d.cell? r c = some (rows.cellOf settings c row)

variable {rows : Grid} {settings : InferenceSettings} {width c : Nat}

theorem column_eq (rows : Grid) (c : Nat) :
    rows.column c = (rows.reaching c).map fun row => row[c]?.getD "" := by
  induction rows with
  | nil => rfl
  | cons row rows ih =>
    rw [column, reaching] at ih ⊢
    by_cases hc : c < row.length
    · have hrow : row[c]? = some row[c] := List.getElem?_eq_getElem hc
      rw [List.filter_cons_of_pos (by simpa using hc), List.map_cons, ← ih, List.filterMap_cons, hrow]
      rfl
    · have hrow : row[c]? = none := List.getElem?_eq_none (by omega)
      rw [List.filter_cons_of_neg (by simpa using hc), ← ih, List.filterMap_cons, hrow]

theorem lt_length_of_reaching {rows : Grid} {row : List String} (h : row ∈ rows.reaching c) : c < row.length := by
  simpa using (List.mem_filter.mp h).2

theorem getElem?_column (rows : Grid) (c r : Nat) :
    (rows.column c)[r]? = (rows.reaching c)[r]?.bind fun row => row[c]? := by
  rw [column_eq, List.getElem?_map]
  rcases hrow : (rows.reaching c)[r]? with _ | row
  · rfl
  · have hc := lt_length_of_reaching (List.mem_of_getElem? hrow)
    rw [Option.map_some, Option.bind_some, List.getElem?_eq_getElem hc]
    rfl

theorem length_column (rows : Grid) (c : Nat) : (rows.column c).length = (rows.reaching c).length := by
  rw [column_eq, List.length_map]

theorem length_reaching_le (rows : Grid) (c : Nat) : (rows.reaching c).length ≤ (rows.reaching 0).length := by
  rw [reaching, reaching, ← List.countP_eq_length_filter, ← List.countP_eq_length_filter]
  refine List.countP_mono_left fun row _ hc => ?_
  simp only [decide_eq_true_eq] at hc ⊢
  omega

theorem kind_cellOf (rows : Grid) (settings : InferenceSettings) (c : Nat) (row : List String) :
    (rows.cellOf settings c row).kind = (Inference.ruleOf settings (rows.column c)).kind := by
  unfold cellOf
  cases row[c]? with
  | none => exact Cell.kind_empty _
  | some text => exact Inference.Rule.kind_cell ..

/-- The cell of a row that reaches a column is not empty. -/
theorem isEmpty_cellOf (settings : InferenceSettings) (c : Nat) {row : List String} (hrow : row ∈ rows) :
    (rows.cellOf settings c row).isEmpty = true ↔ row.length ≤ c := by
  unfold cellOf
  rcases hc : row[c]? with _ | text
  · simp only [Cell.isEmpty_empty, true_iff]
    exact List.getElem?_eq_none_iff.mp hc
  · have hmem : text ∈ rows.column c := List.mem_filterMap.mpr ⟨row, hrow, hc⟩
    obtain ⟨hlt, -⟩ := List.getElem?_eq_some_iff.mp hc
    simp only [Inference.Rule.isEmpty_cell (Inference.ruleOf_fits hmem), Bool.false_eq_true, false_iff]
    omega

/-- Below the last row that reaches a column, its cells are empty. -/
theorem isEmpty_cellOf_reaching (r : Nat) :
    (rows.cellOf settings c ((rows.reaching c)[r]?.getD [])).isEmpty = true ↔ (rows.reaching c).length ≤ r := by
  rcases hrow : (rows.reaching c)[r]? with _ | row
  · exact iff_of_true (Cell.isEmpty_empty _) (List.getElem?_eq_none_iff.mp hrow)
  · have hmem := List.mem_of_getElem? hrow
    obtain ⟨hlt, -⟩ := List.getElem?_eq_some_iff.mp hrow
    have hc := lt_length_of_reaching hmem
    rw [Option.getD_some, isEmpty_cellOf settings c (List.mem_filter.mp hmem).1]
    omega

/-- Filtering keeps places if nothing is kept behind what is left out. -/
theorem getElem?_filter_of_pairwise {α : Type} {p : α → Bool} :
    ∀ {l : List α} {r : Nat}, (l.Pairwise fun a b => p b = true → p a = true) →
      (l.filter p)[r]? = l[r]?.filter p
  | [], _, _ => rfl
  | a :: l, r, h => by
    obtain ⟨hhead, htail⟩ := List.pairwise_cons.mp h
    by_cases ha : p a = true
    · rw [List.filter_cons_of_pos ha]
      cases r with
      | zero => rw [List.getElem?_cons_zero, List.getElem?_cons_zero, Option.filter_some_pos ha]
      | succ r => exact getElem?_filter_of_pairwise htail
    · have none_kept : ∀ b ∈ a :: l, ¬p b = true := fun b hb => by
        rcases List.mem_cons.mp hb with rfl | hb
        · exact ha
        · exact mt (hhead b hb) ha
      rw [List.filter_eq_nil_iff.mpr none_kept, List.getElem?_nil, eq_comm, Option.filter_eq_none_iff]
      exact fun b hb => none_kept b (List.mem_of_getElem? hb)

/-- Rows that taper off keep their places among those that reach a column. -/
theorem Tapers.cellOf_reaching (h : rows.Tapers width) (hc : c < width) {r : Nat} {row : List String}
    (hrow : rows[r]? = some row) :
    rows.cellOf settings c ((rows.reaching c)[r]?.getD []) = rows.cellOf settings c row := by
  have kept : rows.Pairwise fun a b => decide (c < b.length) = true → decide (c < a.length) = true :=
    h.2.imp fun {a b} hle hb => by
      simp only [decide_eq_true_eq] at hb ⊢
      omega
  rw [reaching, getElem?_filter_of_pairwise kept, hrow]
  by_cases hlt : c < row.length
  · rw [Option.filter_some_pos (by simpa using hlt), Option.getD_some]
  · rw [Option.filter_some_neg (by simpa using hlt), Option.getD_none, cellOf, cellOf, List.getElem?_nil,
      List.getElem?_eq_none (by omega)]

end Grid

namespace Dataset
open Inference
variable {columns : List TypedColumn}

/-! ### Assembling -/

theorem foldl_max_le {α : Type} (f : α → Nat) {n : Nat} :
    ∀ {l : List α} {a : Nat}, a ≤ n → (∀ x ∈ l, f x ≤ n) → l.foldl (fun m x => max m (f x)) a ≤ n
  | [], _, ha, _ => ha
  | x :: l, a, ha, h => by
    have hx := h x List.mem_cons_self
    rw [List.foldl_cons]
    exact foldl_max_le f (by omega) fun y hy => h y (List.mem_cons_of_mem _ hy)

theorem le_foldl_max {α : Type} (f : α → Nat) {n : Nat} :
    ∀ {l : List α} {a : Nat}, (n ≤ a ∨ ∃ x ∈ l, n ≤ f x) → n ≤ l.foldl (fun m x => max m (f x)) a
  | [], _, h => by
    rcases h with h | ⟨_, hx, -⟩
    · exact h
    · cases hx
  | x :: l, a, h => by
    rw [List.foldl_cons]
    refine le_foldl_max f ?_
    rcases h with h | ⟨y, hy, h⟩
    · exact Or.inl (by omega)
    rcases List.mem_cons.mp hy with rfl | hy
    · exact Or.inl (by omega)
    · exact Or.inr ⟨y, hy, h⟩

theorem fitColumns_of_length {width : Nat} (h : columns.length = width) : fitColumns width columns = columns := by
  simp [fitColumns, ← h]

variable {settings : InferenceSettings} {name userId : String} {grid : Grid} {d : Dataset}

/-- The columns of the data rows as they are read. -/
def typedColumns (settings : InferenceSettings) (rows : Grid) (width : Nat) : List TypedColumn :=
  (rows.columns width).map (infer settings)

theorem ofGrid?_inv (h : ofGrid? settings name userId grid = some d) :
    0 < grid.width ∧ grid.dataRows ≠ [] ∧
      d = assemble name userId (titles (grid.headD [])) (typedColumns settings grid.dataRows grid.width) := by
  unfold ofGrid? at h
  split at h
  · cases h
  rename_i first rest
  dsimp only at h
  split at h
  · cases h
  · rename_i hne
    rw [Bool.or_eq_true, not_or, List.isEmpty_iff, List.isEmpty_iff] at hne
    exact ⟨List.length_pos_iff.mpr hne.1, hne.2, (Option.some.inj h).symm⟩

theorem length_typedColumns (settings : InferenceSettings) (rows : Grid) (width : Nat) :
    (typedColumns settings rows width).length = width := by
  simp [typedColumns, Grid.columns]

theorem length_typedColumns_titles (settings : InferenceSettings) (grid : Grid) :
    (typedColumns settings grid.dataRows grid.width).length = (titles (grid.headD [])).length :=
  (length_typedColumns ..).trans (length_titles _).symm

theorem getElem?_typedColumns (settings : InferenceSettings) (rows : Grid) {width c : Nat} (hc : c < width) :
    (typedColumns settings rows width)[c]? = some (infer settings (rows.column c)) := by
  simp [typedColumns, Grid.columns, List.getElem?_range hc]

/-- The first column is the longest. -/
theorem longest_typedColumns (settings : InferenceSettings) (rows : Grid) {width : Nat} (hw : 0 < width) :
    longest (typedColumns settings rows width) = (rows.reaching 0).length := by
  have length_infer : ∀ c, (infer settings (rows.column c)).cells.length = (rows.reaching c).length := fun c => by
    rw [infer_eq, List.length_map, Grid.length_column]
  apply Nat.le_antisymm
  · refine foldl_max_le _ (Nat.zero_le _) fun column hcolumn => ?_
    obtain ⟨c, hc⟩ := List.getElem?_of_mem hcolumn
    have hlt : c < width := by
      obtain ⟨hlt, -⟩ := List.getElem?_eq_some_iff.mp hc
      rwa [length_typedColumns] at hlt
    rw [getElem?_typedColumns settings rows hlt] at hc
    rw [← Option.some.inj hc, length_infer]
    exact rows.length_reaching_le c
  · refine le_foldl_max _ (Or.inr ⟨_, List.mem_of_getElem? (getElem?_typedColumns settings rows hw), ?_⟩)
    exact Nat.le_of_eq (length_infer 0).symm

variable {rows : Grid} {width r c : Nat}

theorem length_header_assemble {titles : List String} (h : columns.length = titles.length) :
    (assemble name userId titles columns).header.length = titles.length := by
  simp [assemble, new, fitColumns_of_length h, h]

theorem length_body_assemble {titles : List String} (h : columns.length = titles.length) :
    (assemble name userId titles columns).body.length = longest columns := by
  simp [assemble, new, fitColumns_of_length h]

theorem length_row_assemble {titles : List String} (h : columns.length = titles.length) {row : Row}
    (hrow : row ∈ (assemble name userId titles columns).body) : row.length = titles.length := by
  simp only [assemble, new, fitColumns_of_length h, List.mem_map] at hrow
  obtain ⟨_, -, rfl⟩ := hrow
  rw [List.length_map, h]

theorem cell?_assemble {titles : List String} (h : columns.length = titles.length) {column : TypedColumn}
    (hr : r < longest columns) (hc : columns[c]? = some column) :
    (assemble name userId titles columns).cell? r c = some (cellAt column r) := by
  simp [assemble, new, cell?, fitColumns_of_length h, List.getElem?_range hr, hc]

theorem header_assemble {titles : List String} (h : columns.length = titles.length) {column : TypedColumn}
    (hc : columns[c]? = some column) :
    ∃ title, titles[c]? = some title ∧
      (assemble name userId titles columns).header[c]? = some (.atPosition title c column.kind) := by
  obtain ⟨hlt, -⟩ := List.getElem?_eq_some_iff.mp hc
  obtain ⟨title, ht⟩ : ∃ title, titles[c]? = some title := ⟨_, List.getElem?_eq_getElem (h ▸ hlt)⟩
  have hzip : (titles.zip columns)[c]? = some (title, column) := List.getElem?_zip_eq_some.mpr ⟨ht, hc⟩
  exact ⟨title, ht, by simp [assemble, new, fitColumns_of_length h, hzip]⟩

/-! ### Datasets of grids -/

section
variable (h : ofGrid? settings name userId grid = some d)
include h

theorem length_body_ofGrid? : d.body.length = (grid.dataRows.reaching 0).length := by
  obtain ⟨hwidth, -, rfl⟩ := ofGrid?_inv h
  have hlen := length_typedColumns_titles settings grid
  rw [length_body_assemble hlen, longest_typedColumns _ _ hwidth]

theorem length_row_ofGrid? {row : Row} (hrow : row ∈ d.body) : row.length = grid.width := by
  obtain ⟨-, -, rfl⟩ := ofGrid?_inv h
  rw [length_row_assemble (length_typedColumns_titles settings grid) hrow, length_titles, Grid.width]

theorem length_header_ofGrid? : d.header.length = grid.width := by
  obtain ⟨-, -, rfl⟩ := ofGrid?_inv h
  have hlen := length_typedColumns_titles settings grid
  rw [length_header_assemble hlen, length_titles, Grid.width]

theorem header_ofGrid? (hc : c < grid.width) :
    ∃ title, (titles (grid.headD []))[c]? = some title ∧
      d.header[c]? = some (.atPosition title c (ruleOf settings (grid.dataRows.column c)).kind) := by
  obtain ⟨-, -, rfl⟩ := ofGrid?_inv h
  have hcolumn := getElem?_typedColumns settings grid.dataRows hc
  rw [infer_eq] at hcolumn
  exact header_assemble (length_typedColumns_titles settings grid) hcolumn

/-- What a column has its position for is numbered in the order of the header. -/
theorem positions_ofGrid? {f : Column → Nat} (hf : ∀ title position kind, f (.atPosition title position kind) = position) :
    d.header.map f = List.range d.header.length := by
  refine List.ext_getElem (by simp) fun i hi _ => ?_
  rw [List.length_map] at hi
  obtain ⟨title, -, hcolumn⟩ := header_ofGrid? h (length_header_ofGrid? h ▸ hi)
  rw [List.getElem_map, List.getElem_range, (List.getElem?_eq_some_iff.mp hcolumn).2, hf]

/-- The cell at a row and a column comes from the row that is so many-th to reach the column. -/
theorem cell?_ofGrid? (hr : r < d.body.length) (hc : c < grid.width) :
    d.cell? r c = some (grid.dataRows.cellOf settings c ((grid.dataRows.reaching c)[r]?.getD [])) := by
  obtain ⟨-, -, rfl⟩ := ofGrid?_inv h
  have hlen := length_typedColumns_titles settings grid
  rw [length_body_assemble hlen] at hr
  rw [cell?_assemble hlen hr (getElem?_typedColumns settings _ hc), infer_eq, cellAt, List.getElem?_map,
    Grid.getElem?_column, Grid.cellOf]
  rcases hrow : (grid.dataRows.reaching c)[r]? with _ | row
  · rfl
  · rw [Option.bind_some, Option.getD_some]
    cases row[c]? <;> rfl

/-- The rows of the dataset follow the data rows exactly if these taper off. -/
theorem rowsTogether_iff :
    grid.dataRows.RowsTogether settings grid.width d ↔ grid.dataRows.Tapers grid.width := by
  have hbody := length_body_ofGrid? h
  constructor
  · rintro ⟨hlen, hcells⟩
    refine ⟨fun row hrow => ?_, List.pairwise_iff_getElem.mpr fun r k hr hk hlt => Nat.le_of_not_lt fun hmin => ?_⟩
    · have := List.length_filter_eq_length_iff.mp (hbody.symm.trans hlen) row hrow
      exact List.length_pos_iff.mp (of_decide_eq_true this)
    · -- The lower row has a cell where the upper row ends, but a column has no gaps.
      have hc : grid.dataRows[r].length < grid.width := by omega
      have upper := hcells (List.getElem?_eq_getElem hr) hc
      have lower := hcells (List.getElem?_eq_getElem hk) hc
      rw [cell?_ofGrid? h (by omega) hc, Option.some.injEq] at upper lower
      have gap := Grid.isEmpty_cellOf settings grid.dataRows[r].length (List.getElem_mem hr)
      have value := Grid.isEmpty_cellOf settings grid.dataRows[r].length (List.getElem_mem hk)
      rw [← upper, Grid.isEmpty_cellOf_reaching] at gap
      rw [← lower, Grid.isEmpty_cellOf_reaching] at value
      omega
  · intro tapers
    have hlen : d.body.length = grid.dataRows.length := by
      rw [hbody, Grid.reaching, List.filter_eq_self.mpr]
      exact fun row hrow => decide_eq_true (List.length_pos_iff.mpr (tapers.1 row hrow))
    refine ⟨hlen, fun {r row c} hrow hc => ?_⟩
    obtain ⟨hr, -⟩ := List.getElem?_eq_some_iff.mp hrow
    rw [cell?_ofGrid? h (by omega) hc, tapers.cellOf_reaching hc hrow]

/-- Every cell is that of the so many-th row to reach its column. Rows that taper off stay together, and no
    others do. -/
theorem grid_layout :
    d.body.length = (grid.dataRows.reaching 0).length ∧
    (∀ row ∈ d.body, row.length = grid.width) ∧
    (∀ c < grid.width, ∃ column, d.header[c]? = some column ∧
      column.kind = (ruleOf settings (grid.dataRows.column c)).kind) ∧
    (∀ r < d.body.length, ∀ c < grid.width,
      d.cell? r c = some (grid.dataRows.cellOf settings c ((grid.dataRows.reaching c)[r]?.getD []))) ∧
    (grid.dataRows.RowsTogether settings grid.width d ↔ grid.dataRows.Tapers grid.width) := by
  refine ⟨length_body_ofGrid? h, fun _ => length_row_ofGrid? h, fun c hc => ?_,
    fun r hr c hc => cell?_ofGrid? h hr hc, rowsTogether_iff h⟩
  obtain ⟨title, -, hcolumn⟩ := header_ofGrid? h hc
  exact ⟨_, hcolumn, rfl⟩

end

/-- The second row is cut and the third one ends early, and both stay together. -/
theorem grid_layout_tapering :
    let grid : Grid := [["name", "city"], ["Ann", "Rome", "Italy"], ["Bob"]]
    ∃ d, ofGrid? .default "sheet" "user" grid = some d ∧
      d.body = [[.texts ["Ann"], .texts ["Rome"]], [.texts ["Bob"], .texts []]] ∧
      grid.dataRows.RowsTogether .default grid.width d := by
  intro grid
  obtain ⟨d, hd⟩ : ∃ d, ofGrid? .default "sheet" "user" grid = some d := ⟨_, rfl⟩
  obtain ⟨-, -, -, -, together⟩ := grid_layout hd
  refine ⟨d, hd, ?_, together.mpr ⟨by decide +kernel, by decide +kernel⟩⟩
  cases hd
  decide +kernel

/-- The text below a row that ends early moves up into that row. -/
theorem grid_layout_ragged :
    let grid : Grid := [["name", "city"], ["Ann"], ["Bob", "Rome"]]
    ∃ d, ofGrid? .default "sheet" "user" grid = some d ∧
      d.body = [[.texts ["Ann"], .texts ["Rome"]], [.texts ["Bob"], .texts []]] ∧
      ¬grid.dataRows.RowsTogether .default grid.width d := by
  refine ⟨_, rfl, by decide +kernel, fun together => ?_⟩
  have := together.2 (r := 0) (c := 1) rfl (by decide)
  revert this
  decide +kernel

end Dataset

end GridCatalog
