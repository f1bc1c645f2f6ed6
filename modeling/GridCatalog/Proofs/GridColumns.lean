import GridCatalog.Proofs.GridRows

/-! The columns of a dataset that is built from a grid.

    A grid has a dataset unless its first row is empty or is a heading with nothing below. The column at a place is
    inferred from the texts at that place in the data rows and from nothing else, and empty cells follow it down to the
    end of the longest column (`built_by_columns`). -/

namespace GridCatalog

open Inference

/-- Only ASCII letters and digits, underscores and spaces. -/
def TitleLike (text : String) : Prop := ∀ c ∈ text.toList, c.isAlphanum = true ∨ c ∈ ['_', ' ']

theorem isTitle_iff {text : String} : isTitle text.toList = true ↔ TitleLike text := by
  simp [isTitle, TitleLike, or_assoc]

instance (text : String) : Decidable (TitleLike text) := decidable_of_iff _ isTitle_iff

namespace Grid
variable {grid rows : Grid} {c width : Nat}

/-- The cells of the first row all look like titles. -/
def Headed (grid : Grid) : Prop := ∀ text ∈ grid.headD [], TitleLike text

instance (grid : Grid) : Decidable grid.Headed :=
  inferInstanceAs (Decidable (∀ text ∈ grid.headD [], TitleLike text))

/-- The titles of the columns. -/
def columnTitles (grid : Grid) : List String :=
  if grid.Headed then grid.headD []
  else (List.range grid.width).map fun c => "column-" ++ toString (c + 1)

/-- The column at a place, inferred from the rows that have a cell there. -/
def typedColumn (settings : InferenceSettings) (grid : Grid) (c : Nat) : TypedColumn :=
  infer settings ((if grid.Headed then grid.tail else grid).filterMap fun row => row[c]?)

theorem isHeading_iff (h : 0 < grid.width) : isHeading (grid.headD []) = true ↔ grid.Headed := by
  have hne : (grid.headD []).isEmpty = false := List.isEmpty_eq_false_iff.mpr (List.length_pos_iff.mp h)
  simp only [isHeading, hne, Bool.not_false, Bool.true_and, List.all_eq_true, isTitle_iff, Headed]

theorem dataRows_eq (h : 0 < grid.width) : grid.dataRows = if grid.Headed then grid.tail else grid := by
  cases grid with
  | nil => cases h
  | cons first rest =>
    have heading : isHeading first = true ↔ Headed (first :: rest) := isHeading_iff h
    simp only [dataRows, heading, List.tail_cons]

theorem titles_eq (h : 0 < grid.width) : titles (grid.headD []) = grid.columnTitles := by
  simp only [titles, isHeading_iff h, columnTitles]
  rfl

theorem infer_column (settings : InferenceSettings) (h : 0 < grid.width) (c : Nat) :
    infer settings (grid.dataRows.column c) = typedColumn settings grid c := by
  rw [column, dataRows_eq h, typedColumn]

/-! ### Cells beyond the first row -/

theorem column_map_take (hc : c < width) : column (rows.map (List.take width)) c = rows.column c := by
  rw [column, List.filterMap_map, column]
  congr 1
  funext row
  exact List.getElem?_take_of_lt hc

theorem columns_map_take : columns (rows.map (List.take width)) width = rows.columns width :=
  List.map_congr_left fun _ hc => column_map_take (List.mem_range.mp hc)

end Grid

namespace Dataset
variable {settings : InferenceSettings} {name userId : String} {grid : Grid} {d : Dataset}

/-- A dataset that has the inferred columns of a grid, each continued with empty cells to the length of the longest. -/
structure OfColumns (settings : InferenceSettings) (grid : Grid) (d : Dataset) : Prop where
  header_length : d.header.length = grid.width
  header : ∀ c < grid.width, ∃ title, grid.columnTitles[c]? = some title ∧ d.header[c]? = some
    { title, origin := c, index := c, kind := (grid.typedColumn settings c).kind, decimals := 0, isOutput := false }
  row_length : ∀ row ∈ d.body, row.length = grid.width
  cells : ∀ c < grid.width, d.body.map (fun row => row[c]?) =
    ((grid.typedColumn settings c).cells ++ List.replicate (d.body.length - (grid.typedColumn settings c).cells.length)
      (Cell.empty (grid.typedColumn settings c).kind)).map some
  reach : ∀ c < grid.width, (grid.typedColumn settings c).cells.length ≤ d.body.length
  longest : ∃ c < grid.width, (grid.typedColumn settings c).cells.length = d.body.length

theorem ofGrid?_eq (settings : InferenceSettings) (name userId : String) (grid : Grid) :
    ofGrid? settings name userId grid = if 0 < grid.width ∧ grid.dataRows ≠ [] then
      some (assemble name userId (titles (grid.headD [])) (typedColumns settings grid.dataRows grid.width))
    else none := by
  cases grid with
  | nil => rfl
  | cons first rest =>
    have hwidth : 0 < Grid.width (first :: rest) ↔ first ≠ [] := List.length_pos_iff
    by_cases hfirst : first = []
    · rw [if_neg fun h => hwidth.mp h.1 hfirst]
      simp [ofGrid?, hfirst]
    by_cases hrows : Grid.dataRows (first :: rest) = []
    · rw [if_neg fun h => h.2 hrows]
      simp [ofGrid?, hrows]
    · rw [if_pos ⟨hwidth.mpr hfirst, hrows⟩]
      simp [ofGrid?, hfirst, hrows, typedColumns, Grid.width]

theorem isSome_ofGrid? : (ofGrid? settings name userId grid).isSome = true ↔
    ∃ first rest, grid = first :: rest ∧ first ≠ [] ∧ ((∃ text ∈ first, ¬TitleLike text) ∨ rest ≠ []) := by
  have hsome : (ofGrid? settings name userId grid).isSome = true ↔ 0 < grid.width ∧ grid.dataRows ≠ [] := by
    rw [ofGrid?_eq]
    split <;> simp [*]
  rw [hsome]
  cases grid with
  | nil => simp [Grid.width]
  | cons first rest =>
    have hwidth : 0 < Grid.width (first :: rest) ↔ first ≠ [] := List.length_pos_iff
    have hrows (h : first ≠ []) :
        Grid.dataRows (first :: rest) ≠ [] ↔ (∃ text ∈ first, ¬TitleLike text) ∨ rest ≠ [] := by
      rw [Grid.dataRows_eq (hwidth.mpr h)]
      by_cases hheaded : Grid.Headed (first :: rest)
      · have : ¬∃ text ∈ first, ¬TitleLike text := by simpa [Grid.Headed] using hheaded
        simp [if_pos hheaded, this]
      · have : ∃ text ∈ first, ¬TitleLike text := by simpa [Grid.Headed] using hheaded
        simp [if_neg hheaded, this]
    constructor
    · rintro ⟨hpos, hne⟩
      have hfirst := hwidth.mp hpos
      exact ⟨first, rest, rfl, hfirst, (hrows hfirst).mp hne⟩
    · rintro ⟨first', rest', heq, hfirst, hne⟩
      cases heq
      exact ⟨hwidth.mpr hfirst, (hrows hfirst).mpr hne⟩

/-- Cells beyond the first row's width are not looked at. -/
theorem ofGrid?_map_take :
    ofGrid? settings name userId (grid.map (List.take grid.width)) = ofGrid? settings name userId grid := by
  cases grid with
  | nil => rfl
  | cons first rest =>
    have hwidth : Grid.width (first :: rest) = first.length := rfl
    rw [hwidth, List.map_cons, List.take_length]
    have hrows : Grid.dataRows (first :: rest.map (List.take first.length)) =
        (Grid.dataRows (first :: rest)).map (List.take first.length) := by
      simp only [Grid.dataRows]
      split
      · rfl
      · rw [List.map_cons, List.take_length]
    have hne : (Grid.dataRows (first :: rest)).map (List.take first.length) ≠ [] ↔
        Grid.dataRows (first :: rest) ≠ [] := by simp
    rw [ofGrid?_eq, ofGrid?_eq, hrows]
    refine if_congr (and_congr_right' hne) ?_ rfl
    simp only [typedColumns, Grid.width, List.headD_cons, Grid.columns_map_take]

theorem getElem?_continued {α : Type} (xs : List α) (x : α) {n r : Nat} (hr : r < n) :
    (xs ++ List.replicate (n - xs.length) x)[r]? = some (xs[r]?.getD x) := by
  by_cases h : r < xs.length
  · rw [List.getElem?_append_left h, List.getElem?_eq_getElem h, Option.getD_some]
  · rw [List.getElem?_append_right (by omega), List.getElem?_replicate, if_pos (by omega),
      List.getElem?_eq_none (by omega), Option.getD_none]

theorem map_cells {c : Nat} {column : TypedColumn} (hle : column.cells.length ≤ d.body.length)
    (h : ∀ r < d.body.length, d.cell? r c = some (cellAt column r)) :
    d.body.map (fun row => row[c]?) =
      (column.cells ++ List.replicate (d.body.length - column.cells.length) (Cell.empty column.kind)).map some := by
  refine List.ext_getElem? fun r => ?_
  rw [List.getElem?_map, List.getElem?_map]
  by_cases hr : r < d.body.length
  · have hcell := h r hr
    rw [cell?, List.getElem?_eq_getElem hr] at hcell
    rw [getElem?_continued _ _ hr, List.getElem?_eq_getElem hr]
    exact congrArg some hcell
  · rw [List.getElem?_eq_none (by omega), List.getElem?_eq_none (by simp; omega)]
    rfl

theorem ofColumns_ofGrid? (h : ofGrid? settings name userId grid = some d) : d.OfColumns settings grid := by
  have hlength := length_header_ofGrid? h
  obtain ⟨hwidth, -, hd⟩ := ofGrid?_inv h
  have hlen := length_typedColumns_titles settings grid
  have hcolumn {c : Nat} (hc : c < grid.width) :
      (typedColumns settings grid.dataRows grid.width)[c]? = some (grid.typedColumn settings c) := by
    rw [getElem?_typedColumns settings grid.dataRows hc, Grid.infer_column settings hwidth]
  have hbody : d.body.length = longest (typedColumns settings grid.dataRows grid.width) := by
    rw [hd, length_body_assemble hlen]
  have hle {c : Nat} (hc : c < grid.width) : (grid.typedColumn settings c).cells.length ≤ d.body.length := by
    rw [hbody]
    exact le_foldl_max _ (Or.inr ⟨_, List.mem_of_getElem? (hcolumn hc), Nat.le_refl _⟩)
  have hcell {c : Nat} (hc : c < grid.width) :
      ∀ r < d.body.length, d.cell? r c = some (cellAt (grid.typedColumn settings c) r) := by
    intro r hr
    rw [hbody] at hr
    rw [hd, cell?_assemble hlen hr (hcolumn hc)]
  refine ⟨hlength, fun c hc => ?_, fun row => length_row_ofGrid? h, fun c hc => map_cells (hle hc) (hcell hc),
    fun c => hle, 0, hwidth, ?_⟩
  · obtain ⟨title, ht, hheader⟩ := @header_assemble _ name userId _ _ hlen _ (hcolumn hc)
    rw [Grid.titles_eq hwidth] at ht
    rw [hd]
    exact ⟨title, ht, hheader⟩
  · rw [← Grid.infer_column settings hwidth, infer_eq, List.length_map, Grid.length_column, length_body_ofGrid? h]

/-- A grid has a dataset exactly if its first row has cells and is no heading without rows below; the dataset has the
    inferred columns of the grid, and cells beyond the first row's width do not matter. -/
theorem built_by_columns (settings : InferenceSettings) (name userId : String) (grid : Grid) :
    ((ofGrid? settings name userId grid).isSome = true ↔
      ∃ first rest, grid = first :: rest ∧ first ≠ [] ∧ ((∃ text ∈ first, ¬TitleLike text) ∨ rest ≠ [])) ∧
    (∀ d, ofGrid? settings name userId grid = some d →
      d.name = name ∧ d.userId = userId ∧ d.OfColumns settings grid) ∧
    ofGrid? settings name userId (grid.map (List.take grid.width)) = ofGrid? settings name userId grid := by
  refine ⟨isSome_ofGrid?, fun d h => ?_, ofGrid?_map_take⟩
  obtain ⟨-, -, hd⟩ := ofGrid?_inv h
  exact ⟨by rw [hd]; rfl, by rw [hd]; rfl, ofColumns_ofGrid? h⟩

/-- The second column is read from the last row alone and moves up, and the cell beyond it is dropped. -/
theorem built_by_columns_ragged :
    let grid : Grid := [["name", "size"], ["Ann"], ["Bob", "1", "x"]]
    ∃ d, ofGrid? .default "sheet" "user" grid = some d ∧ d.OfColumns .default grid ∧
      grid.typedColumn .default 1 = ⟨.numbers, [.numbers [1]]⟩ ∧
      d.body = [[.texts ["Ann"], .numbers [1]], [.texts ["Bob"], .numbers []]] := by
  intro grid
  obtain ⟨d, hd⟩ : ∃ d, ofGrid? .default "sheet" "user" grid = some d := ⟨_, rfl⟩
  obtain ⟨-, built, -⟩ := built_by_columns .default "sheet" "user" grid
  obtain ⟨-, -, columns⟩ := built d hd
  refine ⟨d, hd, columns, by decide +kernel, ?_⟩
  cases hd
  decide +kernel

end Dataset

end GridCatalog
