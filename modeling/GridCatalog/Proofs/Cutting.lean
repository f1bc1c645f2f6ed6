import GridCatalog.Proofs.RangeText

/-! Cutting a grid down to a range.

    A range picks rows and cells by their positions and moves them to the origin (`Cuts`). Nothing is closed up: a row
    of the range that is too short is cut down to an empty row. The numbers of rows and columns to take fit machine
    words wherever the range comes from a text (`cutWords?_eq`). -/

namespace GridCatalog.CellRange

/-- The row at a position lies in the range. -/
def HasRow (r : CellRange) (i : Nat) : Prop := r.firstRow ≤ i ∧ ∀ last ∈ r.lastRow, i ≤ last

/-- The column at a position lies in the range. -/
def HasColumn (r : CellRange) (j : Nat) : Prop := r.firstColumn ≤ j ∧ j ≤ r.lastColumn

/-- The rows and the cells of a grid that lie in a range, moved to the origin: a row for every row that the grid has in
    the range, and in it a cell for every cell that this row has in the range. -/
structure Cuts (r : CellRange) (grid out : Grid) : Prop where
  rows : ∀ i, i < out.length ↔ r.HasRow (r.firstRow + i) ∧ r.firstRow + i < grid.length
  cells : ∀ {i row row'}, grid[r.firstRow + i]? = some row → out[i]? = some row' →
    ∀ j cell, row'[j]? = some cell ↔ r.HasColumn (r.firstColumn + j) ∧ row[r.firstColumn + j]? = some cell

/-- All rows, and all columns up to the last one. -/
structure Whole (r : CellRange) : Prop where
  firstColumn : r.firstColumn = 0
  firstRow : r.firstRow = 0
  lastRow : r.lastRow = none

variable {r whole : CellRange} {grid mid out out' : Grid} {text : String}

/-! ### Positions -/

theorem hasRow_add {i : Nat} : r.HasRow (r.firstRow + i) ↔ ∀ last ∈ r.lastRow, r.firstRow + i ≤ last := by
  simp [HasRow]

theorem hasColumn_add {j : Nat} : r.HasColumn (r.firstColumn + j) ↔ r.firstColumn + j ≤ r.lastColumn := by
  simp [HasColumn]

theorem Cuts.origin (h : r.Cuts grid out) {i : Nat} {row' : List String} (hi : out[i]? = some row') :
    ∃ row, grid[r.firstRow + i]? = some row := by
  obtain ⟨lt, -⟩ := List.getElem?_eq_some_iff.mp hi
  exact ⟨_, List.getElem?_eq_getElem ((h.rows i).mp lt).2⟩

/-- A grid is cut in one way only. -/
theorem Cuts.unique (h : r.Cuts grid out) (h' : r.Cuts grid out') : out = out' := by
  have same_rows : ∀ i, i < out.length ↔ i < out'.length := fun i => (h.rows i).trans (h'.rows i).symm
  refine List.ext_getElem? fun i => ?_
  by_cases hi : i < out.length
  · have hi' := (same_rows i).mp hi
    have row_out := List.getElem?_eq_getElem hi
    have row_out' := List.getElem?_eq_getElem hi'
    obtain ⟨row, hrow⟩ := h.origin row_out
    rw [row_out, row_out']
    refine congrArg some (List.ext_getElem? fun j => Option.ext fun cell => ?_)
    exact (h.cells hrow row_out j cell).trans (h'.cells hrow row_out' j cell).symm
  · have hi' : ¬i < out'.length := fun lt => hi ((same_rows i).mpr lt)
    rw [List.getElem?_eq_none (Nat.le_of_not_lt hi), List.getElem?_eq_none (Nat.le_of_not_lt hi')]

theorem Cuts.short (h : r.Cuts grid out) {i : Nat} {row : List String} (hrow : grid[r.firstRow + i]? = some row)
    (inside : r.HasRow (r.firstRow + i)) (short : row.length ≤ r.firstColumn) : out[i]? = some [] := by
  obtain ⟨lt, -⟩ := List.getElem?_eq_some_iff.mp hrow
  have hrow' := List.getElem?_eq_getElem ((h.rows i).mpr ⟨inside, lt⟩)
  rw [hrow']
  refine congrArg some (List.eq_nil_iff_forall_not_mem.mpr fun cell hcell => ?_)
  obtain ⟨j, hj⟩ := List.getElem?_of_mem hcell
  obtain ⟨-, found⟩ := (h.cells hrow hrow' j cell).mp hj
  rw [List.getElem?_eq_none (Nat.le_add_right_of_le short)] at found
  cases found

theorem getElem?_cutRows (r : CellRange) (grid : Grid) (i : Nat) :
    (r.cutRows grid)[i]? = some row ↔ r.HasRow (r.firstRow + i) ∧ grid[r.firstRow + i]? = some row := by
  rw [hasRow_add, cutRows]
  cases r.lastRow with
  | none => simp
  | some last =>
    simp only [List.getElem?_take, List.getElem?_drop, Option.mem_some, forall_eq', Option.ite_none_right_eq_some]
    exact and_congr_left fun _ => by omega

theorem length_cutRows (r : CellRange) (grid : Grid) (i : Nat) :
    i < (r.cutRows grid).length ↔ r.HasRow (r.firstRow + i) ∧ r.firstRow + i < grid.length := by
  rw [hasRow_add, cutRows]
  cases r.lastRow with
  | none => simp; omega
  | some last => simp; omega

theorem cuts_cut (columns : r.firstColumn ≤ r.lastColumn) (grid : Grid) : r.Cuts grid (r.cut grid) where
  rows i := by
    rw [cut, List.length_map]
    exact length_cutRows r grid i
  cells {i row row'} hrow hrow' j cell := by
    rw [cut, List.getElem?_map] at hrow'
    obtain ⟨source, hsource, rfl⟩ := Option.map_eq_some_iff.mp hrow'
    obtain ⟨-, hsource⟩ := (getElem?_cutRows r grid i).mp hsource
    obtain rfl : row = source := Option.some.inj (hrow.symm.trans hsource)
    rw [hasColumn_add, List.getElem?_take, List.getElem?_drop, Option.ite_none_right_eq_some, width]
    exact and_congr_left fun _ => by omega

theorem cut_eq_iff (columns : r.firstColumn ≤ r.lastColumn) : r.cut grid = out ↔ r.Cuts grid out := by
  constructor
  · rintro rfl
    exact cuts_cut columns grid
  · exact (cuts_cut columns grid).unique

/-- Cells behind the last column of a range do not matter for it. -/
theorem Cuts.trans_whole (h : whole.Cuts grid mid) (h' : r.Cuts mid out) (all : whole.Whole)
    (inside : r.lastColumn ≤ whole.lastColumn) : r.Cuts grid out := by
  have rows (i : Nat) : i < mid.length ↔ i < grid.length := by
    have := h.rows i
    simpa [HasRow, all.firstRow, all.lastRow] using this
  refine ⟨fun i => ?_, fun {i row row'} hrow hrow' j cell => ?_⟩
  · rw [h'.rows, rows]
  · obtain ⟨source, hsource⟩ := h'.origin hrow'
    have hrow : grid[whole.firstRow + (r.firstRow + i)]? = some row := by rwa [all.firstRow, Nat.zero_add]
    have cells := h.cells hrow hsource (r.firstColumn + j) cell
    rw [all.firstColumn, Nat.zero_add] at cells
    rw [h'.cells hsource hrow', cells]
    constructor
    · rintro ⟨here, -, found⟩
      exact ⟨here, found⟩
    · rintro ⟨here, found⟩
      refine ⟨here, ⟨?_, ?_⟩, found⟩
      · rw [all.firstColumn]
        exact Nat.zero_le _
      · exact Nat.le_trans here.2 inside

/-! ### Machine words -/

/-- The difference of two machine words, if it is not negative. -/
def sub? (a b : UInt64) : Option UInt64 := if b ≤ a then some (a - b) else none

/-- How many columns to take, in machine words; a step that does not fit one fails. -/
def columnCount? (r : CellRange) : Option UInt64 :=
  (sub? (.ofNat r.lastColumn) (.ofNat r.firstColumn)).bind fun n => add? n 1

/-- How many rows to take, in machine words: without a last row, as many as a word can count. -/
def rowCount? (r : CellRange) : Option UInt64 :=
  match r.lastRow with
  | none => some (.ofNat (Text.natBound64 - 1))
  | some last => (add? (.ofNat last) 1).map fun stop =>
    if stop < .ofNat r.firstRow then 0 else stop - .ofNat r.firstRow

/-- The part of a grid that belongs to a range, with what to take counted in machine words. -/
def cutWords? (r : CellRange) (grid : Grid) : Option Grid := do
  let rows ← r.rowCount?
  let columns ← r.columnCount?
  return ((grid.drop r.firstRow).take rows.toNat).map fun row => (row.drop r.firstColumn).take columns.toNat

theorem toNat_word {n : Nat} (h : n < Text.natBound64) : (UInt64.ofNat n).toNat = n := UInt64.toNat_ofNat_of_lt' h

theorem sub?_eq_some {a b c : UInt64} : sub? a b = some c ↔ b.toNat + c.toNat = a.toNat := by
  rw [sub?, Option.ite_none_right_eq_some, Option.some.injEq, UInt64.le_iff_toNat_le]
  constructor
  · rintro ⟨le, rfl⟩
    rw [UInt64.toNat_sub_of_le _ _ (UInt64.le_iff_toNat_le.mpr le)]
    omega
  · intro h
    have le : b.toNat ≤ a.toNat := by omega
    refine ⟨le, UInt64.toNat_inj.mp ?_⟩
    rw [UInt64.toNat_sub_of_le _ _ (UInt64.le_iff_toNat_le.mpr le)]
    omega

namespace Addressable

theorem columnCount? (h : r.Addressable) :
    ∃ n, r.columnCount? = some n ∧ r.firstColumn + n.toNat = r.lastColumn + 1 := by
  obtain ⟨columns, lastColumn, -, -⟩ := h
  have first : (UInt64.ofNat r.firstColumn).toNat = r.firstColumn := toNat_word (by omega)
  have last : (UInt64.ofNat r.lastColumn).toNat = r.lastColumn := toNat_word (by omega)
  have behind : (UInt64.ofNat (r.lastColumn + 1)).toNat = r.lastColumn + 1 := toNat_word lastColumn
  obtain ⟨n, hn⟩ := exists_word (n := r.lastColumn - r.firstColumn) (m := .ofNat (r.lastColumn + 1)) (by omega)
  obtain ⟨m, hm⟩ := exists_word (n := n.toNat + 1) (m := .ofNat (r.lastColumn + 1)) (by omega)
  refine ⟨m, Option.bind_eq_some_iff.mpr ⟨n, sub?_eq_some.mpr (by omega), add?_eq_some.mpr hm⟩, by omega⟩

theorem rowCount? (h : r.Addressable) : ∃ n, r.rowCount? = some n ∧ match r.lastRow with
    | none => n.toNat = Text.natBound64 - 1
    | some last => r.firstRow + n.toNat = last + 1 := by
  have first : (UInt64.ofNat r.firstRow).toNat = r.firstRow := toNat_word (Nat.lt_of_succ_lt h.firstRow)
  rw [CellRange.rowCount?]
  cases hlast : r.lastRow with
  | none => exact ⟨_, rfl, toNat_word (by decide)⟩
  | some last =>
    obtain ⟨ordered, small⟩ := h.lastRow last hlast
    have behind : (UInt64.ofNat (last + 1)).toNat = last + 1 := toNat_word small
    have sum : add? (.ofNat last) 1 = some (.ofNat (last + 1)) := by
      rw [add?_eq_some, behind, toNat_word (Nat.lt_of_succ_lt small)]
      rfl
    have above : UInt64.ofNat r.firstRow ≤ .ofNat (last + 1) := by
      rw [UInt64.le_iff_toNat_le, first, behind]
      omega
    refine ⟨_, congrArg (Option.map _) sum, ?_⟩
    dsimp only
    rw [if_neg (UInt64.not_lt.mpr above), UInt64.toNat_sub_of_le _ _ above, first, behind]
    omega

/-- Counting in machine words cuts a grid as counting without bounds does. -/
theorem cutWords?_eq (h : r.Addressable) (size : grid.length < Text.natBound64) :
    r.cutWords? grid = some (r.cut grid) := by
  obtain ⟨columns, hcolumns, columns_eq⟩ := h.columnCount?
  obtain ⟨rows, hrows, rows_eq⟩ := h.rowCount?
  have taken : (grid.drop r.firstRow).take rows.toNat = r.cutRows grid := by
    rw [cutRows]
    cases hlast : r.lastRow with
    | none =>
      rw [hlast] at rows_eq
      exact List.take_of_length_le (by rw [List.length_drop]; omega)
    | some last =>
      rw [hlast] at rows_eq
      exact congrArg (List.take · _) (by omega)
  have wide : columns.toNat = r.width := by
    rw [width]
    omega
  rw [cutWords?, hrows, hcolumns, cut, ← taken, ← wide]
  rfl

end Addressable

/-- A grid is cut down to the rows and cells of the range that it has, whichever they are, so that a row that is too
    short becomes an empty row; the numbers of rows and columns to take never leave the machine words. Cutting by a
    range of all rows from the first column on beforehand makes no difference for a range that lies inside it. -/
theorem cut_pointwise :
    (∀ text r, ofText? text = some r →
      (∃ n, r.columnCount? = some n ∧ r.firstColumn + n.toNat = r.lastColumn + 1) ∧
      (∃ n, r.rowCount? = some n ∧ ∀ last ∈ r.lastRow, r.firstRow + n.toNat = last + 1) ∧
      (∀ grid, grid.length < Text.natBound64 → r.cutWords? grid = some (r.cut grid)) ∧
      (∀ grid out, r.cut grid = out ↔ r.Cuts grid out) ∧
      ∀ grid i row, grid[r.firstRow + i]? = some row → r.HasRow (r.firstRow + i) → row.length ≤ r.firstColumn →
        (r.cut grid)[i]? = some []) ∧
    ∀ text text' whole r grid, ofText? text = some whole → whole.Whole → ofText? text' = some r →
      r.lastColumn ≤ whole.lastColumn → r.cut (whole.cut grid) = r.cut grid := by
  have addressable {text r} (h : ofText? text = some r) : r.Addressable := (ofText?_eq_some_iff.mp h).addressable
  refine ⟨fun text r h => ?_, fun text text' whole r grid h all h' inside => ?_⟩
  · have h := addressable h
    obtain ⟨n, hn, rows⟩ := h.rowCount?
    refine ⟨h.columnCount?, ⟨n, hn, fun last hlast => ?_⟩, fun grid size => h.cutWords?_eq size, fun grid out => ?_,
      fun grid i row hrow inside short => ?_⟩
    · rwa [hlast] at rows
    · exact cut_eq_iff h.columns
    · exact (cuts_cut h.columns grid).short hrow inside short
  · have first := cuts_cut (addressable h).columns grid
    have second := cuts_cut (addressable h').columns (whole.cut grid)
    exact ((cut_eq_iff (addressable h').columns).mpr (first.trans_whole second all inside)).symm

/-- A ragged grid that is cut up to the largest column and row that have a name, with and without a cut beforehand. -/
theorem cut_pointwise_ragged :
    let grid : Grid := [["a", "b"], [], ["c"], ["d", "e", "f"]]
    let whole : CellRange := ⟨0, 18446744073709551614, 0, none⟩
    let r : CellRange := ⟨1, 18446744073709551614, 1, some 18446744073709551614⟩
    ofText? "a:GKGWBYLWRXTLPO" = some whole ∧ whole.Whole ∧ ofText? "B2:GKGWBYLWRXTLPO18446744073709551615" = some r ∧
      r.lastColumn ≤ whole.lastColumn ∧ r.cutWords? grid = some [[], [], ["e", "f"]] ∧
      r.Cuts grid [[], [], ["e", "f"]] ∧ (r.cut grid)[1]? = some [] ∧ r.cut (whole.cut grid) = r.cut grid := by
  intro grid whole r
  have read_whole : ofText? "a:GKGWBYLWRXTLPO" = some whole := by decide +kernel
  have read : ofText? "B2:GKGWBYLWRXTLPO18446744073709551615" = some r := by decide +kernel
  have all : whole.Whole := ⟨rfl, rfl, rfl⟩
  have inside : r.lastColumn ≤ whole.lastColumn := Nat.le_refl _
  have cut : r.cut grid = [[], [], ["e", "f"]] := by decide +kernel
  obtain ⟨-, -, words, cuts, short⟩ := cut_pointwise.1 _ r read
  refine ⟨read_whole, all, read, inside, ?_, (cuts grid _).mp cut, short grid 1 ["c"] rfl ⟨by decide, ?_⟩ (by decide), ?_⟩
  · exact (words grid (by decide)).trans (congrArg some cut)
  · rintro _ ⟨⟩
    exact Nat.le_of_ble_eq_true rfl
  · exact cut_pointwise.2 _ _ whole r grid read_whole all read inside

end GridCatalog.CellRange
