import GridCatalog.Proofs.GridRows

/-! Typed columns laid out as rows.

    The rows of an assembled dataset are the transpose of the columns that have a title, padded with empty cells to
    the longest of them (`Transposes`). The same rows come about in place: rows of empty cells are made first and are
    then written column by column, and no write misses them (`assembleInPlace?_eq`). -/

namespace GridCatalog

namespace Dataset
open Inference

/-- The column for the title at a position; one that is missing has numbers, but no cells. -/
def columnFor (columns : List TypedColumn) (c : Nat) : TypedColumn := columns[c]?.getD ⟨.numbers, []⟩

/-- A new dataset with a heading for each title, in order. It has as many rows as the longest column with a title has
    cells and in each row a cell for each title: that of the column for it or, below the end of this column, an empty
    cell of its kind. -/
structure Transposes (name userId : String) (titles : List String) (columns : List TypedColumn) (d : Dataset) :
    Prop where
  fresh : d = new name userId d.header d.body
  header : ∀ c, d.header[c]? = titles[c]?.map fun title =>
    ({ title, origin := c, index := c, kind := (columnFor columns c).kind, decimals := 0, isOutput := false } : Column)
  row_length : ∀ row ∈ d.body, row.length = titles.length
  reach : ∀ column ∈ columns.take titles.length, column.cells.length ≤ d.rowCount
  longest : d.rowCount = 0 ∨ ∃ column ∈ columns.take titles.length, column.cells.length = d.rowCount
  value : ∀ {r c cell}, c < titles.length → (columnFor columns c).cells[r]? = some cell → d.cell? r c = some cell
  blank : ∀ {r c}, r < d.rowCount → c < titles.length → (columnFor columns c).cells.length ≤ r →
    d.cell? r c = some (.empty (columnFor columns c).kind)

variable {name userId : String} {titles : List String} {columns : List TypedColumn} {d d' : Dataset}
  {width height r c : Nat}

/-! ### Columns for titles -/

theorem columnFor_append_replicate (columns : List TypedColumn) (n c : Nat) :
    columnFor (columns ++ List.replicate n ⟨.numbers, []⟩) c = columnFor columns c := by
  rw [columnFor, columnFor]
  by_cases hc : c < columns.length
  · rw [List.getElem?_append_left hc]
  · rw [List.getElem?_append_right (by omega), List.getElem?_eq_none (l := columns) (by omega),
      List.getElem?_replicate]
    split <;> rfl

theorem fitColumns_eq_map (width : Nat) (columns : List TypedColumn) :
    fitColumns width columns = (List.range width).map (columnFor columns) := by
  refine List.ext_getElem? fun c => ?_
  rw [fitColumns, List.getElem?_map]
  by_cases hc : c < (columns.take width).length
  · rw [List.length_take] at hc
    rw [List.getElem?_append_left (by rw [List.length_take]; omega), List.getElem?_take_of_lt (by omega),
      List.getElem?_range (by omega), Option.map_some, columnFor, List.getElem?_eq_getElem (by omega), Option.getD_some]
  · rw [List.getElem?_append_right (Nat.le_of_not_lt hc), List.getElem?_replicate]
    rw [List.length_take] at hc ⊢
    by_cases hwidth : c < width
    · rw [if_pos (by omega), List.getElem?_range hwidth, Option.map_some, columnFor, List.getElem?_eq_none (by omega),
        Option.getD_none]
    · rw [if_neg (by omega), List.getElem?_eq_none (by rw [List.length_range]; omega), Option.map_none]

theorem length_fitColumns (width : Nat) (columns : List TypedColumn) : (fitColumns width columns).length = width := by
  rw [fitColumns_eq_map, List.length_map, List.length_range]

theorem getElem?_fitColumns (columns : List TypedColumn) (hc : c < width) :
    (fitColumns width columns)[c]? = some (columnFor columns c) := by
  rw [fitColumns_eq_map, List.getElem?_map, List.getElem?_range hc, Option.map_some]

/-- Columns are assembled alike if each title has the same one. -/
theorem assemble_congr {columns' : List TypedColumn}
    (h : ∀ c < titles.length, columnFor columns c = columnFor columns' c) :
    assemble name userId titles columns = assemble name userId titles columns' := by
  have same : fitColumns titles.length columns = fitColumns titles.length columns' := by
    rw [fitColumns_eq_map, fitColumns_eq_map]
    exact List.map_congr_left fun c hc => h c (List.mem_range.mp hc)
  rw [assemble, assemble, same]

theorem longest_eq_max? (columns : List TypedColumn) :
    longest columns = (columns.map fun column => column.cells.length).max?.getD 0 := by
  cases columns with
  | nil => rfl
  | cons column columns =>
    rw [longest, List.map_cons, List.max?_cons', Option.getD_some, List.foldl_cons, List.foldl_map, Nat.zero_max]

theorem length_le_longest {column : TypedColumn} (h : column ∈ columns) : column.cells.length ≤ longest columns :=
  le_foldl_max _ (Or.inr ⟨column, h, Nat.le_refl _⟩)

theorem longest_mem (columns : List TypedColumn) :
    longest columns = 0 ∨ ∃ column ∈ columns, column.cells.length = longest columns := by
  rw [longest_eq_max?]
  cases hmax : (columns.map fun column => column.cells.length).max? with
  | none => exact Or.inl rfl
  | some n => exact Or.inr (List.mem_map.mp (List.max?_mem hmax))

/-! ### Rectangles of cells -/

/-- Rows of equal length, given cell by cell. -/
def rectangle (height width : Nat) (f : Nat → Nat → Cell) : List Row :=
  (List.range height).map fun r => (List.range width).map (f r)

variable {f g : Nat → Nat → Cell}

theorem rectangle_congr (h : ∀ r < height, ∀ c < width, f r c = g r c) :
    rectangle height width f = rectangle height width g :=
  List.map_congr_left fun r hr => List.map_congr_left fun c hc => h r (List.mem_range.mp hr) c (List.mem_range.mp hc)

theorem getElem?_rectangle (f : Nat → Nat → Cell) (hr : r < height) :
    (rectangle height width f)[r]? = some ((List.range width).map (f r)) := by
  rw [rectangle, List.getElem?_map, List.getElem?_range hr, Option.map_some]

/-- Rows of equal length are a rectangle of what is read in them. -/
theorem eq_rectangle (row_length : ∀ row ∈ d.body, row.length = width)
    (cells : ∀ r < d.rowCount, ∀ c < width, d.cell? r c = some (f r c)) : d.body = rectangle d.rowCount width f := by
  refine List.ext_getElem (by simp [rectangle, rowCount]) fun r hr _ => ?_
  have hlength := row_length d.body[r] (List.getElem_mem hr)
  simp only [rectangle, List.getElem_map, List.getElem_range]
  refine List.ext_getElem (by simp [hlength]) fun c hc _ => ?_
  have hcell := cells r hr c (hlength ▸ hc)
  rw [cell?, List.getElem?_eq_getElem hr] at hcell
  rw [List.getElem_map, List.getElem_range]
  exact Option.some.inj ((List.getElem?_eq_getElem hc).symm.trans hcell)

/-! ### The transpose -/

namespace Transposes

theorem cell?_eq (h : d.Transposes name userId titles columns) (hr : r < d.rowCount) (hc : c < titles.length) :
    d.cell? r c = some (cellAt (columnFor columns c) r) := by
  rw [cellAt]
  rcases hcell : (columnFor columns c).cells[r]? with _ | cell
  · exact h.blank hr hc (List.getElem?_eq_none_iff.mp hcell)
  · exact h.value hc hcell

theorem body_eq (h : d.Transposes name userId titles columns) :
    d.body = rectangle d.rowCount titles.length fun r c => cellAt (columnFor columns c) r :=
  eq_rectangle h.row_length fun _ hr _ hc => h.cell?_eq hr hc

theorem rowCount_le (h : d.Transposes name userId titles columns) (h' : d'.Transposes name userId titles columns) :
    d.rowCount ≤ d'.rowCount := by
  rcases h.longest with hzero | ⟨column, hmem, hlength⟩
  · rw [hzero]
    exact Nat.zero_le _
  · rw [← hlength]
    exact h'.reach column hmem

/-- Columns are laid out as rows in one way only. -/
theorem unique (h : d.Transposes name userId titles columns) (h' : d'.Transposes name userId titles columns) :
    d = d' := by
  have header : d.header = d'.header := List.ext_getElem? fun c => (h.header c).trans (h'.header c).symm
  have rows : d.rowCount = d'.rowCount := Nat.le_antisymm (h.rowCount_le h') (h'.rowCount_le h)
  have body : d.body = d'.body := by rw [h.body_eq, h'.body_eq, rows]
  rw [h.fresh, h'.fresh, header, body]

end Transposes

theorem assemble_fitColumns (name userId : String) (titles : List String) (columns : List TypedColumn) :
    assemble name userId titles (fitColumns titles.length columns) = assemble name userId titles columns :=
  assemble_congr fun c hc => by rw [columnFor, getElem?_fitColumns columns hc, Option.getD_some]

theorem rowCount_assemble (name userId : String) (titles : List String) (columns : List TypedColumn) :
    (assemble name userId titles columns).rowCount = longest (fitColumns titles.length columns) := by
  rw [← assemble_fitColumns, rowCount, length_body_assemble (length_fitColumns ..)]

theorem cell?_assemble_eq (hr : r < (assemble name userId titles columns).rowCount) (hc : c < titles.length) :
    (assemble name userId titles columns).cell? r c = some (cellAt (columnFor columns c) r) := by
  rw [rowCount_assemble] at hr
  rw [← assemble_fitColumns]
  exact cell?_assemble (length_fitColumns ..) hr (getElem?_fitColumns columns hc)

theorem length_le_rowCount (name userId : String) (columns : List TypedColumn) (hc : c < titles.length) :
    (columnFor columns c).cells.length ≤ (assemble name userId titles columns).rowCount := by
  rw [rowCount_assemble]
  exact length_le_longest (List.mem_of_getElem? (getElem?_fitColumns columns hc))

theorem assemble_transposes (name userId : String) (titles : List String) (columns : List TypedColumn) :
    (assemble name userId titles columns).Transposes name userId titles columns where
  fresh := rfl
  header c := by
    rw [← assemble_fitColumns]
    by_cases hc : c < titles.length
    · obtain ⟨title, htitle, hheading⟩ := @header_assemble _ name userId _ _ (length_fitColumns ..) _
        (getElem?_fitColumns columns hc)
      rw [hheading, htitle]
      rfl
    · rw [List.getElem?_eq_none (by rw [length_header_assemble (length_fitColumns ..)]; omega),
        List.getElem?_eq_none (by omega)]
      rfl
  row_length row hrow := by
    rw [← assemble_fitColumns] at hrow
    exact length_row_assemble (length_fitColumns ..) hrow
  reach column hmem := by
    rw [rowCount_assemble]
    exact length_le_longest (List.mem_append_left _ hmem)
  longest := by
    rw [rowCount_assemble]
    rcases longest_mem (fitColumns titles.length columns) with hzero | ⟨column, hmem, hlength⟩
    · exact Or.inl hzero
    rcases List.mem_append.mp hmem with hkept | hadded
    · exact Or.inr ⟨column, hkept, hlength⟩
    · -- A column that was added has no cells, so that there are no rows if it is the longest.
      rw [List.eq_of_mem_replicate hadded] at hlength
      exact Or.inl hlength.symm
  value {r c cell} hc hcell := by
    obtain ⟨hlt, -⟩ := List.getElem?_eq_some_iff.mp hcell
    have hr := Nat.lt_of_lt_of_le hlt (length_le_rowCount name userId columns hc)
    rw [cell?_assemble_eq hr hc, cellAt, hcell, Option.getD_some]
  blank {r c} hr hc hle := by
    rw [cell?_assemble_eq hr hc, cellAt, List.getElem?_eq_none hle, Option.getD_none]

theorem body_assemble (name userId : String) (titles : List String) (columns : List TypedColumn) :
    (assemble name userId titles columns).body = rectangle (longest (fitColumns titles.length columns)) titles.length
      fun r c => cellAt (columnFor columns c) r := by
  rw [(assemble_transposes ..).body_eq, rowCount_assemble]

/-! ### In place -/

/-- Columns without cells are added until there are enough. -/
def addColumns (width : Nat) (columns : List TypedColumn) : List TypedColumn :=
  if columns.length < width then addColumns width (columns ++ [infer .default []]) else columns
termination_by width - columns.length

/-- The rows with another cell at a row and a position; there is no result if they have no such place. -/
def put? (body : List Row) (row position : Nat) (cell : Cell) : Option (List Row) := do
  let cells ← body[row]?
  if position < cells.length then some (body.set row (cells.set position cell)) else none

/-- The rows with the cells of a column at a position, one below the other from a row on. -/
def putCells? (position : Nat) : Nat → List Cell → List Row → Option (List Row)
  | _, [], body => some body
  | row, cell :: cells, body => do putCells? position (row + 1) cells (← put? body row position cell)

/-- The header and the rows with columns at the positions from a position on, one after the other. -/
def putColumns? : Nat → List (String × TypedColumn) → List Column → List Row → Option (List Column × List Row)
  | _, [], header, body => some (header, body)
  | position, (title, column) :: rest, header, body => do
    let body ← putCells? position 0 column.cells body
    putColumns? (position + 1) rest (header ++ [.atPosition title position column.kind]) body

/-- The dataset with the given titles and columns, assembled in rows of empty cells that are as many as the longest
    column has cells. -/
def assembleInPlace? (name userId : String) (titles : List String) (columns : List TypedColumn) : Option Dataset := do
  let columns := addColumns titles.length (columns.take titles.length)
  let rowCount := (columns.map fun column => column.cells.length).max?.getD 0
  let body := List.replicate rowCount (columns.map fun column => Cell.empty column.kind)
  let (header, body) ← putColumns? 0 (titles.zip columns) [] body
  return new name userId header body

/-- The item with a number, in a list whose items are numbered from `start` on. -/
def numbered? {α : Type} (start : Nat) (l : List α) (i : Nat) : Option α :=
  if start ≤ i then l[i - start]? else none

theorem numbered?_zero {α : Type} (l : List α) (i : Nat) : numbered? 0 l i = l[i]? := if_pos (Nat.zero_le i)

theorem numbered?_nil {α : Type} (start i : Nat) : numbered? start ([] : List α) i = none := by
  unfold numbered?
  split <;> rfl

theorem numbered?_of_lt {α : Type} {start i : Nat} (l : List α) (h : i < start) : numbered? start l i = none :=
  if_neg (Nat.not_le.mpr h)

theorem numbered?_cons {α : Type} (start : Nat) (a : α) (l : List α) (i : Nat) :
    numbered? start (a :: l) i = if i = start then some a else numbered? (start + 1) l i := by
  unfold numbered?
  rcases Nat.lt_trichotomy i start with hlt | rfl | hlt
  · rw [if_neg (by omega), if_neg (by omega), if_neg (by omega)]
  · rw [if_pos (Nat.le_refl i), if_pos rfl, Nat.sub_self, List.getElem?_cons_zero]
  · rw [if_pos (by omega), if_neg (by omega), if_pos (by omega), show i - start = i - (start + 1) + 1 by omega,
      List.getElem?_cons_succ]

theorem addColumns_eq (width : Nat) (columns : List TypedColumn) :
    addColumns width columns = columns ++ List.replicate (width - columns.length) ⟨.numbers, []⟩ := by
  fun_induction addColumns width columns with
  | case1 columns hlt ih =>
    have added : width - columns.length = width - (columns ++ [infer .default []]).length + 1 := by
      rw [List.length_append, List.length_singleton]
      omega
    rw [ih, added, List.replicate_succ, List.append_assoc]
    rfl
  | case2 columns hle => rw [Nat.sub_eq_zero_of_le (by omega), List.replicate_zero, List.append_nil]

theorem put?_rectangle (f : Nat → Nat → Cell) (cell : Cell) (hr : r < height) (hc : c < width) :
    put? (rectangle height width f) r c cell =
      some (rectangle height width fun r' c' => if r' = r ∧ c' = c then cell else f r' c') := by
  have hlength : c < ((List.range width).map (f r)).length := by simpa using hc
  rw [put?, getElem?_rectangle f hr, Option.bind_eq_bind, Option.bind_some, if_pos hlength]
  refine congrArg some (List.ext_getElem (by simp [rectangle]) fun r' hr' _ => ?_)
  simp only [rectangle, List.getElem_set, List.getElem_map, List.getElem_range]
  refine List.ext_getElem (by split <;> simp) fun c' hc' _ => ?_
  by_cases hrow : r = r'
  · subst hrow
    simp [List.getElem_set, eq_comm]
  · simp [hrow, Ne.symm hrow]

theorem putCells?_rectangle (hc : c < width) :
    ∀ {cells : List Cell} {row : Nat} {f : Nat → Nat → Cell}, row + cells.length ≤ height →
      putCells? c row cells (rectangle height width f) = some (rectangle height width fun r' c' =>
        if c' = c then (numbered? row cells r').getD (f r' c') else f r' c')
  | [], row, f, _ => by
    simp only [numbered?_nil, Option.getD_none, ite_self]
    rfl
  | cell :: cells, row, f, h => by
    rw [List.length_cons] at h
    rw [putCells?, put?_rectangle f cell (by omega) hc, Option.bind_eq_bind, Option.bind_some,
      putCells?_rectangle hc (by omega)]
    refine congrArg some (rectangle_congr fun r' _ c' _ => ?_)
    -- The cells below are numbered from the next row on, so they leave the one that has just been written.
    rw [numbered?_cons]
    by_cases hcolumn : c' = c
    · by_cases hrow : r' = row
      · simp [hcolumn, hrow, numbered?_of_lt]
      · simp [hcolumn, hrow]
    · simp [hcolumn]

/-- What stands in the rows beforehand is left where no column is written. -/
theorem putColumns?_rectangle : ∀ {pairs : List (String × TypedColumn)} {position : Nat} {header : List Column}
    {f : Nat → Nat → Cell}, (∀ pair ∈ pairs, pair.2.cells.length ≤ height) → position + pairs.length ≤ width →
      putColumns? position pairs header (rectangle height width f) = some
        (header ++ (pairs.zipIdx position).map fun ((title, column), c) => Column.atPosition title c column.kind,
          rectangle height width fun r c =>
            ((numbered? position pairs c).bind fun pair => pair.2.cells[r]?).getD (f r c))
  | [], position, header, f, _, _ => by
    simp only [numbered?_nil, Option.bind_none, Option.getD_none, List.zipIdx_nil, List.map_nil, List.append_nil]
    rfl
  | (title, column) :: pairs, position, header, f, hrows, hwidth => by
    rw [List.length_cons] at hwidth
    have hcolumn : 0 + column.cells.length ≤ height := by
      rw [Nat.zero_add]
      exact hrows _ List.mem_cons_self
    rw [putColumns?, putCells?_rectangle (by omega) hcolumn, Option.bind_eq_bind, Option.bind_some,
      putColumns?_rectangle (fun pair hpair => hrows pair (List.mem_cons_of_mem _ hpair)) (by omega),
      List.zipIdx_cons, List.map_cons, List.append_assoc, List.singleton_append]
    refine congrArg some (Prod.ext rfl (rectangle_congr fun r _ c _ => ?_))
    rw [numbered?_cons]
    by_cases hc : c = position
    · simp [hc, numbered?_of_lt, numbered?_zero]
    · simp [hc]

theorem replicate_empty (height width : Nat) (columns : List TypedColumn) :
    List.replicate height ((fitColumns width columns).map fun column => Cell.empty column.kind) =
      rectangle height width fun _ c => .empty (columnFor columns c).kind := by
  rw [rectangle, List.map_const', List.length_range, fitColumns_eq_map, List.map_map]
  rfl

theorem getElem?_zip_fitColumns (columns : List TypedColumn) (hc : c < titles.length) :
    (titles.zip (fitColumns titles.length columns))[c]? = some (titles[c], columnFor columns c) :=
  List.getElem?_zip_eq_some.mpr ⟨List.getElem?_eq_getElem hc, getElem?_fitColumns columns hc⟩

/-- Every cell has a place when it is written, and in the end the rows are the transpose. -/
theorem assembleInPlace?_eq (name userId : String) (titles : List String) (columns : List TypedColumn) :
    assembleInPlace? name userId titles columns = some (assemble name userId titles columns) := by
  have fitted : addColumns titles.length (columns.take titles.length) = fitColumns titles.length columns :=
    addColumns_eq ..
  -- The rows are sized by the columns that are written, and only columns with a title are written.
  have rows : ∀ pair ∈ titles.zip (fitColumns titles.length columns),
      pair.2.cells.length ≤ longest (fitColumns titles.length columns) :=
    fun pair hpair => length_le_longest (List.of_mem_zip hpair).2
  have positions : 0 + (titles.zip (fitColumns titles.length columns)).length ≤ titles.length := by
    rw [List.length_zip]
    omega
  have written : (assemble name userId titles columns).body = rectangle (longest (fitColumns titles.length columns))
      titles.length fun r c => ((numbered? 0 (titles.zip (fitColumns titles.length columns)) c).bind
        fun pair => pair.2.cells[r]?).getD (.empty (columnFor columns c).kind) := by
    rw [body_assemble]
    refine rectangle_congr fun r _ c hc => ?_
    rw [numbered?_zero, getElem?_zip_fitColumns columns hc, Option.bind_some, cellAt]
  rw [assembleInPlace?, fitted, ← longest_eq_max?, replicate_empty, putColumns?_rectangle rows positions, ← written]
  rfl

/-- Titles and columns of any number are assembled without a write beside the rows, and what comes out is the transpose.
    Columns without a title do not matter, nor does it whether a column without cells is missing. -/
theorem padded_transpose (name userId : String) (titles : List String) (columns : List TypedColumn) :
    assembleInPlace? name userId titles columns = some (assemble name userId titles columns) ∧
    (∀ d, assemble name userId titles columns = d ↔ d.Transposes name userId titles columns) ∧
    assemble name userId titles (columns.take titles.length) = assemble name userId titles columns ∧
    ∀ n, assemble name userId titles (columns ++ List.replicate n ⟨.numbers, []⟩) =
      assemble name userId titles columns := by
  refine ⟨assembleInPlace?_eq .., fun d => ?_, ?_, fun n => ?_⟩
  · constructor
    · rintro rfl
      exact assemble_transposes ..
    · exact (assemble_transposes name userId titles columns).unique
  · refine assemble_congr fun c hc => ?_
    rw [columnFor, columnFor, List.getElem?_take_of_lt hc]
  · exact assemble_congr fun c _ => columnFor_append_replicate columns n c

example : (assemble "sheet" "user" ["a", "b", "c"]
    [⟨.texts, [.texts ["x"], .numbers []]⟩, ⟨.texts, [.texts ["y"]]⟩]).body =
      [[.texts ["x"], .texts ["y"], .numbers []], [.numbers [], .texts [], .numbers []]] := rfl

end Dataset

end GridCatalog
