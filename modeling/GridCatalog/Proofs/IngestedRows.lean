import Mathlib.Data.List.Forall2
import GridCatalog.Proofs.Durability
import GridCatalog.Proofs.GridColumns
import GridCatalog.Proofs.Ingest
import GridCatalog.Proofs.Preview
import GridCatalog.Proofs.RangeText
import GridCatalog.Source.Memory

/-! How large the datasets are that an ingest stores.

    A dataset has a column for each cell of the first row of its grid and a row for each data row that has a cell
    (`Dataset.Measures`). A sheet without a cell in its first row or without data rows is skipped. A data row need not
    have a cell, though: below a heading, rows that end in front of the range leave a dataset without rows. -/

namespace GridCatalog

namespace Grid

/-- The number of data rows that have a cell. -/
def filledRows (grid : Grid) : Nat := (grid.dataRows.filter (· ≠ [])).length

/-- The number of rows above the data rows. -/
def headingRows (grid : Grid) : Nat := if Inference.isHeading (grid.headD []) then 1 else 0

theorem dataRows_eq_drop (grid : Grid) : grid.dataRows = grid.drop grid.headingRows := by
  cases grid with
  | nil => rw [List.drop_nil, dataRows]
  | cons first rest =>
    rw [dataRows, headingRows, List.headD_cons]
    split <;> simp

theorem reaching_zero (rows : Grid) : rows.reaching 0 = rows.filter (· ≠ []) :=
  List.filter_congr fun _ _ => decide_eq_decide.mpr List.length_pos_iff

theorem filledRows_pos {grid : Grid} : 1 ≤ grid.filledRows ↔ ∃ row ∈ grid.dataRows, row ≠ [] := by
  rw [filledRows, Nat.succ_le_iff, List.length_pos_iff_exists_mem]
  simp only [List.mem_filter, decide_eq_true_eq]

end Grid

/-- The dataset has a column for each cell of the first row, at least one, and a row for each data row with a cell. -/
structure Dataset.Measures (d : Dataset) (grid : Grid) : Prop where
  columns : d.columnCount = grid.width
  some_column : 1 ≤ d.columnCount
  rows : d.rowCount = grid.filledRows
  some_row : 1 ≤ d.rowCount ↔ ∃ row ∈ grid.dataRows, row ≠ []

theorem Dataset.measures_ofGrid? {settings : InferenceSettings} {name userId : String} {grid : Grid} {d : Dataset}
    (h : ofGrid? settings name userId grid = some d) : d.Measures grid := by
  have columns : d.columnCount = grid.width := length_header_ofGrid? h
  have rows : d.rowCount = grid.filledRows := by
    rw [rowCount, length_body_ofGrid? h, Grid.reaching_zero, Grid.filledRows]
  exact ⟨columns, columns ▸ (ofGrid?_inv h).1, rows, rows ▸ Grid.filledRows_pos⟩

/-- A data row of a cut grid has a cell if it reaches the range. -/
theorem CellRange.filledRows_cut {r : CellRange} (ordered : r.firstColumn ≤ r.lastColumn) (grid : Grid) :
    (r.cut grid).filledRows = (((r.cutRows grid).drop (r.cut grid).headingRows).filter fun row =>
      r.firstColumn < row.length).length := by
  have reaches (row : List String) : (row.drop r.firstColumn).take r.width ≠ [] ↔ r.firstColumn < row.length := by
    rw [← List.length_pos_iff, List.length_take, List.length_drop, width]
    omega
  have data : (r.cut grid).dataRows = ((r.cutRows grid).drop (r.cut grid).headingRows).map fun row =>
      (row.drop r.firstColumn).take r.width := by
    rw [Grid.dataRows_eq_drop]
    exact (List.map_drop ..).symm
  rw [Grid.filledRows, data, List.filter_map, List.length_map]
  exact congrArg List.length (List.filter_congr fun row _ => decide_eq_decide.mpr (reaches row))

/-- The second store has, beside what the first one has, only datasets with a property. -/
def Memory.AddsOnly (m : Memory) (Q : Dataset → Prop) (m' : Memory) : Prop := ∀ id d,
  m'.datasets.get? id = some d → m.datasets.get? id = some d ∨ Q d

theorem Memory.AddsOnly.insertDataset {m m' : Memory} {Q : Dataset → Prop} (h : m.AddsOnly Q m') {d : Dataset}
    (new : Q d) : m.AddsOnly Q (m'.insertDataset d) := by
  intro id d' found
  rcases insertDataset_inv found with ⟨-, rfl⟩ | ⟨-, found⟩
  · exact Or.inr new
  · exact h id d' found

theorem Settings.addressable_range {settings : Settings} {r : CellRange} (h : settings.range = .ok r) :
    r.Addressable := by
  unfold range at h
  dsimp only at h
  split at h <;> cases h
  rename_i read
  exact (CellRange.ofText?_eq_some_iff.mp read).addressable

namespace Service
variable {σ : Type} {s : Service σ} {w w' : World σ} {sourceId : String} {range : CellRange}

/-- A grid is read under the title of a grid sheet of the document. -/
def Reads (s : Service σ) (sourceId : String) (range : CellRange) (sheet : Sheet) (grid : Grid) : Prop :=
  (∃ sheets, s.source.sheets sourceId = .ok sheets ∧ sheet ∈ sheets) ∧ sheet.isGrid ∧
    s.source.readGrid sourceId sheet.title range = .ok grid

/-- The sheet is a grid with a cell in its first row and with data rows. -/
def holdsData (s : Service σ) (sourceId : String) (range : CellRange) (sheet : Sheet) : Bool :=
  sheet.isGrid && (s.source.readGrid sourceId sheet.title range).toOption.any fun grid =>
    decide (0 < grid.width ∧ grid.dataRows ≠ [])

theorem isSome_datasetOf (s : Service σ) (sourceId : String) (range : CellRange) (sheet : Sheet) :
    (s.datasetOf sourceId range sheet).isSome = s.holdsData sourceId range sheet := by
  unfold datasetOf holdsData
  split
  · rename_i grid
    rw [grid, Bool.true_and]
    rcases s.source.readGrid sourceId sheet.title range with e | grid
    · rfl
    · rw [Except.toOption, Option.bind_some, Dataset.ofGrid?_eq, Option.any_some]
      split <;> rename_i h <;> simp [h]
  · rename_i other
    rw [Bool.eq_false_iff.mpr other]
    rfl

theorem datasetOf_inv {sheet : Sheet} {d : Dataset} (h : s.datasetOf sourceId range sheet = some d) :
    d.name = sheet.title ∧ sheet.isGrid ∧
      ∃ grid, s.source.readGrid sourceId sheet.title range = .ok grid ∧ d.Measures grid := by
  unfold datasetOf at h
  split at h
  · rename_i isGrid
    obtain ⟨grid, read, built⟩ := Option.bind_eq_some_iff.mp h
    have name : d.name = sheet.title := by
      obtain ⟨-, -, rfl⟩ := Dataset.ofGrid?_inv built
      rfl
    refine ⟨name, isGrid, grid, ?_, Dataset.measures_ofGrid? built⟩
    rcases h : s.source.readGrid sourceId sheet.title range with e | g <;> rw [h] at read <;> cases read
    rfl
  · cases h

/-! ### What is stored -/

section Keeps
variable {P : σ → Prop} {ds : List Dataset} (entry : ∀ e stamp x, P x → P (s.store.run (.createEntry e) stamp x).2)
include entry

theorem Creates.keeps {es : List Entry} (h : s.Creates sourceId ds w es w')
    (dataset : ∀ d ∈ ds, ∀ stamp x, P x → P (s.store.run (.createDataset d) stamp x).2) (start : P w.store) :
    P w'.store := by
  induction h with
  | nil store => exact store ▸ start
  | @cons d d' _ _ _ w v v' _ _ created _ created' _ _ _ ih =>
    have with_dataset := dataset d List.mem_cons_self (s.stamp w) w.store start
    rw [created] at with_dataset
    have with_entry := entry (.preview "" d' s.source.provenance sourceId) (s.stamp v) v.store with_dataset
    rw [created'] at with_entry
    exact ih (fun d hd => dataset d (List.mem_cons_of_mem _ hd)) with_entry

theorem Creation.keeps {r : Except Failure (List Entry)} (h : s.Creation sourceId ds w r w')
    (dataset : ∀ d ∈ ds, ∀ stamp x, P x → P (s.store.run (.createDataset d) stamp x).2) (start : P w.store) :
    P w'.store := by
  have call_keeps {α : Type} {c : Call α} {v v' : World σ} {r : Except StoreError α}
      (keeps : ∀ stamp x, P x → P (s.store.run c stamp x).2) (h : s.call c v = (r, v')) (start : P v.store) :
      P v'.store := by
    rcases call_store h with h | h <;> rw [h]
    · exact start
    · exact keeps _ _ start
  have front_keeps {front back : List Dataset} {d : Dataset} {es : List Entry} {v : World σ}
      (split : ds = front ++ d :: back) (created : s.Creates sourceId front w es v) : P v.store :=
    created.keeps entry (fun d hd => dataset d (split ▸ List.mem_append_left _ hd)) start
  cases h with
  | all created => exact created.keeps entry dataset start
  | atDataset split created failed =>
    exact call_keeps (dataset _ (by simp [split])) failed (front_keeps split created)
  | atEntry split created stored failed =>
    exact call_keeps (entry _) failed (call_keeps (dataset _ (by simp [split])) stored (front_keeps split created))

/-- An ingest does nothing to a store but create datasets of the document and their entries. What these creations keep,
    it keeps, however it ends. -/
theorem ingest_keeps (stamps : s.store.Stamps) (valid : s.settings.range = .ok range)
    (dataset : ∀ d sheet grid, s.Reads sourceId range sheet grid → d.name = sheet.title → d.Measures grid →
      ∀ stamp x, P x → P (s.store.run (.createDataset d) stamp x).2)
    {o : Except Failure (List Entry)} (h : s.ingest sourceId w = (o, w')) (start : P w.store) : P w'.store := by
  cases ingest_inv stamps h with
  | unset | unlisted => exact start
  | empty _ _ store | unread _ _ _ _ _ store | valueless _ _ _ _ store => exact store ▸ start
  | created valid' listed _ store _ creation =>
    cases valid.symm.trans valid'
    refine creation.keeps entry (fun d hd stamp x => ?_) (store ▸ start)
    obtain ⟨sheet, mem, built⟩ := List.mem_filterMap.mp hd
    obtain ⟨name, isGrid, grid, read, measures⟩ := datasetOf_inv built
    exact dataset d sheet grid ⟨⟨_, listed, mem⟩, isGrid, read⟩ name measures stamp x

end Keeps

theorem ingest_listed (stamps : s.store.Stamps) {es : List Entry} (h : s.ingest sourceId w = (.ok es, w')) :
    ∃ sheets, s.source.sheets sourceId = .ok sheets := by
  cases ingest_inv stamps h with
  | empty _ listed | created _ listed => exact ⟨_, listed⟩

/-- The entries show the datasets that were created, in their order. -/
theorem Creates.mirrors {f : Sheet → Option Dataset} {sheets : List Sheet} {es : List Entry}
    (h : s.Creates sourceId (sheets.filterMap f) w es w') :
    List.Forall₂ (fun sheet e => sheet ∈ sheets ∧ ∃ d, f sheet = some d ∧ e.Mirrors d)
      (sheets.filter fun sheet => (f sheet).isSome) es := by
  induction sheets generalizing w es with
  | nil =>
    cases h
    exact .nil
  | cons sheet sheets ih =>
    rcases built : f sheet with _ | d
    · rw [List.filterMap_cons_none built] at h
      rw [List.filter_cons_of_neg (by simp [built])]
      exact (ih h).imp fun _ _ ⟨mem, shown⟩ => ⟨List.mem_cons_of_mem _ mem, shown⟩
    · rw [List.filterMap_cons_some built] at h
      rw [List.filter_cons_of_pos (by simp [built])]
      cases h with
      | cons stored _ shown _ _ _ rest =>
        refine .cons ⟨List.mem_cons_self, d, built, ?_⟩ ((ih rest).imp fun _ _ ⟨mem, shown⟩ =>
          ⟨List.mem_cons_of_mem _ mem, shown⟩)
        rw [shown, stored]
        have mirrors := (Entry.preview_mirrors "" d s.source.provenance sourceId).stamped (s.stamp w)
        exact ⟨mirrors.name, mirrors.userId, mirrors.header, mirrors.size, mirrors.examples⟩

/-- Every dataset that an ingest stores has a column for each cell of its first row, at least one, and a row for each
    data row that has a cell; of a grid that is cut to the range these are the data rows that reach it. The entries show
    such datasets, one for each sheet with a cell in its first row and with data rows, and other sheets are skipped. -/
theorem ingest_measures {s : Service Memory} {w w' : World Memory} (hs : s.store = Memory.store)
    (valid : s.settings.range = .ok range) {o : Except Failure (List Entry)} (h : s.ingest sourceId w = (o, w')) :
    w.store.AddsOnly (fun d => ∃ sheet grid, s.Reads sourceId range sheet grid ∧ d.name = sheet.title ∧ d.Measures grid)
      w'.store ∧
    (∀ es, o = .ok es → ∃ sheets, s.source.sheets sourceId = .ok sheets ∧
      List.Forall₂ (fun sheet e => ∃ grid d, s.Reads sourceId range sheet grid ∧ e.Mirrors d ∧ d.Measures grid)
        (sheets.filter (s.holdsData sourceId range)) es) ∧
    ∀ grid, (range.cut grid).filledRows = (((range.cutRows grid).drop (range.cut grid).headingRows).filter fun row =>
      range.firstColumn < row.length).length := by
  have stamps : s.store.Stamps := hs ▸ Memory.store_stamps
  refine ⟨?_, fun es ok => ?_, CellRange.filledRows_cut (Settings.addressable_range valid).columns⟩
  · refine ingest_keeps (fun e stamp m adds => ?_) stamps valid (fun d sheet grid reads name measures stamp m adds => ?_) h
      fun _ _ => Or.inl
    · rw [hs]
      exact adds
    · rw [hs]
      refine adds.insertDataset ⟨sheet, grid, reads, name, ?_⟩
      exact ⟨measures.columns, measures.some_column, measures.rows, measures.some_row⟩
  · subst ok
    obtain ⟨sheets, listed⟩ := ingest_listed stamps h
    have shown := (ingest_creates stamps valid listed h).mirrors
    simp only [isSome_datasetOf] at shown
    refine ⟨sheets, listed, shown.imp fun sheet e ⟨mem, d, built, mirrors⟩ => ?_⟩
    obtain ⟨-, isGrid, grid, read, measures⟩ := datasetOf_inv built
    exact ⟨grid, d, ⟨⟨sheets, listed, mem⟩, isGrid, read⟩, mirrors, measures⟩

/-- The second column of two sheets: one has no data rows and is skipped, and one data row of the other ends before. -/
theorem ingest_measures_cut :
    let library := ((Library.empty .uploadedFile).addSheet "d" ⟨"bare", true⟩ [["x", "name"]]).addSheet "d"
      ⟨"people", true⟩ [["x", "name"], ["y"], ["z", "Ann"]]
    let s : Service Memory := ⟨Memory.store, library.toSource, { Settings.default with ingest := ⟨"B:B", "u"⟩ }, .counting []⟩
    ∃ es w', s.ingest "d" (.start .empty) = (.ok es, w') ∧ es.map Entry.size = [1] ∧
      Memory.empty.AddsOnly (fun d => 1 ≤ d.columnCount) w'.store ∧
      List.Forall₂ (fun sheet e => ∃ grid d, s.Reads "d" ⟨1, 1, 0, none⟩ sheet grid ∧ e.Mirrors d ∧ d.Measures grid)
        [⟨"people", true⟩] es := by
  intro library s
  have valid : s.settings.range = .ok ⟨1, 1, 0, none⟩ := World.ok_of_toOption (by decide +kernel)
  have sizes : (s.ingest "d" (.start .empty)).1.toOption.map (List.map Entry.size) = some [1] := by decide +kernel
  rcases h : s.ingest "d" (.start .empty) with ⟨o, w'⟩
  rw [h, Option.map_eq_some_iff] at sizes
  obtain ⟨es, ok, sizes⟩ := sizes
  obtain rfl : o = .ok es := World.ok_of_toOption ok
  obtain ⟨adds, shown, -⟩ := ingest_measures rfl valid h
  obtain ⟨sheets, listed, shown⟩ := shown es rfl
  cases Except.ok.inj (listed.symm.trans rfl : Except.ok sheets = .ok [⟨"bare", true⟩, ⟨"people", true⟩])
  refine ⟨es, w', rfl, sizes, fun id d found => (adds id d found).imp_right ?_, ?_⟩
  · rintro ⟨sheet, grid, -, -, measures⟩
    exact measures.some_column
  · have held : [⟨"bare", true⟩, ⟨"people", true⟩].filter (s.holdsData "d" ⟨1, 1, 0, none⟩) = [⟨"people", true⟩] := by
      decide +kernel
    rwa [held] at shown

/-- Below a heading, a row that ends in front of the range leaves a dataset without rows, and it is stored. -/
theorem ingest_stores_rowless :
    let library := (Library.empty .uploadedFile).addSheet "d" ⟨"people", true⟩ [["x", "name"], ["y"]]
    let s : Service Memory := ⟨Memory.store, library.toSource, { Settings.default with ingest := ⟨"B:B", "u"⟩ }, .counting []⟩
    let outcome := s.ingest "d" (.start .empty)
    s.settings.range.toOption = some ⟨1, 1, 0, none⟩ ∧
      outcome.1.toOption.map (List.map fun e => (e.header.length, e.size, e.examples)) = some [(1, 0, [])] ∧
      outcome.2.store.datasets.values.map (fun d => (d.columnCount, d.rowCount)) = [(1, 0)] := by
  decide +kernel

end Service
end GridCatalog
