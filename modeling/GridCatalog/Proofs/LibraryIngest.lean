import GridCatalog.Proofs.Additions
import GridCatalog.Source.Memory

/-! What an ingest gives when nothing fails.

    A document that is held in memory can always be read, and a store in memory always creates. So an ingest ends in
    one of three ways: the document has no sheets, none of its sheets holds a dataset, or every dataset comes in and is
    found again under the entry that the ingest gives for it (`library_ingested`). -/

namespace GridCatalog

namespace Library
variable {l : Library} {sourceId : String} {sheets : List (Sheet × Grid)}

theorem sheets_toSource (known : l.documents.get? sourceId = some sheets) :
    l.toSource.sheets sourceId = .ok (sheets.map Prod.fst) := by
  simp only [toSource, document, known]
  rfl

/-- The title of a grid sheet leads to a grid. -/
theorem readGrid_toSource (known : l.documents.get? sourceId = some sheets) {sheet : Sheet}
    (mem : sheet ∈ sheets.map Prod.fst) (grid : sheet.isGrid) (range : CellRange) :
    ∃ g, l.toSource.readGrid sourceId sheet.title range = .ok g := by
  obtain ⟨x, hx, rfl⟩ := List.mem_map.mp mem
  simp only [toSource, readGrid, document, known, bind, Except.bind]
  split
  · exact ⟨_, rfl⟩
  · rename_i untitled
    have := List.find?_eq_none.mp untitled x hx
    simp [grid] at this

end Library

namespace Service
variable {s : Service Memory} {w w' : World Memory} {sourceId : String} {d : Dataset} {e : Entry}

/-- No call of the store fails before it reaches the store. -/
def Answers (s : Service Memory) : Prop := ∀ n kind, s.surroundings.fault n kind = none

/-- The dataset is served whole under a temporary entry. -/
structure Serves (s : Service Memory) (w : World Memory) (d : Dataset) (e : Entry) : Prop where
  temporary : e.isTemporary = true
  unarchived : e.isArchived = false
  entry : (s.entry e.id w).1 = .ok e
  /-- A page that starts at the first row and has room for all rows has them as they were read. -/
  dataset (limit : Int) (room : d.rowCount ≤ limit) : ∃ d', (s.read e.id 0 limit w).1 = .ok d' ∧
    d'.name = d.name ∧ d'.userId = d.userId ∧ d'.header = d.header ∧ d'.body = d.body

/-- Creating datasets in a store in memory goes through. -/
theorem Creation.succeeds (hs : s.store = Memory.store) (answers : s.Answers) {ds : List Dataset}
    {r : Except Failure (List Entry)} (h : s.Creation sourceId ds w r w') :
    ∃ es, r = .ok es ∧ s.Creates sourceId ds w es w' := by
  cases h with
  | all created => exact ⟨_, rfl, created⟩
  | atDataset _ _ failed | atEntry _ _ _ failed =>
    rw [call_of_no_fault hs (answers ..)] at failed
    cases failed

/-- What is stored of a dataset is served. -/
theorem Stores.serves (hs : s.store = Memory.store) (answers : s.Answers) {p : Dataset × Entry}
    (h : s.Stores sourceId d p) (holds : w.store.Holds p.2.id p.2 p.1) : s.Serves w d p.2 := by
  obtain ⟨st, st', hd, he⟩ := h
  have room : p.1.rowCount = d.rowCount := by
    rw [hd]
    rfl
  refine ⟨by rw [he]; rfl, by rw [he]; rfl, by rw [entry_of_stored hs holds.entry (answers ..)], fun limit hl => ?_⟩
  refine ⟨p.1, ?_, by rw [hd]; rfl, by rw [hd]; rfl, by rw [hd]; rfl, by rw [hd]; rfl⟩
  rw [read_of_stored hs holds.entry holds.dataset (answers ..) (answers ..), Dataset.page_of_le _ (room ▸ hl)]

/-- All datasets that came in are served. -/
theorem serves_of_gains (hs : s.store = Memory.store) (answers : s.Answers) {m : Memory} {ds : List Dataset}
    {added : List (Dataset × Entry)} (stores : List.Forall₂ (s.Stores sourceId) ds added)
    (gains : m.Gains added [] w.store) : List.Forall₂ (s.Serves w) ds (added.map Prod.snd) := by
  rw [List.forall₂_map_right_iff, List.forall₂_iff_zip]
  refine ⟨stores.length_eq, fun mem => ?_⟩
  exact (List.forall₂_zip stores mem).serves hs answers (gains.holds (List.of_mem_zip mem).2)

/-- An ingest of a document that is held in memory, when no call of the store fails and fresh ids are not in use: it
    gives nothing for a document without sheets, it fails if there are sheets but none that holds a dataset, and
    otherwise it gives an entry for each dataset, in the order of the sheets, under which the dataset is served. All
    that was stored is still there. -/
theorem library_ingested (hs : s.store = Memory.store) {l : Library} (source : s.source = l.toSource)
    {sheets : List (Sheet × Grid)} (known : l.documents.get? sourceId = some sheets) {range : CellRange}
    (valid : s.settings.range = .ok range) (answers : s.Answers)
    (unused : s.surroundings.Unused w.store w.calls) {o : Except Failure (List Entry)}
    (h : s.ingest sourceId w = (o, w')) :
    let datasets := (sheets.map Prod.fst).filterMap (s.datasetOf sourceId range)
    (∀ sheet ∈ sheets.map Prod.fst, sheet.isGrid → ∃ grid, s.source.readGrid sourceId sheet.title range = .ok grid ∧
      s.datasetOf sourceId range sheet =
        Dataset.ofGrid? s.settings.inference sheet.title s.settings.ingest.userId grid) ∧
    (o = .ok [] ↔ sheets = []) ∧
    ((∃ f, o = .error f ∧ f.reason = "no-values") ↔ sheets ≠ [] ∧ datasets = []) ∧
    (datasets ≠ [] → ∃ es, o = .ok es ∧ List.Forall₂ (s.Serves w') datasets es) ∧
    (∀ id d, w.store.datasets.get? id = some d → w'.store.datasets.get? id = some d) ∧
    ∀ id e, w.store.entries.get? id = some e → w'.store.entries.get? id = some e := by
  intro datasets
  have listed : s.source.sheets sourceId = .ok (sheets.map Prod.fst) := source ▸ Library.sheets_toSource known
  have readable : ∀ sheet ∈ sheets.map Prod.fst, sheet.isGrid →
      ∃ grid, s.source.readGrid sourceId sheet.title range = .ok grid := fun sheet mem grid => by
    rw [source]
    exact Library.readGrid_toSource known mem grid range
  have built : ∀ sheet ∈ sheets.map Prod.fst, sheet.isGrid → ∃ grid,
      s.source.readGrid sourceId sheet.title range = .ok grid ∧ s.datasetOf sourceId range sheet =
        Dataset.ofGrid? s.settings.inference sheet.title s.settings.ingest.userId grid := fun sheet mem grid => by
    obtain ⟨g, hg⟩ := readable sheet mem grid
    refine ⟨g, hg, ?_⟩
    rw [datasetOf, if_pos grid, hg]
    rfl
  refine ⟨built, ?_⟩
  cases ingest_inv (hs ▸ Memory.store_stamps) h with
  | unset invalid => cases valid.symm.trans invalid
  | unlisted _ failed => cases listed.symm.trans failed
  | unread valid' listed' mem grid failed _ _ =>
    cases listed.symm.trans listed'
    cases valid.symm.trans valid'
    obtain ⟨g, hg⟩ := readable _ mem grid
    cases hg.symm.trans failed
  | empty _ listed' store calls =>
    have bare : sheets = [] := List.map_eq_nil_iff.mp (Except.ok.inj (listed.symm.trans listed'))
    refine ⟨⟨fun _ => bare, fun _ => rfl⟩, ⟨fun hf => (by obtain ⟨_, hf, -⟩ := hf; cases hf), fun h => absurd bare h.1⟩,
      fun some => absurd (by simp [datasets, bare]) some, ?_⟩
    rw [store]
    exact ⟨fun _ _ => id, fun _ _ => id⟩
  | valueless valid' listed' sheeted none store =>
    cases listed.symm.trans listed'
    cases valid.symm.trans valid'
    have nonempty : sheets ≠ [] := fun bare => sheeted (by rw [bare]; rfl)
    refine ⟨⟨fun hf => (by cases hf), fun bare => absurd bare nonempty⟩,
      ⟨fun _ => ⟨nonempty, none⟩, fun _ => ⟨_, rfl, rfl⟩⟩, fun some => absurd none some, ?_⟩
    rw [store]
    exact ⟨fun _ _ => id, fun _ _ => id⟩
  | created valid' listed' some store calls creation =>
    cases listed.symm.trans listed'
    cases valid.symm.trans valid'
    obtain ⟨es, rfl, created⟩ := creation.succeeds hs answers
    obtain ⟨-, added, stores, rfl, gains⟩ := (created.of_still store calls).gains hs unused
    have serves := serves_of_gains hs answers stores gains
    refine ⟨⟨fun none => ?_, fun bare => absurd (by simp [bare]) some⟩,
      ⟨fun hf => (by obtain ⟨_, hf, -⟩ := hf; cases hf), fun h => absurd h.2 some⟩, fun _ => ⟨_, rfl, serves⟩, gains.kept⟩
    rw [Except.ok.inj none, List.forall₂_nil_right_iff] at serves
    exact absurd serves some

/-- A document with a chart, a sheet with only a heading and two sheets with the same title comes in behind another one.
    Both of the latter come in with the contents of the first of them. -/
theorem library_ingested_namesakes :
    let library := ((((Library.empty .uploadedFile).addSheet "d" ⟨"plot", false⟩ []).addSheet "d" ⟨"bare", true⟩
      [["town", "land"]]).addSheet "d" ⟨"towns", true⟩ [["town", "land"], ["Rome", "Italy"], ["Oslo"]]).addSheet "d"
        ⟨"towns", true⟩ [["land"], ["Italy"]]
    let s : Service Memory := ⟨Memory.store, library.toSource, .default, .counting []⟩
    let w := World.reached (.counting []) [.ofRequest (.ingest "list")]
    let sheets : List Sheet := [⟨"plot", false⟩, ⟨"bare", true⟩, ⟨"towns", true⟩, ⟨"towns", true⟩]
    s.settings.range = .ok .default ∧ s.Answers ∧ s.surroundings.Unused w.store w.calls ∧
      ∃ es w', s.ingest "d" w = (.ok es, w') ∧
        List.Forall₂ (s.Serves w') (sheets.filterMap (s.datasetOf "d" .default)) es ∧ es.map Entry.size = [2, 2] := by
  intro library s w sheets
  have sound : World.Sound (.counting []) w := .reached (Surroundings.counting_injective []) _
  have unused : s.surroundings.Unused w.store w.calls := sound.issued.unused (Surroundings.counting_injective [])
  have valid : s.settings.range = .ok .default := World.ok_of_toOption (by decide +kernel)
  have answers : s.Answers := fun _ _ => rfl
  have some : sheets.filterMap (s.datasetOf "d" .default) ≠ [] := by decide +kernel
  have sizes : (s.ingest "d" w).1.toOption.map (fun es => es.map Entry.size) = Option.some [2, 2] := by decide +kernel
  rcases h : s.ingest "d" w with ⟨o, w'⟩
  obtain ⟨-, -, -, ingested, -⟩ := library_ingested (s := s) rfl rfl rfl valid answers unused h
  obtain ⟨es, rfl, serves⟩ := ingested some
  rw [h] at sizes
  exact ⟨valid, answers, unused, es, w', rfl, serves, Option.some.inj sizes⟩

end Service

end GridCatalog
