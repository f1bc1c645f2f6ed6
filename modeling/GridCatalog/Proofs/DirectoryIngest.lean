import GridCatalog.Proofs.Disk
import GridCatalog.Proofs.Durability
import GridCatalog.Proofs.GridRows
import GridCatalog.Proofs.Ingest

/-! Ingesting a directory of delimited texts.

    The files of a directory come in the order of their names, each of them once. A file is read through
    its title, which is the stem of its name, and a title leads to the first grid file that has it. So
    every grid file comes in with the contents of its namesake: its own, if no two grid files have the
    same stem (`ingest_directory`), and else those of another file (`ingest_same_stem`). -/

namespace GridCatalog

namespace TextFiles
variable {σ : Type} {s : Service σ} {f : TextFiles} {sourceId path : String} {range : CellRange} {p : Path}
  {files : List TextFile} {file : TextFile}

/-- The delimited texts in a directory, by name. -/
def gridFiles (f : TextFiles) (p : Path) (path : String) : List TextFile :=
  (f.filesIn p path).filter fun file => TextFile.isGridName file.name

/-- The dataset of a file: of what its own bytes hold in the range. -/
def datasetOf (f : TextFiles) (settings : Settings) (range : CellRange) (file : TextFile) : Option Dataset := do
  let bytes ← (f.disk.readAt f.base file.path).toOption
  let grid ← (f.parse bytes).toOption
  Dataset.ofGrid? settings.inference (PathText.stem file.name) settings.ingest.userId (range.cut grid)

/-- The first of the files that has the stem of a file. -/
def namesake (files : List TextFile) (file : TextFile) : TextFile :=
  (files.find? fun g => PathText.stem g.name = PathText.stem file.name).getD file

/-! ### The files of a directory -/

theorem files_of_directory (resolved : f.disk.resolve f.base (f.pathText sourceId) = .ok p)
    (directory : f.disk.isDirectory p) : f.files sourceId = .ok (f.filesIn p (f.pathText sourceId)) := by
  rw [files, resolved]
  simp only [of_decide_eq_true directory]

theorem gridFiles_of_files (resolved : f.disk.resolve f.base (f.pathText sourceId) = .ok p)
    (directory : f.disk.isDirectory p) (listed : f.files sourceId = .ok files) :
    f.gridFiles p (f.pathText sourceId) = files.filter fun file => TextFile.isGridName file.name := by
  rw [files_of_directory resolved directory] at listed
  rw [gridFiles, Except.ok.inj listed]

/-- The files are in the order of their names, and no name comes twice. -/
theorem gridFiles_increasing (f : TextFiles) (p : Path) (path : String) :
    ((f.gridFiles p path).map TextFile.name).Pairwise (· < ·) := by
  have sorted : ((f.disk.names p).mergeSort fun a b => a ≤ b).Pairwise (· ≤ ·) := by
    refine (List.pairwise_mergeSort (fun a b c hab hbc => ?_) (fun a b => ?_) _).imp fun h => of_decide_eq_true h
    · exact decide_eq_true (String.le_trans (of_decide_eq_true hab) (of_decide_eq_true hbc))
    · rcases String.le_total a b with h | h <;> simp [h]
  have distinct : ((f.disk.names p).mergeSort fun a b => a ≤ b).Nodup :=
    (List.mergeSort_perm _ _).nodup_iff.mpr (Disk.nodup_names _ _)
  have increasing : ((f.disk.names p).mergeSort fun a b => a ≤ b).Pairwise (· < ·) :=
    (sorted.and distinct).imp fun h => String.not_le.mp fun back => h.2 (String.le_antisymm h.1 back)
  refine increasing.sublist ?_
  have whole : (((f.disk.names p).mergeSort fun a b => a ≤ b).map
      fun name => (⟨name, PathText.join path name⟩ : TextFile)).map TextFile.name =
        (f.disk.names p).mergeSort fun a b => a ≤ b := by
    rw [List.map_map]
    exact List.map_id _
  rw [← whole]
  exact (List.filter_sublist.trans List.filter_sublist).map _

/-- Every file of the directory with the extension of a delimited text is there. -/
theorem mem_gridFiles {name : String} (h : PathText.IsName name)
    (fault : PathText.fault? (PathText.join path name) = none) (resolved : f.disk.resolve f.base path = .ok p)
    (directory : f.disk.isDirectory p) :
    ⟨name, PathText.join path name⟩ ∈ f.gridFiles p path ↔
      f.disk.isFile (p ++ [name]) ∧ TextFile.isGridName name := by
  have leads : f.disk.isFileAt f.base (PathText.join path name) = f.disk.isFile (p ++ [name]) := by
    rw [Disk.isFileAt, Disk.resolve_join h fault resolved directory]
    rfl
  have stands : f.disk.isFile (p ++ [name]) → name ∈ f.disk.names p := fun hfile => by
    rw [Disk.mem_names]
    rcases hnode : f.disk.node? (p ++ [name]) with _ | node
    · simp [Disk.isFile, hnode] at hfile
    · rfl
  simp only [gridFiles, filesIn, List.mem_filter, List.mem_map, List.mem_mergeSort, leads]
  constructor
  · rintro ⟨⟨-, hfile⟩, grid⟩
    exact ⟨hfile, grid⟩
  · rintro ⟨hfile, grid⟩
    exact ⟨⟨⟨name, stands hfile, rfl⟩, hfile⟩, grid⟩

/-! ### Reading through titles -/

theorem namesake_inv (mem : file ∈ files) :
    files.find? (fun g => PathText.stem g.name = PathText.stem file.name) = some (namesake files file) ∧
      PathText.stem (namesake files file).name = PathText.stem file.name := by
  obtain ⟨g, hg⟩ : ∃ g, files.find? (fun g => PathText.stem g.name = PathText.stem file.name) = some g :=
    Option.isSome_iff_exists.mp (List.find?_isSome.mpr ⟨file, mem, by simp⟩)
  have same := List.find?_some hg
  rw [namesake, hg]
  exact ⟨rfl, of_decide_eq_true same⟩

/-- With distinct stems every file is its own namesake. -/
theorem namesake_eq_self (distinct : (files.map fun g => PathText.stem g.name).Nodup) (mem : file ∈ files) :
    namesake files file = file := by
  obtain ⟨found, same⟩ := namesake_inv mem
  exact List.inj_on_of_nodup_map distinct (List.mem_of_find?_eq_some found) mem same

/-- The dataset of a grid sheet is that of the namesake of its file. -/
theorem datasetOf_sheet (source : s.source = f.toSource) (listed : f.files sourceId = .ok files) (mem : file ∈ files)
    (grid : TextFile.isGridName file.name) :
    s.datasetOf sourceId range file.sheet =
      f.datasetOf s.settings range (namesake (files.filter fun g => TextFile.isGridName g.name) file) := by
  have memGrid : file ∈ files.filter fun g => TextFile.isGridName g.name := List.mem_filter.mpr ⟨mem, grid⟩
  obtain ⟨found, same⟩ := namesake_inv memGrid
  generalize namesake _ file = g at found same
  -- The source looks the title up among all files and skips those that are not grids.
  have first : files.find? (fun g => g.sheet.title = file.sheet.title && g.sheet.isGrid) = some g := by
    rw [← found, List.find?_filter]
    refine congrArg (List.find? · files) (funext fun g => ?_)
    by_cases hg : PathText.stem g.name = PathText.stem file.name <;> simp [hg, TextFile.sheet]
  rw [Service.datasetOf, if_pos (show file.sheet.isGrid = true from grid), source]
  simp only [toSource, readGrid, listed, bind, Except.bind, first, datasetOf, same]
  rcases f.disk.readAt f.base g.path with fault | bytes
  · rfl
  · rcases hparse : f.parse bytes with e | rows
    · simp [hparse, Except.toOption]
    · simp [hparse, Except.toOption, pure, Except.pure, TextFile.sheet]

/-! ### Listings -/

/-- A document that consists of the given files. -/
def ofFiles (f : TextFiles) (files : List TextFile) : Source where
  provenance := .uploadedFile
  sheets _ := .ok (files.map TextFile.sheet)
  readGrid sourceId title range :=
    match files.find? fun file => file.sheet.title = title && file.sheet.isGrid with
    | none => .error (.sheetNotFound sourceId title)
    | some file =>
      match f.disk.readAt f.base file.path with
      | .ok bytes => (f.parse bytes).map range.cut
      | .error fault => .error (.file file.path fault)

/-- The files are listed anew for every sheet, and they are the same every time. -/
theorem ingest_ofFiles (source : s.source = f.toSource) (listed : f.files sourceId = .ok files) :
    s.ingest sourceId = ({ s with source := f.ofFiles files } : Service σ).ingest sourceId := by
  have reads : s.source.readGrid sourceId = (f.ofFiles files).readGrid sourceId := by
    funext title range
    rw [source]
    simp only [toSource, readGrid, ofFiles, listed, bind, Except.bind]
    rcases hfind : files.find? fun file => file.sheet.title = title && file.sheet.isGrid with _ | file <;>
      simp only [hfind]
    · rfl
    · rcases f.disk.readAt f.base file.path with fault | bytes
      · rfl
      · rcases f.parse bytes with e | grid <;> rfl
  have built : ∀ range, s.build sourceId range =
      ({ s with source := f.ofFiles files } : Service σ).build sourceId range := fun range => by
    funext sheet
    simp only [Service.build, reads]
  have created : s.create sourceId = ({ s with source := f.ofFiles files } : Service σ).create sourceId := by
    funext d
    rw [Service.create, source]
    rfl
  have sheets : s.source.sheets sourceId = (f.ofFiles files).sheets sourceId := by
    rw [source]
    simp only [toSource, listed]
    rfl
  simp only [Service.ingest, sheets, built, created]

theorem files_of_sorted (resolved : f.disk.resolve f.base (f.pathText sourceId) = .ok p)
    (directory : f.disk.isDirectory p) (sorted : (f.disk.names p).Pairwise fun a b => a ≤ b)
    (all : ∀ name ∈ f.disk.names p, f.disk.isFileAt f.base (PathText.join (f.pathText sourceId) name)) :
    f.files sourceId =
      .ok ((f.disk.names p).map fun name => ⟨name, PathText.join (f.pathText sourceId) name⟩) := by
  rw [files_of_directory resolved directory, filesIn,
    List.mergeSort_of_pairwise (sorted.imp fun h => decide_eq_true h), List.filter_eq_self.mpr]
  intro file mem
  obtain ⟨name, hname, rfl⟩ := List.mem_map.mp mem
  exact all name hname

/-! ### Ingests -/

/-- An ingest of a directory that succeeds goes through the files with the extension of a delimited text by name
    and creates the dataset of the first file with the same stem; without repeated stems these are the datasets
    of the files themselves. -/
theorem ingest_directory {w w' : World σ} {es : List Entry} (stamps : s.store.Stamps) (source : s.source = f.toSource)
    (valid : s.settings.range = .ok range) (resolved : f.disk.resolve f.base (f.pathText sourceId) = .ok p)
    (directory : f.disk.isDirectory p) (h : s.ingest sourceId w = (.ok es, w')) :
    let path := f.pathText sourceId
    let files := f.gridFiles p path
    (files.map TextFile.name).Pairwise (· < ·) ∧
    (∀ name, PathText.IsName name → PathText.fault? (PathText.join path name) = none →
      (⟨name, PathText.join path name⟩ ∈ files ↔ f.disk.isFile (p ++ [name]) ∧ TextFile.isGridName name)) ∧
    (∀ file d, f.datasetOf s.settings range file = some d → d.name = PathText.stem file.name) ∧
    s.Creates sourceId (files.filterMap fun file => f.datasetOf s.settings range (namesake files file)) w es w' ∧
    ((files.map fun file => PathText.stem file.name).Nodup →
      s.Creates sourceId (files.filterMap (f.datasetOf s.settings range)) w es w') := by
  intro path files
  have listed := files_of_directory resolved directory
  have created : s.Creates sourceId (files.filterMap fun file => f.datasetOf s.settings range (namesake files file))
      w es w' := by
    have sheets : s.source.sheets sourceId = .ok ((f.filesIn p path).map TextFile.sheet) := by
      rw [source, toSource]
      simp only [listed]
      rfl
    have creates := Service.ingest_creates stamps valid sheets h
    have same : ((f.filesIn p path).map TextFile.sheet).filterMap (s.datasetOf sourceId range) =
        files.filterMap fun file => f.datasetOf s.settings range (namesake files file) := by
      rw [List.filterMap_map, show files = (f.filesIn p path).filter _ from rfl, List.filterMap_filter]
      refine List.filterMap_congr fun file mem => ?_
      split
      · rename_i grid
        exact datasetOf_sheet source listed mem grid
      · rename_i other
        exact if_neg other
    rwa [same] at creates
  refine ⟨gridFiles_increasing f p path, fun name hname fault => mem_gridFiles hname fault resolved directory,
    fun file d hd => ?_, created, fun distinct => ?_⟩
  · obtain ⟨bytes, -, hd⟩ := Option.bind_eq_some_iff.mp hd
    obtain ⟨grid, -, hd⟩ := Option.bind_eq_some_iff.mp hd
    obtain ⟨-, -, rfl⟩ := Dataset.ofGrid?_inv hd
    rfl
  · have own : (files.filterMap fun file => f.datasetOf s.settings range (namesake files file)) =
        files.filterMap (f.datasetOf s.settings range) :=
      List.filterMap_congr fun file mem => by rw [namesake_eq_self distinct mem]
    rwa [own] at created

/-- A directory with two delimited texts, one of them with its extension in capital letters, and a note. -/
theorem ingest_directory_towns :
    let disk : Disk := ⟨⟨[(["data"], .directory),
      (["data", "at.TSV"], .file (Text.utf8Encode "town\tland\nRome\tItaly\n".toList)),
      (["data", "who.csv"], .file (Text.utf8Encode "name\nAnn\n".toList)),
      (["data", "who.md"], .file (Text.utf8Encode "no grid".toList))], by decide⟩⟩
    let f : TextFiles := ⟨disk, [], none, none⟩
    let s : Service Memory := ⟨Memory.store, f.toSource, .default, .counting []⟩
    let w := World.start Memory.empty
    s.settings.range = .ok .default ∧ f.disk.resolve f.base (f.pathText "data") = .ok ["data"] ∧
      f.disk.isDirectory ["data"] ∧ ∃ es w', s.ingest "data" w = (.ok es, w') ∧ es.map Entry.name = ["at", "who"] ∧
        s.Creates "data" ((f.gridFiles ["data"] (f.pathText "data")).filterMap (f.datasetOf s.settings .default)) w es w' := by
  intro disk f s w
  have valid : s.settings.range = .ok .default := World.ok_of_toOption (by decide +kernel)
  have resolved : f.disk.resolve f.base (f.pathText "data") = .ok ["data"] := World.ok_of_toOption (by decide +kernel)
  have directory : f.disk.isDirectory ["data"] := by decide +kernel
  have listed := files_of_sorted resolved directory (by decide +kernel) (by decide +kernel)
  have run := ingest_ofFiles (s := s) rfl listed
  have names : (s.ingest "data" w).1.toOption.map (List.map Entry.name) = some ["at", "who"] := by
    rw [run]
    decide +kernel
  obtain ⟨es, hes, hnames⟩ := Option.map_eq_some_iff.mp names
  have h : s.ingest "data" w = (.ok es, (s.ingest "data" w).2) := Prod.ext (World.ok_of_toOption hes) rfl
  have all := ingest_directory Memory.store_stamps rfl valid resolved directory h
  refine ⟨valid, resolved, directory, es, _, h, hnames, all.2.2.2.2 ?_⟩
  rw [gridFiles_of_files resolved directory listed]
  decide +kernel

/-- Two files with the same stem: the first one is read twice, and the second one is lost. -/
theorem ingest_same_stem :
    let disk : Disk := ⟨⟨[(["data"], .directory), (["data", "d.csv"], .file (Text.utf8Encode "a\nx\n".toList)),
      (["data", "d.tsv"], .file (Text.utf8Encode "b\ny\n".toList))], by decide⟩⟩
    let f : TextFiles := ⟨disk, [], none, none⟩
    let s : Service Memory := ⟨Memory.store, f.toSource, .default, .counting []⟩
    let w := (s.ingest "data" (World.start Memory.empty)).2
    let titles := fun d : Dataset => d.header.map Column.title
    (s.ingest "data" (World.start Memory.empty)).1.isOk ∧
      w.store.datasets.values.map titles = [["a"], ["a"]] ∧
      ((f.gridFiles ["data"] (f.pathText "data")).filterMap (f.datasetOf s.settings .default)).map titles = [["a"], ["b"]] := by
  intro disk f s w titles
  have resolved : f.disk.resolve f.base (f.pathText "data") = .ok ["data"] := World.ok_of_toOption (by decide +kernel)
  have directory : f.disk.isDirectory ["data"] := by decide +kernel
  have listed := files_of_sorted resolved directory (by decide +kernel) (by decide +kernel)
  have run := ingest_ofFiles (s := s) rfl listed
  simp only [w]
  rw [run, gridFiles_of_files resolved directory listed]
  decide +kernel

end TextFiles

end GridCatalog
