import GridCatalog.Proofs.Disk
import GridCatalog.Proofs.Memory
import GridCatalog.Store.JsonDirectory

/-! The files of a store on a disk.

    The file of a record lies in the folder of its kind, and the folders lie in one place, to which a way
    leads through stations. As long as no file stands in the way (`Free`), a file is found exactly if the
    way has been made (`resolve_file`). A call touches only the file of its record, and makes the way if
    it writes (`Touches`); `Mirrors` says that the files of a kind are the rows of a table, which every
    call keeps. -/

namespace GridCatalog
namespace JsonDirectory

/-! ### Names of files -/

theorem safe_toList {id : String} (safe : isSafeId id = true) :
    id.toList ≠ [] ∧ ∀ c ∈ id.toList, c ≠ '/' ∧ c ≠ '.' := by
  rw [isSafeId, Bool.and_eq_true, Bool.not_eq_true', List.isEmpty_eq_false_iff, List.all_eq_true] at safe
  refine ⟨safe.1, fun c hc => ?_⟩
  have := safe.2 c hc
  constructor <;> rintro rfl <;> revert this <;> decide

theorem fileName_injective : Function.Injective fileName := fun a b h => by
  have := congrArg String.toList h
  simp only [fileName, String.toList_append, List.append_cancel_right_eq] at this
  exact String.toList_inj.mp this

theorem toList_fileName (id : String) : (fileName id).toList = id.toList ++ '.' :: "json".toList := by
  rw [fileName, String.toList_append]
  rfl

theorem fileName_moves (id : String) : fileName id ∉ ["", ".", ".."] := fun h => by
  have size := congrArg List.length (toList_fileName id)
  rw [List.length_append] at size
  simp only [List.mem_cons, List.not_mem_nil, or_false] at h
  rcases h with h | h | h <;> rw [h] at size <;> simp at size

theorem fileName_slashless {id : String} (safe : isSafeId id = true) : '/' ∉ (fileName id).toList := fun h => by
  rw [toList_fileName, List.mem_append] at h
  rcases h with h | h
  · exact ((safe_toList safe).2 _ h).1 rfl
  · revert h
    decide

theorem extension?_fileName {id : String} (safe : isSafeId id = true) :
    PathText.extension? (fileName id) = some "json" := by
  obtain ⟨nonempty, chars⟩ := safe_toList safe
  have pointless : '.' ∉ id.toList := fun h => (chars _ h).2 rfl
  have parts : Text.pieces '.' (fileName id).toList = [id.toList, "json".toList] := by
    rw [toList_fileName, Text.pieces_append, Text.pieces_of_notMem pointless]
    rfl
  rw [PathText.extension?, PathText.splitName, parts]
  simp [Text.glue, nonempty]

theorem isName_directory (kind : RecordKind) : PathText.IsName kind.directory := by
  cases kind <;> exact ⟨by decide, by decide, by decide⟩

/-! ### Where files lie -/

variable (s : JsonDirectory)

/-- Where the written path of the store starts. -/
def origin : Path := Disk.start s.base s.root

/-- The names on the way to the store. -/
def way : List String := PathText.way s.root

def stations : List Path := Disk.stations s.origin s.way

/-- The directory of the store. -/
def place : Path := s.way.foldl Disk.follow s.origin

/-- The directory of a kind. -/
def folder (kind : RecordKind) : Path := s.place ++ [kind.directory]

/-- The file of a record. -/
def target (kind : RecordKind) (id : String) : Path := s.folder kind ++ [fileName id]

/-- The written paths of the directories are ones that can be, and the way to them does not lead through the
    inside of either of them. -/
structure Sited : Prop where
  written (kind : RecordKind) : PathText.fault? (s.directory kind) = none
  short : ∀ name ∈ s.way, PathText.isTooLong name = false
  apart : ∀ p ∈ s.stations, ∀ kind, s.folder kind <+: p → p = s.folder kind

/-- The file of the record has a name and a written path that are not too long. -/
def Fits (kind : RecordKind) (id : String) : Prop :=
  PathText.isTooLong (fileName id) = false ∧ PathText.fault? (s.file kind id) = none

/-- The way to the store can be made or has been made. -/
structure Free (d : Disk) : Prop where
  start : d.isDirectory s.origin
  clear : ∀ p ∈ s.stations, d.Clear p
  folders (kind : RecordKind) : d.isFile (s.folder kind) = false

variable {s} {kind kind' : RecordKind} {id id' name : String} {d d' : Disk}

theorem names_directory (kind : RecordKind) : PathText.names (s.directory kind) = s.way ++ [kind.directory] :=
  PathText.names_join (isName_directory kind).slashless

theorem start_directory (kind : RecordKind) : Disk.start s.base (s.directory kind) = s.origin := by
  rw [Disk.start, directory, PathText.isAbsolute_join (isName_directory kind).slashless]
  rfl

theorem names_file (safe : isSafeId id = true) :
    PathText.names (s.file kind id) = (s.way ++ [kind.directory]) ++ [fileName id] := by
  have inside : PathText.way (s.directory kind) = s.way ++ [kind.directory] := by
    rw [PathText.way, names_directory, if_neg]
    rw [List.getLast?_concat]
    exact fun h => (isName_directory kind).ne_empty (Option.some.inj h)
  rw [file, PathText.names_join (fileName_slashless safe), inside]

theorem start_file (safe : isSafeId id = true) :
    Disk.start s.base (s.file kind id) = s.origin := by
  rw [Disk.start, file, PathText.isAbsolute_join (fileName_slashless safe), ← start_directory kind]
  rfl

theorem foldl_way (kind : RecordKind) : (s.way ++ [kind.directory]).foldl Disk.follow s.origin = s.folder kind := by
  rw [List.foldl_append, List.foldl_cons, List.foldl_nil, Disk.follow_of_moves (isName_directory kind).moves]
  rfl

theorem stations_directory (kind : RecordKind) :
    Disk.stations s.origin (s.way ++ [kind.directory]) = s.stations ++ [s.folder kind] := by
  rw [Disk.stations_append, Disk.follow_of_moves (isName_directory kind).moves]
  rfl

theorem origin_mem : s.origin ∈ s.stations := Disk.mem_stations_self _ _

theorem place_mem : s.place ∈ s.stations := Disk.foldl_mem_stations _ _

/-- What lies inside a folder is neither a station nor a folder. -/
theorem child_notMem (sited : s.Sited) : s.folder kind ++ [name] ∉ s.stations ++ [s.folder kind'] := fun h => by
  rcases List.mem_append.mp h with h | h
  · have := congrArg List.length (sited.apart _ h kind (List.prefix_append _ _))
    simp at this
  · have := congrArg List.length (List.mem_singleton.mp h)
    simp [folder] at this

theorem folder_inj (h : s.folder kind = s.folder kind') : kind = kind' := by
  have names := List.singleton_inj.mp (List.append_inj' h rfl).2
  cases kind <;> cases kind' <;> first | rfl | exact absurd names (by decide)

namespace Free

theorem clear_folder (free : s.Free d) (kind : RecordKind) : d.Clear (s.folder kind) := fun p hp => by
  rcases List.prefix_concat_iff.mp hp with rfl | hp
  · exact free.folders kind
  · exact free.clear _ place_mem p hp

theorem clear_stations (free : s.Free d) (kind : RecordKind) : ∀ p ∈ s.stations ++ [s.folder kind], d.Clear p := by
  intro p hp
  rcases List.mem_append.mp hp with hp | hp
  · exact free.clear p hp
  · exact List.mem_singleton.mp hp ▸ free.clear_folder kind

/-- The directory of a kind is reached if the way to it has been made. -/
theorem resolve_directory (sited : s.Sited) (free : s.Free d) (kind : RecordKind) :
    d.resolve s.base (s.directory kind) =
      if s.stations.all d.isDirectory then .ok (s.folder kind) else .error .missing := by
  have short : ∀ n ∈ s.way ++ [kind.directory], PathText.isTooLong n = false := fun n hn => by
    rcases List.mem_append.mp hn with hn | hn
    · exact sited.short n hn
    · exact List.mem_singleton.mp hn ▸ (isName_directory kind).short
  rw [Disk.resolve, sited.written, names_directory, start_directory]
  refine (Disk.foldlM_enter free.clear short).trans ?_
  rw [Disk.follow_of_moves (isName_directory kind).moves]
  rfl

/-- The file of a record is reached if the way to it and the directory of its kind have been made. -/
theorem resolve_file (sited : s.Sited) (free : s.Free d) (safe : isSafeId id = true) (fits : s.Fits kind id) :
    d.resolve s.base (s.file kind id) =
      if (s.stations ++ [s.folder kind]).all d.isDirectory then .ok (s.target kind id) else .error .missing := by
  have short : ∀ n ∈ (s.way ++ [kind.directory]) ++ [fileName id], PathText.isTooLong n = false := fun n hn => by
    rcases List.mem_append.mp hn with hn | hn
    · rcases List.mem_append.mp hn with hn | hn
      · exact sited.short n hn
      · exact List.mem_singleton.mp hn ▸ (isName_directory kind).short
    · exact List.mem_singleton.mp hn ▸ fits.1
  have clear : ∀ p ∈ Disk.stations s.origin (s.way ++ [kind.directory]), d.Clear p := by
    rw [stations_directory]
    exact free.clear_stations kind
  rw [Disk.resolve, fits.2, names_file safe, start_file safe]
  refine (Disk.foldlM_enter clear short).trans ?_
  rw [stations_directory, foldl_way, Disk.follow_of_moves (fileName_moves id)]
  rfl

/-- The directory of a kind is made with all that is missing on the way to it. -/
theorem ensureDirectoryAt (sited : s.Sited) (free : s.Free d) (kind : RecordKind) :
    ∃ d', d.ensureDirectoryAt s.base (s.directory kind) = (.ok (), d') ∧
      ∀ p, d'.node? p = if p ∈ s.stations ++ [s.folder kind] then some .directory else d.node? p := by
  rw [Disk.ensureDirectoryAt]
  split
  · rename_i there
    refine ⟨d, rfl, fun p => ?_⟩
    rw [Disk.nodeAt?, free.resolve_directory sited] at there
    split at there
    · rename_i made
      split
      · rename_i hp
        rcases List.mem_append.mp hp with hp | hp
        · exact of_decide_eq_true (List.all_eq_true.mp made p hp)
        · rw [List.mem_singleton.mp hp]
          exact of_decide_eq_true (Disk.isDirectory_of_node? (free.folders kind) there)
      · rfl
    · cases there
  · have short : ∀ n ∈ s.way ++ [kind.directory], PathText.isTooLong n = false := fun n hn => by
      rcases List.mem_append.mp hn with hn | hn
      · exact sited.short n hn
      · exact List.mem_singleton.mp hn ▸ (isName_directory kind).short
    have noFile : ∀ p ∈ Disk.stations s.origin (s.way ++ [kind.directory]), d.isFile p = false := by
      rw [stations_directory]
      exact fun p hp => (free.clear_stations kind p hp).isFile
    obtain ⟨d', hd', nodes⟩ := Disk.makeWay_of_open false free.start noFile short
    rw [stations_directory] at nodes
    refine ⟨d', ?_, nodes⟩
    rw [Disk.makeDirectoriesAt, sited.written, start_directory, names_directory]
    exact hd'

end Free

/-! ### What calls touch -/

/-- Nothing has changed but the file of a record and the directories on the way to it. -/
def Touches (s : JsonDirectory) (kind : RecordKind) (id : String) (d d' : Disk) : Prop :=
  ∀ p, p ≠ s.target kind id →
    d'.node? p = d.node? p ∨ p ∈ s.stations ++ [s.folder kind] ∧ d'.node? p = some .directory

namespace Touches

theorem isDirectory (touches : s.Touches kind id d d') {p : Path} (hp : p ≠ s.target kind id)
    (h : d.isDirectory p) : d'.isDirectory p := by
  rcases touches p hp with same | ⟨-, there⟩
  · rw [Disk.isDirectory, same]
    exact h
  · rw [Disk.isDirectory, there]
    rfl

theorem isFile (touches : s.Touches kind id d d') {p : Path} (hp : p ≠ s.target kind id)
    (h : d.isFile p = false) : d'.isFile p = false := by
  rcases touches p hp with same | ⟨-, there⟩
  · rw [Disk.isFile, same]
    exact h
  · rw [Disk.isFile, there]

theorem target_ne (sited : s.Sited) {p : Path} (hp : p ∈ s.stations ++ [s.folder kind']) : p ≠ s.target kind id :=
  fun h => child_notMem sited (h ▸ hp)

/-- Other names in the folders lead where they led. -/
theorem child (sited : s.Sited) (touches : s.Touches kind id d d')
    (other : s.folder kind' ++ [name] ≠ s.target kind id) :
    d'.node? (s.folder kind' ++ [name]) = d.node? (s.folder kind' ++ [name]) :=
  (touches _ other).resolve_right fun there => child_notMem sited there.1

theorem free (sited : s.Sited) (touches : s.Touches kind id d d') (free : s.Free d) : s.Free d' where
  start := by
    have station : s.origin ∈ s.stations ++ [s.folder kind] := List.mem_append_left _ origin_mem
    exact touches.isDirectory (target_ne sited station) free.start
  clear p hp q hq := by
    refine touches.isFile (fun h => ?_) (free.clear p hp q hq)
    have inside : s.folder kind <+: p := (List.prefix_append _ _).trans (h ▸ hq)
    have := (sited.apart p hp kind inside ▸ h ▸ hq).length_le
    rw [target, List.length_append] at this
    exact absurd this (Nat.not_succ_le_self _)
  folders k := touches.isFile (target_ne sited (List.mem_append_right _ (List.mem_singleton_self _))) (free.folders k)

end Touches

/-! ### Files and rows -/

/-- How the records of a kind are written and read. -/
structure Form (α : Type) where
  kind : RecordKind
  write : α → Json
  read : Json → Option α

variable {α : Type} {f : Form α}

namespace Form

def bytes (f : Form α) (x : α) : List UInt8 := Text.utf8Encode (Json.indented 0 (f.write x))

/-- The record is read back from what is written of it. -/
def RoundTrips (f : Form α) (x : α) : Prop := (Json.ofBytes? (f.bytes x)).bind f.read = some x

end Form

/-- The files of a kind are the rows of a table. -/
structure Mirrors (s : JsonDirectory) (f : Form α) (t : Table String α) (d : Disk) : Prop where
  stored {id : String} {x : α} : t.get? id = some x →
    isSafeId id = true ∧ s.Fits f.kind id ∧ f.RoundTrips x ∧ d.node? (s.target f.kind id) = some (.file (f.bytes x))
  only {name : String} : (d.node? (s.folder f.kind ++ [name])).isSome → ∃ id, name = fileName id ∧ (t.get? id).isSome
  made {id : String} : (t.get? id).isSome → ∀ p ∈ s.stations ++ [s.folder f.kind], d.isDirectory p

namespace Mirrors
variable {t : Table String α} {x : α}

theorem node?_of_none (h : s.Mirrors f t d) (free : t.get? id = none) : d.node? (s.target f.kind id) = none := by
  by_contra there
  obtain ⟨id', hname, hget⟩ := h.only (Option.ne_none_iff_isSome.mp there)
  rw [← fileName_injective hname, free] at hget
  cases hget

theorem of_other (sited : s.Sited) (h : s.Mirrors f t d) (touches : s.Touches kind id d d') (other : f.kind ≠ kind) :
    s.Mirrors f t d' := by
  have same (name : String) : d'.node? (s.folder f.kind ++ [name]) = d.node? (s.folder f.kind ++ [name]) :=
    touches.child sited fun heq => other (folder_inj (List.append_inj' heq rfl).1)
  refine ⟨fun hget => ?_, fun hname => ?_, fun hget p hp => ?_⟩
  · rw [target, same]
    exact h.stored hget
  · rw [same] at hname
    exact h.only hname
  · exact touches.isDirectory (Touches.target_ne sited hp) (h.made hget p hp)

theorem insert (sited : s.Sited) (h : s.Mirrors f t d) (touches : s.Touches f.kind id d d')
    (safe : isSafeId id = true) (fits : s.Fits f.kind id) (trips : f.RoundTrips x)
    (written : d'.node? (s.target f.kind id) = some (.file (f.bytes x)))
    (made : ∀ p ∈ s.stations ++ [s.folder f.kind], d'.isDirectory p) : s.Mirrors f (t.insert id x) d' := by
  -- The other files of the directory stay as they are.
  have same {name : String} (hname : name ≠ fileName id) :
      d'.node? (s.folder f.kind ++ [name]) = d.node? (s.folder f.kind ++ [name]) :=
    touches.child sited fun heq => hname (List.singleton_inj.mp (List.append_inj' heq rfl).2)
  refine ⟨fun {k y} hget => ?_, fun {name} hname => ?_, fun _ => made⟩
  · rw [Table.get?_insert] at hget
    split at hget
    · rename_i hk
      obtain rfl := Option.some.inj hget
      exact hk ▸ ⟨safe, fits, trips, written⟩
    · rename_i hk
      rw [target, same fun heq => hk (fileName_injective heq)]
      exact h.stored hget
  · by_cases heq : name = fileName id
    · exact ⟨id, heq, by rw [Table.get?_insert, if_pos rfl]; rfl⟩
    · rw [same heq] at hname
      obtain ⟨k, rfl, hk⟩ := h.only hname
      refine ⟨k, rfl, ?_⟩
      rw [Table.get?_insert, if_neg fun e => heq (congrArg fileName e)]
      exact hk

theorem erase (sited : s.Sited) (h : s.Mirrors f t d) (touches : s.Touches f.kind id d d')
    (gone : d'.node? (s.target f.kind id) = none) : s.Mirrors f (t.erase id) d' := by
  have same {name : String} (hname : name ≠ fileName id) :
      d'.node? (s.folder f.kind ++ [name]) = d.node? (s.folder f.kind ++ [name]) :=
    touches.child sited fun heq => hname (List.singleton_inj.mp (List.append_inj' heq rfl).2)
  have left {k : String} {y : α} (hget : (t.erase id).get? k = some y) : k ≠ id ∧ t.get? k = some y := by
    rw [Table.get?_erase] at hget
    split at hget
    · cases hget
    · exact ⟨‹_›, hget⟩
  refine ⟨fun hget => ?_, fun {name} hname => ?_, fun hget p hp => ?_⟩
  · obtain ⟨hk, hget⟩ := left hget
    rw [target, same fun heq => hk (fileName_injective heq)]
    exact h.stored hget
  · have hne : name ≠ fileName id := by
      rintro rfl
      rw [show s.folder f.kind ++ [fileName id] = s.target f.kind id from rfl, gone] at hname
      cases hname
    rw [same hne] at hname
    obtain ⟨k, rfl, hk⟩ := h.only hname
    refine ⟨k, rfl, ?_⟩
    rw [Table.get?_erase, if_neg fun e => hne (congrArg fileName e)]
    exact hk
  · obtain ⟨y, hy⟩ := Option.isSome_iff_exists.mp hget
    have := h.made (Option.isSome_of_eq_some (left hy).2) p hp
    exact touches.isDirectory (Touches.target_ne sited hp) this

end Mirrors

end JsonDirectory
end GridCatalog
