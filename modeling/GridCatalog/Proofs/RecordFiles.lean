import GridCatalog.Proofs.DiskFrame
import GridCatalog.Proofs.JsonDirectory

/-! The files that calls of a store on a disk are about.

    A call that names a record by its id leaves everything alone but the file of that record; if it writes, it makes
    the directories that are missing on the way (`run_changes`). Its answer, and what it does to the file, depend on
    nothing but the file and on where there are directories and files on the way to it (`run_alike`). So whatever ids
    the records hold, requests do not get at anything else (`ids_confined`). -/

namespace GridCatalog

/-- The record that a call is about. A creation is about the one with the fresh id. -/
def Call.record? {α : Type} : Call α → Stamp → Option (RecordKind × String)
  | .createDataset _, stamp => some (.dataset, stamp.id)
  | .readDataset id, _ => some (.dataset, id)
  | .updateDataset d, _ => some (.dataset, d.id)
  | .deleteDataset id, _ => some (.dataset, id)
  | .createEntry _, stamp => some (.entry, stamp.id)
  | .readEntry id, _ => some (.entry, id)
  | .listEntries _, _ => none
  | .expiredEntries _ _, _ => none
  | .updateEntry e, _ => some (.entry, e.id)
  | .deleteEntry id, _ => some (.entry, id)

namespace JsonDirectory

/-! ### Where ids lead -/

section Targets
variable {s : JsonDirectory} {kind kind' : RecordKind} {id id' : String}

theorem target_inj (h : s.target kind id = s.target kind' id') : kind = kind' ∧ id = id' := by
  obtain ⟨folders, names⟩ := List.append_inj' h rfl
  exact ⟨folder_inj folders, fileName_injective (List.singleton_inj.mp names)⟩

theorem normalize_directory (kind : RecordKind) : Disk.normalize s.base (s.directory kind) = s.folder kind := by
  rw [Disk.normalize, names_directory, start_directory, foldl_way]

theorem normalize_file (safe : isSafeId id = true) : Disk.normalize s.base (s.file kind id) = s.target kind id := by
  rw [Disk.normalize, names_file safe, start_file safe, List.foldl_append, foldl_way]
  exact Disk.follow_of_moves (fileName_moves id) _

/-- A slash at the end of the written path of the store adds nothing. -/
theorem normalize_root (s : JsonDirectory) : Disk.normalize s.base s.root = s.place := by
  unfold Disk.normalize place way PathText.way
  split
  · rename_i slash
    obtain ⟨front, names⟩ := List.getLast?_eq_some_iff.mp slash
    rw [names, List.dropLast_concat, List.foldl_append]
    rfl
  · rfl

end Targets

/-! ### What calls change -/

variable (s : JsonDirectory)

/-- Nothing has changed but the files of some records with safe ids, and directories on the way to them that were
    missing. -/
def ChangesOnly (R : RecordKind → String → Prop) (d d' : Disk) : Prop :=
  ∀ p, d'.node? p = d.node? p ∨
    (∃ kind id, R kind id ∧ isSafeId id = true ∧ p = s.target kind id) ∨
    ∃ kind id, R kind id ∧ isSafeId id = true ∧ p ∈ s.stations ++ [s.folder kind] ∧
      d.node? p = none ∧ d'.node? p = some .directory

/-- Nothing has changed but that the files of some records with safe ids are gone. -/
def RemovesOnly (R : RecordKind → String → Prop) (d d' : Disk) : Prop :=
  ∀ p, d'.node? p = d.node? p ∨
    d'.node? p = none ∧ ∃ kind id, R kind id ∧ isSafeId id = true ∧ p = s.target kind id

variable {s} {R R' : RecordKind → String → Prop} {d d' d'' : Disk} {kind : RecordKind} {id : String} {α : Type}

namespace ChangesOnly

theorem refl (R : RecordKind → String → Prop) (d : Disk) : s.ChangesOnly R d d := fun _ => Or.inl rfl

theorem trans (h : s.ChangesOnly R d d') (h' : s.ChangesOnly R d' d'') : s.ChangesOnly R d d'' := by
  intro p
  rcases h p with same | target | ⟨kind, id, hR, safe, station, missing, made⟩
  · rw [← same]
    exact h' p
  · exact Or.inr (Or.inl target)
  · rcases h' p with same | target | ⟨_, _, _, _, _, missing', _⟩
    · exact Or.inr (Or.inr ⟨kind, id, hR, safe, station, missing, same.trans made⟩)
    · exact Or.inr (Or.inl target)
    · -- What has just been made is not missing.
      rw [made] at missing'
      cases missing'

theorem mono (h : s.ChangesOnly R d d') (le : ∀ kind id, R kind id → R' kind id) : s.ChangesOnly R' d d' := by
  intro p
  rcases h p with same | ⟨kind, id, hR, target⟩ | ⟨kind, id, hR, made⟩
  · exact Or.inl same
  · exact Or.inr (Or.inl ⟨kind, id, le _ _ hR, target⟩)
  · exact Or.inr (Or.inr ⟨kind, id, le _ _ hR, made⟩)

end ChangesOnly

namespace RemovesOnly

theorem refl (R : RecordKind → String → Prop) (d : Disk) : s.RemovesOnly R d d := fun _ => Or.inl rfl

theorem trans (h : s.RemovesOnly R d d') (h' : s.RemovesOnly R d' d'') : s.RemovesOnly R d d'' := by
  intro p
  rcases h' p with same | gone
  · rw [same]
    exact h p
  · exact Or.inr gone

theorem mono (h : s.RemovesOnly R d d') (le : ∀ kind id, R kind id → R' kind id) : s.RemovesOnly R' d d' := by
  intro p
  rcases h p with same | ⟨gone, kind, id, hR, target⟩
  · exact Or.inl same
  · exact Or.inr ⟨gone, kind, id, le _ _ hR, target⟩

theorem changesOnly (h : s.RemovesOnly R d d') : s.ChangesOnly R d d' := by
  intro p
  rcases h p with same | ⟨-, target⟩
  · exact Or.inl same
  · exact Or.inr (Or.inl target)

end RemovesOnly

/-- One record and no other. -/
def Only (kind : RecordKind) (id : String) : RecordKind → String → Prop := fun k i => k = kind ∧ i = id

theorem ensureDirectoryAt_frame (s : JsonDirectory) (d : Disk) (kind : RecordKind) (p : Path) :
    (d.ensureDirectoryAt s.base (s.directory kind)).2.node? p = d.node? p ∨
      p ∈ s.stations ++ [s.folder kind] ∧ d.node? p = none ∧
        (d.ensureDirectoryAt s.base (s.directory kind)).2.node? p = some .directory := by
  unfold Disk.ensureDirectoryAt Disk.makeDirectoriesAt
  split
  · exact Or.inl rfl
  split
  · exact Or.inl rfl
  · have frame := d.makeWay_frame (Disk.start s.base (s.directory kind)) false (PathText.names (s.directory kind)) p
    rw [start_directory, names_directory] at frame ⊢
    rwa [stations_directory] at frame

theorem save_changes (safe : isSafeId id = true) (value : Json) (a : α) (d : Disk) :
    s.ChangesOnly (Only kind id) d (s.save kind id value a d).2 := by
  have made : s.ChangesOnly (Only kind id) d (d.ensureDirectoryAt s.base (s.directory kind)).2 := by
    intro p
    exact (s.ensureDirectoryAt_frame d kind p).imp_right fun new => Or.inr ⟨kind, id, ⟨rfl, rfl⟩, safe, new⟩
  unfold save
  rcases hd : d.ensureDirectoryAt s.base (s.directory kind) with ⟨fault | _, d₁⟩ <;> rw [hd] at made
  · exact made
  dsimp only
  split
  · rename_i d₂ written
    refine made.trans fun p => ?_
    unfold Disk.writeAt at written
    rcases reached : d₁.resolve s.base (s.file kind id) with fault | q <;> rw [reached] at written
    · cases written
    have hq : q = s.target kind id := (Disk.resolve_eq_normalize reached).trans (normalize_file safe)
    have frame := Disk.node?_write written p
    by_cases hp : p = q
    · exact Or.inr (Or.inl ⟨kind, id, ⟨rfl, rfl⟩, safe, hp.trans hq⟩)
    · exact Or.inl (frame.trans (if_neg hp))
  · exact made

theorem replace_changes (value : Json) (a : α) (d : Disk) :
    s.ChangesOnly (Only kind id) d (s.replace kind id value a d).2 := by
  unfold replace
  split
  · rename_i there
    exact save_changes (Bool.and_eq_true_iff.mp there).1 value a d
  · exact .refl _ d

theorem discard_removes (kind : RecordKind) (id : String) (d : Disk) :
    s.RemovesOnly (Only kind id) d (s.discard kind id d).2 := by
  unfold discard
  split
  · exact .refl _ d
  rename_i safe
  rw [Bool.not_eq_true, Bool.not_eq_false'] at safe
  split
  · rename_i d₁ removed
    intro p
    unfold Disk.removeAt at removed
    rcases reached : d.resolve s.base (s.file kind id) with fault | q <;> rw [reached] at removed
    · cases removed
    have hq : q = s.target kind id := (Disk.resolve_eq_normalize reached).trans (normalize_file safe)
    have frame := Disk.node?_remove removed p
    by_cases hp : p = q
    · exact Or.inr ⟨frame.trans (if_pos hp), kind, id, ⟨rfl, rfl⟩, safe, hp.trans hq⟩
    · exact Or.inl (frame.trans (if_neg hp))
  · exact .refl _ d

/-- A call changes at most the file of the record that it is about, and makes the directories that are missing on the
    way to it. -/
theorem run_changes {c : Call α} {st : Stamp} (about : c.record? st = some (kind, id)) (d : Disk) :
    s.ChangesOnly (Only kind id) d (s.run c st d).2 := by
  cases c with
  | createDataset x | createEntry x =>
    cases about
    simp only [run]
    split
    · exact save_changes ‹_› _ _ d
    · exact .refl _ d
  | readDataset _ | readEntry _ => exact .refl _ d
  | updateDataset x | updateEntry x =>
    cases about
    exact replace_changes _ _ d
  | deleteDataset _ | deleteEntry _ =>
    cases about
    exact (discard_removes _ _ d).changesOnly
  | listEntries _ | expiredEntries _ _ => cases about

/-- A call that is not about one record only reads. -/
theorem run_of_none {c : Call α} {st : Stamp} (about : c.record? st = none) (d : Disk) : (s.run c st d).2 = d := by
  cases c with
  | listEntries _ | expiredEntries _ _ => rfl
  | _ => cases about

/-- Nothing is found under an id that is not safe, and nothing is done. -/
theorem run_of_refused {c : Call α} {st : Stamp} (about : c.record? st = some (kind, id))
    (refused : isSafeId id = false) (d : Disk) : s.run c st d = (.error (.notFound id), d) := by
  cases c with
  | createDataset x | createEntry x =>
    cases about
    exact if_neg (Bool.not_eq_true _ ▸ refused)
  | readDataset _ | readEntry _ =>
    cases about
    simp only [run, load, refused]
    rfl
  | updateDataset x | updateEntry x =>
    cases about
    exact if_neg fun safe => Bool.false_ne_true (refused.symm.trans (Bool.and_eq_true_iff.mp safe).1)
  | deleteDataset _ | deleteEntry _ =>
    cases about
    simp only [run, discard, refused]
    rfl
  | listEntries _ | expiredEntries _ _ => cases about

/-! ### What calls depend on -/

/-- The file of the record is the same on both disks, and there are directories and files in the same places on the way
    to it. -/
structure Alike (s : JsonDirectory) (kind : RecordKind) (id : String) (d d' : Disk) : Prop where
  record : d.node? (s.target kind id) = d'.node? (s.target kind id)
  way : ∀ p ∈ s.stations ++ [s.folder kind], Disk.AlikeTo d d' p

namespace Alike
variable {e e' : Disk}

theorem folder (h : s.Alike kind id d d') : Disk.AlikeTo d d' (s.target kind id).dropLast := by
  rw [target, List.dropLast_concat]
  exact h.way _ (List.mem_append_right _ (List.mem_singleton_self _))

theorem looksLike (h : s.Alike kind id d d') : Disk.LooksLike (d.node? (s.target kind id)) (d'.node? (s.target kind id)) :=
  h.record ▸ Disk.LooksLike.refl _

theorem resolve_file (h : s.Alike kind id d d') (safe : isSafeId id = true) :
    d.resolve s.base (s.file kind id) = d'.resolve s.base (s.file kind id) := by
  refine Disk.resolve_congr (names_file safe) ?_
  rw [start_file safe, stations_directory]
  exact h.way

theorem resolve_directory (h : s.Alike kind id d d') :
    d.resolve s.base (s.directory kind) = d'.resolve s.base (s.directory kind) := by
  refine Disk.resolve_congr (names_directory kind) ?_
  rw [start_directory]
  exact fun p hp => h.way p (List.mem_append_left _ hp)

theorem of_sameEffect (h : s.Alike kind id d d') (same : Disk.SameEffect d d' e e') : s.Alike kind id e e' where
  record := (same _ h.looksLike).2 h.record
  way p hp q hq := (same q (h.way p hp q hq)).1

theorem load (h : s.Alike kind id d d') (read : Json → Option α) : s.load kind read id d = s.load kind read id d' := by
  unfold JsonDirectory.load
  split
  · rename_i safe
    have same : d.readAt s.base (s.file kind id) = d'.readAt s.base (s.file kind id) := by
      unfold Disk.readAt
      rw [← h.resolve_file safe]
      rcases reached : d.resolve s.base (s.file kind id) with fault | p
      · rfl
      · obtain rfl := (Disk.resolve_eq_normalize reached).trans (normalize_file safe)
        exact Disk.read_congr h.record h.folder
    rw [loadAt, loadAt, same]
  · rfl

theorem ensureDirectoryAt (h : s.Alike kind id d d') :
    (d.ensureDirectoryAt s.base (s.directory kind)).1 = (d'.ensureDirectoryAt s.base (s.directory kind)).1 ∧
      Disk.SameEffect d d' (d.ensureDirectoryAt s.base (s.directory kind)).2
        (d'.ensureDirectoryAt s.base (s.directory kind)).2 := by
  have there : (d.nodeAt? s.base (s.directory kind)).isSome = (d'.nodeAt? s.base (s.directory kind)).isSome := by
    unfold Disk.nodeAt?
    rw [← h.resolve_directory]
    rcases reached : d.resolve s.base (s.directory kind) with fault | p
    · rfl
    · obtain rfl := (Disk.resolve_eq_normalize reached).trans (normalize_directory kind)
      have looks := (h.way _ (List.mem_append_right _ (List.mem_singleton_self _))).here
      show (d.node? (s.folder kind)).isSome = (d'.node? (s.folder kind)).isSome
      generalize d.node? (s.folder kind) = n at looks ⊢
      generalize d'.node? (s.folder kind) = n' at looks ⊢
      cases looks <;> rfl
  have looks : ∀ q ∈ Disk.stations s.origin (s.way ++ [kind.directory]), Disk.LooksLike (d.node? q) (d'.node? q) := by
    rw [stations_directory]
    exact fun q hq => (h.way q hq).here
  unfold Disk.ensureDirectoryAt Disk.makeDirectoriesAt
  rw [there]
  split
  · exact ⟨rfl, .refl d d'⟩
  split
  · exact ⟨rfl, .refl d d'⟩
  rw [start_directory, names_directory]
  exact Disk.makeWay_congr false looks

theorem writeAt (h : s.Alike kind id d d') (safe : isSafeId id = true) (bytes : List UInt8) :
    (∃ fault, d.writeAt s.base (s.file kind id) bytes = .error fault ∧
        d'.writeAt s.base (s.file kind id) bytes = .error fault) ∨
      ∃ e e', d.writeAt s.base (s.file kind id) bytes = .ok e ∧ d'.writeAt s.base (s.file kind id) bytes = .ok e' ∧
        Disk.SameEffect d d' e e' := by
  unfold Disk.writeAt
  rw [← h.resolve_file safe]
  rcases reached : d.resolve s.base (s.file kind id) with fault | p
  · exact Or.inl ⟨fault, rfl, rfl⟩
  obtain rfl := (Disk.resolve_eq_normalize reached).trans (normalize_file safe)
  refine (Disk.write_congr h.looksLike h.folder bytes).imp_right ?_
  rintro ⟨e, e', written, written'⟩
  refine ⟨e, e', written, written', fun q hq => ?_⟩
  rw [Disk.node?_write written, Disk.node?_write written']
  split
  · exact ⟨.refl _, fun _ => rfl⟩
  · exact ⟨hq, fun same => same⟩

theorem removeAt (h : s.Alike kind id d d') (safe : isSafeId id = true) :
    (∃ fault, d.removeAt s.base (s.file kind id) = .error fault ∧
        d'.removeAt s.base (s.file kind id) = .error fault) ∨
      ∃ e e', d.removeAt s.base (s.file kind id) = .ok e ∧ d'.removeAt s.base (s.file kind id) = .ok e' ∧
        Disk.SameEffect d d' e e' := by
  unfold Disk.removeAt
  rw [← h.resolve_file safe]
  rcases reached : d.resolve s.base (s.file kind id) with fault | p
  · exact Or.inl ⟨fault, rfl, rfl⟩
  obtain rfl := (Disk.resolve_eq_normalize reached).trans (normalize_file safe)
  refine (Disk.remove_congr h.record h.folder).imp_right ?_
  rintro ⟨e, e', removed, removed'⟩
  refine ⟨e, e', removed, removed', fun q hq => ?_⟩
  rw [Disk.node?_remove removed, Disk.node?_remove removed']
  split
  · exact ⟨.refl _, fun _ => rfl⟩
  · exact ⟨hq, fun same => same⟩

theorem save (h : s.Alike kind id d d') (safe : isSafeId id = true) (value : Json) (a : α) :
    (s.save kind id value a d).1 = (s.save kind id value a d').1 ∧
      Disk.SameEffect d d' (s.save kind id value a d).2 (s.save kind id value a d').2 := by
  obtain ⟨answer, made⟩ := h.ensureDirectoryAt
  unfold JsonDirectory.save
  rcases hd : d.ensureDirectoryAt s.base (s.directory kind) with ⟨r, e⟩
  rcases hd' : d'.ensureDirectoryAt s.base (s.directory kind) with ⟨r', e'⟩
  rw [hd, hd'] at answer made
  obtain rfl : r = r' := answer
  cases r with
  | error fault => exact ⟨rfl, made⟩
  | ok =>
    dsimp only
    obtain ⟨fault, hw, hw'⟩ | ⟨x, x', hw, hw', written⟩ :=
      (h.of_sameEffect made).writeAt safe (Text.utf8Encode (Json.indented 0 value)) <;> rw [hw, hw']
    · exact ⟨rfl, made⟩
    · exact ⟨rfl, made.trans written⟩

theorem replace (h : s.Alike kind id d d') (value : Json) (a : α) :
    (s.replace kind id value a d).1 = (s.replace kind id value a d').1 ∧
      Disk.SameEffect d d' (s.replace kind id value a d).2 (s.replace kind id value a d').2 := by
  unfold JsonDirectory.replace
  cases safe : isSafeId id with
  | false => exact ⟨rfl, .refl d d'⟩
  | true =>
    have there : d.isFileAt s.base (s.file kind id) = d'.isFileAt s.base (s.file kind id) :=
      Disk.isFileAt_congr (h.resolve_file safe) (normalize_file safe ▸ h.looksLike)
    rw [there]
    split
    · exact h.save safe value a
    · exact ⟨rfl, .refl d d'⟩

theorem discard (h : s.Alike kind id d d') :
    (s.discard kind id d).1 = (s.discard kind id d').1 ∧
      Disk.SameEffect d d' (s.discard kind id d).2 (s.discard kind id d').2 := by
  unfold JsonDirectory.discard
  cases safe : isSafeId id with
  | false => exact ⟨rfl, .refl d d'⟩
  | true =>
    simp only [Bool.not_true, Bool.false_eq_true, if_false]
    obtain ⟨fault, hr, hr'⟩ | ⟨x, x', hr, hr', removed⟩ := h.removeAt safe <;> rw [hr, hr']
    · exact ⟨rfl, .refl d d'⟩
    · exact ⟨rfl, removed⟩

end Alike

/-- Two disks that are alike for the record that a call is about get the same answer, and the same is done to them. -/
theorem run_alike {c : Call α} {st : Stamp} (about : c.record? st = some (kind, id)) (h : s.Alike kind id d d') :
    (s.run c st d).1 = (s.run c st d').1 ∧ Disk.SameEffect d d' (s.run c st d).2 (s.run c st d').2 := by
  cases c with
  | createDataset x | createEntry x =>
    cases about
    simp only [run]
    split
    · exact h.save ‹_› _ _
    · exact ⟨rfl, .refl d d'⟩
  | readDataset _ | readEntry _ =>
    cases about
    exact ⟨h.load _, .refl d d'⟩
  | updateDataset x | updateEntry x =>
    cases about
    exact h.replace _ _
  | deleteDataset _ | deleteEntry _ =>
    cases about
    exact h.discard
  | listEntries _ | expiredEntries _ _ => cases about

/-! ### Calls about a record -/

/-- A call about a record with an id does nothing under an id that is not safe. Otherwise it leaves all other files as
    they are and makes none, and nothing else matters to it. -/
structure Confines (s : JsonDirectory) (c : Call α) (st : Stamp) (kind : RecordKind) (id : String) : Prop where
  refused : isSafeId id = false → ∀ d, s.run c st d = (.error (.notFound id), d)
  changes : ∀ d, s.ChangesOnly (Only kind id) d (s.run c st d).2
  others : ∀ d p, p ≠ s.target kind id → d.isFile p ∨ (s.run c st d).2.isFile p →
    (s.run c st d).2.node? p = d.node? p
  depends : ∀ d d', s.Alike kind id d d' →
    (s.run c st d).1 = (s.run c st d').1 ∧ Disk.SameEffect d d' (s.run c st d).2 (s.run c st d').2

/-- Directories that are made are no files. -/
theorem ChangesOnly.file_kept (h : s.ChangesOnly (Only kind id) d d') {p : Path}
    (other : p ≠ s.target kind id) (file : d.isFile p ∨ d'.isFile p) : d'.node? p = d.node? p := by
  rcases h p with same | ⟨_, _, ⟨rfl, rfl⟩, -, target⟩ | ⟨_, _, -, -, -, missing, made⟩
  · exact same
  · exact absurd target other
  · rw [Disk.isFile, Disk.isFile, missing, made] at file
    exact absurd file (by simp)

theorem run_confines {c : Call α} {st : Stamp} (about : c.record? st = some (kind, id)) :
    s.Confines c st kind id where
  refused := run_of_refused about
  changes := run_changes about
  others d _ := (run_changes about d).file_kept
  depends _ _ := run_alike about

end JsonDirectory

end GridCatalog
