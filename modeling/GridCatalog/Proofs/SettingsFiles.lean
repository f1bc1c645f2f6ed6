import GridCatalog.Proofs.Changes
import GridCatalog.Proofs.RecordForms
import GridCatalog.Proofs.SavedFiles
import GridCatalog.Settings

/-! Settings that are saved and loaded again.

    All settings are read back from the file that they are saved to (`ofBytes_toBytes`), and only then they are checked:
    so loading a saved file gives the settings back, or fails as their check does (`load_of_save`). What has been loaded
    has passed the check and gives an ingest its range (`loaded_stable`). -/

namespace GridCatalog

open Json

/-! ### The JSON form -/

theorem InferenceSettings.readable (s : InferenceSettings) : Readable s.toJson :=
  .ofMembers (List.forall_mem_singleton.mpr (.bool _))

theorem InferenceSettings.ofJson?_toJson (s : InferenceSettings) : ofJson? s.toJson = some s := by
  have members : s.toJson.record? ["strict_numbers"] = some _ := record?_ofMembers (.refl _) (by decide)
  rw [ofJson?, bind_of_eq_some members, bind_of_eq_some (Record.defaulted_of_lookup rfl (bool?_bool _) _)]
  rfl

theorem IngestSettings.readable (s : IngestSettings) : Readable s.toJson := by
  refine .ofMembers ?_
  simp only [List.forall_mem_cons, List.not_mem_nil, false_implies, implies_true, and_true]
  exact ⟨.string _, .string _⟩

theorem IngestSettings.ofJson?_toJson (s : IngestSettings) : ofJson? s.toJson = some s := by
  have members : s.toJson.record? ["range", "user_id"] = some _ := record?_ofMembers (.refl _) (by decide)
  rw [ofJson?, bind_of_eq_some members, bind_of_eq_some (Record.defaulted_of_lookup rfl (text?_ofString _) _),
    bind_of_eq_some (Record.defaulted_of_lookup rfl (text?_ofString _) _)]
  rfl

theorem minutes_bounds (n : Int64) : -(Text.intBound64 : Int) ≤ n.toInt ∧ n.toInt < Text.intBound64 :=
  ⟨n.le_toInt, n.toInt_lt⟩

theorem minutesOfJson?_ofInt (n : Int64) : minutesOfJson? (ofInt n.toInt) = some n := by
  simp [minutesOfJson?, int?, ofInt, minutes_bounds n]

theorem monthsOfJson?_ofNat (n : UInt32) : monthsOfJson? (Json.ofNat n.toNat) = some n := by
  have bounds : (0 : Int) ≤ n.toNat ∧ (n.toNat : Int) < Text.natBound32 := ⟨by omega, by exact_mod_cast n.toNat_lt⟩
  simp [monthsOfJson?, int?, Json.ofNat, ofInt, bounds]

theorem Retention.readable (r : Retention) : Readable r.toJson := by
  obtain ⟨low, high⟩ := minutes_bounds r.temporaryMinutes
  have wide : Text.intBound64 ≤ Text.natBound64 := by decide
  have months : r.archivedMonths.toNat < Text.natBound64 := Nat.lt_trans r.archivedMonths.toNat_lt (by decide)
  refine .ofMembers ?_
  simp only [List.forall_mem_cons, List.not_mem_nil, false_implies, implies_true, and_true]
  exact ⟨readable_integer low (by omega), readable_ofNat months⟩

theorem Retention.ofJson?_toJson (r : Retention) : ofJson? r.toJson = some r := by
  have members : r.toJson.record? ["temporary_ttl_minutes", "archived_ttl_months"] = some _ :=
    record?_ofMembers (.refl _) (by decide)
  rw [ofJson?, bind_of_eq_some members, bind_of_eq_some (Record.defaulted_of_lookup rfl (minutesOfJson?_ofInt _) _),
    bind_of_eq_some (Record.defaulted_of_lookup rfl (monthsOfJson?_ofNat _) _)]
  rfl

namespace Settings
variable {s : Settings} {d d' : Disk} {base : Path} {path : String} {f : Failure}

theorem readable (s : Settings) : Readable s.toJson := by
  refine .ofMembers ?_
  simp only [List.forall_mem_cons, List.not_mem_nil, false_implies, implies_true, and_true]
  exact ⟨s.inference.readable, s.ingest.readable, s.retention.readable⟩

theorem ofJson?_toJson (s : Settings) : ofJson? s.toJson = some s := by
  have members : s.toJson.record? ["inference", "ingest", "retention"] = some _ :=
    record?_ofMembers (.refl _) (by decide)
  rw [ofJson?, bind_of_eq_some members,
    bind_of_eq_some (Record.defaulted_of_lookup rfl s.inference.ofJson?_toJson _),
    bind_of_eq_some (Record.defaulted_of_lookup rfl s.ingest.ofJson?_toJson _),
    bind_of_eq_some (Record.defaulted_of_lookup rfl s.retention.ofJson?_toJson _)]
  rfl

/-- Settings are read from their file as they are, and then checked. -/
theorem ofBytes_toBytes (s : Settings) : ofBytes s.toBytes = s.check.map fun _ => s := by
  have read : Json.ofBytes? s.toBytes = some s.toJson := by
    have := s.readable.ofText?_indented
    rwa [ofText?, toIndentedText, String.toList_ofList] at this
  rw [ofBytes, read, Option.bind_some, ofJson?_toJson]

/-! ### Checks -/

theorem range_eq_ok {r : CellRange} : s.range = .ok r ↔ CellRange.ofText? s.ingest.range = some r := by
  unfold range
  dsimp only
  split
  · rename_i text read
    rw [read, Except.ok.injEq, Option.some.injEq]
  · rename_i unread
    rw [unread]
    simp

theorem check_eq_ok :
    s.check = .ok () ↔ (∃ r, CellRange.ofText? s.ingest.range = some r) ∧ 0 ≤ s.retention.temporaryMinutes.toInt := by
  simp only [← range_eq_ok]
  unfold check
  split
  · rename_i invalid
    simp [invalid]
  · rename_i r valid
    have sign := s.retention.temporaryMinutes.lt_iff_toInt_lt (y := 0)
    rw [Int64.toInt_zero] at sign
    split
    · rename_i negative
      constructor
      · rintro ⟨⟩
      · rintro ⟨-, natural⟩
        exact absurd natural (Int.not_le.mpr (sign.mp negative))
    · rename_i natural
      exact ⟨fun _ => ⟨⟨r, valid⟩, Int.not_lt.mp fun h => natural (sign.mpr h)⟩, fun _ => rfl⟩

theorem reason_of_check (h : s.check = .error f) : f.reason = "config-error" := by
  unfold check at h
  split at h
  · rename_i invalid
    cases h
    exact reason_of_range invalid
  · split at h <;> cases h
    rfl

/-! ### Files -/

theorem check_of_load (h : load d base path = .ok s) : s.check = .ok () := by
  unfold load at h
  split at h
  · unfold ofBytes at h
    split at h
    · rename_i s' _
      rcases checked : s'.check with f | u
      · rw [checked] at h
        cases h
      · rw [checked] at h
        cases h
        exact checked
    · cases h
  · cases h
  · cases h

/-- What has been saved is loaded, if it passes the check. -/
theorem load_of_save (h : s.save d base path = (.ok (), d')) : load d' base path = s.check.map fun _ => s := by
  unfold save at h
  split at h
  · cases h
  · split at h
    · rename_i written
      cases h
      rw [load, Disk.readAt_of_writeAt written]
      exact ofBytes_toBytes s
    · cases h

/-- Settings can be saved to any file that can be written. -/
theorem save_of_writable (h : d.Writable base path) (s : Settings) : ∃ d', s.save d base path = (.ok (), d') := by
  have parent : ∃ d', makeParent d base path = (.ok (), d') ∧ d.WayMade d' base path := by
    unfold makeParent
    dsimp only
    obtain ⟨here, below⟩ := h.parent
    split
    · rename_i empty
      exact ⟨d, rfl, here empty⟩
    · rename_i some_char
      obtain ⟨free, stations⟩ := below some_char
      obtain ⟨d', made, nodes⟩ := free.ensureDirectoryAt
      refine ⟨d', by rw [made], fun q => ?_⟩
      rw [nodes]
      simp only [stations q]
  obtain ⟨d₁, made, way⟩ := parent
  obtain ⟨d', written⟩ := h.writeAt way s.toBytes
  refine ⟨d', ?_⟩
  unfold save
  rw [made]
  dsimp only
  rw [written]

end Settings

/-! ### Ingesting -/

/-- A step that fails in the middle of a list fails with what one of its elements fails with. -/
theorem Task.mapM_error {σ α β : Type} {f : α → Task σ β} {l : List α} {w w' : World σ} {e : Failure}
    (h : l.mapM f w = (.error e, w')) : ∃ a ∈ l, ∃ v, f a v = (.error e, w') := by
  induction l generalizing w with
  | nil => cases h
  | cons a l ih =>
    rw [List.mapM_cons] at h
    obtain ⟨e, first, he⟩ | ⟨b, v, -, h⟩ := bind_inv h
    · cases he
      exact ⟨a, List.mem_cons_self, w, first⟩
    · obtain ⟨r, rest, hr⟩ := map_inv h
      cases r with
      | error e' =>
        cases hr
        obtain ⟨a', mem, v', failed⟩ := ih rest
        exact ⟨a', List.mem_cons_of_mem _ mem, v', failed⟩
      | ok bs => cases hr

/-- With a range that can be read, an ingest blames the source or the store, or there are no values. -/
theorem Service.reason_of_ingest {σ : Type} {s : Service σ} {sourceId : String} {r : CellRange} {w w' : World σ}
    {f : Failure} (valid : s.settings.range = .ok r) (h : s.ingest sourceId w = (.error f, w')) :
    f.reason ∈ ["source-unavailable", "no-values", "dataset-write", "metadata-write"] := by
  unfold ingest at h
  rcases listed : s.source.sheets sourceId with e | _ | ⟨sheet, sheets⟩ <;> simp only [valid, listed] at h
  · obtain ⟨failed, -⟩ := Task.throw_inv h
    cases failed
    exact List.mem_cons_self
  · obtain ⟨v, -, -, h⟩ := report_bind_inv h
    cases (Task.pure_inv h).1
  obtain ⟨e, built, he⟩ | ⟨os, v, -, h⟩ := Task.bind_inv h
  · cases he
    obtain ⟨sheet', -, v, failed⟩ := Task.mapM_error built
    obtain none | ⟨e, -, -, unread⟩ := build_inv failed
    · cases none
    · cases unread
      exact List.mem_cons_self
  generalize os.filterMap id = datasets at h
  rcases datasets with _ | ⟨d, ds⟩
  · obtain ⟨failed, -⟩ := Task.throw_inv h
    cases failed
    simp [noValues, Failure.reason]
  · obtain ⟨d, -, v', failed⟩ := Task.mapM_error h
    obtain ⟨e, rfl, -⟩ | ⟨-, -, e, rfl, -⟩ := create_error_inv failed
    · simp [datasetUnsaved, Failure.reason]
    · simp [entryUnsaved, Failure.reason]

namespace Settings

/-- The settings can be saved to any file that can be written, and loading the file then ends with the result. -/
structure ComesBackAs (s : Settings) (r : Except Failure Settings) : Prop where
  saved : ∀ d base path, d.Writable base path → ∃ d', s.save d base path = (.ok (), d')
  loaded : ∀ d base path d', s.save d base path = (.ok (), d') → load d' base path = r

theorem comesBackAs (s : Settings) : s.ComesBackAs (s.check.map fun _ => s) where
  saved _ _ _ writable := save_of_writable writable s
  loaded _ _ _ _ saved := load_of_save saved

/-- Loaded settings are valid and no ingest fails on account of them. Settings that are saved and loaded come back as
    they are if they are valid, and are refused if not. -/
theorem loaded_stable :
    (∀ d base path s, load d base path = .ok s →
      (∃ r, CellRange.ofText? s.ingest.range = some r) ∧ 0 ≤ s.retention.temporaryMinutes.toInt ∧
      (∀ (σ : Type) (service : Service σ) sourceId w f w', service.settings = s →
        service.ingest sourceId w = (.error f, w') → f.reason ≠ "config-error") ∧
      s.ComesBackAs (.ok s)) ∧
    (∀ s : Settings, s.check = .ok () → s.ComesBackAs (.ok s)) ∧
    ∀ (s : Settings) f, s.check = .error f → s.ComesBackAs (.error f) ∧ f.reason = "config-error" := by
  have back : ∀ s : Settings, s.check = .ok () → s.ComesBackAs (.ok s) := by
    intro s checked
    have := s.comesBackAs
    rwa [checked] at this
  refine ⟨?_, back, ?_⟩
  · intro d base path s loaded
    have checked := check_of_load loaded
    obtain ⟨⟨r, read⟩, natural⟩ := check_eq_ok.mp checked
    refine ⟨⟨r, read⟩, natural, ?_, back s checked⟩
    intro σ service sourceId w f w' set failed config
    have reason := Service.reason_of_ingest (set ▸ range_eq_ok.mpr read) failed
    rw [config] at reason
    revert reason
    decide
  · intro s f refused
    refine ⟨?_, reason_of_check refused⟩
    have := s.comesBackAs
    rwa [refused] at this

/-- Settings with a range in odd writing, an owner whose name has to be escaped, and the longest times. -/
def odd : Settings := ⟨⟨true⟩, ⟨" b2:zz10\t", "Zoë \"\\\n"⟩, ⟨9223372036854775807, 4294967295⟩⟩

/-- Settings whose range is none. -/
def rangeless : Settings := ⟨.default, ⟨"nonsense", ""⟩, .default⟩

/-- A service with the odd settings that finds no documents. -/
def nowhere : Service Memory :=
  ⟨Memory.store, ⟨.worksheet, fun id => .error (.notFound id), fun id _ _ => .error (.notFound id)⟩, odd,
    ⟨fun _ _ => none, fun _ => "", fun _ => .epoch⟩⟩

theorem loaded_stable_odd :
    ∃ d d' f, odd.save .empty [] "new/./settings.json" = (.ok (), d) ∧ load d [] "new/./settings.json" = .ok odd ∧
      (∃ r, CellRange.ofText? odd.ingest.range = some r) ∧ 0 ≤ odd.retention.temporaryMinutes.toInt ∧
      nowhere.ingest "page" (World.start .empty) = (.error f, World.start .empty) ∧ f.reason ≠ "config-error" ∧
      rangeless.save .empty [] "new/./settings.json" = (.ok (), d') ∧
      load d' [] "new/./settings.json" = .error (.settings "ingest.range: invalid range 'nonsense'") := by
  have writable : Disk.empty.Writable [] "new/./settings.json" :=
    ⟨by decide +kernel, by decide +kernel, ⟨"settings.json", by decide +kernel, by decide⟩, by decide +kernel,
      by decide +kernel, by decide +kernel, by decide +kernel⟩
  have valid : odd.check = .ok () := by decide +kernel
  have refused : rangeless.check = .error (.settings "ingest.range: invalid range 'nonsense'") := by decide +kernel
  have back := loaded_stable.2.1 odd valid
  obtain ⟨d, saved⟩ := back.saved _ _ _ writable
  have loaded := back.loaded _ _ _ _ saved
  obtain ⟨⟨r, read⟩, natural, ingest, -⟩ := loaded_stable.1 _ _ _ _ loaded
  have failed : nowhere.ingest "page" (World.start .empty) =
      (.error (Service.documentUnreadable "page" (.notFound "page")), World.start .empty) := by
    have range : nowhere.settings.range = .ok r := range_eq_ok.mpr read
    unfold Service.ingest
    rw [range]
    rfl
  obtain ⟨again, -⟩ := loaded_stable.2.2 rangeless _ refused
  obtain ⟨d', saved'⟩ := again.saved _ _ _ writable
  exact ⟨d, d', _, saved, loaded, ⟨r, read⟩, natural, failed, ingest _ nowhere _ _ _ _ rfl failed, saved',
    again.loaded _ _ _ _ saved'⟩

end Settings

end GridCatalog
