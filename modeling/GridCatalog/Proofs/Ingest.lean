import GridCatalog.Proofs.Task
import GridCatalog.Source.Directory
import GridCatalog.Store.JsonDirectory

/-! What an ingest that succeeds has stored.

    An ingest reads every grid sheet by its title and then creates the datasets that it has built, each
    with an entry (`ingest_creates`). In a directory the titles are the stems of the file names, and a
    title leads to the first grid file that has it. So every grid file comes in with the contents of its
    namesake, which are its own if no two grid files have the same stem (`ingest_directory`). -/

namespace GridCatalog

variable {σ : Type}

/-- A creation that the store answers gives the record with its stamp. -/
structure Store.Stamps (S : Store σ) : Prop where
  dataset {d d' : Dataset} {st : Stamp} {x y : σ} : S.run (.createDataset d) st x = (.ok d', y) → d' = d.stamped st
  entry {e e' : Entry} {st : Stamp} {x y : σ} : S.run (.createEntry e) st x = (.ok e', y) → e' = e.stamped st

theorem Memory.store_stamps : Memory.store.Stamps where
  dataset h := by
    cases h
    rfl
  entry h := by
    cases h
    rfl

theorem JsonDirectory.save_ok {s : JsonDirectory} {kind : RecordKind} {id : String} {value : Json} {α : Type}
    {a b : α} {d d' : Disk} (h : s.save kind id value a d = (.ok b, d')) : b = a := by
  unfold save at h
  split at h
  · cases h
  · split at h <;> cases h
    rfl

theorem JsonDirectory.store_stamps (s : JsonDirectory) : s.store.Stamps where
  dataset h := by
    simp only [store, run] at h
    split at h
    · exact save_ok h
    · cases h
  entry h := by
    simp only [store, run] at h
    split at h
    · exact save_ok h
    · cases h

namespace Service
variable {s : Service σ} {w w' : World σ} {sourceId : String} {range : CellRange}

/-! ### Any source -/

/-- The dataset of a sheet, if it is a grid that can be read and holds one. -/
def datasetOf (s : Service σ) (sourceId : String) (range : CellRange) (sheet : Sheet) : Option Dataset :=
  if sheet.isGrid then
    (s.source.readGrid sourceId sheet.title range).toOption.bind
      (Dataset.ofGrid? s.settings.inference sheet.title s.settings.ingest.userId)
  else none

/-- The datasets are created one after the other, each with its entry behind it, and nothing else is done
    to the store. -/
inductive Creates (s : Service σ) (sourceId : String) : List Dataset → World σ → List Entry → World σ → Prop
  | nil {w w' : World σ} (store : w'.store = w.store) (calls : w'.calls = w.calls) : Creates s sourceId [] w [] w'
  | cons {d d' : Dataset} {ds : List Dataset} {e : Entry} {es : List Entry} {w v v' w' : World σ}
      (stored : d' = d.stamped (s.stamp w))
      (dataset : s.store.run (.createDataset d) (s.stamp w) w.store = (.ok d', v.store))
      (shown : e = (Entry.preview "" d' s.source.provenance sourceId).stamped (s.stamp v))
      (entry : s.store.run (.createEntry (.preview "" d' s.source.provenance sourceId)) (s.stamp v) v.store =
        (.ok e, v'.store))
      (calls : v.calls = w.calls + 1) (calls' : v'.calls = w.calls + 2)
      (rest : Creates s sourceId ds v' es w') : Creates s sourceId (d :: ds) w (e :: es) w'

theorem Creates.of_still {ds : List Dataset} {es : List Entry} {v : World σ} (h : s.Creates sourceId ds v es w')
    (store : v.store = w.store) (calls : v.calls = w.calls) : s.Creates sourceId ds w es w' := by
  have stamp : s.stamp v = s.stamp w := by rw [Service.stamp, Service.stamp, calls]
  cases h with
  | nil store' calls' => exact .nil (store'.trans store) (calls'.trans calls)
  | cons stored dataset shown entry next next' rest =>
    exact .cons (stamp ▸ stored) (by rw [← stamp, ← store]; exact dataset) shown entry (calls ▸ next) (calls ▸ next')
      rest

/-- How the creation of datasets ends: it goes through, or it stops at a dataset or at an entry that the store
    does not take, with the datasets before it created. -/
inductive Creation (s : Service σ) (sourceId : String) (ds : List Dataset) (w : World σ) :
    Except Failure (List Entry) → World σ → Prop
  | all {es : List Entry} {w' : World σ} (created : s.Creates sourceId ds w es w') :
      Creation s sourceId ds w (.ok es) w'
  | atDataset {front back : List Dataset} {d : Dataset} {es : List Entry} {v w' : World σ} {e : StoreError}
      (split : ds = front ++ d :: back) (created : s.Creates sourceId front w es v)
      (failed : s.call (.createDataset d) v = (.error e, w')) :
      Creation s sourceId ds w (.error (datasetUnsaved e)) w'
  | atEntry {front back : List Dataset} {d d' : Dataset} {es : List Entry} {v v' w' : World σ} {e : StoreError}
      (split : ds = front ++ d :: back) (created : s.Creates sourceId front w es v)
      (stored : s.call (.createDataset d) v = (.ok d', v'))
      (failed : s.call (.createEntry (.preview "" d' s.source.provenance sourceId)) v' = (.error e, w')) :
      Creation s sourceId ds w (.error (entryUnsaved e)) w'

/-- How an ingest ends. Nothing is asked of the store unless there are datasets, and then they are created. -/
inductive Ingested (s : Service σ) (sourceId : String) (w : World σ) : Except Failure (List Entry) → World σ → Prop
  | unset {f : Failure} (invalid : s.settings.range = .error f) : Ingested s sourceId w (.error f) w
  | unlisted {range : CellRange} {e : SourceError} (valid : s.settings.range = .ok range)
      (failed : s.source.sheets sourceId = .error e) : Ingested s sourceId w (.error (documentUnreadable sourceId e)) w
  | empty {range : CellRange} {w' : World σ} (valid : s.settings.range = .ok range)
      (listed : s.source.sheets sourceId = .ok []) (store : w'.store = w.store) (calls : w'.calls = w.calls) :
      Ingested s sourceId w (.ok []) w'
  | unread {range : CellRange} {sheets : List Sheet} {sheet : Sheet} {e : SourceError} {w' : World σ}
      (valid : s.settings.range = .ok range) (listed : s.source.sheets sourceId = .ok sheets) (mem : sheet ∈ sheets)
      (grid : sheet.isGrid) (failed : s.source.readGrid sourceId sheet.title range = .error e)
      (store : w'.store = w.store) (calls : w'.calls = w.calls) :
      Ingested s sourceId w (.error (sheetUnreadable sheet.title e)) w'
  | valueless {range : CellRange} {sheets : List Sheet} {w' : World σ} (valid : s.settings.range = .ok range)
      (listed : s.source.sheets sourceId = .ok sheets) (sheeted : sheets ≠ [])
      (none : sheets.filterMap (s.datasetOf sourceId range) = []) (store : w'.store = w.store)
      (calls : w'.calls = w.calls) : Ingested s sourceId w (.error noValues) w'
  | created {range : CellRange} {sheets : List Sheet} {r : Except Failure (List Entry)} {v w' : World σ}
      (valid : s.settings.range = .ok range) (listed : s.source.sheets sourceId = .ok sheets)
      (some : sheets.filterMap (s.datasetOf sourceId range) ≠ []) (store : v.store = w.store) (calls : v.calls = w.calls)
      (creation : s.Creation sourceId (sheets.filterMap (s.datasetOf sourceId range)) v r w') :
      Ingested s sourceId w r w'

/-- A sheet that has been read gives its dataset; it is not read only if its grid is not. -/
theorem build_inv {sheet : Sheet} {r : Except Failure (Option Dataset)} (h : s.build sourceId range sheet w = (r, w')) :
    r = .ok (s.datasetOf sourceId range sheet) ∨
      ∃ e, sheet.isGrid ∧ s.source.readGrid sourceId sheet.title range = .error e ∧
        r = .error (sheetUnreadable sheet.title e) := by
  unfold build at h
  unfold datasetOf
  split at h
  · rename_i grid
    rw [if_pos grid]
    rcases hread : s.source.readGrid sourceId sheet.title range with e | rows <;> simp only [hread] at h
    · exact Or.inr ⟨e, grid, rfl, (Task.throw_inv h).1⟩
    left
    rcases hbuilt : Dataset.ofGrid? s.settings.inference sheet.title s.settings.ingest.userId rows with _ | d <;>
      simp only [hbuilt] at h
    · obtain ⟨v, -, -, h⟩ := report_bind_inv h
      rw [(Task.pure_inv h).1]
      exact congrArg Except.ok hbuilt.symm
    · obtain ⟨f, h₁, -⟩ | ⟨_, v, -, h⟩ := Task.bind_inv h
      · cases reportColumns_ok h₁
      rw [(Task.pure_inv h).1]
      exact congrArg Except.ok hbuilt.symm
  · rename_i other
    rw [if_neg other]
    obtain ⟨v, -, -, h⟩ := report_bind_inv h
    exact Or.inl (Task.pure_inv h).1

theorem mapM_build_inv {sheets : List Sheet} {r : Except Failure (List (Option Dataset))} {w w' : World σ}
    (h : sheets.mapM (s.build sourceId range) w = (r, w')) :
    r = .ok (sheets.map (s.datasetOf sourceId range)) ∨
      ∃ sheet ∈ sheets, ∃ e, sheet.isGrid ∧ s.source.readGrid sourceId sheet.title range = .error e ∧
        r = .error (sheetUnreadable sheet.title e) := by
  induction sheets generalizing w w' r with
  | nil =>
    cases h
    exact Or.inl rfl
  | cons sheet sheets ih =>
    rw [List.mapM_cons] at h
    obtain ⟨f, h₁, rfl⟩ | ⟨o, v, h₁, h⟩ := Task.bind_inv h
    · obtain hr | ⟨e, grid, failed, hr⟩ := build_inv h₁ <;> cases hr
      exact Or.inr ⟨sheet, List.mem_cons_self, e, grid, failed, rfl⟩
    obtain ho | ⟨e, -, -, ho⟩ := build_inv h₁ <;> cases ho
    obtain ⟨f, h₂, rfl⟩ | ⟨os, v', h₂, h⟩ := Task.bind_inv h
    · obtain hr | ⟨sheet', mem, e, grid, failed, hr⟩ := ih h₂ <;> cases hr
      exact Or.inr ⟨sheet', List.mem_cons_of_mem _ mem, e, grid, failed, rfl⟩
    obtain hos | ⟨_, _, e, -, -, hos⟩ := ih h₂ <;> cases hos
    exact Or.inl (Task.pure_inv h).1

/-- A dataset that has been created is followed by whatever is created next. -/
theorem create_ok_inv (stamps : s.store.Stamps) {d : Dataset} {e : Entry} (h : s.create sourceId d w = (.ok e, w'))
    {ds : List Dataset} {es : List Entry} {w'' : World σ} (rest : s.Creates sourceId ds w' es w'') :
    s.Creates sourceId (d :: ds) w (e :: es) w'' := by
  unfold create at h
  obtain ⟨f, -, hr⟩ | ⟨d', v, h₁, h⟩ := Task.bind_inv h
  · cases hr
  obtain ⟨dataset, calls⟩ := callOr_ok_inv h₁
  obtain ⟨f, -, hr⟩ | ⟨e', v', h₂, h⟩ := Task.bind_inv h
  · cases hr
  obtain ⟨entry, calls'⟩ := callOr_ok_inv h₂
  obtain ⟨u, hu, hn, h⟩ := report_bind_inv h
  obtain ⟨he, rfl⟩ := Task.pure_inv h
  cases he
  exact .cons (stamps.dataset dataset) dataset (stamps.entry entry) (hu.symm ▸ entry) calls (by omega) rest

/-- A creation that fails does so at the dataset or at its entry. -/
theorem create_error_inv {d : Dataset} {f : Failure} (h : s.create sourceId d w = (.error f, w')) :
    (∃ e, f = datasetUnsaved e ∧ s.call (.createDataset d) w = (.error e, w')) ∨
      ∃ d' v e, f = entryUnsaved e ∧ s.call (.createDataset d) w = (.ok d', v) ∧
        s.call (.createEntry (.preview "" d' s.source.provenance sourceId)) v = (.error e, w') := by
  unfold create at h
  obtain ⟨f', h₁, hr⟩ | ⟨d', v, h₁, h⟩ := Task.bind_inv h
  · cases hr
    obtain ⟨e, rfl, failed⟩ := callOr_error_inv h₁
    exact Or.inl ⟨e, rfl, failed⟩
  obtain ⟨f', h₂, hr⟩ | ⟨e', v', h₂, h⟩ := Task.bind_inv h
  · cases hr
    obtain ⟨e, rfl, failed⟩ := callOr_error_inv h₂
    exact Or.inr ⟨d', v, e, rfl, callOr_ok_call h₁, failed⟩
  obtain ⟨u, -, -, h⟩ := report_bind_inv h
  cases (Task.pure_inv h).1

theorem mapM_create_inv (stamps : s.store.Stamps) {ds : List Dataset} {r : Except Failure (List Entry)} {w : World σ}
    (h : ds.mapM (s.create sourceId) w = (r, w')) : s.Creation sourceId ds w r w' := by
  induction ds generalizing w r with
  | nil =>
    cases h
    exact .all (.nil rfl rfl)
  | cons d ds ih =>
    rw [List.mapM_cons] at h
    obtain ⟨f, h₁, rfl⟩ | ⟨e, v, h₁, h⟩ := Task.bind_inv h
    · obtain ⟨e, rfl, failed⟩ | ⟨d', v, e, rfl, stored, failed⟩ := create_error_inv h₁
      · exact .atDataset (show d :: ds = [] ++ d :: ds from rfl) (.nil rfl rfl) failed
      · exact .atEntry (show d :: ds = [] ++ d :: ds from rfl) (.nil rfl rfl) stored failed
    obtain ⟨r', h₂, rfl⟩ := Task.map_inv h
    -- What has been created before the rest stays in front of it.
    cases ih h₂ with
    | all created => exact .all (create_ok_inv stamps h₁ created)
    | atDataset split created failed =>
      rw [split]
      exact .atDataset (List.cons_append ..).symm (create_ok_inv stamps h₁ created) failed
    | atEntry split created stored failed =>
      rw [split]
      exact .atEntry (List.cons_append ..).symm (create_ok_inv stamps h₁ created) stored failed

theorem ingest_inv (stamps : s.store.Stamps) {r : Except Failure (List Entry)} (h : s.ingest sourceId w = (r, w')) :
    s.Ingested sourceId w r w' := by
  unfold ingest at h
  rcases valid : s.settings.range with f | range <;> simp only [valid] at h
  · obtain ⟨rfl, rfl⟩ := Task.throw_inv h
    exact .unset valid
  rcases listed : s.source.sheets sourceId with e | _ | ⟨sheet, sheets⟩ <;> simp only [listed] at h
  · obtain ⟨rfl, rfl⟩ := Task.throw_inv h
    exact .unlisted valid listed
  · obtain ⟨v, hv, hn, h⟩ := report_bind_inv h
    obtain ⟨rfl, rfl⟩ := Task.pure_inv h
    exact .empty valid listed hv hn
  have still := Task.Quiet.mapM (build_quiet s sourceId range) (sheet :: sheets) w
  obtain ⟨f, h₁, rfl⟩ | ⟨os, v, h₁, h⟩ := Task.bind_inv h
  · obtain hr | ⟨sheet', mem, e, grid, failed, hr⟩ := mapM_build_inv h₁ <;> cases hr
    exact .unread valid listed mem grid failed (still _ _ h₁).1 (still _ _ h₁).2
  obtain hos | ⟨_, _, e, -, -, hos⟩ := mapM_build_inv h₁ <;> cases hos
  have built : ((sheet :: sheets).map (s.datasetOf sourceId range)).filterMap id =
      (sheet :: sheets).filterMap (s.datasetOf sourceId range) := by
    rw [List.filterMap_map]
    rfl
  obtain ⟨hv, hn⟩ := still _ _ h₁
  rw [built] at h
  rcases hds : (sheet :: sheets).filterMap (s.datasetOf sourceId range) with _ | ⟨d, ds⟩ <;> simp only [hds] at h
  · obtain ⟨rfl, rfl⟩ := Task.throw_inv h
    exact .valueless valid listed (List.cons_ne_nil _ _) hds hv hn
  · exact .created valid listed (by simp [hds]) hv hn (hds ▸ mapM_create_inv stamps h)

/-- An ingest that succeeds creates the datasets of the sheets, in their order. -/
theorem ingest_creates (stamps : s.store.Stamps) (valid : s.settings.range = .ok range) {sheets : List Sheet}
    (listed : s.source.sheets sourceId = .ok sheets) {es : List Entry} (h : s.ingest sourceId w = (.ok es, w')) :
    s.Creates sourceId (sheets.filterMap (s.datasetOf sourceId range)) w es w' := by
  cases ingest_inv stamps h with
  | empty _ listed' store calls =>
    cases listed.symm.trans listed'
    exact .nil store calls
  | created valid' listed' _ store calls creation =>
    cases listed.symm.trans listed'
    cases valid.symm.trans valid'
    cases creation with
    | all created => exact created.of_still store calls

end Service

end GridCatalog
