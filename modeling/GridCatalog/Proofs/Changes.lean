import GridCatalog.Proofs.Additions
import GridCatalog.Source.Memory

/-! What a request may change in a store in memory.

    Nothing is undone when a call of the store fails, so a request that fails can leave part of its work behind. The
    order of the writes says which part: an approval writes the dataset before the entry, and an ingest creates each
    dataset before its entry (`changes_confined`). -/

namespace GridCatalog

namespace Memory
variable {m m' m'' : Memory}

/-- Datasets are stored under their own ids. -/
def DatasetsKeyed (m : Memory) : Prop := ∀ {id d}, m.datasets.get? id = some d → d.id = id

/-- Both stores have records under the same ids in the same order, and the records are the same but for the datasets
    and the entries with the given ids. -/
structure SameBut (datasets entries : List String) (m m' : Memory) : Prop where
  datasetKeys : m'.datasets.keys = m.datasets.keys
  entryKeys : m'.entries.keys = m.entries.keys
  dataset : ∀ id ∉ datasets, m'.datasets.get? id = m.datasets.get? id
  entry : ∀ id ∉ entries, m'.entries.get? id = m.entries.get? id

namespace SameBut
variable {ds es ds' es' : List String}

theorem refl (ds es : List String) (m : Memory) : m.SameBut ds es m :=
  ⟨rfl, rfl, fun _ _ => rfl, fun _ _ => rfl⟩

theorem trans (h : m.SameBut ds es m') (h' : m'.SameBut ds' es' m'') : m.SameBut (ds ++ ds') (es ++ es') m'' where
  datasetKeys := h'.datasetKeys.trans h.datasetKeys
  entryKeys := h'.entryKeys.trans h.entryKeys
  dataset id hid := by
    rw [List.mem_append, not_or] at hid
    exact (h'.dataset id hid.2).trans (h.dataset id hid.1)
  entry id hid := by
    rw [List.mem_append, not_or] at hid
    exact (h'.entry id hid.2).trans (h.entry id hid.1)

theorem insertDataset {d old : Dataset} (stored : m.datasets.get? d.id = some old) :
    m.SameBut [d.id] [] (m.insertDataset d) where
  datasetKeys := Table.keys_insert_of_mem (Table.mem_keys_of_get? stored) d
  entryKeys := rfl
  dataset id hid := by
    rw [get?_insertDataset, if_neg (List.ne_of_not_mem_cons hid)]
  entry _ _ := rfl

theorem insertEntry {e old : Entry} (stored : m.entries.get? e.id = some old) :
    m.SameBut [] [e.id] (m.insertEntry e) where
  datasetKeys := rfl
  entryKeys := Table.keys_insert_of_mem (Table.mem_keys_of_get? stored) e
  dataset _ _ := rfl
  entry id hid := by
    rw [get?_insertEntry, if_neg (List.ne_of_not_mem_cons hid)]

end SameBut

end Memory

theorem Settings.reason_of_range {s : Settings} {f : Failure} (h : s.range = .error f) : f.reason = "config-error" := by
  unfold range at h
  dsimp only at h
  split at h <;> cases h
  rfl

namespace Service
variable {s : Service Memory} {w w' : World Memory} {sourceId : String}

/-- An ingest ends with the write of a dataset that fails, after a number of datasets and their entries have been
    written. -/
def EndsAtDataset (s : Service Memory) (sourceId : String) (w : World Memory) (n : Nat) (w' : World Memory) : Prop :=
  ∃ ds es v d e, s.Creates sourceId ds w es v ∧ ds.length = n ∧ s.call (.createDataset d) v = (.error e, w')

/-- An ingest ends with the write of an entry that fails, after a number of datasets and their entries and one more
    dataset have been written. -/
def EndsAtEntry (s : Service Memory) (sourceId : String) (w : World Memory) (n : Nat) (w' : World Memory) : Prop :=
  ∃ ds es v d d' v' e, s.Creates sourceId ds w es v ∧ ds.length = n ∧ s.call (.createDataset d) v = (.ok d', v') ∧
    s.call (.createEntry (.preview "" d' s.source.provenance sourceId)) v' = (.error e, w')

/-! ### Archiving and approving -/

theorem archive_changes (hs : s.store = Memory.store) (keyed : w.store.EntriesKeyed) {id : String}
    {o : Except Failure Entry} (h : s.archive id w = (o, w')) :
    w.store.SameBut [] [id] w'.store ∧ ∀ f, o = .error f → w'.store = w.store := by
  have event := archive_event hs h
  generalize ho : o.map Answer.entry = answer at event
  cases event with
  | quiet _ _ store => exact ⟨store ▸ .refl _ _ _, fun _ _ => store⟩
  | @archived _ _ _ _ _ e e' entry _ written store =>
    have former : e.id = id := keyed entry
    have hid : e'.id = id := by
      rw [written]
      exact former
    refine ⟨?_, fun f hf => by cases hf ▸ ho⟩
    rw [store, ← hid]
    exact .insertEntry (hid ▸ entry)

theorem approve_changes (hs : s.store = Memory.store) (entries : w.store.EntriesKeyed)
    (datasets : w.store.DatasetsKeyed) {id : String} {a : Approval} {o : Except Failure Entry}
    (h : s.approve id a w = (o, w')) :
    (∀ f, o = .error f → f.reason ≠ "metadata-write" → w'.store = w.store) ∧
    (∀ f, o = .error f → f.reason = "metadata-write" → ∃ e d t, w.store.Holds id e d ∧
      w.store.SameBut [e.datasetId] [] w'.store ∧
      w'.store.datasets.get? e.datasetId = some ((d.approved a e).touched t)) ∧
    (∀ e', o = .ok e' → ∃ e d t, w.store.Holds id e d ∧ w.store.SameBut [e.datasetId] [id] w'.store ∧
      w'.store.Holds id e' ((d.approved a e).touched t)) := by
  obtain ⟨-, ⟨f, rfl, other, store⟩ | ⟨e, d, t, entry, dataset, ended⟩⟩ := approve_inv hs h
  · refine ⟨fun _ _ _ => store, ?_, by rintro _ ⟨⟩⟩
    rintro _ ⟨⟩ reason
    exact absurd reason other
  have datasetId : d.id = e.datasetId := datasets dataset
  have stored : w.store.datasets.get? ((d.approved a e).touched t).id = some d := datasetId ▸ dataset
  have written : w.store.SameBut [e.datasetId] [] (w.store.insertDataset ((d.approved a e).touched t)) :=
    datasetId ▸ .insertDataset stored
  have found : (w.store.insertDataset ((d.approved a e).touched t)).datasets.get? e.datasetId =
      some ((d.approved a e).touched t) := datasetId ▸ Memory.get?_insertDataset_self _
  obtain ⟨err, rfl, store⟩ | ⟨e', t', rfl, he', store⟩ := ended
  · refine ⟨?_, fun _ _ _ => ⟨e, d, t, ⟨entry, dataset⟩, store ▸ written, store ▸ found⟩, by rintro _ ⟨⟩⟩
    rintro _ ⟨⟩ other
    exact absurd rfl other
  · refine ⟨by rintro _ ⟨⟩, by rintro _ ⟨⟩, ?_⟩
    rintro _ ⟨⟩
    have former : e.id = id := entries entry
    have hid : e'.id = id := by
      rw [he']
      exact former
    have rewritten := written.trans (.insertEntry (e := e') (hid ▸ entry))
    refine ⟨e, d, t, ⟨entry, dataset⟩, store ▸ hid ▸ rewritten, ?_, ?_⟩
    · rw [store, Memory.get?_insertEntry, if_pos hid.symm]
    · rw [store, he']
      exact Memory.get?_insertDataset_self _

/-! ### Ingesting -/

/-- An ingest that fails has stored nothing, or it has stored everything up to the write that failed. -/
theorem ingest_failed (hs : s.store = Memory.store) (unused : s.surroundings.Unused w.store w.calls) {f : Failure}
    (h : s.ingest sourceId w = (.error f, w')) :
    (f.reason ∈ ["config-error", "source-unavailable", "no-values"] ∧ w'.store = w.store) ∨
    (f.reason = "dataset-write" ∧ ∃ added, w.store.Gains added [] w'.store ∧
      s.EndsAtDataset sourceId w added.length w') ∨
    (f.reason = "metadata-write" ∧ ∃ added d, w.store.Gains added [d] w'.store ∧
      s.EndsAtEntry sourceId w added.length w') := by
  cases ingest_inv (hs ▸ Memory.store_stamps) h with
  | unset invalid =>
    refine Or.inl ⟨?_, rfl⟩
    rw [Settings.reason_of_range invalid]
    exact List.mem_cons_self
  | unlisted => exact Or.inl ⟨by simp [documentUnreadable, Failure.reason], rfl⟩
  | unread _ _ _ _ _ store _ => exact Or.inl ⟨by simp [sheetUnreadable, Failure.reason], store⟩
  | valueless _ _ _ _ store _ => exact Or.inl ⟨by simp [noValues, Failure.reason], store⟩
  | created _ _ _ store calls creation =>
    cases creation with
    | atDataset _ created failed =>
      have created := created.of_still store calls
      obtain ⟨-, added, stores, -, gains⟩ := created.gains hs unused
      obtain ⟨-, ⟨_, -, same⟩ | ⟨_, hok, -⟩⟩ := call_inv hs failed
      · exact Or.inr (Or.inl ⟨rfl, added, same ▸ gains, _, _, _, _, _, created, stores.length_eq, failed⟩)
      · cases hok
    | @atEntry _ _ d d' _ v v' _ _ _ created stored failed =>
      have created := created.of_still store calls
      obtain ⟨fresh, added, stores, -, gains⟩ := created.gains hs unused
      obtain ⟨-, ⟨_, herror, -⟩ | ⟨_, hx, run⟩⟩ := call_inv hs stored
      · cases herror
      cases hx
      obtain ⟨rfl, hv'⟩ := Memory.run_createDataset run
      have last := Memory.Gains.dataset (d := d.stamped (s.surroundings.stamp v.calls))
        (fresh.dataset _ (Nat.le_refl _))
      have all := gains.append last
      rw [List.append_nil, ← hv'] at all
      obtain ⟨-, ⟨_, -, same⟩ | ⟨_, hok, -⟩⟩ := call_inv hs failed
      · exact Or.inr (Or.inr
          ⟨rfl, added, _, same ▸ all, _, _, _, _, _, _, _, created, stores.length_eq, stored, failed⟩)
      · cases hok

/-- Whatever becomes of an ingest, the store has only gained records. -/
theorem ingest_gains (hs : s.store = Memory.store) (unused : s.surroundings.Unused w.store w.calls)
    {o : Except Failure (List Entry)} (h : s.ingest sourceId w = (o, w')) :
    ∃ added alone, w.store.Gains added alone w'.store := by
  cases o with
  | error f =>
    obtain ⟨-, store⟩ | ⟨-, added, gains, -⟩ | ⟨-, added, d, gains, -⟩ := ingest_failed hs unused h
    · exact ⟨[], [], store ▸ .nothing _⟩
    · exact ⟨added, [], gains⟩
    · exact ⟨added, [d], gains⟩
  | ok es =>
    cases ingest_inv (hs ▸ Memory.store_stamps) h with
    | empty _ _ store => exact ⟨[], [], store ▸ .nothing _⟩
    | created _ _ _ store calls creation =>
      cases creation with
      | all created =>
        obtain ⟨-, added, -, -, gains⟩ := (created.of_still store calls).gains hs unused
        exact ⟨added, [], gains⟩

/-! ### All requests -/

/-- What requests change, whichever calls of the store fail: reading changes nothing; an archiving changes its entry
    or nothing; an approval changes its entry and the dataset of that, or only the dataset if the write of the entry
    fails, or nothing; an ingest changes nothing that was stored, and what it has added when it fails are the records
    whose writes came before the one that failed. -/
theorem changes_confined (hs : s.store = Memory.store) (entries : w.store.EntriesKeyed)
    (datasets : w.store.DatasetsKeyed) (unused : s.surroundings.Unused w.store w.calls) :
    (∀ id o w', s.entry id w = (o, w') → w'.store = w.store) ∧
    (∀ after limit o w', s.list after limit w = (o, w') → w'.store = w.store) ∧
    (∀ id skip limit o w', s.read id skip limit w = (o, w') → w'.store = w.store) ∧
    (∀ id o w', s.archive id w = (o, w') →
      w.store.SameBut [] [id] w'.store ∧ ∀ f, o = .error f → w'.store = w.store) ∧
    (∀ id a o w', s.approve id a w = (o, w') →
      (∀ f, o = .error f → f.reason ≠ "metadata-write" → w'.store = w.store) ∧
      (∀ f, o = .error f → f.reason = "metadata-write" → ∃ e d t, w.store.Holds id e d ∧
        w.store.SameBut [e.datasetId] [] w'.store ∧
        w'.store.datasets.get? e.datasetId = some ((d.approved a e).touched t)) ∧
      (∀ e', o = .ok e' → ∃ e d t, w.store.Holds id e d ∧ w.store.SameBut [e.datasetId] [id] w'.store ∧
        w'.store.Holds id e' ((d.approved a e).touched t))) ∧
    (∀ sourceId o w', s.ingest sourceId w = (o, w') →
      (∀ id d, w.store.datasets.get? id = some d → w'.store.datasets.get? id = some d) ∧
      (∀ id e, w.store.entries.get? id = some e → w'.store.entries.get? id = some e) ∧
      ∀ f, o = .error f →
        (f.reason ∈ ["config-error", "source-unavailable", "no-values"] ∧ w'.store = w.store) ∨
        (f.reason = "dataset-write" ∧ ∃ added, w.store.Gains added [] w'.store ∧
          s.EndsAtDataset sourceId w added.length w') ∨
        (f.reason = "metadata-write" ∧ ∃ added d, w.store.Gains added [d] w'.store ∧
          s.EndsAtEntry sourceId w added.length w')) := by
  refine ⟨fun id o w' h => (entry_inv hs h).1, fun after limit o w' h => (list_inv hs h).1,
    fun id skip limit o w' h => ?_, fun id o w' h => archive_changes hs entries h,
    fun id a o w' h => approve_changes hs entries datasets h, fun sourceId o w' h => ?_⟩
  · obtain ⟨r, h, -⟩ := Task.map_inv h
    exact (entryAndDataset_inv hs h).1
  · obtain ⟨added, alone, gains⟩ := ingest_gains hs unused h
    refine ⟨gains.kept.1, gains.kept.2, ?_⟩
    rintro f rfl
    exact ingest_failed hs unused h

/-- The reason of a failure, if an outcome is one. -/
def reasonOf? {α : Type} : Except Failure α → Option String
  | .error f => some f.reason
  | .ok _ => none

/-- The last call of an ingest of two sheets, the write of the second entry, fails, and so does the last call of an
    approval. -/
theorem changes_confined_halfway :
    let u := Surroundings.counting [5]
    let library := ((Library.empty .uploadedFile).addSheet "d" ⟨"towns", true⟩ [["town"], ["Rome"]]).addSheet "d"
      ⟨"lands", true⟩ [["land"], ["Italy"]]
    let s : Service Memory := ⟨Memory.store, library.toSource, .default, u⟩
    let w := World.reached u [.ofRequest (.ingest "list")]
    let a : Approval := ⟨"towns", [⟨1, 0, "town", 0, false⟩]⟩
    w.store.EntriesKeyed ∧ w.store.DatasetsKeyed ∧ s.surroundings.Unused w.store w.calls ∧
      (∃ f w', s.ingest "d" w = (.error f, w') ∧ f.reason = "metadata-write" ∧ ∃ added d,
        w.store.Gains added [d] w'.store ∧ s.EndsAtEntry "d" w added.length w' ∧ added.length = 1) ∧
      ∃ f w' e d t, s.approve "ii" a w = (.error f, w') ∧ f.reason = "metadata-write" ∧ w.store.Holds "ii" e d ∧
        w.store.SameBut [e.datasetId] [] w'.store ∧
        w'.store.datasets.get? e.datasetId = some ((d.approved a e).touched t) := by
  intro u library s w a
  have sound : World.Sound u w := .reached (Surroundings.counting_injective [5]) _
  have unused : s.surroundings.Unused w.store w.calls := sound.issued.unused (Surroundings.counting_injective [5])
  obtain ⟨-, -, -, -, approves, ingests⟩ :=
    changes_confined (s := s) (w := w) rfl sound.refs.entryKeyed sound.refs.datasetKeyed unused
  refine ⟨sound.refs.entryKeyed, sound.refs.datasetKeyed, unused, ?_, ?_⟩
  · have reason : reasonOf? (s.ingest "d" w).1 = some "metadata-write" := by decide +kernel
    have size : (s.ingest "d" w).2.store.entries.rows.length = w.store.entries.rows.length + 1 := by decide +kernel
    rcases h : s.ingest "d" w with ⟨f | es, w'⟩ <;> rw [h] at reason size
    · replace reason : f.reason = "metadata-write" := Option.some.inj reason
      have ends := (ingests "d" _ w' h).2.2 f rfl
      rw [reason] at ends
      obtain ⟨hf, -⟩ | ⟨hf, -⟩ | ⟨-, added, d, gains, ends⟩ := ends
      · exact absurd hf (by decide)
      · exact absurd hf (by decide)
      · rw [gains.entries, List.length_append, List.length_map] at size
        exact ⟨f, w', rfl, reason, added, d, gains, ends, by omega⟩
    · cases reason
  · have reason : reasonOf? (s.approve "ii" a w).1 = some "metadata-write" := by decide +kernel
    rcases h : s.approve "ii" a w with ⟨f | e', w'⟩ <;> rw [h] at reason
    · replace reason : f.reason = "metadata-write" := Option.some.inj reason
      obtain ⟨e, d, t, holds, same, found⟩ := (approves "ii" a _ w' h).2.1 f rfl reason
      exact ⟨f, w', e, d, t, rfl, reason, holds, same, found⟩
    · cases reason

end Service

end GridCatalog
