import Mathlib.Data.List.Forall2
import GridCatalog.Proofs.Durability
import GridCatalog.Proofs.Ingest

/-! What an ingest adds to a store in memory.

    What is created comes to stand behind the records that are stored, under ids that were not in use. So nothing
    that was stored is changed, and what is found under the new ids is what was created (`Memory.Gains`,
    `Creates.gains`). -/

namespace GridCatalog

/-- The fresh ids of the calls from a number on are not in use: no record is stored under one of them, and none of
    them comes twice. -/
structure Surroundings.Unused (u : Surroundings) (m : Memory) (calls : Nat) : Prop where
  dataset : ∀ n, calls ≤ n → m.datasets.get? (u.freshId n) = none
  entry : ∀ n, calls ≤ n → m.entries.get? (u.freshId n) = none
  distinct : ∀ n k, calls ≤ n → n < k → u.freshId n ≠ u.freshId k

/-- As long as fresh ids do not repeat, those of the calls to come are not in use. -/
theorem Issued.unused {u : Surroundings} {m : Memory} {calls : Nat} (h : Issued u m calls)
    (hu : Function.Injective u.freshId) : u.Unused m calls where
  dataset _ hn := h.fresh_dataset hu hn
  entry n hn := by
    rcases he : m.entries.get? (u.freshId n) with _ | e
    · rfl
    · obtain ⟨k, hk, heq⟩ := h.entry he
      have := hu heq
      omega
  distinct n k _ hnk := fun heq => by
    have := hu heq
    omega

namespace Memory
variable {m m' m'' : Memory}

/-- The second store has, behind the records of the first one, datasets with their entries, and then datasets
    without an entry. -/
structure Gains (m : Memory) (added : List (Dataset × Entry)) (alone : List Dataset) (m' : Memory) : Prop where
  datasets : m'.datasets.rows = m.datasets.rows ++ (added.map Prod.fst ++ alone).map fun d => (d.id, d)
  entries : m'.entries.rows = m.entries.rows ++ added.map fun p => (p.2.id, p.2)
  shown : ∀ p ∈ added, p.2.datasetId = p.1.id

namespace Gains
variable {added added' : List (Dataset × Entry)} {alone : List Dataset} {d : Dataset} {e : Entry}

theorem nothing (m : Memory) : m.Gains [] [] m where
  datasets := (List.append_nil _).symm
  entries := (List.append_nil _).symm
  shown _ h := absurd h List.not_mem_nil

theorem dataset (new : m.datasets.get? d.id = none) : m.Gains [] [d] (m.insertDataset d) where
  datasets := Table.rows_insert_of_notMem (Table.get?_eq_none_iff.mp new) d
  entries := (List.append_nil _).symm
  shown _ h := absurd h List.not_mem_nil

theorem pair (newDataset : m.datasets.get? d.id = none) (newEntry : m.entries.get? e.id = none)
    (shown : e.datasetId = d.id) : m.Gains [(d, e)] [] ((m.insertDataset d).insertEntry e) where
  datasets := Table.rows_insert_of_notMem (Table.get?_eq_none_iff.mp newDataset) d
  entries := Table.rows_insert_of_notMem (Table.get?_eq_none_iff.mp newEntry) e
  shown p h := by
    cases List.mem_singleton.mp h
    exact shown

theorem append (h : m.Gains added [] m') (h' : m'.Gains added' alone m'') : m.Gains (added ++ added') alone m'' where
  datasets := by rw [h'.datasets, h.datasets]; simp
  entries := by rw [h'.entries, h.entries]; simp
  shown p hp := (List.mem_append.mp hp).elim (h.shown p) (h'.shown p)

/-- Nothing that was stored is changed. -/
theorem kept (h : m.Gains added alone m') :
    (∀ id d, m.datasets.get? id = some d → m'.datasets.get? id = some d) ∧
      ∀ id e, m.entries.get? id = some e → m'.entries.get? id = some e := by
  constructor
  · intro id d hd
    rw [← Table.mem_rows, h.datasets]
    exact List.mem_append_left _ (Table.mem_rows.mpr hd)
  · intro id e he
    rw [← Table.mem_rows, h.entries]
    exact List.mem_append_left _ (Table.mem_rows.mpr he)

/-- A new entry is found under its id, and its dataset under the id that it refers to. -/
theorem holds (h : m.Gains added alone m') {p : Dataset × Entry} (hp : p ∈ added) : m'.Holds p.2.id p.2 p.1 where
  entry := by
    rw [← Table.mem_rows, h.entries]
    exact List.mem_append_right _ (List.mem_map_of_mem hp)
  dataset := by
    rw [← Table.mem_rows, h.datasets, h.shown p hp]
    refine List.mem_append_right _ (List.mem_map_of_mem (f := fun d : Dataset => (d.id, d)) ?_)
    exact List.mem_append_left _ (List.mem_map_of_mem hp)

end Gains

end Memory

namespace Service
variable {s : Service Memory} {w w' : World Memory} {sourceId : String}

/-- The dataset and the entry are those that are stored of a dataset which has been read. -/
def Stores (s : Service Memory) (sourceId : String) (d : Dataset) (p : Dataset × Entry) : Prop :=
  ∃ st st', p.1 = d.stamped st ∧ p.2 = (Entry.preview "" p.1 s.source.provenance sourceId).stamped st'

/-- After the creation of a dataset and its entry, the fresh ids of the later calls are still not in use. -/
theorem unused_pair (unused : s.surroundings.Unused w.store w.calls) {d : Dataset} {e : Entry}
    (dataset : d.id = s.surroundings.freshId w.calls) (entry : e.id = s.surroundings.freshId (w.calls + 1)) :
    s.surroundings.Unused ((w.store.insertDataset d).insertEntry e) (w.calls + 2) where
  dataset n hn := by
    have other : s.surroundings.freshId n ≠ d.id := dataset ▸ (unused.distinct _ _ (Nat.le_refl _) (by omega)).symm
    rw [show ((w.store.insertDataset d).insertEntry e).datasets = (w.store.insertDataset d).datasets from rfl,
      Memory.get?_insertDataset, if_neg other]
    exact unused.dataset n (by omega)
  entry n hn := by
    have other : s.surroundings.freshId n ≠ e.id :=
      entry ▸ (unused.distinct _ _ (Nat.le_succ _) (by omega)).symm
    rw [Memory.get?_insertEntry, if_neg other]
    exact unused.entry n (by omega)
  distinct n k hn := unused.distinct n k (by omega)

/-- Datasets that have been created are stored with their entries, behind everything else. -/
theorem Creates.gains (hs : s.store = Memory.store) {ds : List Dataset} {es : List Entry}
    (unused : s.surroundings.Unused w.store w.calls) (h : s.Creates sourceId ds w es w') :
    s.surroundings.Unused w'.store w'.calls ∧ ∃ added, List.Forall₂ (s.Stores sourceId) ds added ∧
      added.map Prod.snd = es ∧ w.store.Gains added [] w'.store := by
  induction h with
  | nil store calls => exact ⟨store ▸ calls ▸ unused, [], .nil, rfl, store ▸ .nothing _⟩
  | @cons d d' ds e es w v v' w' stored dataset shown entry calls calls' rest ih =>
    simp only [hs, Memory.store] at dataset entry
    have store : v'.store = (w.store.insertDataset d').insertEntry e := by
      rw [(Memory.run_createEntry entry).2, (Memory.run_createDataset dataset).2]
    have datasetId : d'.id = s.surroundings.freshId w.calls := by
      rw [stored]
      rfl
    have entryId : e.id = s.surroundings.freshId (w.calls + 1) := by
      rw [shown, ← calls]
      rfl
    have first : w.store.Gains [(d', e)] [] v'.store := by
      rw [store]
      refine .pair (datasetId ▸ unused.dataset _ (Nat.le_refl _)) (entryId ▸ unused.entry _ (Nat.le_succ _)) ?_
      rw [shown]
      rfl
    have next : s.surroundings.Unused v'.store v'.calls := by
      rw [store, calls']
      exact unused_pair unused datasetId entryId
    obtain ⟨last, added, stores, rfl, gains⟩ := ih next
    exact ⟨last, (d', e) :: added, .cons ⟨_, _, stored, shown⟩ stores, rfl, first.append gains⟩

end Service

end GridCatalog
