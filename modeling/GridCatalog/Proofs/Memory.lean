import GridCatalog.Store.Memory

/-! Stores in memory: what an answered call did, and what is found after a write.

    A refused call changes nothing (`run_error`). For every kind of call that writes, `run_*` says
    what the store is when the call has been answered, and `get?_*` what is found there. -/

namespace GridCatalog
namespace Memory
variable {α : Type} {m m' : Memory} {st : Stamp}

/-- The store without an entry. -/
def withoutEntry (m : Memory) (id : String) : Memory := { m with entries := m.entries.erase id }

/-- The store without a dataset. -/
def withoutDataset (m : Memory) (id : String) : Memory := { m with datasets := m.datasets.erase id }

/-! ### What is found after a write -/

theorem get?_insertDataset (d : Dataset) (id : String) :
    (m.insertDataset d).datasets.get? id = if id = d.id then some d else m.datasets.get? id :=
  Table.get?_insert ..

theorem get?_insertEntry (e : Entry) (id : String) :
    (m.insertEntry e).entries.get? id = if id = e.id then some e else m.entries.get? id :=
  Table.get?_insert ..

theorem get?_withoutEntry (id k : String) :
    (m.withoutEntry id).entries.get? k = if k = id then none else m.entries.get? k :=
  Table.get?_erase ..

theorem get?_withoutDataset (id k : String) :
    (m.withoutDataset id).datasets.get? k = if k = id then none else m.datasets.get? k :=
  Table.get?_erase ..

theorem insertDataset_inv {d x : Dataset} {id : String} (h : (m.insertDataset d).datasets.get? id = some x) :
    (id = d.id ∧ x = d) ∨ (id ≠ d.id ∧ m.datasets.get? id = some x) := by
  rw [get?_insertDataset] at h
  split at h
  · exact Or.inl ⟨‹_›, (Option.some.inj h).symm⟩
  · exact Or.inr ⟨‹_›, h⟩

theorem insertEntry_inv {e x : Entry} {id : String} (h : (m.insertEntry e).entries.get? id = some x) :
    (id = e.id ∧ x = e) ∨ (id ≠ e.id ∧ m.entries.get? id = some x) := by
  rw [get?_insertEntry] at h
  split at h
  · exact Or.inl ⟨‹_›, (Option.some.inj h).symm⟩
  · exact Or.inr ⟨‹_›, h⟩

theorem withoutEntry_inv {id k : String} {x : Entry} (h : (m.withoutEntry id).entries.get? k = some x) :
    k ≠ id ∧ m.entries.get? k = some x := by
  rw [get?_withoutEntry] at h
  split at h
  · cases h
  · exact ⟨‹_›, h⟩

theorem withoutDataset_inv {id k : String} {x : Dataset} (h : (m.withoutDataset id).datasets.get? k = some x) :
    k ≠ id ∧ m.datasets.get? k = some x := by
  rw [get?_withoutDataset] at h
  split at h
  · cases h
  · exact ⟨‹_›, h⟩

theorem get?_insertDataset_self (d : Dataset) : (m.insertDataset d).datasets.get? d.id = some d := by
  rw [get?_insertDataset, if_pos rfl]

/-! ### Answered calls -/

theorem found_inv {id : String} {o : Option α} {a : α} (h : found id o = .ok a) : o = some a := by
  cases o with
  | none => cases h
  | some b =>
    cases h
    rfl

/-- A call that the store refuses changes nothing. -/
theorem run_error {c : Call α} {e : StoreError} (h : run c st m = (.error e, m')) : m' = m := by
  cases c with
  | createDataset d | listEntries q | expiredEntries r now | createEntry e => cases h
  | readDataset id | readEntry id => exact (Prod.mk.inj h).2.symm
  | updateDataset d | deleteDataset id | updateEntry e | deleteEntry id =>
    change (if _ then _ else _) = _ at h
    split at h <;> cases h
    rfl

/-- A store in memory refuses a call only because there is no record with its id. -/
theorem isNotFound_of_error {c : Call α} {e : StoreError} (h : (run c st m).1 = .error e) : e.isNotFound := by
  cases c with
  | createDataset d | listEntries q | expiredEntries r now | createEntry e => cases h
  | readDataset id | readEntry id =>
    simp only [run, found] at h
    split at h <;> cases h
    rfl
  | updateDataset d | deleteDataset id | updateEntry e | deleteEntry id =>
    change (if _ then _ else _ : Except StoreError _ × Memory).1 = _ at h
    split at h <;> cases h
    rfl

theorem run_readEntry {id : String} {e : Entry} (h : run (.readEntry id) st m = (.ok e, m')) :
    m.entries.get? id = some e ∧ m' = m := by
  obtain ⟨hf, rfl⟩ := Prod.mk.inj h
  exact ⟨found_inv hf, rfl⟩

theorem run_readDataset {id : String} {d : Dataset} (h : run (.readDataset id) st m = (.ok d, m')) :
    m.datasets.get? id = some d ∧ m' = m := by
  obtain ⟨hf, rfl⟩ := Prod.mk.inj h
  exact ⟨found_inv hf, rfl⟩

theorem run_createDataset {d d' : Dataset} (h : run (.createDataset d) st m = (.ok d', m')) :
    d' = d.stamped st ∧ m' = m.insertDataset d' := by
  cases h
  exact ⟨rfl, rfl⟩

theorem run_createEntry {e e' : Entry} (h : run (.createEntry e) st m = (.ok e', m')) :
    e' = e.stamped st ∧ m' = m.insertEntry e' := by
  cases h
  exact ⟨rfl, rfl⟩

theorem run_updateEntry {e e' : Entry} (h : run (.updateEntry e) st m = (.ok e', m')) :
    e' = e.touched st.now ∧ m' = m.insertEntry e' := by
  change (if _ then _ else _) = _ at h
  split at h <;> cases h
  exact ⟨rfl, rfl⟩

theorem run_updateDataset {d d' : Dataset} (h : run (.updateDataset d) st m = (.ok d', m')) :
    d' = d.touched st.now ∧ m' = m.insertDataset d' := by
  change (if _ then _ else _) = _ at h
  split at h <;> cases h
  exact ⟨rfl, rfl⟩

theorem run_deleteEntry {id : String} (h : run (.deleteEntry id) st m = (.ok (), m')) :
    m' = m.withoutEntry id := by
  change (if _ then _ else _) = _ at h
  split at h <;> cases h
  rfl

theorem run_deleteDataset {id : String} (h : run (.deleteDataset id) st m = (.ok (), m')) :
    m' = m.withoutDataset id := by
  change (if _ then _ else _) = _ at h
  split at h <;> cases h
  rfl

/-! ### Keys -/

/-- Entries are stored under their own ids. -/
def EntriesKeyed (m : Memory) : Prop := ∀ {id e}, m.entries.get? id = some e → e.id = id

/-- The entries of a store have distinct ids. -/
theorem EntriesKeyed.nodup (keyed : m.EntriesKeyed) :
    (m.entries.values.map Entry.id).Nodup := by
  have : m.entries.values.map Entry.id = m.entries.keys := by
    rw [Table.values, Table.keys, List.map_map]
    exact List.map_congr_left fun row hrow => keyed (Table.mem_rows.mp hrow)
  rw [this]
  exact m.entries.nodup

theorem EntriesKeyed.get?_of_mem (keyed : m.EntriesKeyed) {e : Entry}
    (he : e ∈ m.entries.values) : m.entries.get? e.id = some e := by
  obtain ⟨⟨id, _⟩, hrow, rfl⟩ := List.mem_map.mp he
  have hget := Table.mem_rows.mp hrow
  rw [keyed hget]
  exact hget

theorem mem_entries_of_get? {id : String} {e : Entry} (h : m.entries.get? id = some e) : e ∈ m.entries.values :=
  List.mem_map.mpr ⟨(id, e), Table.mem_rows.mpr h, rfl⟩

theorem EntriesKeyed.insertEntry (keyed : m.EntriesKeyed) (e : Entry) : (m.insertEntry e).EntriesKeyed := by
  intro id f hf
  rcases insertEntry_inv hf with ⟨rfl, rfl⟩ | ⟨-, hf⟩
  · rfl
  · exact keyed hf

theorem EntriesKeyed.withoutEntry (keyed : m.EntriesKeyed) (id : String) : (m.withoutEntry id).EntriesKeyed :=
  fun hf => keyed (withoutEntry_inv hf).2

end Memory

end GridCatalog
