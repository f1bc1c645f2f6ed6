import GridCatalog.Proofs.Changes
import GridCatalog.Proofs.LibraryIngest
import GridCatalog.Proofs.Ties
import GridCatalog.Proofs.Winners

/-! Columns that an approval names.

    An approval is refused for its selections only if there are none (`approve_refused_iff`). Selections that name no
    column are ignored, so what is left of a dataset are the columns whose current index is named, be it none of them
    (`approval_keeps_named`). -/

namespace GridCatalog

/-- Datasets stay under their own ids. -/
theorem Event.datasetsKeyed {u : Surroundings} {q : Request} {o : Except Failure Answer} {w w' : World Memory}
    (h : Event u q o w w') (keyed : w.store.DatasetsKeyed) : w'.store.DatasetsKeyed := by
  intro id d hd
  rcases h.dataset_inv hd with old | ⟨_, _, _, _, -, -, rfl, -, rfl⟩ | ⟨_, _, _, _, _, -, -, -, rfl, rfl⟩
  · exact keyed old
  · rfl
  · rfl

theorem World.datasetsKeyed_reached (u : Surroundings) (turns : List Turn) : (reached u turns).store.DatasetsKeyed := by
  have both : (reached u turns).store.EntriesKeyed ∧ (reached u turns).store.DatasetsKeyed := by
    refine after_induct (P := fun w => w.store.EntriesKeyed ∧ w.store.DatasetsKeyed) And.left ?_ ?_ turns
    · exact fun he keyed => And.intro (he.keyed keyed.1) (he.datasetsKeyed keyed.2)
    · exact And.intro (fun h => by cases h) (fun h => by cases h)
  intro id d hd
  exact both.2 hd

/-- A column is left if one of them is named. -/
theorem Dataset.columnCount_reshape_pos {d : Dataset} {a : Approval} :
    0 < (d.reshape a).columnCount ↔ ∃ c ∈ d.header, a.Names c.index := by
  rw [columnCount_reshape, List.length_pos_iff_exists_mem]
  constructor
  · rintro ⟨c, hc⟩
    obtain ⟨mem, named⟩ := List.mem_filter.mp hc
    exact ⟨c, mem, of_decide_eq_true named⟩
  · rintro ⟨c, mem, named⟩
    exact ⟨c, List.mem_filter.mpr ⟨mem, decide_eq_true named⟩⟩

namespace Service

/-! ### Refusals -/

section Refusals
variable {σ : Type} {s : Service σ} {w w' : World σ} {id : String} {a : Approval}

theorem approve_empty (s : Service σ) (id : String) (w : World σ) (empty : a.selections = []) :
    s.approve id a w = (.error (.refused "bad-model" "No entities selected"), w) := by
  rw [approve, if_pos (List.isEmpty_iff.mpr empty)]
  rfl

theorem entryAndDataset_error_inv {f : Failure} (h : s.entryAndDataset id w = (.error f, w')) :
    ∃ err, f = entryUnreadable err ∨ f = datasetUnreadable err := by
  rcases Task.bind_inv h with ⟨f', h₁, hf⟩ | ⟨e, v, -, h⟩
  · cases hf
    obtain ⟨err, rfl, -⟩ := callOr_error_inv h₁
    exact ⟨err, Or.inl rfl⟩
  rcases Task.bind_inv h with ⟨f', h₁, hf⟩ | ⟨d, v', -, h⟩
  · cases hf
    obtain ⟨err, rfl, -⟩ := callOr_error_inv h₁
    exact ⟨err, Or.inr rfl⟩
  · cases (Task.pure_inv h).1

/-- With a selection, an approval fails only because a call of the store does. -/
theorem approve_error_inv (selected : a.selections ≠ []) {f : Failure} (h : s.approve id a w = (.error f, w')) :
    ∃ err, f = entryUnreadable err ∨ f = datasetUnreadable err ∨ f = datasetUnsaved err ∨ f = entryUnsaved err := by
  rw [approve, if_neg (fun empty => selected (List.isEmpty_iff.mp empty))] at h
  rcases Task.bind_inv h with ⟨f', h₁, hf⟩ | ⟨⟨e, d⟩, v, -, h⟩
  · cases hf
    obtain ⟨err, hf | hf⟩ := entryAndDataset_error_inv h₁
    · exact ⟨err, Or.inl hf⟩
    · exact ⟨err, Or.inr (Or.inl hf)⟩
  rcases Task.bind_inv h with ⟨f', h₁, hf⟩ | ⟨d', v, -, h⟩
  · cases hf
    obtain ⟨err, rfl, -⟩ := callOr_error_inv h₁
    exact ⟨err, Or.inr (Or.inr (Or.inl rfl))⟩
  rcases Task.bind_inv h with ⟨f', h₁, hf⟩ | ⟨e', v, -, h⟩
  · cases hf
    obtain ⟨err, rfl, -⟩ := callOr_error_inv h₁
    exact ⟨err, Or.inr (Or.inr (Or.inr rfl))⟩
  rcases Task.bind_inv h with ⟨f', h₁, -⟩ | ⟨_, v, -, h⟩
  · cases h₁
  · cases (Task.pure_inv h).1

theorem approve_refused_iff : (∃ f, (s.approve id a w).1 = .error f ∧ f.reason = "bad-model") ↔ a.selections = [] := by
  constructor
  · rintro ⟨f, hf, reason⟩
    by_contra selected
    obtain ⟨err, rfl | rfl | rfl | rfl⟩ := approve_error_inv selected (Prod.ext hf rfl)
    -- What is said about a call of the store that fails is something else.
    · unfold entryUnreadable entriesUnreadable at reason
      split at reason <;> simp [Failure.reason] at reason
    · unfold datasetUnreadable at reason
      split at reason <;> simp [Failure.reason] at reason
    · simp [datasetUnsaved, Failure.reason] at reason
    · simp [entryUnsaved, Failure.reason] at reason
  · intro empty
    exact ⟨_, congrArg Prod.fst (approve_empty s id w empty), rfl⟩

end Refusals

/-! ### Approvals -/

variable {s : Service Memory} {w w' : World Memory} {id : String} {e : Entry} {d : Dataset} {a : Approval}

/-- What a store in memory answers comes through if no call fails beforehand. -/
theorem callOr_of_answers {α : Type} (hs : s.store = Memory.store) (answers : s.Answers) {c : Call α} {x : α}
    {m : Memory} (run : Memory.run c (s.stamp w) w.store = (.ok x, m)) (blame : StoreError → Failure) :
    s.callOr blame c w = (.ok x, { w with store := m, calls := w.calls + 1 }) := by
  rw [callOr_of_no_fault hs (answers ..), run]
  rfl

theorem entryAndDataset_of_answers (hs : s.store = Memory.store) (answers : s.Answers) (holds : w.store.Holds id e d) :
    s.entryAndDataset id w = (.ok (e, d), { w with calls := w.calls + 1 + 1 }) := by
  have run : ∀ {st}, Memory.run (.readDataset e.datasetId) st w.store = (.ok d, w.store) := by
    simp [Memory.run, Memory.found, holds.dataset]
  rw [entryAndDataset, Task.bind_ok (entry_of_stored hs holds.entry (answers ..))]
  exact Task.bind_ok (callOr_of_answers (w := { w with calls := w.calls + 1 }) hs answers run datasetUnreadable)

theorem updateDataset_of_answers (hs : s.store = Memory.store) (answers : s.Answers)
    (stored : (w.store.datasets.get? d.id).isSome) (blame : StoreError → Failure) :
    ∃ d' v, s.callOr blame (.updateDataset d) w = (.ok d', v) ∧ v.store.entries = w.store.entries :=
  ⟨_, _, callOr_of_answers (c := .updateDataset d) hs answers (if_pos stored) blame, rfl⟩

theorem updateEntry_of_answers (hs : s.store = Memory.store) (answers : s.Answers)
    (stored : (w.store.entries.get? e.id).isSome) (blame : StoreError → Failure) :
    ∃ e' v, s.callOr blame (.updateEntry e) w = (.ok e', v) :=
  ⟨_, _, callOr_of_answers (c := .updateEntry e) hs answers (if_pos stored) blame⟩

/-- An approval of a stored entry goes through if no call of the store fails. -/
theorem approve_of_answers (hs : s.store = Memory.store) (answers : s.Answers) (entries : w.store.EntriesKeyed)
    (datasets : w.store.DatasetsKeyed) (holds : w.store.Holds id e d) (selected : a.selections ≠ []) :
    ∃ e' w', s.approve id a w = (.ok e', w') := by
  have dataset : (w.store.datasets.get? (d.approved a e).id).isSome := by
    have same : d.id = e.datasetId := datasets holds.dataset
    rw [show (d.approved a e).id = e.datasetId from same, holds.dataset]
    rfl
  have entry : (w.store.entries.get? (approvedEntry e (d.approved a e)).id).isSome := by
    have same : e.id = id := entries holds.entry
    rw [show (approvedEntry e (d.approved a e)).id = id from same, holds.entry]
    rfl
  obtain ⟨d', v, updated, kept⟩ :=
    updateDataset_of_answers (w := { w with calls := w.calls + 1 + 1 }) hs answers dataset datasetUnsaved
  obtain ⟨e', v', replaced⟩ := updateEntry_of_answers (w := v) hs answers (kept ▸ entry) entryUnsaved
  rw [approve, if_neg (fun empty => selected (List.isEmpty_iff.mp empty))]
  dsimp only
  rw [Task.bind_ok (entryAndDataset_of_answers hs answers holds)]
  exact ⟨e', _, (Task.bind_ok updated).trans (Task.bind_ok replaced)⟩

/-- An approval leaves the reshaped header and body, and a header in the entry to match. -/
theorem approve_keeps (hs : s.store = Memory.store) (entries : w.store.EntriesKeyed) (datasets : w.store.DatasetsKeyed)
    (holds : w.store.Holds id e d) {e' : Entry} (h : s.approve id a w = (.ok e', w')) :
    ∃ d', w'.store.Holds id e' d' ∧ e'.header = d'.header ∧ d'.header = (d.reshape a).header ∧
      d'.body = (d.reshape a).body := by
  obtain ⟨-, ⟨_, hf, -⟩ | ⟨e₁, d₁, t, entry, dataset, ⟨_, hf, -⟩ | ⟨_, t', hok, written, store⟩⟩⟩ := approve_inv hs h
  · cases hf
  · cases hf
  cases hok
  cases holds.entry.symm.trans entry
  cases holds.dataset.symm.trans dataset
  have same : d.id = e.datasetId := datasets dataset
  refine ⟨(d.approved a e).touched t, ⟨?_, ?_⟩, written ▸ rfl, rfl, rfl⟩
  · rw [store, Memory.get?_insertEntry]
    exact if_pos (written ▸ (entries entry).symm)
  · rw [store]
    exact written ▸ Memory.get?_insertDataset_self _

/-- An approval of an entry with a dataset, after any requests: when it succeeds, the columns that are left are those
    whose current index is named, each of its kind, from its origin and with its cells, so there are some exactly if a
    selection names a column. It is refused for its selections exactly if it has none, which changes nothing; with a
    selection, whatever that names, it succeeds if no call of the store fails. -/
theorem approval_keeps_named (hs : s.store = Memory.store) {u : Surroundings} {turns : List Turn}
    (holds : (World.reached u turns).store.Holds id e d) (a : Approval) :
    let w := World.reached u turns
    (∀ e' w', s.approve id a w = (.ok e', w') → ∃ d' kept, w'.store.Holds id e' d' ∧ e'.header = d'.header ∧
      a.Keeps d.header kept ∧ (kept.map Winning.column).Perm (d.header.filter fun c => a.Names c.index) ∧
      d'.header = kept.map Winning.heading ∧ d'.body = d.body.map (fun row => kept.map fun x => x.cell row) ∧
      d'.columnCount = (d.header.filter fun c => a.Names c.index).length ∧
      (0 < d'.columnCount ↔ ∃ c ∈ d.header, a.Names c.index)) ∧
    ((∃ f, (s.approve id a w).1 = .error f ∧ f.reason = "bad-model") ↔ a.selections = []) ∧
    (a.selections = [] → s.approve id a w = (.error (.refused "bad-model" "No entities selected"), w)) ∧
    (a.selections ≠ [] → s.Answers → ∃ e' w', s.approve id a w = (.ok e', w')) := by
  intro w
  have entries : w.store.EntriesKeyed := World.keyed_reached u turns
  have datasets : w.store.DatasetsKeyed := World.datasetsKeyed_reached u turns
  refine ⟨fun e' w' h => ?_, approve_refused_iff, approve_empty s id w,
    fun selected answers => approve_of_answers hs answers entries datasets holds selected⟩
  obtain ⟨d', holds', mirrored, header, body⟩ := approve_keeps hs entries datasets holds h
  have keeps := a.keeps_picks d.header
  have count : d'.columnCount = (d.reshape a).columnCount := congrArg List.length header
  rw [Dataset.reshape_eq_keeping keeps] at header body
  refine ⟨d', _, holds', mirrored, keeps, keeps.columns_perm, header, body, ?_, ?_⟩
  · rw [count, Dataset.columnCount_reshape]
  · rw [count, Dataset.columnCount_reshape_pos]

/-- After an approval that has moved the only column it names to index 3, an approval by the former indices leaves
    nothing, and one that names index 3 leaves that column, which still comes from the second column of the grid. -/
theorem approval_keeps_named_moved :
    let u := Surroundings.counting []
    let turns := [Turn.ofRequest (.ingest "list"), .ofRequest (.approve "ii" ⟨"towns", [⟨1, 3, "town", 0, false⟩]⟩)]
    let s := (Turn.ofRequest (.entry "ii")).service u
    let former : Approval := ⟨"towns", [⟨0, 0, "who", 0, false⟩, ⟨1, 1, "town", 0, false⟩]⟩
    let current : Approval := ⟨"towns", [⟨0, 0, "who", 0, false⟩, ⟨3, 1, "town", 0, false⟩]⟩
    s.store = Memory.store ∧ ∃ e d, (World.reached u turns).store.Holds "ii" e d ∧ d.columnCount = 1 ∧
      (∃ e' w' d', s.approve "ii" former (World.reached u turns) = (.ok e', w') ∧ w'.store.Holds "ii" e' d' ∧
        d'.columnCount = 0) ∧
      ∃ e' w' d', s.approve "ii" current (World.reached u turns) = (.ok e', w') ∧ w'.store.Holds "ii" e' d' ∧
        d'.columnCount = 1 ∧ d'.header.map Column.origin = [1] := by
  intro u turns s former current
  have entry : ((World.reached u turns).store.entries.get? "ii").map Entry.datasetId = some "i" := by decide +kernel
  have dataset : ((World.reached u turns).store.datasets.get? "i").map Dataset.header =
      some [⟨"town", 1, 3, .texts, 0, false⟩] := by decide +kernel
  obtain ⟨e, he, hid⟩ := Option.map_eq_some_iff.mp entry
  obtain ⟨d, hd, header⟩ := Option.map_eq_some_iff.mp dataset
  have holds : (World.reached u turns).store.Holds "ii" e d := ⟨he, hid ▸ hd⟩
  have answers : s.Answers := fun _ _ => rfl
  obtain ⟨left, -, -, accepted⟩ := approval_keeps_named (s := s) rfl holds former
  obtain ⟨left', -, -, accepted'⟩ := approval_keeps_named (s := s) rfl holds current
  obtain ⟨e₁, w₁, h₁⟩ := accepted (List.cons_ne_nil _ _) answers
  obtain ⟨e₂, w₂, h₂⟩ := accepted' (List.cons_ne_nil _ _) answers
  obtain ⟨d₁, _, holds₁, -, -, -, -, -, none, -⟩ := left e₁ w₁ h₁
  obtain ⟨d₂, kept, holds₂, -, -, columns, headings, -, one, -⟩ := left' e₂ w₂ h₂
  rw [header] at none columns one
  have origins : d₂.header.map Column.origin = (kept.map Winning.column).map Column.origin := by
    rw [headings, List.map_map, List.map_map]
    rfl
  rw [List.perm_singleton.mp columns] at origins
  exact ⟨rfl, e, d, holds, congrArg List.length header, ⟨e₁, w₁, d₁, h₁, holds₁, none⟩, e₂, w₂, d₂, h₂, holds₂, one, origins⟩

/-- A selection that names no column makes an approval that takes all columns away. -/
theorem unmatched_approval_empties :
    let u := Surroundings.counting []
    let w := World.reached u [Turn.ofRequest (.ingest "list")]
    let s := (Turn.ofRequest (.entry "ii")).service u
    let a : Approval := ⟨"x", [⟨9, 0, "t", 0, false⟩]⟩
    ∃ e d e' d' w', w.store.Holds "ii" e d ∧ d.columnCount = 2 ∧ (∀ c ∈ d.header, ¬ a.Names c.index) ∧
      s.approve "ii" a w = (.ok e', w') ∧ w'.store.Holds "ii" e' d' ∧ e'.header = [] ∧ d'.header = [] := by
  intro u w s a
  have entry : (w.store.entries.get? "ii").map Entry.datasetId = some "i" := by decide +kernel
  have dataset : (w.store.datasets.get? "i").map Dataset.header =
      some [⟨"name", 0, 0, .texts, 0, false⟩, ⟨"city", 1, 1, .texts, 0, false⟩] := by decide +kernel
  obtain ⟨e, he, hid⟩ := Option.map_eq_some_iff.mp entry
  obtain ⟨d, hd, header⟩ := Option.map_eq_some_iff.mp dataset
  have holds : w.store.Holds "ii" e d := ⟨he, hid ▸ hd⟩
  have entries : w.store.EntriesKeyed := World.keyed_reached u _
  have datasets : w.store.DatasetsKeyed := World.datasetsKeyed_reached u _
  have unnamed : ∀ c ∈ d.header, ¬ a.Names c.index := by
    rw [header]
    decide
  obtain ⟨e', w', h⟩ :=
    approve_of_answers (s := s) (a := a) rfl (fun _ _ => rfl) entries datasets holds (List.cons_ne_nil _ _)
  obtain ⟨d', holds', mirrored, kept, -⟩ := approve_keeps rfl entries datasets holds h
  have none : (d.reshape a).columnCount = 0 :=
    Nat.eq_zero_of_not_pos fun some => (Dataset.columnCount_reshape_pos.mp some).elim fun c hc => unnamed c hc.1 hc.2
  have bare : d'.header = [] := kept.trans (List.length_eq_zero_iff.mp none)
  exact ⟨e, d, e', d', w', holds, congrArg List.length header, unnamed, h, holds', mirrored.trans bare, bare⟩

end Service

end GridCatalog
