import Mathlib.Logic.Relation
import GridCatalog.Proofs.Ingest
import GridCatalog.Proofs.Sweeping

/-! What serving a request does to a store in memory, as a chain of events.

    Two writes that belong together are one event, with an event of its own for the case that only
    the first of them succeeds. `handle_events` says that events are all that ever happens: what
    every event keeps is kept by every request, whichever calls of the store fail. -/

namespace GridCatalog

/-- The dataset was built from a grid. -/
def Dataset.IsBuilt (d : Dataset) : Prop :=
  ∃ settings name userId grid, Dataset.ofGrid? settings name userId grid = some d

/-- The dataset as an approval writes it for an entry. -/
def Dataset.approved (d : Dataset) (a : Approval) (e : Entry) : Dataset :=
  { d.reshape a with entryId := some e.id }

/-- The entry as it is archived at a time. -/
def Entry.archivedAt (e : Entry) (t : Instant) : Entry := { e with isArchived := true, archived := some t }

/-- The request changes a stored entry. -/
def Request.Edits : Request → Prop
  | .approve _ _ | .archive _ => True
  | _ => False

/-- Something that happens to a store in memory while a request is served, by the request and its
    outcome. -/
inductive Event (u : Surroundings) : Request → Except Failure Answer → World Memory → World Memory → Prop
  | quiet {q o} {w w' : World Memory} (failed : q.Edits → ∃ f, o = .error f) (calls : w.calls ≤ w'.calls)
      (store : w'.store = w.store) : Event u q o w w'
  | datasetOnly {sourceId o n t} {w w' : World Memory} {d : Dataset} (built : d.IsBuilt)
      (first : w.calls ≤ n) (last : n < w'.calls)
      (store : w'.store = w.store.insertDataset (d.stamped ⟨u.freshId n, t⟩)) :
      Event u (.ingest sourceId) o w w'
  | created {sourceId o n k t t' provenance} {w w' : World Memory} {d d' : Dataset} (built : d.IsBuilt)
      (first : w.calls ≤ n) (next : n < k) (last : k < w'.calls) (dataset : d' = d.stamped ⟨u.freshId n, t⟩)
      (store : w'.store = (w.store.insertDataset d').insertEntry
        ((Entry.preview "" d' provenance sourceId).stamped ⟨u.freshId k, t'⟩)) :
      Event u (.ingest sourceId) o w w'
  | reshaped {id a failure t} {w w' : World Memory} {e : Entry} {d : Dataset}
      (entry : w.store.entries.get? id = some e) (dataset : w.store.datasets.get? e.datasetId = some d)
      (calls : w.calls ≤ w'.calls) (store : w'.store = w.store.insertDataset ((d.approved a e).touched t)) :
      Event u (.approve id a) (.error (Service.entryUnsaved failure)) w w'
  | approved {id a t t'} {w w' : World Memory} {e e' : Entry} {d : Dataset}
      (entry : w.store.entries.get? id = some e) (dataset : w.store.datasets.get? e.datasetId = some d)
      (calls : w.calls ≤ w'.calls) (written : e' = (Service.approvedEntry e (d.approved a e)).touched t')
      (store : w'.store = (w.store.insertDataset ((d.approved a e).touched t)).insertEntry e') :
      Event u (.approve id a) (.ok (.entry e')) w w'
  | archived {id t t'} {w w' : World Memory} {e e' : Entry} (entry : w.store.entries.get? id = some e)
      (calls : w.calls ≤ w'.calls) (written : e' = (e.archivedAt t).touched t')
      (store : w'.store = w.store.insertEntry e') :
      Event u (.archive id) (.ok (.entry e')) w w'
  | entryRemoved {time o retention now} {w w' : World Memory} {e : Entry}
      (entry : w.store.entries.get? e.id = some e) (expired : Retention.isExpired retention e now = true)
      (calls : w.calls ≤ w'.calls) (store : w'.store = w.store.withoutEntry e.id) :
      Event u (.sweep time) o w w'
  | removed {time o retention now} {w w' : World Memory} {e : Entry}
      (entry : w.store.entries.get? e.id = some e) (expired : Retention.isExpired retention e now = true)
      (calls : w.calls ≤ w'.calls)
      (store : w'.store = (w.store.withoutEntry e.id).withoutDataset e.datasetId) :
      Event u (.sweep time) o w w'

theorem Event.calls_le {u : Surroundings} {q : Request} {o : Except Failure Answer} {w w' : World Memory}
    (h : Event u q o w w') : w.calls ≤ w'.calls := by
  cases h with
  | quiet _ calls | reshaped _ _ calls | approved _ _ calls | archived _ calls | entryRemoved _ _ calls
  | removed _ _ calls => exact calls
  | datasetOnly _ first last => omega
  | created _ first next last => omega

/-- A stored dataset was there before, has just been built, or replaces the one of an entry. -/
theorem Event.dataset_inv {u : Surroundings} {q : Request} {o : Except Failure Answer} {w w' : World Memory}
    (h : Event u q o w w') {id : String} {d : Dataset} (hd : w'.store.datasets.get? id = some d) :
    w.store.datasets.get? id = some d ∨
    (∃ sourceId n t, ∃ d₁ : Dataset, q = .ingest sourceId ∧ w.calls ≤ n ∧ id = u.freshId n ∧ d₁.IsBuilt ∧
      d = d₁.stamped ⟨u.freshId n, t⟩) ∨
    (∃ k a t, ∃ e : Entry, ∃ d₁ : Dataset, q = .approve k a ∧ w.store.entries.get? k = some e ∧
      w.store.datasets.get? e.datasetId = some d₁ ∧ id = d₁.id ∧ d = (d₁.approved a e).touched t) := by
  cases h with
  | quiet _ _ store => exact Or.inl (store ▸ hd)
  | datasetOnly built first _ store =>
    rw [store] at hd
    obtain ⟨rfl, rfl⟩ | ⟨-, hd⟩ := Memory.insertDataset_inv hd
    · exact Or.inr (Or.inl ⟨_, _, _, _, rfl, first, rfl, built, rfl⟩)
    · exact Or.inl hd
  | created built first _ _ dataset store =>
    rw [store] at hd
    obtain ⟨rfl, rfl⟩ | ⟨-, hd⟩ := Memory.insertDataset_inv hd
    · exact Or.inr (Or.inl ⟨_, _, _, _, rfl, first, by rw [dataset]; rfl, built, dataset⟩)
    · exact Or.inl hd
  | reshaped entry dataset _ store | approved entry dataset _ _ store =>
    rw [store] at hd
    obtain ⟨rfl, rfl⟩ | ⟨-, hd⟩ := Memory.insertDataset_inv hd
    · exact Or.inr (Or.inr ⟨_, _, _, _, _, rfl, entry, dataset, rfl, rfl⟩)
    · exact Or.inl hd
  | archived _ _ _ store => exact Or.inl (by rwa [store] at hd)
  | entryRemoved _ _ _ store => exact Or.inl (by rwa [store] at hd)
  | removed _ _ _ store =>
    rw [store] at hd
    exact Or.inl (Memory.withoutDataset_inv hd).2

/-- A stored entry was there before, is that of a new dataset, or has just been approved or archived, which is what
    the request was for. -/
theorem Event.entry_inv {u : Surroundings} {q : Request} {o : Except Failure Answer} {w w' : World Memory}
    (h : Event u q o w w') {id : String} {e : Entry} (he : w'.store.entries.get? id = some e) :
    w.store.entries.get? id = some e ∨
    (∃ sourceId n t provenance, ∃ d : Dataset, q = .ingest sourceId ∧ w.calls ≤ n ∧ id = u.freshId n ∧
      e = (Entry.preview "" d provenance sourceId).stamped ⟨u.freshId n, t⟩) ∨
    (∃ k a t, ∃ f : Entry, ∃ d : Dataset, q = .approve k a ∧ o = .ok (.entry e) ∧
      w.store.entries.get? k = some f ∧ w.store.datasets.get? f.datasetId = some d ∧ id = f.id ∧
      e = (Service.approvedEntry f (d.approved a f)).touched t) ∨
    (∃ k t t', ∃ f : Entry, q = .archive k ∧ o = .ok (.entry e) ∧
      w.store.entries.get? k = some f ∧ id = f.id ∧ e = (f.archivedAt t).touched t') := by
  cases h with
  | quiet _ _ store | datasetOnly _ _ _ store | reshaped _ _ _ store => exact Or.inl (by rwa [store] at he)
  | created _ first next _ _ store =>
    rw [store] at he
    obtain ⟨rfl, rfl⟩ | ⟨-, he⟩ := Memory.insertEntry_inv he
    · exact Or.inr (Or.inl ⟨_, _, _, _, _, rfl, by omega, rfl, rfl⟩)
    · exact Or.inl he
  | approved entry dataset _ written store =>
    rw [store] at he
    obtain ⟨rfl, rfl⟩ | ⟨-, he⟩ := Memory.insertEntry_inv he
    · exact Or.inr (Or.inr (Or.inl ⟨_, _, _, _, _, rfl, rfl, entry, dataset, by rw [written]; rfl, written⟩))
    · exact Or.inl he
  | archived entry _ written store =>
    rw [store] at he
    obtain ⟨rfl, rfl⟩ | ⟨-, he⟩ := Memory.insertEntry_inv he
    · exact Or.inr (Or.inr (Or.inr ⟨_, _, _, _, rfl, rfl, entry, by rw [written]; rfl, written⟩))
    · exact Or.inl he
  | entryRemoved _ _ _ store | removed _ _ _ store =>
    rw [store] at he
    exact Or.inl (Memory.withoutEntry_inv he).2

/-- Only a sweep removes entries. -/
theorem Event.entry_kept {u : Surroundings} {q : Request} {o : Except Failure Answer} {w w' : World Memory}
    (h : Event u q o w w') (unswept : ∀ time, q ≠ .sweep time) {id : String}
    (stored : (w.store.entries.get? id).isSome) : (w'.store.entries.get? id).isSome := by
  have inserted : ∀ {m : Memory} {e : Entry}, (m.entries.get? id).isSome →
      ((m.insertEntry e).entries.get? id).isSome := by
    intro m e hm
    rw [Memory.get?_insertEntry]
    split
    · rfl
    · exact hm
  cases h with
  | quiet _ _ store | datasetOnly _ _ _ store | reshaped _ _ _ store => exact store ▸ stored
  | created _ _ _ _ _ store | approved _ _ _ _ store | archived _ _ _ store => exact store ▸ inserted stored
  | entryRemoved | removed => exact absurd rfl (unswept _)

/-- Entries stay under their own ids. -/
theorem Event.keyed {u : Surroundings} {q : Request} {o : Except Failure Answer} {w w' : World Memory}
    (h : Event u q o w w') (keyed : w.store.EntriesKeyed) : w'.store.EntriesKeyed := by
  cases h with
  | quiet _ _ store | datasetOnly _ _ _ store | reshaped _ _ _ store => exact store ▸ keyed
  | created _ _ _ _ _ store | approved _ _ _ _ store | archived _ _ _ store =>
    rw [store]
    exact Memory.EntriesKeyed.insertEntry keyed _
  | entryRemoved _ _ _ store => exact store ▸ keyed.withoutEntry _
  | removed _ _ _ store =>
    rw [store]
    exact keyed.withoutEntry _

namespace Service
variable {s : Service Memory} {w w' : World Memory}

/-! ### Reading, approving, archiving -/

/-- A record that cannot be read is no reason to say that an entry cannot be written. -/
theorem reason_unreadable (err : StoreError) :
    (entryUnreadable err).reason ≠ "metadata-write" ∧ (datasetUnreadable err).reason ≠ "metadata-write" := by
  unfold entryUnreadable entriesUnreadable datasetUnreadable
  split <;> exact ⟨by simp [Failure.reason], by simp [Failure.reason]⟩

theorem entry_inv (hs : s.store = Memory.store) {id : String} {r : Except Failure Entry}
    (h : s.entry id w = (r, w')) :
    w'.store = w.store ∧ w'.calls = w.calls + 1 ∧
      ((∃ err, r = .error (entryUnreadable err)) ∨ ∃ e, r = .ok e ∧ w.store.entries.get? id = some e) := by
  obtain ⟨hn, ⟨err, rfl, hw⟩ | ⟨e, rfl, hrun⟩⟩ := callOr_inv hs h
  · exact ⟨hw, hn, Or.inl ⟨err, rfl⟩⟩
  · obtain ⟨he, hw⟩ := Memory.run_readEntry hrun
    exact ⟨hw, hn, Or.inr ⟨e, rfl, he⟩⟩

theorem list_inv (hs : s.store = Memory.store) {after : Option String} {limit : Int}
    {r : Except Failure (List Entry)} (h : s.list after limit w = (r, w')) :
    w'.store = w.store ∧ w.calls ≤ w'.calls := by
  unfold list at h
  split at h
  · obtain ⟨-, rfl⟩ := Task.throw_inv h
    exact ⟨rfl, Nat.le_refl _⟩
  · obtain ⟨hn, ⟨_, -, hw⟩ | ⟨_, -, hrun⟩⟩ := callOr_inv hs h
    · exact ⟨hw, by omega⟩
    · exact ⟨(Prod.mk.inj hrun).2.symm, by omega⟩

theorem entryAndDataset_inv (hs : s.store = Memory.store) {id : String} {r : Except Failure (Entry × Dataset)}
    (h : s.entryAndDataset id w = (r, w')) :
    w'.store = w.store ∧ w.calls ≤ w'.calls ∧
      ((∃ err, r = .error (entryUnreadable err) ∨ r = .error (datasetUnreadable err)) ∨
        ∃ e d, r = .ok (e, d) ∧ w.store.entries.get? id = some e ∧
          w.store.datasets.get? e.datasetId = some d) := by
  unfold entryAndDataset at h
  obtain ⟨err, rfl, hw, hn⟩ | ⟨e, v, hrun, hn, h⟩ := callOr_bind_inv hs h
  · exact ⟨hw, by omega, Or.inl ⟨err, Or.inl rfl⟩⟩
  obtain ⟨he, hv⟩ := Memory.run_readEntry hrun
  obtain ⟨err, rfl, hw, hn'⟩ | ⟨d, v', hrun', hn', h⟩ := callOr_bind_inv hs h
  · exact ⟨hw.trans hv, by omega, Or.inl ⟨err, Or.inr rfl⟩⟩
  obtain ⟨hd, hw⟩ := Memory.run_readDataset hrun'
  obtain ⟨rfl, rfl⟩ := Task.pure_inv h
  exact ⟨hw.trans hv, by omega, Or.inr ⟨e, d, rfl, he, hv ▸ hd⟩⟩

/-- How an approval ends: nothing is written, or the dataset is and its entry is not, or both are. -/
theorem approve_inv (hs : s.store = Memory.store) {id : String} {a : Approval} {r : Except Failure Entry}
    (h : s.approve id a w = (r, w')) :
    w.calls ≤ w'.calls ∧
      ((∃ f, r = .error f ∧ f.reason ≠ "metadata-write" ∧ w'.store = w.store) ∨
        ∃ e d t, w.store.entries.get? id = some e ∧ w.store.datasets.get? e.datasetId = some d ∧
          ((∃ err, r = .error (entryUnsaved err) ∧
              w'.store = w.store.insertDataset ((d.approved a e).touched t)) ∨
            ∃ e' t', r = .ok e' ∧ e' = (approvedEntry e (d.approved a e)).touched t' ∧
              w'.store = (w.store.insertDataset ((d.approved a e).touched t)).insertEntry e')) := by
  unfold approve at h
  split at h
  · -- Without selections nothing is read.
    rcases Task.bind_inv h with ⟨f, h₁, rfl⟩ | ⟨_, v, h₁, h⟩
    · obtain ⟨hf, rfl⟩ := Task.throw_inv h₁
      cases hf
      exact ⟨Nat.le_refl _, Or.inl ⟨_, rfl, by decide, rfl⟩⟩
    · cases h₁
  rcases Task.bind_inv h with ⟨f, h₁, rfl⟩ | ⟨⟨e, d⟩, v, h₁, h⟩
  · obtain ⟨hw, hn, ⟨err, hf | hf⟩ | ⟨_, _, hf, -⟩⟩ := entryAndDataset_inv hs h₁ <;> cases hf
    · exact ⟨hn, Or.inl ⟨_, rfl, (reason_unreadable err).1, hw⟩⟩
    · exact ⟨hn, Or.inl ⟨_, rfl, (reason_unreadable err).2, hw⟩⟩
  obtain ⟨hv, hn, ⟨err, he | he⟩ | ⟨e', d', he, hentry, hdataset⟩⟩ := entryAndDataset_inv hs h₁ <;> cases he
  obtain ⟨err, rfl, hw, hn'⟩ | ⟨d₁, v₁, hrun, hn₁, h⟩ := callOr_bind_inv hs h
  · exact ⟨by omega, Or.inl ⟨_, rfl, show "dataset-write" ≠ "metadata-write" by decide, hw.trans hv⟩⟩
  obtain ⟨rfl, hv₁⟩ := Memory.run_updateDataset hrun
  obtain ⟨err, rfl, hw, hn'⟩ | ⟨e₂, v₂, hrun, hn₂, h⟩ := callOr_bind_inv hs h
  · exact ⟨by omega, Or.inr ⟨e, d, _, hentry, hdataset, Or.inl ⟨err, rfl, by rw [hw, hv₁, hv]; rfl⟩⟩⟩
  obtain ⟨rfl, hv₂⟩ := Memory.run_updateEntry hrun
  obtain ⟨v₃, hv₃, hn₃, h⟩ := report_bind_inv h
  obtain ⟨rfl, rfl⟩ := Task.pure_inv h
  exact ⟨by omega,
    Or.inr ⟨e, d, _, hentry, hdataset, Or.inr ⟨_, _, rfl, rfl, by rw [hv₃, hv₂, hv₁, hv]; rfl⟩⟩⟩

theorem approve_event (hs : s.store = Memory.store) {id : String} {a : Approval} {r : Except Failure Entry}
    (h : s.approve id a w = (r, w')) : Event s.surroundings (.approve id a) (r.map .entry) w w' := by
  obtain ⟨hn, ⟨f, rfl, -, hw⟩ | ⟨e, d, t, hentry, hdataset, ⟨err, rfl, hw⟩ | ⟨e', t', rfl, he', hw⟩⟩⟩ :=
    approve_inv hs h
  · exact .quiet (fun _ => ⟨f, rfl⟩) hn hw
  · exact .reshaped hentry hdataset hn hw
  · exact .approved hentry hdataset hn he' hw

theorem archive_event (hs : s.store = Memory.store) {id : String} {r : Except Failure Entry}
    (h : s.archive id w = (r, w')) : Event s.surroundings (.archive id) (r.map .entry) w w' := by
  unfold archive at h
  obtain ⟨err, rfl, hw, hn⟩ | ⟨e, v, hrun, hn, h⟩ := callOr_bind_inv hs h
  · exact .quiet (fun _ => ⟨_, rfl⟩) (by omega) hw
  obtain ⟨hentry, hv⟩ := Memory.run_readEntry hrun
  rcases Task.bind_inv h with ⟨f, h₁, -⟩ | ⟨now, v₁, h₁, h⟩ <;> cases h₁
  obtain ⟨err, rfl, hw, hn'⟩ | ⟨e₂, v₂, hrun, hn₂, h⟩ := callOr_bind_inv hs h
  · exact .quiet (fun _ => ⟨_, rfl⟩) (by omega) (hw.trans hv)
  obtain ⟨rfl, hv₂⟩ := Memory.run_updateEntry hrun
  obtain ⟨v₃, hv₃, hn₃, h⟩ := report_bind_inv h
  obtain ⟨rfl, rfl⟩ := Task.pure_inv h
  exact .archived hentry (by omega) rfl (by rw [hv₃, hv₂, hv])

/-! ### Ingesting -/

theorem datasetOf_built {sourceId : String} {range : CellRange} {sheet : Sheet} {d : Dataset}
    (h : s.datasetOf sourceId range sheet = some d) : d.IsBuilt := by
  unfold datasetOf at h
  split at h
  · obtain ⟨grid, -, h⟩ := Option.bind_eq_some_iff.mp h
    exact ⟨_, _, _, _, h⟩
  · cases h

/-- Every dataset that is created with its entry is an event. -/
theorem Creates.events (hs : s.store = Memory.store) {sourceId : String} {ds : List Dataset} {es : List Entry}
    (h : s.Creates sourceId ds w es w') (built : ∀ d ∈ ds, d.IsBuilt) (o : Except Failure Answer) :
    Relation.ReflTransGen (Event s.surroundings (.ingest sourceId) o) w w' := by
  induction h with
  | nil store calls => exact .single (.quiet False.elim (Nat.le_of_eq calls.symm) store)
  | @cons d d' ds e es w v v' w' stored dataset shown entry calls calls' rest ih =>
    simp only [hs, Memory.store] at dataset entry
    have next : w.calls < v.calls := by omega
    have store : v'.store = (w.store.insertDataset d').insertEntry e := by
      rw [(Memory.run_createEntry entry).2, (Memory.run_createDataset dataset).2]
    have first : Event s.surroundings (.ingest sourceId) o w v' :=
      .created (built d List.mem_cons_self) (Nat.le_refl _) next (by omega) stored (shown ▸ store)
    exact (ih fun d hd => built d (List.mem_cons_of_mem _ hd)).head first

/-- A creation that stops does so with a call that changes nothing. -/
theorem Creation.events (hs : s.store = Memory.store) {sourceId : String} {ds : List Dataset}
    {r : Except Failure (List Entry)} (h : s.Creation sourceId ds w r w') (built : ∀ d ∈ ds, d.IsBuilt)
    (o : Except Failure Answer) : Relation.ReflTransGen (Event s.surroundings (.ingest sourceId) o) w w' := by
  cases h with
  | all created => exact created.events hs built o
  | atDataset split created failed =>
    subst split
    have before := created.events hs (fun d hd => built d (List.mem_append_left _ hd)) o
    obtain ⟨calls, ⟨_, -, store⟩ | ⟨_, hr, -⟩⟩ := call_inv hs failed
    · exact before.tail (.quiet False.elim (by omega) store)
    · cases hr
  | atEntry split created stored failed =>
    subst split
    have before := created.events hs (fun d hd => built d (List.mem_append_left _ hd)) o
    obtain ⟨calls, ⟨_, hr, -⟩ | ⟨_, hr, run⟩⟩ := call_inv hs stored <;> cases hr
    obtain ⟨rfl, hv'⟩ := Memory.run_createDataset run
    obtain ⟨calls', ⟨_, -, store⟩ | ⟨_, hr, -⟩⟩ := call_inv hs failed
    · exact before.tail (.datasetOnly (built _ (List.mem_append_right _ List.mem_cons_self)) (Nat.le_refl _) (by omega)
        (store.trans hv'))
    · cases hr

theorem ingest_events (hs : s.store = Memory.store) {sourceId : String} {r : Except Failure (List Entry)}
    (h : s.ingest sourceId w = (r, w')) (o : Except Failure Answer) :
    Relation.ReflTransGen (Event s.surroundings (.ingest sourceId) o) w w' := by
  have still : ∀ {v : World Memory}, v.store = w.store → v.calls = w.calls →
      Event s.surroundings (.ingest sourceId) o w v := fun hv hn => .quiet False.elim (Nat.le_of_eq hn.symm) hv
  cases ingest_inv (hs ▸ Memory.store_stamps) h with
  | unset | unlisted => exact .refl
  | empty _ _ store calls | unread _ _ _ _ _ store calls | valueless _ _ _ _ store calls =>
    exact .single (still store calls)
  | created _ _ _ store calls creation =>
    refine (creation.events hs (fun d hd => ?_) o).head (still store calls)
    obtain ⟨sheet, -, hd⟩ := List.mem_filterMap.mp hd
    exact datasetOf_built hd

/-! ### Sweeping -/

/-- The fate of an expired entry is an event. -/
theorem Meets.event (hs : s.store = Memory.store) {e : Entry} {f : Fate} (h : s.Meets e w f w')
    (stored : w.store.entries.get? e.id = some e) {retention : Retention} {now : Instant}
    (expired : retention.isExpired e now = true) (time : Option Instant) (o : Except Failure Answer) :
    Event s.surroundings (.sweep time) o w w' := by
  obtain ⟨calls, store⟩ := h.store_eq hs
  cases f with
  | kept => exact .quiet False.elim calls store
  | halfway => exact .entryRemoved stored expired calls store
  | gone => exact .removed stored expired calls store

/-- The entries that are still to be discarded are stored as they were when they were found. -/
theorem Discards.events (hs : s.store = Memory.store) {fates : List (Entry × Fate)} (h : s.Discards w fates w')
    {retention : Retention} {now : Instant} (nodup : (fates.map fun x => x.1.id).Nodup)
    (expired : ∀ x ∈ fates, retention.isExpired x.1 now = true)
    (stored : ∀ x ∈ fates, w.store.entries.get? x.1.id = some x.1) (time : Option Instant)
    (o : Except Failure Answer) : Relation.ReflTransGen (Event s.surroundings (.sweep time) o) w w' := by
  induction h with
  | nil => exact .refl
  | @cons w v w' e f rest first next ih =>
    obtain ⟨apart, nodup⟩ := List.nodup_cons.mp nodup
    have still : ∀ x ∈ rest, v.store.entries.get? x.1.id = some x.1 := fun x hx => by
      have other : e.id ≠ x.1.id := fun heq => apart (List.mem_map.mpr ⟨x, hx, heq.symm⟩)
      rw [(first.store_eq hs).2, Fate.entry_leaves, stored x (List.mem_cons_of_mem _ hx)]
      simp [other]
    exact (ih nodup (fun x hx => expired x (List.mem_cons_of_mem _ hx)) still).head
      (first.event hs (stored _ List.mem_cons_self) (expired _ List.mem_cons_self) time o)

theorem sweepAt_events (hs : s.store = Memory.store) (keyed : w.store.EntriesKeyed) {now : Instant}
    {r : SweepReport} (h : s.sweepAt now w = (r, w')) (time : Option Instant) (o : Except Failure Answer) :
    Relation.ReflTransGen (Event s.surroundings (.sweep time) o) w w' := by
  obtain ⟨error, v, read, -, store, calls⟩ | ⟨v, fates, v', read, discards, store, calls, -, found, -⟩ :=
    sweepAt_inv hs h
  · obtain ⟨hn, -⟩ := call_inv hs read
    exact .single (.quiet False.elim (by omega) store)
  obtain ⟨hn, ⟨_, ⟨⟩, -⟩ | ⟨_, -, run⟩⟩ := call_inv hs read
  have same : v.store = w.store := (Prod.mk.inj run).2.symm
  have decides : w.store.Decides s.settings.retention now fates := .of_expired keyed found
  have removing := discards.events hs decides.nodup (fun x hx => ((decides.mem _ _).mp ⟨rfl, x.2, hx⟩).2)
    (fun x hx => same ▸ decides.stored hx) time o
  exact .head (.quiet False.elim (by omega) same) (removing.tail (.quiet False.elim (by omega) store.symm))

/-! ### Requests -/

theorem handle_events (hs : s.store = Memory.store) (keyed : w.store.EntriesKeyed) {q : Request}
    {o : Except Failure Answer} (h : s.handle q w = (o, w')) :
    Relation.ReflTransGen (Event s.surroundings q o) w w' := by
  cases q with
  | ingest sourceId =>
    obtain ⟨r, h, -⟩ := Task.map_inv h
    exact ingest_events hs h o
  | list after limit =>
    obtain ⟨r, h, -⟩ := Task.map_inv h
    obtain ⟨hw, hn⟩ := list_inv hs h
    exact .single (.quiet False.elim hn hw)
  | entry id =>
    obtain ⟨r, h, -⟩ := Task.map_inv h
    obtain ⟨hw, hn, -⟩ := entry_inv hs h
    exact .single (.quiet False.elim (by omega) hw)
  | read id skip limit =>
    obtain ⟨r, h, -⟩ := Task.map_inv h
    obtain ⟨r', h, -⟩ := Task.map_inv h
    obtain ⟨hw, hn, -⟩ := entryAndDataset_inv hs h
    exact .single (.quiet False.elim hn hw)
  | approve id a =>
    obtain ⟨r, h', rfl⟩ := Task.map_inv h
    exact .single (approve_event hs h')
  | archive id =>
    obtain ⟨r, h', rfl⟩ := Task.map_inv h
    exact .single (archive_event hs h')
  | sweep time =>
    cases time with
    | none =>
      obtain ⟨_, h, -⟩ := Task.map_inv h
      obtain ⟨r, -, h⟩ := Task.lift_inv h
      exact sweepAt_events hs keyed h none o
    | some now =>
      obtain ⟨_, h, -⟩ := Task.map_inv h
      obtain ⟨r, -, h⟩ := Task.lift_inv h
      exact sweepAt_events hs keyed h (some now) o

end Service

end GridCatalog
