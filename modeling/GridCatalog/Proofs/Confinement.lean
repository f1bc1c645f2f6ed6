import GridCatalog.Proofs.Event
import GridCatalog.Proofs.RecordFiles
import GridCatalog.Proofs.RowPages

/-! Requests to a service whose store lies on a disk.

    A request gets at the disk through calls of the store, and what every call keeps is kept by every request
    (`runAll_relates`). The ids in the calls come from the requests and from stored records, and each call is confined
    to the file of its record. So no request gets at anything but files of records (`ids_confined`). -/

namespace GridCatalog

/-! ### What requests change -/

section Requests
variable {σ α β : Type} {R : σ → σ → Prop}

namespace Task

/-- The store before the task and the store after it are related, however the task ends. -/
def Relates (R : σ → σ → Prop) (x : Task σ α) : Prop := ∀ w, R w.store (x w).2.store

theorem Quiet.relates (refl : ∀ x, R x x) {x : Task σ α} (h : Quiet x) : Relates R x := fun w => by
  rw [(h w _ _ rfl).1]
  exact refl _

theorem Relates.bind (trans : ∀ ⦃x y z⦄, R x y → R y z → R x z) {x : Task σ α} {f : α → Task σ β} (hx : Relates R x)
    (hf : ∀ a, Relates R (f a)) : Relates R (x >>= f) := fun w => by
  have first := hx w
  rcases h : x w with ⟨e | a, v⟩ <;> rw [h] at first
  · rw [bind_error h]
    exact first
  · rw [bind_ok h]
    exact trans first (hf a v)

/-- Two runs of a task that begins with a step come to the same if the step does, and the rest after it. -/
theorem bind_congr {x : Task σ α} {f : α → Task σ β} {w w' : World σ} (first : (x w).1 = (x w').1)
    (rest : ∀ a u u', x w = (.ok a, u) → x w' = (.ok a, u') → (f a u).1 = (f a u').1) :
    ((x >>= f) w).1 = ((x >>= f) w').1 := by
  rcases h : x w with ⟨r, u⟩
  rcases h' : x w' with ⟨r', u'⟩
  rw [h, h'] at first
  obtain rfl : r = r' := first
  cases r with
  | error e => rw [bind_error h, bind_error h']
  | ok a =>
    rw [bind_ok h, bind_ok h']
    exact rest a u u' h h'

theorem Relates.mapM (refl : ∀ x, R x x) (trans : ∀ ⦃x y z⦄, R x y → R y z → R x z) {f : α → Task σ β}
    (hf : ∀ a, Relates R (f a)) : ∀ l : List α, Relates R (l.mapM f)
  | [] => by
    rw [List.mapM_nil]
    exact (Quiet.pure _).relates refl
  | a :: l => by
    rw [List.mapM_cons]
    exact (hf a).bind trans fun _ => (Relates.mapM refl trans hf l).bind trans fun _ => (Quiet.pure _).relates refl

end Task

namespace Service

/-- A call that the store answers in the same way comes to the same. -/
theorem callOr_congr {s : Service σ} {c : Call α} {w w' : World σ} (calls : w.calls = w'.calls)
    (answer : ∀ st, (s.store.run c st w.store).1 = (s.store.run c st w'.store).1) (blame : StoreError → Failure) :
    (s.callOr blame c w).1 = (s.callOr blame c w').1 := by
  have same : s.stamp w = s.stamp w' := by rw [stamp, stamp, calls]
  rw [callOr_apply, callOr_apply, call, call, calls, same]
  split
  · rfl
  · exact congrArg (Except.mapError blame) (answer _)

variable {s : Service σ} (refl : ∀ x, R x x) (trans : ∀ ⦃x y z⦄, R x y → R y z → R x z)
include refl

theorem call_relates {c : Call α} {w w' : World σ} {r : Except StoreError α}
    (run : ∀ st x, R x (s.store.run c st x).2) (h : s.call c w = (r, w')) : R w.store w'.store := by
  rcases call_store h with same | answered
  · rw [same]
    exact refl _
  · rw [answered]
    exact run _ _

theorem callOr_relates {c : Call α} (run : ∀ st x, R x (s.store.run c st x).2) (blame : StoreError → Failure) :
    Task.Relates R (s.callOr blame c) := fun w => by
  rw [callOr_apply]
  exact call_relates refl run rfl

include trans

theorem Discards.relates {w w' : World σ} {fates : List (Entry × Fate)} (h : s.Discards w fates w')
    (run : ∀ e ∈ fates.map Prod.fst, ∀ st x, R x (s.store.run (.deleteEntry e.id) st x).2 ∧
      R x (s.store.run (.deleteDataset e.datasetId) st x).2) : R w.store w'.store := by
  induction h with
  | nil => exact refl _
  | @cons w v w' e f rest first _ ih =>
    have removing := run e (List.mem_cons_self)
    refine trans ?_ (ih fun e he => run e (List.mem_cons_of_mem _ he))
    cases first with
    | kept entry store =>
      rw [store]
      exact call_relates refl (fun st x => (removing st x).1) entry
    | halfway entry dataset store =>
      rw [store]
      exact trans (call_relates refl (fun st x => (removing st x).1) entry)
        (call_relates refl (fun st x => (removing st x).2) dataset)
    | gone entry dataset =>
      exact trans (call_relates refl (fun st x => (removing st x).1) entry)
        (call_relates refl (fun st x => (removing st x).2) dataset)

/-- A sweep asks for the entries that have expired and then removes them and their datasets. -/
theorem sweepAt_relates {now : Instant} {w w' : World σ} {report : SweepReport}
    (reading : ∀ st x, R x (s.store.run (.expiredEntries s.settings.retention now) st x).2)
    (removing : ∀ es, (s.store.run (.expiredEntries s.settings.retention now) (s.stamp w) w.store).1 = .ok es →
      ∀ e ∈ es, ∀ st x, R x (s.store.run (.deleteEntry e.id) st x).2 ∧
        R x (s.store.run (.deleteDataset e.datasetId) st x).2)
    (h : s.sweepAt now w = (report, w')) : R w.store w'.store := by
  unfold sweepAt at h
  obtain ⟨r, v, read, h⟩ := Task.state_bind_inv h
  have first : R w.store v.store := call_relates refl reading read
  rcases r with error | es
  · cases h
    exact first
  obtain ⟨report', v', hd, h⟩ := Task.state_bind_inv h
  cases h
  have found : (s.store.run (.expiredEntries s.settings.retention now) (s.stamp w) w.store).1 = .ok es := by
    unfold call at read
    split at read
    · cases read
    · exact (Prod.mk.inj read).1
  obtain ⟨fates, discards, expired, -, -⟩ := discardAll_inv hd
  exact trans first (discards.relates refl trans fun e he => removing es found e (expired ▸ he))

/-- What every call of the store does is done by every request. -/
theorem handle_relates (run : ∀ {α : Type} (c : Call α) st x, R x (s.store.run c st x).2) (q : Request) :
    Task.Relates R (s.handle q) := by
  have ret {α : Type} (a : α) : Task.Relates R (pure a : Task σ α) := (Task.Quiet.pure a).relates refl
  have throws {α : Type} (f : Failure) : Task.Relates R (throw f : Task σ α) := (Task.Quiet.throw f).relates refl
  have reports (level : LogLevel) (text : String) : Task.Relates R (report level text) :=
    (report_quiet level text).relates refl
  have calls {α : Type} (blame : StoreError → Failure) (c : Call α) : Task.Relates R (s.callOr blame c) :=
    callOr_relates refl (run c) blame
  have both (id : String) : Task.Relates R (s.entryAndDataset id) :=
    .bind trans (calls _ _) fun _ => .bind trans (calls _ _) fun _ => ret _
  have sweeps (now : Instant) (w : World σ) : R w.store (s.sweepAt now w).2.store :=
    sweepAt_relates refl trans (run _) (fun _ _ _ _ st x => ⟨run _ st x, run _ st x⟩) rfl
  cases q with
  | ingest sourceId =>
    refine .bind trans ?_ fun _ => ret _
    unfold ingest
    split
    · exact throws _
    · exact throws _
    · exact .bind trans (reports _ _) fun _ => ret _
    · refine .bind trans ((Task.Quiet.mapM (build_quiet s sourceId _) _).relates refl) fun built => ?_
      split
      · exact throws _
      · refine .mapM refl trans (fun d => ?_) _
        exact .bind trans (calls _ _) fun _ => .bind trans (calls _ _) fun _ => .bind trans (reports _ _) fun _ => ret _
  | list after limit =>
    refine .bind trans ?_ fun _ => ret _
    unfold list
    split
    · exact throws _
    · exact calls _ _
  | entry id => exact .bind trans (calls _ _) fun _ => ret _
  | read id skip limit => exact .bind trans (.bind trans (both id) fun _ => ret _) fun _ => ret _
  | approve id a =>
    refine .bind trans ?_ fun _ => ret _
    unfold approve
    split
    · exact .bind trans (throws _) fun _ => .bind trans (both id) fun _ => .bind trans (calls _ _) fun _ =>
        .bind trans (calls _ _) fun _ => .bind trans (reports _ _) fun _ => ret _
    · exact .bind trans (both id) fun _ => .bind trans (calls _ _) fun _ => .bind trans (calls _ _) fun _ =>
        .bind trans (reports _ _) fun _ => ret _
  | archive id =>
    refine .bind trans ?_ fun _ => ret _
    exact .bind trans (calls _ _) fun _ => .bind trans (fun w => refl _) fun _ => .bind trans (calls _ _) fun _ =>
      .bind trans (reports _ _) fun _ => ret _
  | sweep time =>
    cases time with
    | none => exact .bind trans (fun w => sweeps _ w) fun _ => ret _
    | some now => exact .bind trans (fun w => sweeps now w) fun _ => ret _

theorem runAll_relates (run : ∀ {α : Type} (c : Call α) st x, R x (s.store.run c st x).2) (requests : List Request)
    (w : World σ) : R w.store (s.runAll w requests).store := by
  induction requests generalizing w with
  | nil => exact refl _
  | cons q requests ih => exact trans (handle_relates refl trans run q w) (ih _)

end Service

end Requests

/-! ### Requests about an entry's dataset -/

namespace JsonDirectory

/-- The records that are looked at for an entry: the entry, and the dataset that it refers to. -/
def Looked (s : JsonDirectory) (id : String) (d : Disk) (kind : RecordKind) (k : String) : Prop :=
  Only .entry id kind k ∨ ∃ e, s.load .entry Entry.ofJson? id d = .ok e ∧ Only .dataset e.datasetId kind k

/-- The records that an approval of an entry writes: the dataset and the entry, under the ids that have been read. -/
def Approved (s : JsonDirectory) (id : String) (d : Disk) (kind : RecordKind) (k : String) : Prop :=
  ∃ e x, s.load .entry Entry.ofJson? id d = .ok e ∧ s.load .dataset Dataset.ofJson? e.datasetId d = .ok x ∧
    (Only .dataset x.id kind k ∨ Only .entry e.id kind k)

/-- The records that a sweep removes: the entries that have expired, and the datasets that they refer to. -/
def Swept (s : JsonDirectory) (r : Retention) (now : Instant) (d : Disk) (kind : RecordKind) (k : String) : Prop :=
  ∃ es, s.entries d = .ok es ∧ ∃ e ∈ es, r.isExpired e now = true ∧
    (Only .entry e.id kind k ∨ Only .dataset e.datasetId kind k)

variable {s : JsonDirectory} {v : Service Disk} {id : String} {w w' : World Disk}

theorem entryAndDataset_keeps (hv : v.store = s.store) (id : String) : Task.Relates Eq (v.entryAndDataset id) := by
  have refl : ∀ d : Disk, d = d := fun _ => rfl
  have trans : ∀ ⦃d d' d'' : Disk⦄, d = d' → d' = d'' → d = d'' := fun _ _ _ => Eq.trans
  have entry : Task.Relates Eq (v.entry id) := Service.callOr_relates refl (fun _ _ => by rw [hv]; rfl) _
  have dataset (k : String) : Task.Relates Eq (v.callOr Service.datasetUnreadable (.readDataset k)) :=
    Service.callOr_relates refl (fun _ _ => by rw [hv]; rfl) _
  exact .bind trans entry fun e => .bind trans (dataset e.datasetId) fun _ => (Task.Quiet.pure _).relates refl

theorem entryAndDataset_ok_inv (hv : v.store = s.store) {e : Entry} {x : Dataset}
    (h : v.entryAndDataset id w = (.ok (e, x), w')) : s.load .entry Entry.ofJson? id w.store = .ok e ∧
      s.load .dataset Dataset.ofJson? e.datasetId w.store = .ok x ∧ w'.store = w.store ∧ w'.calls = w.calls + 2 := by
  have kept := entryAndDataset_keeps hv id w
  rw [h] at kept
  rcases Task.bind_inv h with ⟨_, _, hf⟩ | ⟨e₁, v₁, entry, h⟩
  · cases hf
  rcases Task.bind_inv h with ⟨_, _, hf⟩ | ⟨x₁, v₂, dataset, h⟩
  · cases hf
  obtain ⟨ok, rfl⟩ := Task.pure_inv h
  cases ok
  obtain ⟨read, first⟩ := Service.callOr_ok_inv entry
  obtain ⟨read', second⟩ := Service.callOr_ok_inv dataset
  rw [hv] at read read'
  obtain ⟨found, same⟩ := Prod.mk.inj read
  obtain ⟨found', -⟩ := Prod.mk.inj read'
  rw [← same] at found'
  exact ⟨found, found', kept.symm, by rw [second, first]⟩

/-- What is found for an entry depends on the files of the entry and of the dataset that it refers to. -/
theorem entryAndDataset_alike (hv : v.store = s.store) (calls : w.calls = w'.calls)
    (alike : ∀ kind k, s.Looked id w.store kind k → s.Alike kind k w.store w'.store) :
    (v.entryAndDataset id w).1 = (v.entryAndDataset id w').1 := by
  have entry : s.Alike .entry id w.store w'.store := alike _ _ (Or.inl ⟨rfl, rfl⟩)
  refine Task.bind_congr (Service.callOr_congr calls (fun _ => by rw [hv]; exact entry.load _) _) fun e u u' h h' => ?_
  obtain ⟨read, next⟩ := Service.callOr_ok_inv h
  obtain ⟨read', next'⟩ := Service.callOr_ok_inv h'
  rw [hv] at read read'
  obtain ⟨found, same⟩ := Prod.mk.inj read
  obtain ⟨-, same'⟩ := Prod.mk.inj read'
  have dataset : s.Alike .dataset e.datasetId u.store u'.store :=
    same ▸ same' ▸ alike _ _ (Or.inr ⟨e, found, rfl, rfl⟩)
  have later : u.calls = u'.calls := by rw [next, next', calls]
  exact Task.bind_congr (Service.callOr_congr later (fun _ => by rw [hv]; exact dataset.load _) _) fun _ _ _ _ _ => rfl

theorem read_alike (hv : v.store = s.store) (calls : w.calls = w'.calls)
    (alike : ∀ kind k, s.Looked id w.store kind k → s.Alike kind k w.store w'.store) (skip limit : Int) :
    (v.read id skip limit w).1 = (v.read id skip limit w').1 :=
  Task.bind_congr (entryAndDataset_alike hv calls alike) fun _ _ _ _ _ => rfl

theorem approve_changes_only (hv : v.store = s.store) (id : String) (a : Approval) (w : World Disk) :
    s.ChangesOnly (s.Approved id w.store) w.store (v.approve id a w).2.store := by
  have refl : ∀ d, s.ChangesOnly (s.Approved id w.store) d d := ChangesOnly.refl _
  have trans : ∀ ⦃d d' d''⦄, s.ChangesOnly (s.Approved id w.store) d d' → s.ChangesOnly (s.Approved id w.store) d' d'' →
      s.ChangesOnly (s.Approved id w.store) d d'' := fun _ _ _ => ChangesOnly.trans
  unfold Service.approve
  split
  · exact refl _
  have kept : w.store = (v.entryAndDataset id w).2.store := entryAndDataset_keeps hv id w
  dsimp only
  rcases hread : v.entryAndDataset id w with ⟨f | ⟨e, x⟩, w₁⟩ <;> rw [hread] at kept
  · rw [Task.bind_error hread]
    exact kept ▸ refl _
  rw [Task.bind_ok hread]
  obtain ⟨entry, dataset, -⟩ := entryAndDataset_ok_inv hv hread
  -- What is left to do is to write the dataset and the entry that have been read.
  have updated : Task.Relates (s.ChangesOnly (s.Approved id w.store))
      (v.callOr Service.datasetUnsaved (.updateDataset (x.approved a e))) :=
    Service.callOr_relates refl (fun st d => by
      rw [hv]
      refine (run_changes (c := .updateDataset (x.approved a e)) rfl d).mono fun kind k only => ?_
      exact ⟨e, x, entry, dataset, Or.inl only⟩) _
  have replaced : Task.Relates (s.ChangesOnly (s.Approved id w.store))
      (v.callOr Service.entryUnsaved (.updateEntry (Service.approvedEntry e (x.approved a e)))) :=
    Service.callOr_relates refl (fun st d => by
      rw [hv]
      refine (run_changes (c := .updateEntry (Service.approvedEntry e (x.approved a e))) rfl d).mono fun kind k only => ?_
      exact ⟨e, x, entry, dataset, Or.inr only⟩) _
  refine kept.symm ▸ Task.Relates.bind trans updated (fun _ => .bind trans replaced fun _ => ?_) w₁
  exact .bind trans ((Service.report_quiet _ _).relates refl) fun _ => (Task.Quiet.pure _).relates refl

/-- What becomes of an approval depends on the files of the records that it looks at and of those that it writes. -/
theorem approve_alike (hv : v.store = s.store) (calls : w.calls = w'.calls)
    (alike : ∀ kind k, s.Looked id w.store kind k ∨ s.Approved id w.store kind k → s.Alike kind k w.store w'.store)
    (a : Approval) : (v.approve id a w).1 = (v.approve id a w').1 := by
  unfold Service.approve
  split
  · rfl
  refine Task.bind_congr (entryAndDataset_alike hv calls fun kind k h => alike kind k (Or.inl h)) ?_
  rintro ⟨e, x⟩ u u' h h'
  obtain ⟨entry, dataset, same, next⟩ := entryAndDataset_ok_inv hv h
  obtain ⟨-, -, same', next'⟩ := entryAndDataset_ok_inv hv h'
  have written : ∀ kind k, Only .dataset x.id kind k ∨ Only .entry e.id kind k → s.Alike kind k u.store u'.store :=
    fun kind k h => same ▸ same' ▸ alike kind k (Or.inr ⟨e, x, entry, dataset, h⟩)
  have updates (st : Stamp) : s.Confines (.updateDataset (x.approved a e)) st .dataset x.id := run_confines rfl
  have both := fun st => (updates st).depends _ _ (written _ _ (Or.inl ⟨rfl, rfl⟩))
  have later : u.calls = u'.calls := by rw [next, next', calls]
  refine Task.bind_congr (Service.callOr_congr later (fun st => by rw [hv]; exact (both st).1) _) fun y z z' g g' => ?_
  -- Writing the dataset leaves the disks alike for the entry.
  obtain ⟨run, next⟩ := Service.callOr_ok_inv g
  obtain ⟨run', next'⟩ := Service.callOr_ok_inv g'
  rw [hv] at run run'
  rw [show v.stamp u' = v.stamp u by rw [Service.stamp, Service.stamp, later]] at run'
  have after : (s.run (.updateDataset (x.approved a e)) (v.stamp u) u.store).2 = z.store := congrArg Prod.snd run
  have after' : (s.run (.updateDataset (x.approved a e)) (v.stamp u) u'.store).2 = z'.store := congrArg Prod.snd run'
  have effect := (both (v.stamp u)).2
  rw [after, after'] at effect
  have alike : s.Alike .entry e.id z.store z'.store := (written _ _ (Or.inr ⟨rfl, rfl⟩)).of_sameEffect effect
  have later : z.calls = z'.calls := by rw [next, next', later]
  have replaces (st : Stamp) : s.Confines (.updateEntry (Service.approvedEntry e (x.approved a e))) st .entry e.id :=
    run_confines rfl
  refine Task.bind_congr (Service.callOr_congr later (fun st => ?_) _) fun _ _ _ _ _ => rfl
  rw [hv]
  exact ((replaces st).depends _ _ alike).1

theorem sweepAt_removes_only (hv : v.store = s.store) (now : Instant) (w : World Disk) :
    s.RemovesOnly (s.Swept v.settings.retention now w.store) w.store (v.sweepAt now w).2.store := by
  refine Service.sweepAt_relates (RemovesOnly.refl _) (fun _ _ _ => RemovesOnly.trans) ?_ ?_ rfl
  · intro st d
    rw [hv]
    exact RemovesOnly.refl _ d
  · intro es found e he st d
    rw [hv] at found ⊢
    obtain ⟨all, entries, rfl⟩ : ∃ all, s.entries w.store = .ok all ∧
        (all.filter fun e => v.settings.retention.isExpired e now) = es := by
      change (s.entries w.store).map _ = _ at found
      rcases hall : s.entries w.store with error | all <;> rw [hall] at found
      · cases found
      · exact ⟨all, rfl, Except.ok.inj found⟩
    obtain ⟨mem, expired⟩ := List.mem_filter.mp he
    refine ⟨(discard_removes .entry e.id d).mono fun kind k only => ?_,
      (discard_removes .dataset e.datasetId d).mono fun kind k only => ?_⟩
    · exact ⟨all, entries, e, mem, expired, Or.inl only⟩
    · exact ⟨all, entries, e, mem, expired, Or.inr only⟩

/-- No id leads out of the store and no two ids lead to the same file. A record lies in a file right in the directory
    of its kind, which lies right in the directory of the store, and different records lie in different files. A call
    about a record is confined to its file (`Confines`); reading changes nothing and removing makes nothing. So it is
    with requests, whatever ids the stored records hold: looking at an entry's dataset changes nothing, an approval
    changes the files of the dataset and the entry that it has read, nothing but the files of these records matters to
    either, and a sweep removes files of expired entries and of the datasets that they refer to. -/
theorem ids_confined (s : JsonDirectory) :
    (∀ (d : Disk) p, d.resolve s.base s.root = .ok p → p = s.place) ∧
    (∀ kind id, s.target kind id = s.place ++ [kind.directory, fileName id] ∧
      (isSafeId id = true → ∀ (d : Disk) p, d.resolve s.base (s.file kind id) = .ok p → p = s.target kind id)) ∧
    (∀ kind id kind' id', s.target kind id = s.target kind' id' → kind = kind' ∧ id = id') ∧
    (∀ {α : Type} (c : Call α) st, (c.record? st = none → ∀ d, (s.run c st d).2 = d) ∧
      ∀ kind id, c.record? st = some (kind, id) → s.Confines c st kind id) ∧
    (∀ id st d, (s.run (.readEntry id) st d).2 = d ∧ (s.run (.readDataset id) st d).2 = d ∧
      s.RemovesOnly (Only .entry id) d (s.run (.deleteEntry id) st d).2 ∧
      s.RemovesOnly (Only .dataset id) d (s.run (.deleteDataset id) st d).2) ∧
    ∀ v : Service Disk, v.store = s.store → ∀ w : World Disk,
      (∀ id skip limit, (v.read id skip limit w).2.store = w.store ∧ ∀ w' : World Disk, w.calls = w'.calls →
        (∀ kind k, s.Looked id w.store kind k → s.Alike kind k w.store w'.store) →
        (v.read id skip limit w).1 = (v.read id skip limit w').1) ∧
      (∀ id a, s.ChangesOnly (s.Approved id w.store) w.store (v.approve id a w).2.store ∧
        ∀ w' : World Disk, w.calls = w'.calls →
          (∀ kind k, s.Looked id w.store kind k ∨ s.Approved id w.store kind k →
            s.Alike kind k w.store w'.store) →
          (v.approve id a w).1 = (v.approve id a w').1) ∧
      (∀ now, s.RemovesOnly (s.Swept v.settings.retention now w.store) w.store (v.sweepAt now w).2.store) ∧
      ∀ requests, s.ChangesOnly (fun _ _ => True) w.store (v.runAll w requests).store := by
  refine ⟨fun d p reached => ?_, fun kind id => ⟨?_, fun safe d p reached => ?_⟩, fun kind id kind' id' => target_inj,
    fun c st => ⟨run_of_none, fun kind id => run_confines⟩, fun id st d => ⟨rfl, rfl, ?_, ?_⟩,
    fun v hv w => ⟨fun id skip limit => ⟨?_, fun w' calls alike => ?_⟩, fun id a => ⟨?_, fun w' calls alike => ?_⟩,
      fun now => ?_, fun requests => ?_⟩⟩
  · exact (Disk.resolve_eq_normalize reached).trans s.normalize_root
  · rw [target, folder, List.append_assoc]
    rfl
  · exact (Disk.resolve_eq_normalize reached).trans (normalize_file safe)
  · exact discard_removes .entry id d
  · exact discard_removes .dataset id d
  · exact Service.read_keeps_store (hv ▸ s.readsOnly) id skip limit w
  · exact read_alike hv calls alike skip limit
  · exact approve_changes_only hv id a w
  · exact approve_alike hv calls alike a
  · exact sweepAt_removes_only hv now w
  · refine Service.runAll_relates (ChangesOnly.refl _) (fun _ _ _ => ChangesOnly.trans) (fun c st d => ?_) requests w
    rw [hv]
    show s.ChangesOnly _ d (s.run c st d).2
    rcases about : c.record? st with _ | ⟨kind, id⟩
    · rw [run_of_none about]
      exact .refl _ d
    · exact (run_changes about d).mono fun _ _ _ => trivial

/-- A store that is written with a way up and a slash at its end. Two records have the same id, and a third id would lead
    from the one to the other. -/
theorem ids_confined_namesakes :
    let s : JsonDirectory := ⟨["home"], "a/../data/"⟩
    let folders := ((Disk.empty.makeDirectories ["home", "a"]).makeDirectories ["home", "data", "dataset"]).makeDirectories
      ["home", "data", "metadata"]
    let d : Disk := ⟨(folders.nodes.insert ["home", "data", "dataset", "x.json"] (.file [1])).insert
      ["home", "data", "metadata", "x.json"] (.file [2])⟩
    let d' : Disk := ⟨d.nodes.insert ["home", "data", "dataset", "x.json"] (.file [3])⟩
    let v : Service Disk := ⟨s.store, (Turn.ofRequest (.entry "x")).source, .default, .counting []⟩
    let st : Stamp := ⟨"y", default⟩
    v.store = s.store ∧ isSafeId "x" = true ∧ isSafeId "../metadata/x" = false ∧
      d.resolve s.base s.root = .ok ["home", "data"] ∧
      d.resolve s.base (s.file .dataset "x") = .ok ["home", "data", "dataset", "x.json"] ∧
      s.target .dataset "x" = ["home", "data", "dataset", "x.json"] ∧
      s.run (.deleteDataset "../metadata/x") st d = (.error (.notFound "../metadata/x"), d) ∧
      (s.run (.deleteDataset "x") st d).1 = .ok () ∧
      (s.run (.deleteDataset "x") st d).2.node? ["home", "data", "metadata", "x.json"] = some (.file [2]) ∧
      (v.read "x" 0 1 ⟨d, 0, []⟩).1 = (v.read "x" 0 1 ⟨d', 0, []⟩).1 := by
  intro s folders d d' v st
  obtain ⟨root, files, -, calls, -, services⟩ := ids_confined s
  have resolved : d.resolve s.base s.root = .ok ["home", "data"] := by decide +kernel
  have reached : d.resolve s.base (s.file .dataset "x") = .ok ["home", "data", "dataset", "x.json"] := by decide +kernel
  have target : ["home", "data", "dataset", "x.json"] = s.target .dataset "x" := (files .dataset "x").2 rfl d _ reached
  have removal := (calls (.deleteDataset "x") st).2 .dataset "x" rfl
  have refused := ((calls (.deleteDataset "../metadata/x") st).2 .dataset _ rfl).refused rfl d
  have other : (s.run (.deleteDataset "x") st d).2.node? ["home", "data", "metadata", "x.json"] = some (.file [2]) :=
    removal.others d _ (by rw [← target]; decide) (Or.inl rfl)
  have removed : (s.run (.deleteDataset "x") st d).1 = .ok () := by decide +kernel
  have looks : ∀ q, Disk.LooksLike (d.node? q) (d'.node? q) := by
    intro q
    by_cases hq : q = ["home", "data", "dataset", "x.json"]
    · subst hq
      exact .file [1] [3]
    · have same : d'.node? q = d.node? q := by
        simp only [Disk.node?, d', Table.get?_insert, hq, if_false]
      exact same ▸ .refl _
  have alike : s.Alike .entry "x" d d' := ⟨by decide +kernel, fun _ _ q _ => looks q⟩
  refine ⟨rfl, rfl, rfl, resolved, reached, target.symm, refused, removed, other, ?_⟩
  refine ((services v rfl ⟨d, 0, []⟩).1 "x" 0 1).2 ⟨d', 0, []⟩ rfl fun kind k looked => ?_
  rcases looked with ⟨rfl, rfl⟩ | ⟨e, found, -⟩
  · exact alike
  · -- The file of the entry cannot be read, so no dataset is looked for.
    have unread : (s.load .entry Entry.ofJson? "x" d).toOption.isSome = false := by decide +kernel
    rw [found] at unread
    cases unread

end JsonDirectory

end GridCatalog
