import GridCatalog.Proofs.References
import GridCatalog.Proofs.RowPages

/-! Approved entries stay.

    An entry that is neither temporary nor archived does not expire, whatever the retention, and the
    removal of another entry does not reach its dataset, which nobody else refers to. So an approved
    entry and its dataset change only through another approval or the archiving of the same entry
    (`approval_durable`). -/

namespace GridCatalog

theorem Retention.isExpired_eq_false {e : Entry} (approved : e.isTemporary = false) (listed : e.isArchived = false)
    (r : Retention) (now : Instant) : r.isExpired e now = false := by
  rw [isExpired, approved, listed]
  rfl

/-- A page from the first row to a bound that no row reaches is the whole dataset. -/
theorem Dataset.page_of_le (d : Dataset) {limit : Int} (h : d.rowCount ≤ limit) : d.page 0 limit = d := by
  have hsize : d.body.length ≤ limit.toNat := by
    have : (d.body.length : Int) ≤ limit := h
    omega
  have : pageRows d.body 0 limit = d.body := by
    simp [pageRows, pageBounds, clampBound, Nat.min_eq_right hsize]
  rw [page, this]

/-- Whether the request may change the entry with an id on purpose. -/
def Request.concerns (id : String) : Request → Bool
  | .approve k _ | .archive k => k = id
  | _ => false

/-! ### Reading -/

namespace Service
variable {s : Service Memory} {w : World Memory} {id : String} {e : Entry} {d : Dataset}

theorem entry_of_stored (hs : s.store = Memory.store) (entry : w.store.entries.get? id = some e)
    (h : s.surroundings.fault w.calls .readEntry = none) :
    s.entry id w = (.ok e, { w with calls := w.calls + 1 }) := by
  rw [Service.entry, callOr_of_no_fault hs h, Memory.run, entry]
  rfl

theorem holds_of_stored (entry : w.store.entries.get? id = some e) (dataset : w.store.datasets.get? e.datasetId = some d) :
    Memory.store.Holds w.store id e d :=
  ⟨fun _ => congrArg (Memory.found id) entry, fun _ => congrArg (Memory.found e.datasetId) dataset⟩

theorem read_of_stored (hs : s.store = Memory.store) (entry : w.store.entries.get? id = some e)
    (dataset : w.store.datasets.get? e.datasetId = some d) (h : s.surroundings.fault w.calls .readEntry = none)
    (h' : s.surroundings.fault (w.calls + 1) .readDataset = none) (skip limit : Int) :
    (s.read id skip limit w).1 = .ok (d.page skip limit) :=
  congrArg Prod.fst (read_holds (hs ▸ Memory.readsOnly) (hs ▸ holds_of_stored entry dataset) h h' skip limit)

end Service

/-! ### Writing elsewhere -/

/-- An entry is stored under an id, and its dataset is stored. -/
structure Memory.Holds (m : Memory) (id : String) (e : Entry) (d : Dataset) : Prop where
  entry : m.entries.get? id = some e
  dataset : m.datasets.get? e.datasetId = some d

namespace Memory.Holds
variable {m : Memory} {id : String} {e : Entry} {d : Dataset}

theorem insertDataset (h : m.Holds id e d) {x : Dataset} (other : e.datasetId ≠ x.id) :
    (m.insertDataset x).Holds id e d :=
  ⟨h.entry, by rw [get?_insertDataset, if_neg other, h.dataset]⟩

theorem insertEntry (h : m.Holds id e d) {f : Entry} (other : id ≠ f.id) : (m.insertEntry f).Holds id e d :=
  ⟨by rw [get?_insertEntry, if_neg other, h.entry], h.dataset⟩

theorem withoutEntry (h : m.Holds id e d) {k : String} (other : id ≠ k) : (m.withoutEntry k).Holds id e d :=
  ⟨by rw [get?_withoutEntry, if_neg other, h.entry], h.dataset⟩

theorem withoutDataset (h : m.Holds id e d) {k : String} (other : e.datasetId ≠ k) :
    (m.withoutDataset k).Holds id e d :=
  ⟨h.entry, by rw [get?_withoutDataset, if_neg other, h.dataset]⟩

end Memory.Holds

/-! ### Runs -/

namespace World
variable {u : Surroundings} {w w' : World Memory} {id : String} {e : Entry} {d : Dataset}

/-- An approved entry is stored with its dataset. -/
structure Settled (u : Surroundings) (id : String) (e : Entry) (d : Dataset) (w : World Memory) : Prop where
  sound : Sound u w
  holds : w.store.Holds id e d
  approved : e.isTemporary = false
  listed : e.isArchived = false

namespace Settled

/-- The dataset of another entry is another dataset. -/
theorem other_dataset (h : Settled u id e d w) {k : String} {f : Entry} (hk : k ≠ id)
    (stored : w.store.entries.get? k = some f) : e.datasetId ≠ f.datasetId :=
  fun heq => hk (h.sound.refs.unshared stored h.holds.entry heq.symm)

/-- An entry that has expired is another one. -/
theorem other_of_expired (h : Settled u id e d w) {f : Entry} (stored : w.store.entries.get? f.id = some f)
    {r : Retention} {now : Instant} (expired : r.isExpired f now = true) : f.id ≠ id := by
  rintro rfl
  rw [h.holds.entry] at stored
  cases stored
  rw [Retention.isExpired_eq_false h.approved h.listed] at expired
  cases expired

theorem event (hu : Function.Injective u.freshId) (h : Settled u id e d w) {q : Request}
    {o : Except Failure Answer} (apart : q.concerns id = false) (he : Event u q o w w') : Settled u id e d w' := by
  have refs := h.sound.refs
  have unissued : ∀ {n}, w.calls ≤ n → e.datasetId ≠ u.freshId n := fun hn => by
    rintro heq
    have stored := h.holds.dataset
    rw [heq, h.sound.issued.fresh_dataset hu hn] at stored
    cases stored
  -- Nobody writes to the entry or its dataset: fresh ids are new, no other entry has the dataset, and an approved
  -- entry does not expire.
  refine ⟨h.sound.event hu he, ?_, h.approved, h.listed⟩
  cases he with
  | quiet _ _ store => exact store ▸ h.holds
  | datasetOnly _ first _ store => exact store ▸ h.holds.insertDataset (unissued first)
  | @created _ _ n k _ _ _ _ _ _ d' _ first next _ dataset store =>
    have new_dataset : e.datasetId ≠ d'.id := dataset ▸ unissued first
    have new_entry : id ≠ u.freshId k := fun heq => by
      obtain ⟨i, hi, heq'⟩ := h.sound.issued.entry h.holds.entry
      have := hu (heq'.symm.trans heq)
      omega
    exact store ▸ (h.holds.insertDataset new_dataset).insertEntry new_entry
  | @reshaped k _ _ _ _ _ f x entry dataset _ store =>
    have hne := h.other_dataset (of_decide_eq_false apart) entry
    rw [← refs.datasetKeyed dataset] at hne
    exact store ▸ h.holds.insertDataset hne
  | @approved k a t _ _ _ f _ x entry dataset _ written store =>
    have hk : k ≠ id := of_decide_eq_false apart
    have hne := h.other_dataset hk entry
    rw [← refs.datasetKeyed dataset] at hne
    obtain rfl : f.id = k := refs.entryKeyed entry
    have holds : (w.store.insertDataset ((x.approved a f).touched t)).Holds id e d := h.holds.insertDataset hne
    exact store ▸ holds.insertEntry (written ▸ hk.symm)
  | @archived k _ _ _ _ f _ entry _ written store =>
    have hk : k ≠ id := of_decide_eq_false apart
    obtain rfl : f.id = k := refs.entryKeyed entry
    rw [store, written]
    exact h.holds.insertEntry hk.symm
  | entryRemoved entry expired _ store =>
    exact store ▸ h.holds.withoutEntry (h.other_of_expired entry expired).symm
  | removed entry expired _ store =>
    have hne := h.other_of_expired entry expired
    exact store ▸ (h.holds.withoutEntry hne.symm).withoutDataset (h.other_dataset hne entry)

theorem after (hu : Function.Injective u.freshId) {ts : List Turn} (h : Settled u id e d w)
    (apart : ∀ t ∈ ts, t.request.concerns id = false) : Settled u id e d (w.after u ts) := by
  induction ts generalizing w with
  | nil => exact h
  | cons t ts ih =>
    have first : Settled u id e d (t.serve u w).2 :=
      t.serve_induct h.sound.refs.entryKeyed (fun _ _ he hv => hv.event hu (apart t List.mem_cons_self) he) h
    exact ih first fun t' ht' => apart t' (List.mem_cons_of_mem _ ht')

end Settled

/-- After an approval that succeeds, the entry that it gives and the reshaped dataset are stored. -/
theorem Settled.of_approval (hu : Function.Injective u.freshId) (sound : Sound u w) {t : Turn} {a : Approval}
    (approve : t.request = .approve id a) (ok : (t.serve u w).1 = .ok (.entry e)) :
    ∃ former d₀ time, w.store.entries.get? id = some former ∧ w.store.datasets.get? former.datasetId = some d₀ ∧
      Settled u id e ((d₀.approved a former).touched time) (t.serve u w).2 := by
  have event := Turn.serve_event (u := u) (w := w) (t := t) (by rw [approve]; trivial)
  rw [approve, ok] at event
  have after := sound.event hu event
  generalize (t.serve u w).2 = w' at event after
  cases event with
  | quiet failed =>
    obtain ⟨_, hf⟩ := failed trivial
    cases hf
  | @approved _ _ time _ _ _ former _ d₀ entry dataset _ written store =>
    have same : d₀.id = former.datasetId := sound.refs.datasetKeyed dataset
    have hid : former.id = id := sound.refs.entryKeyed entry
    subst written
    refine ⟨former, d₀, time, entry, dataset, after, ⟨?_, ?_⟩, rfl, rfl⟩
    · rw [store, Memory.get?_insertEntry]
      exact if_pos hid.symm
    · rw [store]
      exact Memory.get?_insertDataset_self _

/-- As long as nobody approves or archives it again, an approved entry is found as the approval gave it, and its
    dataset as the approval reshaped it, whatever is swept under whatever retention and whatever else happens. -/
theorem approval_durable (hu : Function.Injective u.freshId) {before later : List Turn} {t : Turn} {a : Approval}
    (approve : t.request = .approve id a) (ok : (t.serve u (reached u before)).1 = .ok (.entry e))
    (apart : ∀ t' ∈ later, t'.request.concerns id = false) :
    ∃ former d₀ time, (reached u before).store.entries.get? id = some former ∧
      (reached u before).store.datasets.get? former.datasetId = some d₀ ∧
      let w := reached u (before ++ t :: later)
      let d := (d₀.approved a former).touched time
      (∀ limit : Int, d.rowCount ≤ limit → d.page 0 limit = d) ∧
      ∀ t' : Turn,
        (t'.request = .entry id → u.fault w.calls .readEntry = none → (t'.serve u w).1 = .ok (.entry e)) ∧
        ∀ skip limit, t'.request = .read id skip limit → u.fault w.calls .readEntry = none →
          u.fault (w.calls + 1) .readDataset = none → (t'.serve u w).1 = .ok (.dataset (d.page skip limit)) := by
  obtain ⟨former, d₀, time, entry, dataset, settled⟩ := Settled.of_approval hu (Sound.reached hu before) approve ok
  have holds := (settled.after hu apart).holds
  rw [show (t.serve u (reached u before)).2.after u later = reached u (before ++ t :: later) from
    (reached_append before (t :: later)).symm] at holds
  refine ⟨former, d₀, time, entry, dataset, fun _ => Dataset.page_of_le _, fun t' => ?_⟩
  obtain ⟨source, settings, request⟩ := t'
  constructor
  · rintro rfl fault
    exact congrArg Prod.fst (Task.bind_ok (Service.entry_of_stored rfl holds.entry fault))
  · rintro skip limit rfl fault fault'
    have served := Service.read_of_stored (s := Turn.service ⟨source, settings, .read id skip limit⟩ u) rfl
      holds.entry holds.dataset fault fault' skip limit
    exact congrArg Prod.fst (Task.bind_ok (Prod.ext served rfl))

theorem ok_of_toOption {ε α : Type} {x : Except ε α} {a : α} (h : x.toOption = some a) : x = .ok a := by
  cases x with
  | error => cases h
  | ok => exact congrArg _ (Option.some.inj h)

/-- Two sweeps under a retention that keeps nothing remove the other entry, the first one only halfway. -/
theorem approval_durable_swept :
    let u := Surroundings.counting [12]
    let late : Instant := ⟨90000000, 0, 0, by decide, by decide, by decide, by decide⟩
    let ingest := Turn.ofRequest (.ingest "list")
    let approve := Turn.ofRequest (.approve "ii" ⟨"towns", [⟨1, 0, "town", 0, false⟩]⟩)
    let sweep := { Turn.ofRequest (.sweep (some late)) with settings := { Settings.default with retention := ⟨-5, 0⟩ } }
    let later := [ingest, .ofRequest (.archive "iiiiiiii"), sweep, sweep]
    let w := reached u ([ingest] ++ approve :: later)
    let e : Entry := {
      id := "ii", name := "towns", userId := "USER_ID", header := [⟨"town", 1, 0, .texts, 0, false⟩]
      examples := [[.texts ["Rome"]], [.texts ["Oslo"]], [.texts []]], size := 3, purpose := .training
      datasetId := "i", provenance := .uploadedFile, sourceId := "list", isTemporary := false, isArchived := false
      created := some default, updated := some default, synced := some default, archived := none }
    (approve.serve u (reached u [ingest])).1 = .ok (.entry e) ∧ (∀ t ∈ later, t.request.concerns "ii" = false) ∧
      w.store.entries.keys = ["ii"] ∧ w.store.datasets.keys = ["i", "iiiiiii"] ∧
      ((Turn.ofRequest (.entry "ii")).serve u w).1 = .ok (.entry e) ∧
      ∃ d : Dataset, ((Turn.ofRequest (.read "ii" 0 9223372036854775807)).serve u w).1 = .ok (.dataset d) ∧
        d.name = "towns" := by
  intro u late ingest approve sweep later w e
  have ok : (approve.serve u (reached u [ingest])).1 = .ok (.entry e) := ok_of_toOption (by decide +kernel)
  have apart : ∀ t ∈ later, t.request.concerns "ii" = false := by decide +kernel
  obtain ⟨former, d₀, time, -, -, -, reads⟩ :=
    approval_durable (Surroundings.counting_injective [12]) (a := ⟨"towns", [⟨1, 0, "town", 0, false⟩]⟩) rfl ok apart
  have entryRead := (reads (.ofRequest (.entry "ii"))).1 rfl (by decide +kernel)
  have datasetRead := (reads (.ofRequest (.read "ii" 0 9223372036854775807))).2 _ _ rfl (by decide +kernel)
    (by decide +kernel)
  exact ⟨ok, apart, by decide +kernel, by decide +kernel, entryRead, _, datasetRead, rfl⟩

end World

end GridCatalog
