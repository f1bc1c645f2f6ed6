import Mathlib.Data.List.Nodup
import GridCatalog.Proofs.Task

/-! What a sweep does.

    A sweep asks the store to remove every entry that has expired and, when it has done so, the dataset of the entry.
    Each of these calls may fail, so an entry meets one of three fates. What is left in the store and what the report
    says both follow from the fates (`Discards.store_eq`, `discardAll_inv`). -/

namespace GridCatalog

/-- What becomes of an entry that has expired. -/
inductive Fate where
  /-- The store does not remove the entry, and is not asked to remove the dataset. -/
  | kept (error : StoreError)
  /-- The store removes the entry, and does not remove the dataset when it is asked to. -/
  | halfway (error : StoreError)
  /-- The store removes the entry and then the dataset. -/
  | gone
deriving DecidableEq, Repr

namespace Fate

def isKept : Fate → Bool
  | kept _ => true
  | _ => false

def isGone : Fate → Bool
  | gone => true
  | _ => false

/-- The store after an entry has met its fate. -/
def leaves (m : Memory) (e : Entry) : Fate → Memory
  | kept _ => m
  | halfway _ => m.withoutEntry e.id
  | gone => (m.withoutEntry e.id).withoutDataset e.datasetId

theorem entry_leaves (m : Memory) (e : Entry) (f : Fate) (id : String) :
    (f.leaves m e).entries.get? id = if !f.isKept && e.id = id then none else m.entries.get? id := by
  cases f with
  | kept => simp [leaves, isKept]
  | halfway | gone => simp [leaves, isKept, Memory.withoutEntry, Memory.withoutDataset, Table.get?_erase, eq_comm]

theorem dataset_leaves (m : Memory) (e : Entry) (f : Fate) (id : String) :
    (f.leaves m e).datasets.get? id = if f.isGone && e.datasetId = id then none else m.datasets.get? id := by
  cases f with
  | kept | halfway => simp [leaves, isGone, Memory.withoutEntry]
  | gone => simp [leaves, isGone, Memory.withoutEntry, Memory.withoutDataset, Table.get?_erase, eq_comm]

end Fate

/-- The store after entries have met their fates, one after the other. -/
def Memory.swept (m : Memory) (fates : List (Entry × Fate)) : Memory := fates.foldl (fun m x => x.2.leaves m x.1) m

namespace Memory
variable {m : Memory} {fates : List (Entry × Fate)}

/-- An entry is gone after a sweep exactly if it has not been kept. -/
theorem entry_swept (id : String) : (m.swept fates).entries.get? id =
    if fates.any fun x => !x.2.isKept && x.1.id = id then none else m.entries.get? id := by
  induction fates generalizing m with
  | nil => rfl
  | cons x fates ih =>
    rw [swept, List.foldl_cons, ← swept, ih, Fate.entry_leaves, List.any_cons]
    cases fates.any fun x => !x.2.isKept && x.1.id = id <;> simp

theorem dataset_swept (id : String) : (m.swept fates).datasets.get? id =
    if fates.any fun x => x.2.isGone && x.1.datasetId = id then none else m.datasets.get? id := by
  induction fates generalizing m with
  | nil => rfl
  | cons x fates ih =>
    rw [swept, List.foldl_cons, ← swept, ih, Fate.dataset_leaves, List.any_cons]
    cases fates.any fun x => x.2.isGone && x.1.datasetId = id <;> simp

theorem entry_gone {e : Entry} {f : Fate} (he : (e, f) ∈ fates) (h : f.isKept = false) :
    (m.swept fates).entries.get? e.id = none := by
  rw [entry_swept, if_pos]
  exact List.any_eq_true.mpr ⟨_, he, by simp [h]⟩

theorem dataset_gone {e : Entry} (he : (e, .gone) ∈ fates) : (m.swept fates).datasets.get? e.datasetId = none := by
  rw [dataset_swept, if_pos]
  exact List.any_eq_true.mpr ⟨_, he, by simp [Fate.isGone]⟩

theorem dataset_left {id : String} (h : ∀ x ∈ fates, x.2.isGone = true → x.1.datasetId ≠ id) :
    (m.swept fates).datasets.get? id = m.datasets.get? id := by
  rw [dataset_swept, if_neg]
  simp only [List.any_eq_true, Bool.and_eq_true, decide_eq_true_eq, not_exists, not_and]
  exact h

end Memory

namespace Service
variable {σ : Type} {s : Service σ}

/-- An entry meets its fate by what the store answers when it is asked to remove the entry and, if it has removed it,
    the dataset. -/
inductive Meets (s : Service σ) (e : Entry) (w : World σ) : Fate → World σ → Prop
  | kept {v w' : World σ} {error : StoreError} (entry : s.call (.deleteEntry e.id) w = (.error error, v))
      (store : w'.store = v.store) (calls : w'.calls = v.calls) : Meets s e w (.kept error) w'
  | halfway {v v' w' : World σ} {error : StoreError} (entry : s.call (.deleteEntry e.id) w = (.ok (), v))
      (dataset : s.call (.deleteDataset e.datasetId) v = (.error error, v')) (store : w'.store = v'.store)
      (calls : w'.calls = v'.calls) : Meets s e w (.halfway error) w'
  | gone {v w' : World σ} (entry : s.call (.deleteEntry e.id) w = (.ok (), v))
      (dataset : s.call (.deleteDataset e.datasetId) v = (.ok (), w')) : Meets s e w .gone w'

/-- Entries meet their fates one after the other, and nothing else is asked of the store. -/
inductive Discards (s : Service σ) : World σ → List (Entry × Fate) → World σ → Prop
  | nil {w : World σ} : Discards s w [] w
  | cons {w v w' : World σ} {e : Entry} {f : Fate} {rest : List (Entry × Fate)} (first : s.Meets e w f v)
      (next : Discards s v rest w') : Discards s w ((e, f) :: rest) w'

theorem discard_inv {e : Entry} {b : Bool} {w w' : World σ} (h : s.discard e w = (b, w')) :
    ∃ f, s.Meets e w f w' ∧ b = f.isGone := by
  unfold discard at h
  obtain ⟨r₁, v, entry, h⟩ := Task.state_bind_inv h
  rcases r₁ with error | ⟨⟩
  · cases h
    exact ⟨.kept error, .kept entry rfl rfl, rfl⟩
  obtain ⟨r₂, v', dataset, h⟩ := Task.state_bind_inv h
  rcases r₂ with error | ⟨⟩ <;> cases h
  · exact ⟨.halfway error, .halfway entry dataset rfl rfl, rfl⟩
  · exact ⟨.gone, .gone entry dataset, rfl⟩

/-- The report of a sweep lists the entries by whether they are gone with their datasets. -/
theorem discardAll_inv {es : List Entry} {report r : SweepReport} {w w' : World σ}
    (h : s.discardAll report es w = (r, w')) :
    ∃ fates, s.Discards w fates w' ∧ fates.map Prod.fst = es ∧
      r.removed = report.removed ++ ((fates.filter fun x => x.2.isGone).map fun x => x.1.id) ∧
      r.failed = report.failed ++ ((fates.filter fun x => !x.2.isGone).map fun x => x.1.id) := by
  induction es generalizing report w with
  | nil =>
    cases h
    exact ⟨[], .nil, rfl, (List.append_nil _).symm, (List.append_nil _).symm⟩
  | cons e es ih =>
    obtain ⟨b, v, hd, h⟩ := Task.state_bind_inv h
    obtain ⟨f, first, rfl⟩ := discard_inv hd
    obtain ⟨fates, discards, rfl, removed, failed⟩ := ih h
    refine ⟨(e, f) :: fates, .cons first discards, rfl, ?_, ?_⟩
    · rw [removed, SweepReport.add]
      cases gone : f.isGone <;> simp [gone]
    · rw [failed, SweepReport.add]
      cases gone : f.isGone <;> simp [gone]

/-! ### Stores in memory -/

section Memory
variable {s : Service Memory} {w w' : World Memory} {fates : List (Entry × Fate)}

/-- The store is as the fate of the entry leaves it. -/
theorem Meets.store_eq (hs : s.store = Memory.store) {e : Entry} {f : Fate} (h : s.Meets e w f w') :
    w.calls ≤ w'.calls ∧ w'.store = f.leaves w.store e := by
  cases h with
  | kept entry store calls =>
    obtain ⟨hn, ⟨_, -, same⟩ | ⟨_, ⟨⟩, -⟩⟩ := call_inv hs entry
    exact ⟨by omega, store.trans same⟩
  | halfway entry dataset store calls =>
    obtain ⟨hn, ⟨_, ⟨⟩, -⟩ | ⟨_, -, run⟩⟩ := call_inv hs entry
    obtain ⟨hn', ⟨_, -, same⟩ | ⟨_, ⟨⟩, -⟩⟩ := call_inv hs dataset
    exact ⟨by omega, by rw [store, same, Memory.run_deleteEntry run]; rfl⟩
  | gone entry dataset =>
    obtain ⟨hn, ⟨_, ⟨⟩, -⟩ | ⟨_, -, run⟩⟩ := call_inv hs entry
    obtain ⟨hn', ⟨_, ⟨⟩, -⟩ | ⟨_, -, run'⟩⟩ := call_inv hs dataset
    exact ⟨by omega, by rw [Memory.run_deleteDataset run', Memory.run_deleteEntry run]; rfl⟩

/-- The store after a sweep is as the fates leave it. -/
theorem Discards.store_eq (hs : s.store = Memory.store) (h : s.Discards w fates w') :
    w'.store = w.store.swept fates := by
  induction h with
  | nil => rfl
  | cons first next ih =>
    rw [ih, (first.store_eq hs).2]
    rfl

/-- A sweep that cannot read the expired entries does nothing; any other one decides their fates. -/
theorem sweepAt_inv (hs : s.store = Memory.store) {now : Instant} {report : SweepReport}
    (h : s.sweepAt now w = (report, w')) :
    (∃ error v, s.call (.expiredEntries s.settings.retention now) w = (.error error, v) ∧ report = ⟨[], []⟩ ∧
      w'.store = w.store ∧ w'.calls = v.calls) ∨
    ∃ v fates v', s.call (.expiredEntries s.settings.retention now) w =
        (.ok (w.store.entries.values.filter fun e => s.settings.retention.isExpired e now), v) ∧
      s.Discards v fates v' ∧ v'.store = w'.store ∧ v'.calls = w'.calls ∧ w'.store = w.store.swept fates ∧
      fates.map Prod.fst = (w.store.entries.values.filter fun e => s.settings.retention.isExpired e now) ∧
      report.removed = ((fates.filter fun x => x.2.isGone).map fun x => x.1.id) ∧
      report.failed = ((fates.filter fun x => !x.2.isGone).map fun x => x.1.id) := by
  unfold sweepAt at h
  obtain ⟨r, v, read, h⟩ := Task.state_bind_inv h
  obtain ⟨-, ⟨error, rfl, hv⟩ | ⟨es, rfl, run⟩⟩ := call_inv hs read
  · cases h
    exact Or.inl ⟨error, v, read, rfl, hv, rfl⟩
  obtain ⟨hes, hv⟩ := Prod.mk.inj run
  cases hes
  obtain ⟨report', v', hd, h⟩ := Task.state_bind_inv h
  cases h
  obtain ⟨fates, discards, expired, removed, failed⟩ := discardAll_inv hd
  have left := discards.store_eq hs
  rw [← hv] at left
  exact Or.inr ⟨v, fates, v', read, discards, rfl, rfl, left, expired, removed, failed⟩

end Memory

end Service

/-- The fates are those of the entries of a store that have expired, each of which has one. -/
structure Memory.Decides (m : Memory) (r : Retention) (now : Instant) (fates : List (Entry × Fate)) : Prop where
  nodup : (fates.map fun x => x.1.id).Nodup
  mem (id : String) (e : Entry) :
    (e.id = id ∧ ∃ f, (e, f) ∈ fates) ↔ m.entries.get? id = some e ∧ r.isExpired e now = true

namespace Memory.Decides
variable {m : Memory} {r : Retention} {now : Instant} {fates : List (Entry × Fate)} {e : Entry} {f f' : Fate}

theorem of_expired (keyed : m.EntriesKeyed)
    (expired : fates.map Prod.fst = m.entries.values.filter fun e => r.isExpired e now) : m.Decides r now fates where
  nodup := by
    have : (fates.map fun x => x.1.id) = (fates.map Prod.fst).map Entry.id := (List.map_map ..).symm
    rw [this, expired]
    exact keyed.nodup.sublist (List.filter_sublist.map _)
  mem id e := by
    have stands : (∃ f, (e, f) ∈ fates) ↔ e ∈ m.entries.values ∧ r.isExpired e now = true := by
      refine Iff.trans ?_ (List.mem_filter (p := fun e => r.isExpired e now))
      rw [← expired, List.mem_map]
      exact ⟨fun ⟨f, h⟩ => ⟨_, h, rfl⟩, fun ⟨⟨_, f⟩, h, he⟩ => ⟨f, he ▸ h⟩⟩
    rw [stands]
    constructor
    · rintro ⟨rfl, mem, h⟩
      exact ⟨keyed.get?_of_mem mem, h⟩
    · rintro ⟨stored, h⟩
      exact ⟨keyed stored, mem_entries_of_get? stored, h⟩

/-- The fate of an entry is the only one under its id. -/
theorem unique (h : m.Decides r now fates) {x : Entry × Fate} (hx : x ∈ fates) (he : (e, f) ∈ fates)
    (same : x.1.id = e.id) : x = (e, f) :=
  List.inj_on_of_nodup_map h.nodup hx he same

theorem stored (h : m.Decides r now fates) (he : (e, f) ∈ fates) : m.entries.get? e.id = some e :=
  ((h.mem e.id e).mp ⟨rfl, f, he⟩).1

theorem entry_kept (h : m.Decides r now fates) {error : StoreError} (he : (e, .kept error) ∈ fates) :
    (m.swept fates).entries.get? e.id = some e := by
  rw [entry_swept, if_neg, h.stored he]
  simp only [List.any_eq_true, Bool.and_eq_true, decide_eq_true_eq, not_exists, not_and]
  intro x hx left same
  cases h.unique hx he same
  cases left

theorem entry_unexpired (h : m.Decides r now fates) {id : String}
    (unexpired : ∀ e, m.entries.get? id = some e → r.isExpired e now = false) :
    (m.swept fates).entries.get? id = m.entries.get? id := by
  rw [entry_swept, if_neg]
  simp only [List.any_eq_true, Bool.and_eq_true, decide_eq_true_eq, not_exists, not_and]
  intro x hx _ hid
  obtain ⟨stored, expired⟩ := (h.mem id x.1).mp ⟨hid, x.2, hx⟩
  rw [unexpired _ stored] at expired
  cases expired

/-- When no entry has been kept, no entry that is left has expired. -/
theorem unexpired (h : m.Decides r now fates) (keyed : m.EntriesKeyed) (all : ∀ x ∈ fates, x.2.isKept = false) :
    ((m.swept fates).entries.values.filter fun e => r.isExpired e now) = [] := by
  have left : ∀ {id e}, (m.swept fates).entries.get? id = some e → m.entries.get? id = some e := fun hget => by
    rw [entry_swept] at hget
    split at hget
    · cases hget
    · exact hget
  have keyed' : (m.swept fates).EntriesKeyed := fun hget => keyed (left hget)
  rw [List.filter_eq_nil_iff]
  intro e he expired
  have hget := keyed'.get?_of_mem he
  obtain ⟨-, f, hf⟩ := (h.mem e.id e).mpr ⟨left hget, expired⟩
  rw [entry_gone hf (all _ hf)] at hget
  cases hget

end Memory.Decides

end GridCatalog
