import GridCatalog.Proofs.Run

/-! References between entries and datasets.

    Each entry refers to a stored dataset that no other entry refers to, and a dataset that was
    approved for a stored entry is the one that the entry refers to. Every event keeps this as long
    as fresh ids differ from all ids that are in use; those in use were fresh at an earlier call
    (`Issued`). -/

namespace GridCatalog

/-- Every record lies under its own id, and the references between the records are right. -/
structure Memory.Referential (m : Memory) : Prop where
  entryKeyed : ∀ {id e}, m.entries.get? id = some e → e.id = id
  datasetKeyed : ∀ {id d}, m.datasets.get? id = some d → d.id = id
  referred : ∀ {id e}, m.entries.get? id = some e → ∃ d, m.datasets.get? e.datasetId = some d
  unshared : ∀ {i j e f}, m.entries.get? i = some e → m.entries.get? j = some f →
    e.datasetId = f.datasetId → i = j
  owned : ∀ {id d k e}, m.datasets.get? id = some d → d.entryId = some k → m.entries.get? k = some e →
    e.datasetId = id

namespace Memory.Referential
variable {m : Memory} {d : Dataset} {e : Entry}

theorem empty : Memory.empty.Referential where
  entryKeyed h := by cases h
  datasetKeyed h := by cases h
  referred h := by cases h
  unshared h := by cases h
  owned h := by cases h

/-- A dataset that is not stored is not referred to. -/
theorem unreferred (h : m.Referential) {id : String} (new : m.datasets.get? id = none) {i : String}
    (he : m.entries.get? i = some e) : e.datasetId ≠ id := by
  rintro rfl
  obtain ⟨d, hd⟩ := h.referred he
  rw [new] at hd
  cases hd

/-- Storing a dataset keeps the references to it, and an owner that it names has to refer to it. -/
theorem insertDataset (h : m.Referential)
    (owner : ∀ {k e}, d.entryId = some k → m.entries.get? k = some e → e.datasetId = d.id) :
    (m.insertDataset d).Referential where
  entryKeyed he := h.entryKeyed he
  datasetKeyed hd := by
    rcases insertDataset_inv hd with ⟨rfl, rfl⟩ | ⟨-, hd⟩
    · rfl
    · exact h.datasetKeyed hd
  referred he := by
    obtain ⟨x, hx⟩ := h.referred he
    rw [get?_insertDataset]
    split
    · exact ⟨d, rfl⟩
    · exact ⟨x, hx⟩
  unshared he hf := h.unshared he hf
  owned hd hk he := by
    rcases insertDataset_inv hd with ⟨rfl, rfl⟩ | ⟨-, hd⟩
    · exact owner hk he
    · exact h.owned hd hk he

/-- A new entry may be stored once its dataset is, if that is nobody else's. -/
theorem insertNewEntry (h : m.Referential) (dataset : ∃ d, m.datasets.get? e.datasetId = some d)
    (unreferred : ∀ {i f}, m.entries.get? i = some f → f.datasetId ≠ e.datasetId)
    (unnamed : ∀ {id d}, m.datasets.get? id = some d → d.entryId ≠ some e.id) :
    (m.insertEntry e).Referential where
  entryKeyed he := by
    rcases insertEntry_inv he with ⟨rfl, rfl⟩ | ⟨-, he⟩
    · rfl
    · exact h.entryKeyed he
  datasetKeyed hd := h.datasetKeyed hd
  referred he := by
    rcases insertEntry_inv he with ⟨rfl, rfl⟩ | ⟨-, he⟩
    · exact dataset
    · exact h.referred he
  unshared he hf heq := by
    rcases insertEntry_inv he with ⟨rfl, rfl⟩ | ⟨-, he'⟩ <;> rcases insertEntry_inv hf with ⟨rfl, rfl⟩ | ⟨-, hf'⟩
    · rfl
    · exact absurd heq.symm (unreferred hf')
    · exact absurd heq (unreferred he')
    · exact h.unshared he' hf' heq
  owned hd hk he := by
    rcases insertEntry_inv he with ⟨rfl, rfl⟩ | ⟨-, he⟩
    · exact absurd hk (unnamed hd)
    · exact h.owned hd hk he

/-- An entry may be replaced by one that refers to the same dataset. -/
theorem replaceEntry (h : m.Referential) {e₀ : Entry} (stored : m.entries.get? e.id = some e₀)
    (same : e.datasetId = e₀.datasetId) : (m.insertEntry e).Referential where
  entryKeyed he := by
    rcases insertEntry_inv he with ⟨rfl, rfl⟩ | ⟨-, he⟩
    · rfl
    · exact h.entryKeyed he
  datasetKeyed hd := h.datasetKeyed hd
  referred he := by
    rcases insertEntry_inv he with ⟨rfl, rfl⟩ | ⟨-, he⟩
    · exact same ▸ h.referred stored
    · exact h.referred he
  unshared he hf heq := by
    rcases insertEntry_inv he with ⟨rfl, rfl⟩ | ⟨-, he'⟩ <;> rcases insertEntry_inv hf with ⟨rfl, rfl⟩ | ⟨-, hf'⟩
    · rfl
    · exact h.unshared stored hf' (same.symm.trans heq)
    · exact h.unshared he' stored (heq.trans same)
    · exact h.unshared he' hf' heq
  owned hd hk he := by
    rcases insertEntry_inv he with ⟨rfl, rfl⟩ | ⟨-, he⟩
    · exact same.trans (h.owned hd hk stored)
    · exact h.owned hd hk he

theorem withoutEntry (h : m.Referential) (id : String) : (m.withoutEntry id).Referential where
  entryKeyed he := h.entryKeyed (withoutEntry_inv he).2
  datasetKeyed hd := h.datasetKeyed hd
  referred he := h.referred (withoutEntry_inv he).2
  unshared he hf := h.unshared (withoutEntry_inv he).2 (withoutEntry_inv hf).2
  owned hd hk he := h.owned hd hk (withoutEntry_inv he).2

/-- A dataset may be removed if no entry refers to it. -/
theorem withoutDataset (h : m.Referential) {id : String}
    (unreferred : ∀ {i f}, m.entries.get? i = some f → f.datasetId ≠ id) : (m.withoutDataset id).Referential where
  entryKeyed he := h.entryKeyed he
  datasetKeyed hd := h.datasetKeyed (withoutDataset_inv hd).2
  referred he := by
    obtain ⟨x, hx⟩ := h.referred he
    exact ⟨x, by rw [get?_withoutDataset, if_neg (unreferred he), hx]⟩
  unshared he hf := h.unshared he hf
  owned hd hk he := h.owned (withoutDataset_inv hd).2 hk he

end Memory.Referential

/-! ### Ids in use -/

/-- Every id that the first store calls could use, and no other, is in use. -/
structure Issued (u : Surroundings) (m : Memory) (calls : Nat) : Prop where
  entry : ∀ {id e}, m.entries.get? id = some e → ∃ n < calls, id = u.freshId n
  dataset : ∀ {id d}, m.datasets.get? id = some d → ∃ n < calls, id = u.freshId n
  owner : ∀ {id d k}, m.datasets.get? id = some d → d.entryId = some k → ∃ n < calls, k = u.freshId n

namespace Issued
variable {u : Surroundings} {m : Memory} {c c' n : Nat} {d : Dataset} {e : Entry}

theorem empty (u : Surroundings) (c : Nat) : Issued u Memory.empty c where
  entry h := by cases h
  dataset h := by cases h
  owner h := by cases h

theorem mono (h : Issued u m c) (hc : c ≤ c') : Issued u m c' where
  entry he := by
    obtain ⟨n, hn, rfl⟩ := h.entry he
    exact ⟨n, by omega, rfl⟩
  dataset hd := by
    obtain ⟨n, hn, rfl⟩ := h.dataset hd
    exact ⟨n, by omega, rfl⟩
  owner hd hk := by
    obtain ⟨n, hn, rfl⟩ := h.owner hd hk
    exact ⟨n, by omega, rfl⟩

theorem insertDataset (h : Issued u m c) (id : ∃ n < c, d.id = u.freshId n)
    (owner : ∀ {k}, d.entryId = some k → ∃ n < c, k = u.freshId n) : Issued u (m.insertDataset d) c where
  entry he := h.entry he
  dataset hd := by
    rcases Memory.insertDataset_inv hd with ⟨rfl, -⟩ | ⟨-, hd⟩
    · exact id
    · exact h.dataset hd
  owner hd hk := by
    rcases Memory.insertDataset_inv hd with ⟨-, rfl⟩ | ⟨-, hd⟩
    · exact owner hk
    · exact h.owner hd hk

theorem insertEntry (h : Issued u m c) (id : ∃ n < c, e.id = u.freshId n) : Issued u (m.insertEntry e) c where
  entry he := by
    rcases Memory.insertEntry_inv he with ⟨rfl, -⟩ | ⟨-, he⟩
    · exact id
    · exact h.entry he
  dataset hd := h.dataset hd
  owner hd hk := h.owner hd hk

theorem withoutEntry (h : Issued u m c) (id : String) : Issued u (m.withoutEntry id) c where
  entry he := h.entry (Memory.withoutEntry_inv he).2
  dataset hd := h.dataset hd
  owner hd hk := h.owner hd hk

theorem withoutDataset (h : Issued u m c) (id : String) : Issued u (m.withoutDataset id) c where
  entry he := h.entry he
  dataset hd := h.dataset (Memory.withoutDataset_inv hd).2
  owner hd hk := h.owner (Memory.withoutDataset_inv hd).2 hk

section Fresh
variable (hu : Function.Injective u.freshId) (h : Issued u m c) (hn : c ≤ n)
include hu h hn

theorem fresh_dataset : m.datasets.get? (u.freshId n) = none := by
  rcases hd : m.datasets.get? (u.freshId n) with _ | d
  · rfl
  · obtain ⟨k, hk, heq⟩ := h.dataset hd
    have := hu heq
    omega

theorem fresh_owner {id : String} (hd : m.datasets.get? id = some d) : d.entryId ≠ some (u.freshId n) := by
  intro hk
  obtain ⟨k, hk, heq⟩ := h.owner hd hk
  have := hu heq
  omega

end Fresh

end Issued

/-! ### Runs -/

/-- The references are right and the ids in use are no fresh ones. -/
structure World.Sound (u : Surroundings) (w : World Memory) : Prop where
  refs : w.store.Referential
  issued : Issued u w.store w.calls

theorem Dataset.IsBuilt.entryId {d : Dataset} (h : d.IsBuilt) : d.entryId = none := by
  obtain ⟨settings, name, userId, grid, h⟩ := h
  unfold ofGrid? at h
  split at h
  · cases h
  · dsimp only at h
    split at h <;> cases h
    rfl

namespace World.Sound
variable {u : Surroundings} {w w' : World Memory}

theorem start (u : Surroundings) : Sound u (World.start Memory.empty) :=
  ⟨.empty, .empty u 0⟩

/-- The dataset of an entry may be replaced by one that is approved for the entry. -/
theorem approve (h : Sound u w) {id : String} {e : Entry} {d : Dataset}
    (entry : w.store.entries.get? id = some e) (dataset : w.store.datasets.get? e.datasetId = some d)
    (a : Approval) (t : Instant) :
    (w.store.insertDataset ((d.approved a e).touched t)).Referential ∧
      Issued u (w.store.insertDataset ((d.approved a e).touched t)) w.calls := by
  have hid := h.refs.entryKeyed entry
  have hd : d.id = e.datasetId := h.refs.datasetKeyed dataset
  constructor
  · refine h.refs.insertDataset fun {k e'} hk he' => ?_
    have hk : e.id = k := Option.some.inj hk
    rw [← hk, hid, entry] at he'
    rw [← Option.some.inj he', ← hd]
    rfl
  · refine h.issued.insertDataset (hd ▸ h.issued.dataset dataset) fun {k} hk => ?_
    have hk : e.id = k := Option.some.inj hk
    rw [← hk, hid]
    exact h.issued.entry entry

theorem event (hu : Function.Injective u.freshId) (h : Sound u w) {q : Request} {o : Except Failure Answer}
    (he : Event u q o w w') : Sound u w' := by
  have issued := h.issued.mono he.calls_le
  cases he with
  | quiet _ _ store => exact ⟨store ▸ h.refs, store ▸ issued⟩
  | @datasetOnly _ _ n t _ _ d built first last store =>
    have unowned : ∀ {k}, (d.stamped ⟨u.freshId n, t⟩).entryId ≠ some k := fun hk => by
      cases built.entryId.symm.trans hk
    exact ⟨store ▸ h.refs.insertDataset fun hk => absurd hk unowned,
      store ▸ issued.insertDataset ⟨n, last, rfl⟩ fun hk => absurd hk unowned⟩
  | @created _ _ n k t _ _ _ _ d d' built first next last dataset store =>
    have unowned : ∀ {k}, d'.entryId ≠ some k := fun hk => by
      rw [dataset] at hk
      cases built.entryId.symm.trans hk
    have hid : d'.id = u.freshId n := by rw [dataset]; rfl
    have new := h.issued.fresh_dataset hu first
    have refs : (w.store.insertDataset d').Referential := h.refs.insertDataset fun hk => absurd hk unowned
    have issued := issued.insertDataset ⟨n, by omega, hid⟩ fun hk => absurd hk unowned
    refine ⟨store ▸ refs.insertNewEntry ⟨d', Memory.get?_insertDataset_self d'⟩ (fun hf => ?_) fun hd => ?_,
      store ▸ issued.insertEntry ⟨k, last, rfl⟩⟩
    · have := h.refs.unreferred new hf
      rwa [← hid] at this
    · rcases Memory.insertDataset_inv hd with ⟨-, rfl⟩ | ⟨-, hd⟩
      · exact unowned
      · exact h.issued.fresh_owner hu (by omega) hd
  | reshaped entry dataset calls store =>
    obtain ⟨refs, issued⟩ := h.approve entry dataset _ _
    exact ⟨store ▸ refs, store ▸ issued.mono calls⟩
  | @approved id _ _ _ _ _ e _ d entry dataset calls written store =>
    obtain ⟨refs, issued⟩ := h.approve entry dataset _ _
    obtain rfl : e.id = id := h.refs.entryKeyed entry
    have same : d.id = e.datasetId := h.refs.datasetKeyed dataset
    have used := (issued.mono calls).entry entry
    rw [written] at store
    exact ⟨store ▸ refs.replaceEntry entry same, store ▸ (issued.mono calls).insertEntry used⟩
  | @archived id _ _ _ _ e _ entry calls written store =>
    obtain rfl : e.id = id := h.refs.entryKeyed entry
    have used := issued.entry entry
    rw [written] at store
    exact ⟨store ▸ h.refs.replaceEntry entry rfl, store ▸ issued.insertEntry used⟩
  | entryRemoved entry _ _ store => exact ⟨store ▸ h.refs.withoutEntry _, store ▸ issued.withoutEntry _⟩
  | removed entry _ _ store =>
    refine ⟨store ▸ (h.refs.withoutEntry _).withoutDataset fun hf => ?_,
      store ▸ (issued.withoutEntry _).withoutDataset _⟩
    -- Only the removed entry referred to the dataset.
    obtain ⟨hne, hf⟩ := Memory.withoutEntry_inv hf
    exact fun heq => hne (h.refs.unshared hf entry heq)

theorem after (hu : Function.Injective u.freshId) (h : Sound u w) (ts : List Turn) : Sound u (w.after u ts) :=
  after_induct (fun hw => hw.refs.entryKeyed) (fun he hw => hw.event hu he) h ts

theorem reached (hu : Function.Injective u.freshId) (ts : List Turn) : Sound u (World.reached u ts) :=
  (start u).after hu ts

/-- What holds of a stored dataset, and is kept when it is approved, holds for as long as the dataset is stored. -/
theorem dataset_induct (hu : Function.Injective u.freshId) (h : Sound u w) {id : String} {P : Dataset → Prop}
    (approve : ∀ d a e t, P d → P ((Dataset.approved d a e).touched t)) {d₀ : Dataset}
    (stored₀ : w.store.datasets.get? id = some d₀) (start : P d₀) (ts : List Turn) {d : Dataset}
    (stored : (w.after u ts).store.datasets.get? id = some d) : P d := by
  obtain ⟨n, hn, hid⟩ := h.issued.dataset stored₀
  have all : Sound u (w.after u ts) ∧ u.Spares id (w.after u ts).calls ∧
      ∀ d, (w.after u ts).store.datasets.get? id = some d → P d := by
    refine after_induct (P := fun v => Sound u v ∧ u.Spares id v.calls ∧ ∀ d, v.store.datasets.get? id = some d → P d)
      (fun hv => hv.1.refs.entryKeyed) ?_ ⟨h, hid ▸ .of_injective hu hn, fun d hd => ?_⟩ ts
    · rintro q o v v' he ⟨sound, spared, hP⟩
      refine ⟨sound.event hu he, spared.mono he.calls_le, fun d hstored => ?_⟩
      rcases he.dataset_inv hstored with old | ⟨_, n, _, _, -, hn, hid, -⟩ | ⟨_, a, t, e, d₁, -, -, hd₁, hid, rfl⟩
      · exact hP d old
      · exact absurd hid.symm (spared n hn)
      · rw [← sound.refs.datasetKeyed hd₁, ← hid] at hd₁
        exact approve d₁ a e t (hP d₁ hd₁)
    · rw [stored₀] at hd
      cases hd
      exact start
  exact all.2.2 d stored

end World.Sound

namespace World
variable {u : Surroundings}

/-- The references are right after every run, whichever calls of the store fail. -/
theorem references_hold (hu : Function.Injective u.freshId) (turns : List Turn) :
    (reached u turns).store.Referential :=
  (Sound.reached hu turns).refs

/-- The references are right when an approval has changed the dataset but not the entry. -/
theorem references_hold_halfway :
    let u := Surroundings.counting [5]
    let w := reached u ([.ingest "list", .approve "ii" ⟨"towns", [⟨1, 0, "town", 0, false⟩]⟩].map Turn.ofRequest)
    Function.Injective u.freshId ∧ w.store.Referential ∧
      (w.store.datasets.get? "i").map (fun d => (d.name, d.entryId)) = some ("towns", some "ii") ∧
      (w.store.entries.get? "ii").map (fun e => (e.name, e.datasetId)) = some ("people", "i") :=
  ⟨Surroundings.counting_injective _, references_hold (Surroundings.counting_injective _) _,
    by decide +kernel, by decide +kernel⟩

end World

end GridCatalog
