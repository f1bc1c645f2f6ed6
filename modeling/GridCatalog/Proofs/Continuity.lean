import GridCatalog.Proofs.Additions
import GridCatalog.Proofs.Preview

/-! What stays of an entry.

    An approval makes the entry anew out of the dataset and takes over the rest from the former entry. What it makes
    anew of the owner and the size is what it was, because no approval changes the owner or the number of rows of a
    dataset. So all that says where an entry comes from stays as the ingest gave it, for as long as the entry is stored
    (`provenance_kept`). -/

namespace GridCatalog

/-- The entry is the same record as another one, of the same source and the same dataset. -/
structure Entry.Continues (e e₀ : Entry) : Prop where
  id : e.id = e₀.id
  userId : e.userId = e₀.userId
  size : e.size = e₀.size
  purpose : e.purpose = e₀.purpose
  datasetId : e.datasetId = e₀.datasetId
  provenance : e.provenance = e₀.provenance
  sourceId : e.sourceId = e₀.sourceId
  created : e.created = e₀.created
  synced : e.synced = e₀.synced

/-- The dataset has the owner and the number of rows that an entry shows. -/
structure Dataset.Underlies (d : Dataset) (e₀ : Entry) : Prop where
  userId : d.userId = e₀.userId
  rowCount : d.rowCount = e₀.size

namespace Dataset.Underlies
variable {d : Dataset} {e₀ : Entry}

theorem of_mirrors (h : e₀.Mirrors d) : d.Underlies e₀ := ⟨h.userId.symm, h.size.symm⟩

theorem approved (h : d.Underlies e₀) (a : Approval) (e : Entry) (t : Instant) :
    ((d.approved a e).touched t).Underlies e₀ :=
  ⟨h.userId, (rowCount_reshape d a).trans h.rowCount⟩

end Dataset.Underlies

namespace Entry.Continues
variable {e e₀ : Entry} {d : Dataset}

theorem refl (e : Entry) : e.Continues e := ⟨rfl, rfl, rfl, rfl, rfl, rfl, rfl, rfl, rfl⟩

theorem archived (h : e.Continues e₀) (t t' : Instant) : ((e.archivedAt t).touched t').Continues e₀ :=
  ⟨h.id, h.userId, h.size, h.purpose, h.datasetId, h.provenance, h.sourceId, h.created, h.synced⟩

/-- The owner and the size come from the dataset, and so does the id that the entry knows the dataset by. -/
theorem approved (h : e.Continues e₀) (hd : d.Underlies e₀) (own : d.id = e.datasetId) (a : Approval) (t : Instant) :
    ((Service.approvedEntry e (d.approved a e)).touched t).Continues e₀ where
  id := h.id
  userId := hd.userId
  size := (Dataset.rowCount_reshape d a).trans hd.rowCount
  purpose := h.purpose
  datasetId := own.trans h.datasetId
  provenance := h.provenance
  sourceId := h.sourceId
  created := h.created
  synced := h.synced

end Entry.Continues

namespace World
variable {u : Surroundings} {w w' : World Memory} {e₀ e : Entry}

/-- What is stored under the ids of an entry and its dataset continues them. -/
structure Carries (u : Surroundings) (e₀ : Entry) (w : World Memory) : Prop where
  sound : Sound u w
  entrySpared : u.Spares e₀.id w.calls
  datasetSpared : u.Spares e₀.datasetId w.calls
  entry : ∀ {e}, w.store.entries.get? e₀.id = some e → e.Continues e₀
  dataset : ∀ {d}, w.store.datasets.get? e₀.datasetId = some d → d.Underlies e₀

namespace Carries

theorem of_holds (hu : Function.Injective u.freshId) (sound : Sound u w) {d : Dataset}
    (holds : w.store.Holds e₀.id e₀ d) (under : d.Underlies e₀) : Carries u e₀ w := by
  obtain ⟨n, hn, hid⟩ := sound.issued.entry holds.entry
  obtain ⟨k, hk, hdataset⟩ := sound.issued.dataset holds.dataset
  refine ⟨sound, hid ▸ .of_injective hu hn, hdataset ▸ .of_injective hu hk, fun he => ?_, fun hd => ?_⟩
  · rw [holds.entry] at he
    cases he
    exact .refl _
  · rw [holds.dataset] at hd
    cases hd
    exact under

theorem event (hu : Function.Injective u.freshId) (h : Carries u e₀ w) {q : Request} {o : Except Failure Answer}
    (he : Event u q o w w') : Carries u e₀ w' := by
  have refs := h.sound.refs
  refine ⟨h.sound.event hu he, h.entrySpared.mono he.calls_le, h.datasetSpared.mono he.calls_le,
    fun {e} stored => ?_, fun {d} stored => ?_⟩
  · rcases he.entry_inv stored with old | ⟨_, n, _, _, _, -, hn, hid, -⟩ | ⟨k, a, t, f, d, -, -, hf, hd, hid, rfl⟩ |
      ⟨k, t, t', f, -, -, hf, hid, rfl⟩
    · exact h.entry old
    · exact absurd hid.symm (h.entrySpared n hn)
    · rw [← refs.entryKeyed hf, ← hid] at hf
      have former := h.entry hf
      exact former.approved (h.dataset (former.datasetId ▸ hd)) (refs.datasetKeyed hd) a t
    · rw [← refs.entryKeyed hf, ← hid] at hf
      exact (h.entry hf).archived t t'
  · rcases he.dataset_inv stored with old | ⟨_, n, _, _, -, hn, hid, -⟩ | ⟨_, a, t, f, d₁, -, -, hd₁, hid, rfl⟩
    · exact h.dataset old
    · exact absurd hid.symm (h.datasetSpared n hn)
    · rw [← refs.datasetKeyed hd₁, ← hid] at hd₁
      exact (h.dataset hd₁).approved a f t

theorem after (hu : Function.Injective u.freshId) (h : Carries u e₀ w) (ts : List Turn) : Carries u e₀ (w.after u ts) :=
  after_induct (fun hw => hw.sound.refs.entryKeyed) (fun he hw => hw.event hu he) h ts

end Carries

theorem mirrors_of_stores {s : Service Memory} {sourceId : String} {ds : List Dataset} {added : List (Dataset × Entry)}
    (stores : List.Forall₂ (s.Stores sourceId) ds added) : ∀ p ∈ added, p.2.Mirrors p.1 := by
  induction stores with
  | nil => exact fun _ h => absurd h List.not_mem_nil
  | cons first _ ih =>
    obtain ⟨_, st, -, shown⟩ := first
    exact List.forall_mem_cons.mpr ⟨shown ▸ (Entry.preview_mirrors ..).stamped st, ih⟩

/-- An ingest that succeeds gives the entries as they are stored, with the datasets that they show. -/
theorem returned_holds (hu : Function.Injective u.freshId) (sound : Sound u w) {t : Turn} {sourceId : String}
    (ingest : t.request = .ingest sourceId) {returned : List Entry}
    (answer : (t.serve u w).1 = .ok (.entries returned)) (mem : e₀ ∈ returned) :
    ∃ d, (t.serve u w).2.store.Holds e₀.id e₀ d ∧ e₀.Mirrors d := by
  obtain ⟨source, settings, request⟩ := t
  cases ingest
  have served : (Turn.service ⟨source, settings, .ingest sourceId⟩ u).handle (.ingest sourceId) w =
      (.ok (.entries returned), (Turn.serve ⟨source, settings, .ingest sourceId⟩ u w).2) := Prod.ext answer rfl
  obtain ⟨r, h, hr⟩ := Task.map_inv served
  rcases r with f | es <;> cases hr
  cases Service.ingest_inv Memory.store_stamps h with
  | empty => cases mem
  | created _ _ _ store calls creation =>
    cases creation with
    | all created =>
      obtain ⟨-, added, stores, rfl, gains⟩ := (created.of_still store calls).gains rfl (sound.issued.unused hu)
      obtain ⟨p, hp, rfl⟩ := List.mem_map.mp mem
      exact ⟨p.1, gains.holds hp, mirrors_of_stores stores p hp⟩

/-- An entry that an ingest gave is stored as it was given, and stays the same record of the same source and dataset
    for as long as it is stored, whatever has been approved or archived since and whichever calls of the store have
    failed. Once it is not temporary it is never temporary again. -/
theorem provenance_kept (hu : Function.Injective u.freshId) {before : List Turn} {t : Turn} {sourceId : String}
    (ingest : t.request = .ingest sourceId) {returned : List Entry}
    (answer : (t.serve u (reached u before)).1 = .ok (.entries returned)) (mem : e₀ ∈ returned) :
    (reached u (before ++ [t])).store.entries.get? e₀.id = some e₀ ∧
    ∀ later e, (reached u (before ++ t :: later)).store.entries.get? e₀.id = some e →
      e.Continues e₀ ∧
      (e.isTemporary = false → ∀ more e', (reached u (before ++ t :: later ++ more)).store.entries.get? e₀.id = some e' →
        e'.isTemporary = false) := by
  have served : ∀ ts, reached u (before ++ t :: ts) = (t.serve u (reached u before)).2.after u ts := fun ts =>
    reached_append before (t :: ts)
  have sound := Sound.reached hu before
  obtain ⟨d, holds, mirrors⟩ := returned_holds hu sound ingest answer mem
  have sound : Sound u (t.serve u (reached u before)).2 := sound.after hu [t]
  have carries := Carries.of_holds hu sound holds (.of_mirrors mirrors)
  refine ⟨(served []).symm ▸ holds.entry, fun later e stored => ?_⟩
  have now := carries.after hu later
  rw [← served] at now
  refine ⟨now.entry stored, fun approved more e' stored' => ?_⟩
  rw [reached_append] at stored'
  refine entry_induct (P := fun e => e.isTemporary = false) (fun _ _ _ _ => rfl) (fun _ _ _ h => h)
    now.sound.refs.entryKeyed now.entrySpared (fun f hf => ?_) more stored'
  rw [stored] at hf
  cases hf
  exact approved

/-- Two approvals, of which the first one fails halfway, and an archiving leave the entry what it was, and not
    temporary. -/
theorem provenance_kept_reapproved :
    let u := Surroundings.counting [5]
    let ingest := Turn.ofRequest (.ingest "list")
    let archive := Turn.ofRequest (.archive "ii")
    let e₀ : Entry := {
      id := "ii", name := "people", userId := "USER_ID"
      header := [⟨"name", 0, 0, .texts, 0, false⟩, ⟨"city", 1, 1, .texts, 0, false⟩]
      examples := [[.texts ["Ann"], .texts ["Rome"]], [.texts ["Bob"], .texts ["Oslo"]], [.texts ["Cleo"], .texts []]]
      size := 3, purpose := .training, datasetId := "i", provenance := .uploadedFile, sourceId := "list"
      isTemporary := true, isArchived := false, created := some default, updated := some default
      synced := some default, archived := none }
    (ingest.serve u (reached u [])).1 = .ok (.entries [e₀]) ∧
      (reached u ([] ++ [ingest])).store.entries.get? "ii" = some e₀ ∧
      ∃ e e', (reached u ([] ++ ingest :: Turn.approvals)).store.entries.get? "ii" = some e ∧ e.name = "towns" ∧
        e.Continues e₀ ∧ e.isTemporary = false ∧
        (reached u ([] ++ ingest :: Turn.approvals ++ [archive])).store.entries.get? "ii" = some e' ∧
        e'.isTemporary = false := by
  intro u ingest archive e₀
  have answer : (ingest.serve u (reached u [])).1 = .ok (.entries [e₀]) := ok_of_toOption (by decide +kernel)
  obtain ⟨stored, stays⟩ := provenance_kept (u := u) (Surroundings.counting_injective [5]) rfl answer List.mem_cons_self
  obtain ⟨e, he, shown⟩ : ∃ e, (reached u ([] ++ ingest :: Turn.approvals)).store.entries.get? "ii" = some e ∧
      (e.name, e.isTemporary) = ("towns", false) := Option.map_eq_some_iff.mp (by decide +kernel)
  obtain ⟨name, approved⟩ := Prod.mk.inj shown
  obtain ⟨e', he'⟩ : ∃ e', (reached u ([] ++ ingest :: Turn.approvals ++ [archive])).store.entries.get? "ii" = some e' :=
    Option.isSome_iff_exists.mp (by decide +kernel)
  obtain ⟨continues, kept⟩ := stays Turn.approvals e he
  exact ⟨answer, stored, e, e', he, name, continues, approved, he', kept approved [archive] e' he'⟩

end World

end GridCatalog
