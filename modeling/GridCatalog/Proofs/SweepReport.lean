import GridCatalog.Proofs.Run

/-! What a sweep reports.

    Whatever calls of the store fail, the report names each entry that has expired once, and says of it what has become
    of it (`sweep_accounts`). -/

namespace GridCatalog

namespace Service
variable {s : Service Memory} {w w' : World Memory}

/-- A sweep reports every entry that has expired, once: as removed if it is gone with its dataset, and as failed if the
    store did not remove it, or removed it but not its dataset. Everything else is left as it was. When all the
    entries could be removed, another sweep at the same time finds nothing to do. -/
theorem sweep_accounts (hs : s.store = Memory.store) (keyed : w.store.EntriesKeyed) {now : Instant}
    {report : SweepReport} (h : s.sweepAt now w = (report, w')) :
    (∀ error v, s.call (.expiredEntries s.settings.retention now) w = (.error error, v) →
      report = ⟨[], []⟩ ∧ w'.store = w.store) ∧
    ∀ es v, s.call (.expiredEntries s.settings.retention now) w = (.ok es, v) →
      (report.removed ++ report.failed).Nodup ∧
      (∀ id, id ∈ report.removed ++ report.failed ↔
        ∃ e, w.store.entries.get? id = some e ∧ s.settings.retention.isExpired e now = true) ∧
      ∃ fates v', s.Discards v fates v' ∧ v'.store = w'.store ∧ fates.map Prod.fst = es ∧
        (∀ id ∈ report.removed, ∀ e, w.store.entries.get? id = some e →
          w'.store.entries.get? id = none ∧ w'.store.datasets.get? e.datasetId = none) ∧
        (∀ id ∈ report.failed, ∀ e, w.store.entries.get? id = some e →
          (∃ error, (e, .kept error) ∈ fates ∧ w'.store.entries.get? id = some e) ∨
          ∃ error, (e, .halfway error) ∈ fates ∧ w'.store.entries.get? id = none) ∧
        (∀ id, (∀ e, w.store.entries.get? id = some e → s.settings.retention.isExpired e now = false) →
          w'.store.entries.get? id = w.store.entries.get? id) ∧
        (∀ k, (∀ id ∈ report.removed, ∀ e, w.store.entries.get? id = some e → e.datasetId ≠ k) →
          w'.store.datasets.get? k = w.store.datasets.get? k) ∧
        ((∀ x ∈ fates, x.2.isKept = false) → ∀ (s₂ : Service Memory) (w₂ w₂' : World Memory) (report₂ : SweepReport),
          s₂.store = Memory.store → s₂.settings.retention = s.settings.retention → w₂.store = w'.store →
            s₂.sweepAt now w₂ = (report₂, w₂') → report₂ = ⟨[], []⟩ ∧ w₂'.store = w₂.store) := by
  obtain ⟨error, v, read, hreport, hw, -⟩ | ⟨v, fates, v', read, discards, hv', -, hw, expired, removed, failed⟩ :=
    sweepAt_inv hs h
  · refine ⟨fun _ _ _ => ⟨hreport, hw⟩, fun es v' read' => ?_⟩
    cases read.symm.trans read'
  refine ⟨fun _ _ read' => (by cases read.symm.trans read'), fun es v₁ read' => ?_⟩
  cases read.symm.trans read'
  have decides : w.store.Decides s.settings.retention now fates := .of_expired keyed expired
  have reported : (report.removed ++ report.failed).Perm (fates.map fun x => x.1.id) := by
    rw [removed, failed, ← List.map_append]
    exact (List.filter_append_perm _ fates).map _
  have mem_removed : ∀ {id}, id ∈ report.removed → ∃ e, (e, .gone) ∈ fates ∧ e.id = id := fun hid => by
    rw [removed] at hid
    obtain ⟨⟨e, f⟩, hx, rfl⟩ := List.mem_map.mp hid
    obtain ⟨hx, hf⟩ := List.mem_filter.mp hx
    cases f <;> cases hf
    exact ⟨e, hx, rfl⟩
  have same : ∀ {id e e' f}, (e', f) ∈ fates → e'.id = id → w.store.entries.get? id = some e → e' = e :=
    fun hx hid stored => by
      subst hid
      exact Option.some.inj ((decides.stored hx).symm.trans stored)
  refine ⟨reported.nodup_iff.mpr decides.nodup, fun id => ?_, fates, v', discards, hv', expired, ?_, ?_, ?_, ?_, ?_⟩
  · rw [reported.mem_iff, List.mem_map]
    constructor
    · rintro ⟨⟨e, f⟩, hx, hid⟩
      exact ⟨e, (decides.mem id e).mp ⟨hid, f, hx⟩⟩
    · rintro ⟨e, he⟩
      obtain ⟨hid, f, hx⟩ := (decides.mem id e).mpr he
      exact ⟨(e, f), hx, hid⟩
  · intro id hid e stored
    obtain ⟨e', hx, hid⟩ := mem_removed hid
    cases same hx hid stored
    rw [hw, ← hid]
    exact ⟨Memory.entry_gone hx rfl, Memory.dataset_gone hx⟩
  · intro id hid e stored
    rw [failed] at hid
    obtain ⟨⟨e', f⟩, hx, hid⟩ := List.mem_map.mp hid
    obtain ⟨hx, hf⟩ := List.mem_filter.mp hx
    cases same hx hid stored
    rw [hw, ← hid]
    cases f with
    | kept error => exact Or.inl ⟨error, hx, decides.entry_kept hx⟩
    | halfway error => exact Or.inr ⟨error, hx, Memory.entry_gone hx rfl⟩
    | gone => cases hf
  · intro id unexpired
    rw [hw]
    exact decides.entry_unexpired unexpired
  · intro k other
    rw [hw]
    refine Memory.dataset_left fun x hx gone => other x.1.id ?_ x.1 (decides.stored hx)
    rw [removed]
    exact List.mem_map_of_mem (f := fun x : Entry × Fate => x.1.id) (List.mem_filter.mpr ⟨hx, gone⟩)
  · intro all s₂ w₂ w₂' report₂ hs₂ retention store h₂
    obtain ⟨_, _, _, hreport₂, hw₂, -⟩ | ⟨_, fates₂, _, -, -, -, -, hw₂, expired₂, removed₂, failed₂⟩ := sweepAt_inv hs₂ h₂
    · exact ⟨hreport₂, hw₂⟩
    rw [store, hw, retention, decides.unexpired keyed all, List.map_eq_nil_iff] at expired₂
    subst expired₂
    exact ⟨congrArg₂ SweepReport.mk removed₂ failed₂, hw₂⟩

/-- Of three entries that have expired the first stays, since the store does not remove it, and the second one leaves
    its dataset behind. -/
theorem sweep_accounts_failing :
    let u := Surroundings.counting [7, 9]
    let t : Turn := .ofRequest (.ingest "list")
    let s := t.service u
    let w := World.reached u [t, t, t]
    let late : Instant := ⟨90000000, 0, 0, by decide, by decide, by decide, by decide⟩
    w.store.EntriesKeyed ∧ ∃ report w', s.sweepAt late w = (report, w') ∧ report = ⟨["iiiiii"], ["ii", "iiii"]⟩ ∧
      (report.removed ++ report.failed).Nodup ∧ w'.store.entries.keys = ["ii"] ∧
      w'.store.datasets.keys = ["i", "iii"] := by
  intro u t s w late
  have keyed : w.store.EntriesKeyed := World.keyed_reached u [t, t, t]
  have reported : (s.sweepAt late w).1 = ⟨["iiiiii"], ["ii", "iiii"]⟩ := by decide +kernel
  have entries : (s.sweepAt late w).2.store.entries.keys = ["ii"] := by decide +kernel
  have datasets : (s.sweepAt late w).2.store.datasets.keys = ["i", "iii"] := by decide +kernel
  rcases h : s.sweepAt late w with ⟨report, w'⟩
  rw [h] at reported entries datasets
  obtain ⟨failed, read⟩ := sweep_accounts (s := s) rfl keyed h
  rcases hread : s.call (.expiredEntries s.settings.retention late) w with ⟨error | es, v⟩
  · exact nomatch (failed error v hread).1.symm.trans reported
  · exact ⟨keyed, report, w', rfl, reported, (read es v hread).1, entries, datasets⟩

end Service

end GridCatalog
