import GridCatalog.Proofs.GridRows
import GridCatalog.Proofs.Picks
import GridCatalog.Proofs.References

/-! Where the columns of a dataset come from.

    Approvals rename, drop and reorder columns, but each column that is left keeps the cells of the
    column that it was read as, which its origin names. So a dataset can be compared with what it
    was when it was ingested, whatever has happened to its entry in between. -/

namespace GridCatalog

/-- The columns of a dataset are columns of another one, which their origins name; no two are the same, and the
    rows are the same rows. -/
structure Dataset.DescendsFrom (d d₀ : Dataset) : Prop where
  distinct : (d.header.map Column.origin).Nodup
  origin_lt : ∀ c ∈ d.header, c.origin < d₀.header.length
  kind : ∀ c ∈ d.header, d₀.header[c.origin]?.map Column.kind = some c.kind
  rows : d.body.length = d₀.body.length
  width : ∀ row ∈ d.body, row.length = d.header.length
  cells : ∀ {r i c}, r < d.body.length → d.header[i]? = some c →
    ∃ v, d.cell? r i = some v ∧ d₀.cell? r c.origin = some v ∧ v.kind = c.kind

namespace Dataset.DescendsFrom
variable {d d₀ : Dataset}

theorem reshape (h : d.DescendsFrom d₀) (a : Approval) : (d.reshape a).DescendsFrom d₀ := by
  have source : ∀ {c}, c ∈ (d.reshape a).header → ∃ c₁ ∈ d.header, c.origin = c₁.origin ∧ c.kind = c₁.kind := by
    intro c hc
    obtain ⟨p, hp, rfl⟩ := List.mem_map.mp hc
    exact ⟨p.column, List.mem_of_getElem? (Approval.mem_picks.mp hp).1, rfl, rfl⟩
  refine ⟨?_, fun c hc => ?_, fun c hc => ?_, ?_, fun row => length_row_reshape, fun {r i c} hr hc => ?_⟩
  · have kept := (a.columns_picks d.header).map Column.origin
    rw [List.map_map] at kept
    rw [header_reshape, List.map_map]
    exact kept.nodup_iff.mpr ((List.filter_sublist.map Column.origin).nodup h.distinct)
  · obtain ⟨c₁, hc₁, ho, -⟩ := source hc
    exact ho ▸ h.origin_lt c₁ hc₁
  · obtain ⟨c₁, hc₁, ho, hk⟩ := source hc
    rw [ho, hk]
    exact h.kind c₁ hc₁
  · exact (rowCount_reshape d a).trans h.rows
  · obtain ⟨p, hp, hat, rfl⟩ := getElem?_header_reshape hc
    have hr : r < d.body.length := Nat.lt_of_lt_of_eq hr (rowCount_reshape d a)
    obtain ⟨v, hv, hv₀, hkind⟩ := h.cells hr (Approval.mem_picks.mp hp).1
    have hrow : d.body[r]? = some d.body[r] := List.getElem?_eq_getElem hr
    rw [cell?, hrow] at hv
    refine ⟨v, ?_, hv₀, hkind⟩
    rw [cell?_reshape hat hrow, Pick.cell, show d.body[r][p.position]? = some v from hv, Option.getD_some]

theorem approved (h : d.DescendsFrom d₀) (a : Approval) (e : Entry) (t : Instant) :
    ((d.approved a e).touched t).DescendsFrom d₀ :=
  have h := h.reshape a
  ⟨h.distinct, h.origin_lt, h.kind, h.rows, h.width, h.cells⟩

theorem stamped (h : d.DescendsFrom d) (s : Stamp) : (d.stamped s).DescendsFrom (d.stamped s) :=
  ⟨h.distinct, h.origin_lt, h.kind, h.rows, h.width, h.cells⟩

/-- A dataset that is built from a grid has every column where its origin says. -/
theorem built (h : d.IsBuilt) : d.DescendsFrom d := by
  obtain ⟨settings, name, userId, grid, h⟩ := h
  have hwidth : d.header.length = grid.width := length_header_ofGrid? h
  have origin : ∀ {i c}, d.header[i]? = some c →
      c.origin = i ∧ c.kind = (Inference.ruleOf settings (grid.dataRows.column i)).kind := by
    intro i c hc
    obtain ⟨hi, -⟩ := List.getElem?_eq_some_iff.mp hc
    obtain ⟨title, -, hat⟩ := header_ofGrid? h (hwidth ▸ hi)
    rw [hc] at hat
    cases hat
    exact ⟨rfl, rfl⟩
  have stands : ∀ {c}, c ∈ d.header → d.header[c.origin]? = some c := by
    intro c hc
    obtain ⟨i, hi⟩ := List.getElem?_of_mem hc
    rw [(origin hi).1, hi]
  refine ⟨?_, fun c hc => ?_, fun c hc => ?_, rfl, fun row hrow => ?_, fun {r i c} hr hc => ?_⟩
  · rw [positions_ofGrid? h fun _ _ _ => rfl]
    exact List.nodup_range
  · exact (List.getElem?_eq_some_iff.mp (stands hc)).1
  · rw [stands hc, Option.map_some]
  · rw [length_row_ofGrid? h hrow, hwidth]
  · obtain ⟨hi, -⟩ := List.getElem?_eq_some_iff.mp hc
    obtain ⟨horigin, hkind⟩ := origin hc
    rw [horigin, hkind]
    exact ⟨_, cell?_ofGrid? h hr (hwidth ▸ hi), cell?_ofGrid? h hr (hwidth ▸ hi), Grid.kind_cellOf ..⟩

end Dataset.DescendsFrom

namespace World
variable {u : Surroundings} {w w' : World Memory} {id : String} {d₀ d : Dataset}

/-- The id has been given out, and what is stored under it descends from a dataset. -/
structure Traces (u : Surroundings) (id : String) (d₀ : Dataset) (w : World Memory) : Prop where
  sound : Sound u w
  issued : ∃ n < w.calls, id = u.freshId n
  stored : ∀ {d}, w.store.datasets.get? id = some d → d.DescendsFrom d₀

namespace Traces

theorem event (hu : Function.Injective u.freshId) (h : Traces u id d₀ w) {q : Request}
    {o : Except Failure Answer} (he : Event u q o w w') : Traces u id d₀ w' := by
  obtain ⟨n, hn, hid⟩ := h.issued
  refine ⟨h.sound.event hu he, ⟨n, Nat.lt_of_lt_of_le hn he.calls_le, hid⟩, fun {d} hd => ?_⟩
  rcases he.dataset_inv hd with hd | ⟨_, k, _, _, -, hk, hnew, -⟩ | ⟨_, a, _, e, d₁, -, -, hd₁, heq, rfl⟩
  · exact h.stored hd
  · -- A new dataset has another id.
    have := hu (hid.symm.trans hnew)
    omega
  · rw [← h.sound.refs.datasetKeyed hd₁, ← heq] at hd₁
    exact (h.stored hd₁).approved a e _

theorem after (hu : Function.Injective u.freshId) (h : Traces u id d₀ w) (ts : List Turn) :
    Traces u id d₀ (w.after u ts) :=
  after_induct (fun hw => hw.sound.refs.entryKeyed) (fun he hw => hw.event hu he) h ts

end Traces

/-- A dataset that an ingest has brought into the store is as it was built. -/
theorem ingested_descends (keyed : w.store.EntriesKeyed) {t : Turn} {sourceId : String}
    (ingest : t.request = .ingest sourceId) (new : w.store.datasets.get? id = none)
    (created : (t.serve u w).2.store.datasets.get? id = some d) : d.DescendsFrom d := by
  refine t.serve_induct (P := fun v => ∀ d, v.store.datasets.get? id = some d → d.DescendsFrom d) keyed
    (fun v v' he hv d hd => ?_) (fun d hd => ?_) d created
  · rcases he.dataset_inv hd with hd | ⟨_, _, _, _, -, -, -, built, rfl⟩ | ⟨_, _, _, _, _, hq, -⟩
    · exact hv d hd
    · exact (Dataset.DescendsFrom.built built).stamped _
    · rw [ingest] at hq
      cases hq
  · rw [new] at hd
    cases hd

/-- A dataset descends from what it was when it was ingested, whatever has been requested since and whichever
    calls of the store have failed. -/
theorem origins_stable (hu : Function.Injective u.freshId) {before later : List Turn} {source : Source}
    {settings : Settings} {sourceId : String} (new : (reached u before).store.datasets.get? id = none)
    (created : (reached u (before ++ [⟨source, settings, .ingest sourceId⟩])).store.datasets.get? id = some d₀)
    (stored : (reached u (before ++ [⟨source, settings, .ingest sourceId⟩] ++ later)).store.datasets.get? id = some d) :
    d.DescendsFrom d₀ := by
  have sound := Sound.reached hu (before ++ [⟨source, settings, .ingest sourceId⟩])
  have self : d₀.DescendsFrom d₀ :=
    ingested_descends (Sound.reached hu before).refs.entryKeyed rfl new (by rwa [reached_append] at created)
  have traces : Traces u id d₀ (reached u (before ++ [⟨source, settings, .ingest sourceId⟩])) :=
    ⟨sound, sound.issued.dataset created, fun {d} hd => by
      rw [created] at hd
      cases hd
      exact self⟩
  rw [reached_append] at stored
  exact (traces.after hu later).stored stored

/-- Two approvals, of which the first fails halfway, leave the cells with their columns. -/
theorem origins_stable_reapproved : ∃ d₀ d : Dataset,
    (reached (.counting [5]) ([] ++ [.ofRequest (.ingest "list")])).store.datasets.get? "i" = some d₀ ∧
    (reached (.counting [5]) ([] ++ [.ofRequest (.ingest "list")] ++ Turn.approvals)).store.datasets.get? "i" = some d ∧
    d.DescendsFrom d₀ := by
  obtain ⟨d₀, h₀⟩ : ∃ d₀, (reached (.counting [5])
      ([] ++ [.ofRequest (.ingest "list")])).store.datasets.get? "i" = some d₀ :=
    Option.isSome_iff_exists.mp (by decide +kernel)
  obtain ⟨d, h⟩ : ∃ d, (reached (.counting [5])
      ([] ++ [.ofRequest (.ingest "list")] ++ Turn.approvals)).store.datasets.get? "i" = some d :=
    Option.isSome_iff_exists.mp (by decide +kernel)
  exact ⟨d₀, d, h₀, h, origins_stable (Surroundings.counting_injective _) rfl h₀ h⟩

end World

end GridCatalog
