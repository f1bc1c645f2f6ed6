import GridCatalog.Proofs.Listing

/-! Archived entries.

    An archiving that succeeds takes an entry off the lists, and no listing, reading, ingest or sweep brings
    it back. An approval does: it makes the record anew out of the dataset, with none of the marks of the
    archive. So an entry is archived as the last archiving or approval of it that succeeded has left it
    (`archived_until_reapproved`), and it goes away only in a sweep. -/

namespace GridCatalog

/-- What a request with its outcome decides about an entry: an archiving that succeeds makes it archived, and an
    approval that succeeds makes it not so. -/
def Request.archives? (id : String) (o : Except Failure Answer) : Request → Option Bool
  | .archive k => if k = id ∧ o.isOk then some true else none
  | .approve k _ => if k = id ∧ o.isOk then some false else none
  | _ => none

/-- Whether an entry that was archived is so after turns with the given outcomes. -/
def Turn.leavesArchived (id : String) (turns : List (Turn × Except Failure Answer)) : Bool :=
  turns.foldl (fun archived x => (x.1.request.archives? id x.2).getD archived) true

/-- The entry has the mark and the time of the archive, or it has neither and is listed. -/
def Entry.ArchivedIs (e : Entry) (archived : Bool) : Prop :=
  e.isArchived = archived ∧ e.archived.isSome = archived ∧ (archived = false → e.IsListed)

namespace World
variable {u : Surroundings} {w w' : World Memory} {id : String} {archived : Bool}

/-- An entry is as a flag says for as long as it is stored. -/
structure Marked (u : Surroundings) (id : String) (archived : Bool) (w : World Memory) : Prop where
  keyed : w.store.EntriesKeyed
  spared : u.Spares id w.calls
  marked : ∀ {e}, w.store.entries.get? id = some e → e.ArchivedIs archived

namespace Marked
variable {q : Request} {o : Except Failure Answer}

theorem event (h : Marked u id archived w) (undecided : q.archives? id o = none) (he : Event u q o w w') :
    Marked u id archived w' := by
  refine ⟨he.keyed h.keyed, h.spared.mono he.calls_le, fun {e} stored => ?_⟩
  -- An entry that an approval or an archiving has written is another one, since neither of them decides.
  rcases he.entry_inv stored with old | ⟨_, n, _, _, _, -, hn, hid, -⟩ | ⟨k, _, _, f, _, rfl, rfl, hf, -, hid, -⟩ |
    ⟨k, _, _, f, rfl, rfl, hf, hid, -⟩
  · exact h.marked old
  · exact absurd hid.symm (h.spared n hn)
  · rw [h.keyed hf] at hid
    simp [Request.archives?, hid, Except.isOk, Except.toBool] at undecided
  · rw [h.keyed hf] at hid
    simp [Request.archives?, hid, Except.isOk, Except.toBool] at undecided

/-- An archiving or an approval that succeeds decides about the entry, however it was before. -/
theorem decided (keyed : w.store.EntriesKeyed) (decides : q.archives? id o = some archived) (he : Event u q o w w') :
    ∃ e, w'.store.entries.get? id = some e ∧ e.ArchivedIs archived := by
  cases he with
  | quiet failed =>
    cases q with
    | approve | archive =>
      obtain ⟨f, rfl⟩ := failed trivial
      simp [Request.archives?, Except.isOk, Except.toBool] at decides
    | _ => cases decides
  | datasetOnly | created | entryRemoved | removed => cases decides
  | reshaped => simp [Request.archives?, Except.isOk, Except.toBool] at decides
  | @approved k _ _ _ _ _ f e' _ entry _ _ written store =>
    obtain ⟨⟨rfl, -⟩, rfl⟩ : (k = id ∧ _) ∧ false = archived := by
      simpa only [Request.archives?, Option.ite_none_right_eq_some, Option.some.injEq] using decides
    refine ⟨e', ?_, by rw [written]; exact ⟨rfl, rfl, fun _ => ⟨rfl, rfl⟩⟩⟩
    rw [store, Memory.get?_insertEntry, if_pos (by rw [written]; exact (keyed entry).symm)]
  | @archived k _ _ _ _ f e' entry _ written store =>
    obtain ⟨⟨rfl, -⟩, rfl⟩ : (k = id ∧ _) ∧ true = archived := by
      simpa only [Request.archives?, Option.ite_none_right_eq_some, Option.some.injEq] using decides
    refine ⟨e', ?_, by rw [written]; exact ⟨rfl, rfl, fun h => nomatch h⟩⟩
    rw [store, Memory.get?_insertEntry, if_pos (by rw [written]; exact (keyed entry).symm)]

theorem of_stored {e : Entry} (keyed : w.store.EntriesKeyed) (spared : u.Spares id w.calls)
    (stored : w.store.entries.get? id = some e) (marked : e.ArchivedIs archived) : Marked u id archived w :=
  ⟨keyed, spared, fun h => by
    rw [stored] at h
    cases h
    exact marked⟩

theorem edits_of_decides (decides : q.archives? id o = some archived) : q.Edits := by
  cases q with
  | approve | archive => trivial
  | _ => cases decides

theorem turn (h : Marked u id archived w) (t : Turn) :
    Marked u id ((t.request.archives? id (t.serve u w).1).getD archived) (t.serve u w).2 := by
  rcases hd : t.request.archives? id (t.serve u w).1 with _ | b
  · exact t.serve_induct h.keyed (fun _ _ he hv => hv.event hd he) h
  · have he := Turn.serve_event (u := u) (w := w) (edits_of_decides hd)
    obtain ⟨e, stored, marked⟩ := decided h.keyed hd he
    exact of_stored (he.keyed h.keyed) (h.spared.mono he.calls_le) stored marked

theorem after (h : Marked u id archived w) (ts : List Turn) :
    Marked u id ((outcomes u w ts).foldl (fun b x => (x.1.request.archives? id x.2).getD b) archived) (w.after u ts) := by
  induction ts generalizing w archived with
  | nil => exact h
  | cons t ts ih => exact ih (h.turn t)

theorem unlisted (h : Marked u id true w) {t : Turn} {after : Option String} {limit : Int} {page : List Entry}
    (list : t.request = .list after limit) (answer : (t.serve u w).1 = .ok (.entries page)) :
    ∀ e ∈ page, e.id ≠ id := by
  rintro e he rfl
  rw [Turn.list_inv list answer] at he
  obtain ⟨hmem, haccepts⟩ := Query.mem_of_mem_page he
  have archived := (h.marked (Memory.EntriesKeyed.get?_of_mem h.keyed hmem)).1
  rw [(Query.accepts_listed.mp haccepts).2] at archived
  cases archived

end Marked

/-- An entry that is gone was removed by a sweep. -/
theorem swept_of_gone (keyed : w.store.EntriesKeyed) (stored : (w.store.entries.get? id).isSome) {ts : List Turn}
    (gone : (w.after u ts).store.entries.get? id = none) :
    ∃ ts₁ sweep ts₂ time, ts = ts₁ ++ sweep :: ts₂ ∧ sweep.request = .sweep time ∧
      ((w.after u ts₁).store.entries.get? id).isSome ∧ (w.after u (ts₁ ++ [sweep])).store.entries.get? id = none := by
  induction ts generalizing w with
  | nil =>
    rw [show w.store.entries.get? id = none from gone] at stored
    cases stored
  | cons t ts ih =>
    rcases hnext : (t.serve u w).2.store.entries.get? id with _ | e
    · -- The first turn removes the entry, so it is a sweep.
      by_cases hsweep : ∃ time, t.request = .sweep time
      · obtain ⟨time, htime⟩ := hsweep
        exact ⟨[], t, ts, time, rfl, htime, stored, hnext⟩
      · have kept := t.serve_induct (u := u) (P := fun v => (v.store.entries.get? id).isSome) keyed
          (fun _ _ he hv => he.entry_kept (fun time htime => hsweep ⟨time, htime⟩) hv) stored
        rw [hnext] at kept
        cases kept
    · obtain ⟨ts₁, sweep, ts₂, time, rfl, htime, before, after⟩ :=
        ih (w := (t.serve u w).2) (keyed_after keyed [t]) (by rw [hnext]; rfl) gone
      exact ⟨t :: ts₁, sweep, ts₂, time, rfl, htime, before, after⟩

/-- After an archiving that succeeds, the entry is archived and off the lists as long as no approval of it
    succeeds, whatever else is requested and whichever calls of the store fail; such an approval brings it back, and
    only a sweep removes it. -/
theorem archived_until_reapproved {before later : List Turn} {t : Turn} (archive : t.request = .archive id)
    (ok : (t.serve u (reached u before)).1.isOk)
    (spared : u.Spares id (reached u (before ++ [t])).calls) :
    let w := reached u (before ++ t :: later)
    let archived := Turn.leavesArchived id (outcomes u (reached u (before ++ [t])) later)
    (∀ e, w.store.entries.get? id = some e → e.isArchived = archived ∧ e.archived.isSome = archived ∧
      (archived = false → e.IsListed)) ∧
    (archived → ∀ (t' : Turn) after limit page, t'.request = .list after limit →
      (t'.serve u w).1 = .ok (.entries page) → ∀ e ∈ page, e.id ≠ id) ∧
    (w.store.entries.get? id = none → ∃ ts₁ sweep ts₂ time, later = ts₁ ++ sweep :: ts₂ ∧ sweep.request = .sweep time ∧
      ((reached u (before ++ t :: ts₁)).store.entries.get? id).isSome ∧
      (reached u (before ++ t :: (ts₁ ++ [sweep]))).store.entries.get? id = none) := by
  intro w archived
  have decides : t.request.archives? id (t.serve u (reached u before)).1 = some true := by
    rw [archive]
    exact if_pos ⟨rfl, ok⟩
  have event := Turn.serve_event (u := u) (w := reached u before) (Marked.edits_of_decides decides)
  have served : ∀ ts, reached u (before ++ t :: ts) = (t.serve u (reached u before)).2.after u ts := fun ts =>
    reached_append before (t :: ts)
  have last : reached u (before ++ [t]) = (t.serve u (reached u before)).2 := served []
  rw [last] at spared
  obtain ⟨e, stored, flagged⟩ := Marked.decided (keyed_reached u before) decides event
  have start := Marked.of_stored (event.keyed (keyed_reached u before)) spared stored flagged
  -- From the archiving on, the marks follow what is decided.
  have now : Marked u id archived w := by
    have := start.after later
    rwa [← served, ← last] at this
  refine ⟨fun e => now.marked, fun h t' after limit page list answer => ?_, fun gone => ?_⟩
  · exact (h ▸ now).unlisted list answer
  · simp only [w, served] at gone ⊢
    exact swept_of_gone start.keyed (Option.isSome_of_eq_some stored) gone

/-- An approval that fails at its second write and a sweep that comes too early leave the entry archived. -/
theorem archived_until_reapproved_failed :
    let u := Surroundings.counting [7]
    let before := [Turn.ofRequest (.ingest "list")]
    let archive := Turn.ofRequest (.archive "ii")
    let later := [Turn.ofRequest (.approve "ii" ⟨"towns", [⟨1, 0, "town", 0, false⟩]⟩), .ofRequest (.sweep none)]
    (archive.serve u (reached u before)).1.isOk ∧ u.Spares "ii" (reached u (before ++ [archive])).calls ∧
      (reached u (before ++ archive :: later)).store.entries.keys = ["ii"] ∧
      ∀ e, (reached u (before ++ archive :: later)).store.entries.get? "ii" = some e →
        e.isArchived = true ∧ e.archived.isSome = true := by
  intro u before archive later
  have ok : (archive.serve u (reached u before)).1.isOk := by decide +kernel
  have fresh : u.freshId 1 = "ii" := by decide +kernel
  have issued : 1 < (reached u (before ++ [archive])).calls := by decide +kernel
  have spared : u.Spares "ii" (reached u (before ++ [archive])).calls := by
    rw [← fresh]
    exact .of_injective (Surroundings.counting_injective [7]) issued
  have archived : Turn.leavesArchived "ii" (outcomes u (reached u (before ++ [archive])) later) = true := by
    decide +kernel
  refine ⟨ok, spared, by decide +kernel, fun e he => ?_⟩
  obtain ⟨mark, time, -⟩ := (@archived_until_reapproved u "ii" before later archive rfl ok spared).1 e he
  exact ⟨mark.trans archived, time.trans archived⟩

/-- An archived entry that is approved is not archived any more and is listed again. -/
theorem approval_unarchives :
    let u := Surroundings.counting []
    let ingest := Turn.ofRequest (.ingest "list")
    let archive := Turn.ofRequest (.archive "ii")
    let w := reached u [ingest, archive, .ofRequest (.approve "ii" ⟨"towns", [⟨1, 0, "town", 0, false⟩]⟩)]
    let page := (Query.listed none 10).page w.store.entries.values
    (archive.serve u (reached u [ingest])).1.isOk ∧
      w.store.entries.values.map (fun e => (e.id, e.isArchived, e.archived)) = [("ii", false, none)] ∧
      ((Turn.ofRequest (.list none 10)).serve u w).1 = .ok (.entries page) ∧ page.map Entry.id = ["ii"] := by
  intro u ingest archive w page
  have answered := Turn.list_of_no_fault (t := .ofRequest (.list none 10)) (w := w) (u := u) rfl (by decide) rfl
  exact ⟨by decide +kernel, by decide +kernel, answered.1, by decide +kernel⟩

end World

end GridCatalog
