import Mathlib.Data.List.Pairwise
import GridCatalog.Proofs.Listing
import GridCatalog.Proofs.References

/-! Paging through a listing while it changes.

    A client asks for a page, then for the page behind the last entry of that one, and so on until a page has room
    left; any turns are served in between. An entry keeps its id and its time of creation for as long as it is stored
    (`Sound.samePlace`), so a cursor still stands for the place where its page ended, and the next page starts right
    behind it (`Paged`). -/

namespace GridCatalog

/-- A page request of a client, with the turns that are served before it. -/
structure PageRequest where
  between : List Turn
  source : Source
  settings : Settings

/-- A page request that was served: its cursor, the world that it came to and its outcome. -/
structure Visit where
  cursor : Option String
  world : World Memory
  outcome : Except Failure Answer

def Visit.page (v : Visit) : List Entry :=
  match v.outcome with
  | .ok (.entries page) => page
  | _ => []

namespace PageRequest

def turn (p : PageRequest) (cursor : Option String) (limit : Int) : Turn :=
  ⟨p.source, p.settings, .list cursor limit⟩

def visit (p : PageRequest) (u : Surroundings) (limit : Int) (w : World Memory) (cursor : Option String) : Visit where
  cursor := cursor
  world := w.after u p.between
  outcome := ((p.turn cursor limit).serve u (w.after u p.between)).1

/-- A page request that is served after others, with a document of two columns. -/
def afterRequests (requests : List Request) : PageRequest where
  between := requests.map Turn.ofRequest
  source := (Turn.ofRequest (.sweep none)).source
  settings := .default

end PageRequest

namespace World

/-- The visits of a client who asks for a page behind the last entry of the page before, until one has room left. -/
def visits (u : Surroundings) (limit : Int) : World Memory → Option String → List PageRequest → List Visit
  | _, _, [] => []
  | w, cursor, p :: ps =>
    let v := p.visit u limit w cursor
    if v.page.length < limit then [v]
    else v :: visits u limit (v.world.after u [p.turn cursor limit]) (v.page.getLast?.map Entry.id) ps

def Lists (w : World Memory) (id : String) : Prop := ∃ e ∈ w.store.entries.get? id, e.IsListed

instance (w : World Memory) (id : String) : Decidable (w.Lists id) :=
  inferInstanceAs (Decidable (∃ e ∈ w.store.entries.get? id, e.IsListed))

variable {u : Surroundings} {w : World Memory} {limit : Int} {cursor : Option String}

/-- An entry has its place in every order for as long as it is stored. -/
theorem Sound.samePlace (hu : Function.Injective u.freshId) (h : Sound u w) {id : String} {e f : Entry} (ts : List Turn)
    (before : w.store.entries.get? id = some e) (later : (w.after u ts).store.entries.get? id = some f) :
    Query.SamePlace e f := by
  obtain ⟨n, issued, rfl⟩ := h.issued.entry before
  refine entry_induct (P := Query.SamePlace e) (fun _ _ _ => id) (fun _ _ _ => id) h.refs.entryKeyed
    (.of_injective hu issued) (fun e' stored => ?_) ts later
  rw [before] at stored
  cases stored
  exact ⟨rfl, rfl⟩

/-! ### Worlds of the visits -/

theorem world_of_mem_visits {v : Visit} {ps : List PageRequest} (hv : v ∈ visits u limit w cursor ps) :
    ∃ ts, v.world = w.after u ts := by
  induction ps generalizing w cursor with
  | nil => cases hv
  | cons p ps ih =>
    unfold visits at hv
    dsimp only at hv
    split at hv
    · rw [List.mem_singleton] at hv
      exact ⟨p.between, by rw [hv]; rfl⟩
    · rcases List.mem_cons.mp hv with rfl | hv
      · exact ⟨p.between, rfl⟩
      · obtain ⟨ts, hts⟩ := ih hv
        exact ⟨p.between ++ ([p.turn cursor limit] ++ ts), by rw [hts, after_append, after_append]; rfl⟩

theorem pairwise_visits (u : Surroundings) (limit : Int) (w : World Memory) (cursor : Option String)
    (ps : List PageRequest) :
    (visits u limit w cursor ps).Pairwise fun v v' => ∃ ts, v'.world = v.world.after u ts := by
  induction ps generalizing w cursor with
  | nil => exact .nil
  | cons p ps ih =>
    unfold visits
    dsimp only
    split
    · exact List.pairwise_singleton _ _
    · refine .cons (fun v' hv' => ?_) (ih _ _)
      obtain ⟨ts, hts⟩ := world_of_mem_visits hv'
      exact ⟨[p.turn cursor limit] ++ ts, by rw [hts, after_append]⟩

/-! ### Pages in a row -/

/-- The pages of visits that start behind an entry, if any: no two entries are out of order, none stands before the
    start, and if the last page has room left, they have every entry that is listed at all visits. -/
structure Paged (limit : Int) (start : Option Entry) (vs : List Visit) : Prop where
  answered : ∀ v ∈ vs, v.outcome = .ok (.entries v.page)
  listed : ∀ v ∈ vs, ∀ e ∈ v.page, e ∈ v.world.store.entries.values ∧ e.IsListed
  sorted : (vs.flatMap Visit.page).Pairwise (Query.Before .newestFirst)
  beyond : ∀ c ∈ start, ∀ e ∈ vs.flatMap Visit.page, Query.Before .newestFirst c e
  complete : ∀ e, (∀ c ∈ start, Query.Before .newestFirst c e) →
    (∀ v ∈ vs, ∃ f, v.world.store.entries.get? e.id = some f ∧ f.IsListed ∧ Query.SamePlace e f) →
    (∃ v ∈ vs.getLast?, v.page.length < limit) → ∃ f ∈ vs.flatMap Visit.page, Query.SamePlace e f

namespace Paged
variable {v : Visit} {vs : List Visit} {start : Option Entry}

theorem nil : Paged limit start [] where
  answered _ hv := nomatch hv
  listed _ hv := nomatch hv
  sorted := .nil
  beyond _ _ _ he := nomatch he
  complete _ _ _ hlast := by simp at hlast

theorem covers (page : (Query.listed cursor limit.toNat).IsPage v.world.store.entries.values start v.page) {e f : Entry}
    (behind : ∀ c ∈ start, Query.Before .newestFirst c e) (found : v.world.store.entries.get? e.id = some f)
    (listed : f.IsListed) (same : Query.SamePlace e f) :
    (∃ f ∈ v.page, Query.SamePlace e f) ∨
      v.page.length = limit.toNat ∧ ∀ x ∈ v.page, Query.Before .newestFirst x e := by
  have hbehind : ∀ c ∈ start, Query.Before .newestFirst c f := fun c hc => (behind c hc).congr ⟨rfl, rfl⟩ same
  rcases page.complete f (Memory.mem_entries_of_get? found) (Query.accepts_listed.mpr listed) hbehind with hf | ⟨full, hf⟩
  · exact Or.inl ⟨f, hf, same⟩
  · exact Or.inr ⟨full, fun x hx => (hf x hx).congr ⟨rfl, rfl⟩ same.symm⟩

theorem single (answer : v.outcome = .ok (.entries v.page))
    (page : (Query.listed cursor limit.toNat).IsPage v.world.store.entries.values start v.page) :
    Paged limit start [v] where
  answered _ hv := by rwa [List.mem_singleton.mp hv]
  listed _ hv e he := by
    rw [List.mem_singleton.mp hv] at he ⊢
    exact ⟨(page.sound e he).1, Query.accepts_listed.mp (page.sound e he).2.1⟩
  sorted := by
    rw [List.flatMap_singleton]
    exact page.sorted
  beyond c hc e he := (page.sound e (by simpa using he)).2.2 c hc
  complete e behind listed hlast := by
    obtain ⟨f, found, hf, same⟩ := listed v List.mem_cons_self
    have short : v.page.length < limit := by simpa using hlast
    rcases covers page behind found hf same with h | ⟨full, -⟩
    · simpa using h
    · omega

/-- A full page, and further pages behind its last entry. -/
theorem cons (positive : 1 ≤ limit) (answer : v.outcome = .ok (.entries v.page))
    (page : (Query.listed cursor limit.toNat).IsPage v.world.store.entries.values start v.page)
    (full : limit ≤ v.page.length) (rest : Paged limit v.page.getLast? vs) : Paged limit start (v :: vs) := by
  obtain hnil | ⟨front, last, hsplit⟩ := List.eq_nil_or_concat' v.page
  · rw [hnil, List.length_nil] at full
    omega
  have hlast : v.page.getLast? = some last := by rw [hsplit, List.getLast?_concat]
  have last_mem : last ∈ v.page := List.mem_of_getLast? hlast
  have last_before : ∀ e ∈ vs.flatMap Visit.page, Query.Before .newestFirst last e := rest.beyond last hlast
  -- What comes after the last entry of the page comes after all of the page.
  have page_before : ∀ a ∈ v.page, ∀ e, Query.Before .newestFirst last e → Query.Before .newestFirst a e := by
    intro a ha e he
    have sorted := page.sorted
    rw [hsplit] at ha sorted
    rcases List.mem_append.mp ha with ha | ha
    · exact ((List.pairwise_append.mp sorted).2.2 a ha last (by simp)).trans he
    · rwa [List.mem_singleton.mp ha]
  constructor
  case answered =>
    intro v' hv'
    rcases List.mem_cons.mp hv' with rfl | hv'
    · exact answer
    · exact rest.answered v' hv'
  case listed =>
    intro v' hv' e he
    rcases List.mem_cons.mp hv' with rfl | hv'
    · exact ⟨(page.sound e he).1, Query.accepts_listed.mp (page.sound e he).2.1⟩
    · exact rest.listed v' hv' e he
  case sorted =>
    rw [List.flatMap_cons, List.pairwise_append]
    exact ⟨page.sorted, rest.sorted, fun a ha e he => page_before a ha e (last_before e he)⟩
  case beyond =>
    intro c hc e he
    rw [List.flatMap_cons] at he
    rcases List.mem_append.mp he with he | he
    · exact (page.sound e he).2.2 c hc
    · exact ((page.sound last last_mem).2.2 c hc).trans (last_before e he)
  case complete =>
    intro e behind listed short
    obtain ⟨f, found, hf, same⟩ := listed v List.mem_cons_self
    rw [List.flatMap_cons]
    rcases covers page behind found hf same with ⟨f, hf, same⟩ | ⟨-, hbefore⟩
    · exact ⟨f, List.mem_append_left _ hf, same⟩
    · have hrest : ∃ v' ∈ vs.getLast?, v'.page.length < limit := by
        obtain ⟨v', hv', short⟩ := short
        cases vs with
        | nil =>
          rw [List.getLast?_singleton, Option.mem_some] at hv'
          subst hv'
          omega
        | cons v₁ vs => exact ⟨v', hv', short⟩
      obtain ⟨f, hf, same⟩ := rest.complete e (fun c hc => hbefore c (List.mem_of_getLast? hc))
        (fun v' hv' => listed v' (List.mem_cons_of_mem _ hv')) hrest
      exact ⟨f, List.mem_append_right _ hf, same⟩

end Paged

/-- A visit whose call does not fail gets a page of the stored entries, and changes nothing. -/
theorem visit_answered {p : PageRequest} (positive : 1 ≤ limit) {v : Visit} (hv : p.visit u limit w cursor = v)
    (fault : u.fault v.world.calls .listEntries = none) :
    v.outcome = .ok (.entries v.page) ∧
      v.page = (Query.listed cursor limit.toNat).page v.world.store.entries.values ∧
      v.world.after u [p.turn cursor limit] = { v.world with calls := v.world.calls + 1 } := by
  have outcome : v.outcome = ((p.turn cursor limit).serve u v.world).1 := by rw [← hv]; rfl
  obtain ⟨answer, world⟩ := Turn.list_of_no_fault (t := p.turn cursor limit) rfl positive fault
  rw [← outcome] at answer
  have page : v.page = (Query.listed cursor limit.toNat).page v.world.store.entries.values := by
    rw [Visit.page, answer]
  exact ⟨answer.trans (by rw [page]), page, world⟩

/-- The page of a visit lies behind the place where the cursor's entry stood when it was read. -/
theorem visit_isPage {p : PageRequest} {start : Option Entry} (hu : Function.Injective u.freshId) (sound : Sound u w)
    (stored : ∀ c ∈ start, w.store.entries.get? c.id = some c) {v : Visit}
    (hv : p.visit u limit w (start.map Entry.id) = v) (kept : ∀ id ∈ v.cursor, v.world.Lists id)
    (page : v.page = (Query.listed (start.map Entry.id) limit.toNat).page v.world.store.entries.values) :
    (Query.listed (start.map Entry.id) limit.toNat).IsPage v.world.store.entries.values start v.page := by
  have later : v.world = w.after u p.between := by rw [← hv]; rfl
  have distinct : (v.world.store.entries.values.map Entry.id).Nodup :=
    Memory.EntriesKeyed.nodup (later ▸ sound.after hu p.between).refs.entryKeyed
  rw [page]
  cases start with
  | none => exact Query.isPage distinct rfl fun c hc => nomatch hc
  | some c =>
    obtain ⟨now, found, listed⟩ := kept c.id (by rw [← hv]; rfl)
    -- The entry of the cursor may have changed since its page, but not its place.
    have same : Query.SamePlace c now := sound.samePlace hu p.between (stored c rfl) (later ▸ found)
    refine Query.IsPage.of_samePlace (c := now) (Query.isPage distinct (congrArg some same.1) ?_) same.symm
    rintro _ ⟨⟩
    exact ⟨Memory.mem_entries_of_get? found, Query.accepts_listed.mpr listed⟩

theorem visits_paged (hu : Function.Injective u.freshId) (positive : 1 ≤ limit) (ps : List PageRequest)
    (start : Option Entry) (sound : Sound u w) (stored : ∀ c ∈ start, w.store.entries.get? c.id = some c)
    (answered : ∀ v ∈ visits u limit w (start.map Entry.id) ps, u.fault v.world.calls .listEntries = none)
    (kept : ∀ v ∈ visits u limit w (start.map Entry.id) ps, ∀ id ∈ v.cursor, v.world.Lists id) :
    Paged limit start (visits u limit w (start.map Entry.id) ps) := by
  -- The last entry of a page is stored when the next visit begins, so it is the start of the visits that are left.
  induction ps generalizing w start with
  | nil => exact .nil
  | cons p ps ih =>
    unfold visits at answered kept ⊢
    dsimp only at answered kept ⊢
    generalize hv : p.visit u limit w (start.map Entry.id) = v at answered kept ⊢
    split at answered <;> rename_i room
    · rw [if_pos room] at kept ⊢
      obtain ⟨answer, page, -⟩ := visit_answered positive hv (answered v List.mem_cons_self)
      exact .single answer (visit_isPage hu sound stored hv (kept v List.mem_cons_self) page)
    · rw [if_neg room] at kept ⊢
      obtain ⟨answer, page, world⟩ := visit_answered positive hv (answered v List.mem_cons_self)
      have page := visit_isPage hu sound stored hv (kept v List.mem_cons_self) page
      have sound_now : Sound u v.world := by
        rw [← hv]
        exact sound.after hu p.between
      refine .cons positive answer page (Int.not_lt.mp room) (ih _ (sound_now.after hu _) ?_
        (fun v' hv' => answered v' (List.mem_cons_of_mem _ hv')) fun v' hv' => kept v' (List.mem_cons_of_mem _ hv'))
      intro c hc
      rw [world]
      exact Memory.EntriesKeyed.get?_of_mem sound_now.refs.entryKeyed (page.sound c (List.mem_of_getLast? hc)).1

theorem samePlace_of_visits (hu : Function.Injective u.freshId) (sound : Sound u w) (ps : List PageRequest) {v v' : Visit}
    (hv : v ∈ visits u limit w cursor ps) (hv' : v' ∈ visits u limit w cursor ps) {id : String} {e f : Entry}
    (he : v.world.store.entries.get? id = some e) (hf : v'.world.store.entries.get? id = some f) :
    Query.SamePlace e f := by
  have agree (x : Visit) (hx : x ∈ visits u limit w cursor ps) (ts : List Turn) {e f : Entry}
      (he : x.world.store.entries.get? id = some e) (hf : (x.world.after u ts).store.entries.get? id = some f) :
      Query.SamePlace e f := by
    obtain ⟨earlier, hx⟩ := world_of_mem_visits hx
    exact (hx ▸ sound.after hu earlier).samePlace hu ts he hf
  let Agree (x y : Visit) : Prop := ∀ e f, x.world.store.entries.get? id = some e →
    y.world.store.entries.get? id = some f → Query.SamePlace e f
  have symm : Std.Symm Agree := ⟨fun _ _ h e f he hf => (h f e hf he).symm⟩
  have later : (visits u limit w cursor ps).Pairwise Agree := by
    refine (pairwise_visits u limit w cursor ps).imp_of_mem fun {x y} hx _ hts e f he hf => ?_
    obtain ⟨ts, hts⟩ := hts
    exact agree x hx ts he (hts ▸ hf)
  exact later.forall_of_forall (fun x hx e f he hf => agree x hx [] he hf) hv hv' e f he hf

/-- Whatever is served between the pages of a client, and whichever calls of others fail: if each cursor is still listed
    when it is used, the pages are in order and have no id twice, and once a page has room left, they have each id that
    was listed at all of them. -/
theorem paging_undisturbed (hu : Function.Injective u.freshId) (positive : 1 ≤ limit) (requests : List PageRequest)
    (answered : ∀ v ∈ visits u limit (.start .empty) none requests, u.fault v.world.calls .listEntries = none)
    (kept : ∀ v ∈ visits u limit (.start .empty) none requests, ∀ id ∈ v.cursor, v.world.Lists id) :
    let vs := visits u limit (.start .empty) none requests
    let entries := vs.flatMap Visit.page
    (∀ v ∈ vs, v.outcome = .ok (.entries v.page) ∧ ∀ e ∈ v.page, v.world.Lists e.id) ∧
      (entries.map Entry.id).Nodup ∧ entries.Pairwise (Query.Before .newestFirst) ∧
      ((∃ v ∈ vs.getLast?, v.page.length < limit) → ∀ id, (∀ v ∈ vs, v.world.Lists id) →
        (entries.map Entry.id).count id = 1) := by
  intro vs entries
  have sound : Sound u (.start .empty) := .start u
  have paged : Paged limit none vs := visits_paged hu positive requests none sound
    (fun _ hc => nomatch hc) answered kept
  have stored : ∀ v ∈ vs, ∀ e ∈ v.page, v.world.store.entries.get? e.id = some e := by
    intro v hv e he
    obtain ⟨ts, hts⟩ := world_of_mem_visits hv
    exact Memory.EntriesKeyed.get?_of_mem (hts ▸ sound.after hu ts).refs.entryKeyed (paged.listed v hv e he).1
  have distinct : (entries.map Entry.id).Nodup := by
    refine List.pairwise_map.mpr (paged.sorted.imp_of_mem fun {e f} he hf before same => ?_)
    obtain ⟨v, hv, he⟩ := List.mem_flatMap.mp he
    obtain ⟨v', hv', hf⟩ := List.mem_flatMap.mp hf
    exact before.not_samePlace (samePlace_of_visits hu sound requests hv hv' (stored v hv e he)
      (same ▸ stored v' hv' f hf))
  refine ⟨fun v hv => ⟨paged.answered v hv, fun e he => ⟨e, stored v hv e he, (paged.listed v hv e he).2⟩⟩, distinct,
    paged.sorted, fun short id listed => List.count_eq_one_of_mem distinct ?_⟩
  -- Any of the entries that were listed under the id stands for all of them.
  have ⟨last, hlast, _⟩ := short
  obtain ⟨e, he, -⟩ := listed last (List.mem_of_getLast? hlast)
  obtain rfl : e.id = id := by
    obtain ⟨ts, hts⟩ := world_of_mem_visits (List.mem_of_getLast? hlast)
    exact (hts ▸ sound.after hu ts).refs.entryKeyed he
  obtain ⟨f, hf, same⟩ := paged.complete e (fun _ hc => nomatch hc) (fun v hv => by
    obtain ⟨f, hf, hlisted⟩ := listed v hv
    exact ⟨f, hf, hlisted, samePlace_of_visits hu sound requests (List.mem_of_getLast? hlast) hv he hf⟩) short
  exact List.mem_map.mpr ⟨f, hf, same.1.symm⟩

/-- Two pages of three entries, the first of which is archived before the second page. -/
def archivedBetween : List PageRequest :=
  let approve (id : String) : Request := .approve id ⟨"towns", [⟨1, 0, "town", 0, false⟩]⟩
  [.afterRequests [.ingest "a", .ingest "b", .ingest "c", approve "ii", approve "iiii", approve "iiiiii"],
    .afterRequests [.archive "ii", .ingest "d"]]

/-- Archiving an entry of the first page does not shift the second one. -/
theorem paging_undisturbed_archived :
    let u := Surroundings.counting []
    let vs := visits u 2 (.start .empty) none archivedBetween
    vs.map (fun v => (v.cursor, v.page.map Entry.id)) = [(none, ["ii", "iiii"]), (some "iiii", ["iiiiii"])] ∧
      (vs.flatMap Visit.page).Pairwise (Query.Before .newestFirst) ∧
      ((vs.flatMap Visit.page).map Entry.id).count "iiiiii" = 1 := by
  intro u vs
  obtain ⟨p, p', hps, first, second, kept, always, always'⟩ : ∃ p p', archivedBetween = [p, p'] ∧
      let v := p.visit u 2 (.start .empty) none
      let v' := p'.visit u 2 (v.world.after u [p.turn none 2]) (some "iiii")
      v.page.map Entry.id = ["ii", "iiii"] ∧ v'.page.map Entry.id = ["iiiiii"] ∧ v'.world.Lists "iiii" ∧
        v.world.Lists "iiiiii" ∧ v'.world.Lists "iiiiii" := by
    refine ⟨_, _, rfl, ?_, ?_, by decide +kernel, by decide +kernel, by decide +kernel⟩
    · rw [(visit_answered (by decide) rfl rfl).2.1, Query.page, Query.matching_of_pairwise (by decide +kernel)]
      decide +kernel
    · rw [(visit_answered (by decide) rfl rfl).2.1, Query.page, Query.matching_of_pairwise (by decide +kernel)]
      decide +kernel
  generalize hv : p.visit u 2 (.start .empty) none = v at *
  generalize hv' : p'.visit u 2 (v.world.after u [p.turn none 2]) (some "iiii") = v' at *
  have full : v.page.length = 2 := by rw [← List.length_map Entry.id, first]; rfl
  have room : v'.page.length = 1 := by rw [← List.length_map Entry.id, second]; rfl
  have hvs : vs = [v, v'] := by
    have cursor : v.page.getLast?.map Entry.id = some "iiii" := by rw [← List.getLast?_map, first]; rfl
    simp only [vs, hps, visits, hv, cursor, hv']
    rw [if_neg (by omega), if_pos (by omega)]
  have cursor : v.cursor = none := by rw [← hv]; rfl
  have cursor' : v'.cursor = some "iiii" := by rw [← hv']; rfl
  have answered : ∀ x ∈ vs, u.fault x.world.calls .listEntries = none := fun _ _ => rfl
  have kept : ∀ x ∈ vs, ∀ id ∈ x.cursor, x.world.Lists id := by
    simp only [hvs, List.forall_mem_cons, cursor, cursor', Option.mem_def, Option.some.injEq, reduceCtorEq]
    exact ⟨fun _ h => h.elim, fun id hid => hid ▸ kept, fun _ h => nomatch h⟩
  obtain ⟨-, -, sorted, complete⟩ :=
    paging_undisturbed (Surroundings.counting_injective []) (by decide) archivedBetween answered kept
  refine ⟨by simp [hvs, cursor, cursor', first, second], sorted, complete ⟨v', ?_, ?_⟩ "iiiiii" ?_⟩
  · rw [show visits u 2 (.start .empty) none archivedBetween = [v, v'] from hvs]
    rfl
  · rw [room]
    decide
  · rw [show visits u 2 (.start .empty) none archivedBetween = [v, v'] from hvs]
    simp [always, always']

end World
end GridCatalog
