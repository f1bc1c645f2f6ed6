import GridCatalog.Proofs.Query
import GridCatalog.Proofs.Run

/-! Pages of a query.

    Entries with distinct ids have strict places in a query: one comes before the other (`Before`). A page
    holds the first of the accepted entries that come after its cursor, and if it leaves one of them out it
    is full and holds only entries before that one (`isPage`). All pages up to the first empty one are together
    the accepted entries in order (`walk_exact`). -/

namespace GridCatalog

theorem Instant.key_injective : Function.Injective Instant.key := by
  rintro ⟨d, s, n, d₁, d₂, hs, hn⟩ ⟨d', s', n', d₁', d₂', hs', hn'⟩ h
  simp only [key] at h
  have hn_eq : n = n' := by omega
  subst hn_eq
  have hs_eq : s = s' := by omega
  subst hs_eq
  have hd_eq : d = d' := by omega
  subst hd_eq
  rfl

/-- The entry is approved and not archived. -/
def Entry.IsListed (e : Entry) : Prop := e.isTemporary = false ∧ e.isArchived = false

instance : DecidablePred Entry.IsListed := fun _ => inferInstanceAs (Decidable (_ ∧ _))

namespace Query

theorem timeKey_injective : Function.Injective timeKey := by
  have least (t : Instant) : timeKey none < timeKey (some t) := (isEarlier_iff none (some t)).mp rfl
  intro a b h
  cases a with
  | none =>
    cases b with
    | none => rfl
    | some b =>
      have := least b
      omega
  | some a =>
    cases b with
    | none =>
      have := least a
      omega
    | some b => exact congrArg some (Instant.key_injective h)

/-- An entry comes before another one in an order: by time and, at the same time, by id. -/
def Before (order : EntryOrder) (a b : Entry) : Prop :=
  (match order with
    | .newestFirst => isEarlier b.created a.created = true
    | .oldestFirst => isEarlier a.created b.created = true) ∨ a.created = b.created ∧ a.id < b.id

instance : (order : EntryOrder) → (a b : Entry) → Decidable (Before order a b)
  | .newestFirst, a, b => inferInstanceAs (Decidable (isEarlier b.created a.created = true ∨ _))
  | .oldestFirst, a, b => inferInstanceAs (Decidable (isEarlier a.created b.created = true ∨ _))

/-- Two entries have the same place in every order. -/
def SamePlace (a b : Entry) : Prop := a.id = b.id ∧ a.created = b.created

theorem SamePlace.symm {a b : Entry} (h : SamePlace a b) : SamePlace b a := ⟨h.1.symm, h.2.symm⟩

section Before
variable {order : EntryOrder} {a b c a' b' : Entry}

theorem before_iff :
    Before order a b ↔ place order a < place order b ∨ place order a = place order b ∧ a.id < b.id := by
  cases order with
  | oldestFirst =>
    simp only [Before, place, isEarlier_iff, timeKey_injective.eq_iff]
  | newestFirst =>
    simp only [Before, place, isEarlier_iff, Int.neg_inj, Int.neg_lt_neg_iff, timeKey_injective.eq_iff]

theorem Before.trans (hab : Before order a b) (hbc : Before order b c) : Before order a c := by
  rw [before_iff] at hab hbc ⊢
  rcases hab with hab | ⟨hab, idab⟩ <;> rcases hbc with hbc | ⟨hbc, idbc⟩
  · exact Or.inl (by omega)
  · exact Or.inl (by omega)
  · exact Or.inl (by omega)
  · exact Or.inr ⟨by omega, String.lt_trans idab idbc⟩

theorem Before.not_samePlace (h : Before order a b) : ¬SamePlace a b := by
  rintro ⟨hid, htime⟩
  rw [before_iff, show place order a = place order b by cases order <;> simp only [place, htime], hid] at h
  rcases h with h | ⟨-, h⟩
  · exact Int.lt_irrefl _ h
  · exact String.lt_irrefl _ h

theorem Before.congr (ha : SamePlace a a') (hb : SamePlace b b') (h : Before order a b) : Before order a' b' := by
  simpa only [Before, ha.1, ha.2, hb.1, hb.2] using h

theorem before_of_precedes (h : precedes order a b) (distinct : a.id ≠ b.id) : Before order a b := by
  rw [precedes_iff] at h
  refine before_iff.mpr (h.imp id fun ⟨hplace, hid⟩ => ⟨hplace, ?_⟩)
  by_contra hlt
  exact distinct (String.le_antisymm hid (String.not_lt.mp hlt))

end Before

/-! ### Pages -/

variable {q : Query} {es : List Entry} {e c : Entry}

theorem mem_matching : e ∈ q.matching es ↔ e ∈ es ∧ q.accepts e := by
  rw [matching, List.mem_mergeSort, List.mem_filter]

theorem mem_of_mem_page (h : e ∈ q.page es) : e ∈ es ∧ q.accepts e := by
  refine mem_matching.mp ?_
  have behind := List.mem_of_mem_take h
  unfold Query.behind at behind
  split at behind
  · exact List.mem_of_mem_drop behind
  · exact behind

theorem matching_of_pairwise (sorted : (es.filter q.accepts).Pairwise fun a b => precedes q.order a b = true) :
    q.matching es = es.filter q.accepts :=
  List.mergeSort_of_pairwise sorted

theorem accepts_listed {after : Option String} {limit : Nat} : (listed after limit).accepts e ↔ e.IsListed := by
  simp [accepts, listed, agrees, Entry.IsListed]

theorem nodup_matching (distinct : (es.map Entry.id).Nodup) : ((q.matching es).map Entry.id).Nodup :=
  (((List.mergeSort_perm _ _).map Entry.id).nodup_iff).mpr (distinct.sublist (List.filter_sublist.map _))

theorem pairwise_matching (distinct : (es.map Entry.id).Nodup) : (q.matching es).Pairwise (Before q.order) := by
  have sorted : (q.matching es).Pairwise fun a b => precedes q.order a b = true := by
    refine List.pairwise_mergeSort ?_ (precedes_total q.order) _
    intro a b c hab hbc
    exact precedes_trans hab hbc
  have apart : (q.matching es).Pairwise fun a b => a.id ≠ b.id := List.pairwise_map.mp (nodup_matching distinct)
  exact (sorted.and apart).imp fun ⟨h, hne⟩ => before_of_precedes h hne

theorem behind_append {before rest : List Entry} (first : ∀ x ∈ before, x.id ≠ c.id) :
    behind (some c.id) (before ++ c :: rest) = rest := by
  have found : (before ++ c :: rest).findIdx? (fun e => e.id = c.id) = some before.length := by
    rw [List.findIdx?_append, List.findIdx?_eq_none_iff.mpr (by simpa using first), List.findIdx?_cons]
    simp
  rw [behind, Option.bind_some, found]
  simp

/-- The page of a query behind a cursor: it has the first of the accepted entries after the cursor, in order. -/
structure IsPage (q : Query) (es : List Entry) (cursor : Option Entry) (page : List Entry) : Prop where
  sorted : page.Pairwise (Before q.order)
  sound : ∀ e ∈ page, e ∈ es ∧ q.accepts e ∧ ∀ c ∈ cursor, Before q.order c e
  complete : ∀ e ∈ es, q.accepts e → (∀ c ∈ cursor, Before q.order c e) →
    e ∈ page ∨ page.length = q.limit ∧ ∀ x ∈ page, Before q.order x e

theorem IsPage.of_samePlace {c' : Entry} {page : List Entry} (h : q.IsPage es (some c) page) (same : SamePlace c c') :
    q.IsPage es (some c') page where
  sorted := h.sorted
  sound e he := by
    obtain ⟨hmem, haccepts, hafter⟩ := h.sound e he
    refine ⟨hmem, haccepts, ?_⟩
    rintro _ ⟨⟩
    exact (hafter c rfl).congr same ⟨rfl, rfl⟩
  complete e he haccepts hafter := by
    refine h.complete e he haccepts ?_
    rintro _ ⟨⟩
    exact (hafter c' rfl).congr same.symm ⟨rfl, rfl⟩

theorem isPage_take {rest : List Entry} {cursor : Option Entry} (sorted : rest.Pairwise (Before q.order))
    (mem : ∀ e, e ∈ rest ↔ e ∈ es ∧ q.accepts e ∧ ∀ c ∈ cursor, Before q.order c e) :
    q.IsPage es cursor (rest.take q.limit) where
  sorted := sorted.sublist (List.take_sublist ..)
  sound e he := (mem e).mp (List.mem_of_mem_take he)
  complete e he haccepts hcursor := by
    have hrest := (mem e).mpr ⟨he, haccepts, hcursor⟩
    rw [← List.take_append_drop q.limit rest] at hrest sorted
    rcases List.mem_append.mp hrest with h | h
    · exact Or.inl h
    · have : 0 < (rest.drop q.limit).length := List.length_pos_of_mem h
      rw [List.length_drop] at this
      exact Or.inr ⟨by rw [List.length_take]; omega, fun x hx => (List.pairwise_append.mp sorted).2.2 x hx e h⟩

/-- A query among entries with distinct ids gives the page behind its cursor, if the cursor is accepted itself. -/
theorem isPage (distinct : (es.map Entry.id).Nodup) {cursor : Option Entry} (after : q.after = cursor.map Entry.id)
    (accepted : ∀ c ∈ cursor, c ∈ es ∧ q.accepts c) : q.IsPage es cursor (q.page es) := by
  have sorted := pairwise_matching (q := q) distinct
  unfold page
  rw [after]
  cases cursor with
  | none => exact isPage_take sorted fun e => by simp [behind, mem_matching]
  | some c =>
    -- The cursor splits the sorted entries, and the page is taken from those behind it.
    obtain ⟨front, rest, hsplit⟩ := List.append_of_mem (mem_matching.mpr (accepted c rfl))
    have ids := nodup_matching (q := q) distinct
    rw [hsplit] at sorted ids
    rw [List.map_append, List.map_cons, List.nodup_append] at ids
    have first : ∀ x ∈ front, x.id ≠ c.id := fun x hx => ids.2.2 _ (List.mem_map_of_mem hx) _ List.mem_cons_self
    obtain ⟨-, sorted_rest, front_before⟩ := List.pairwise_append.mp sorted
    obtain ⟨rest_after, sorted_rest⟩ := List.pairwise_cons.mp sorted_rest
    rw [hsplit, Option.map_some, behind_append first]
    refine isPage_take sorted_rest fun e => ?_
    have mem : e ∈ es ∧ q.accepts e ↔ e ∈ front ++ c :: rest := by rw [← hsplit, mem_matching]
    rw [← and_assoc, mem]
    constructor
    · intro he
      refine ⟨by simp [he], ?_⟩
      rintro _ ⟨⟩
      exact rest_after e he
    · rintro ⟨he, hafter⟩
      have hc : Before q.order c e := hafter c rfl
      rcases List.mem_append.mp he with he | he
      · exact absurd ⟨rfl, rfl⟩ ((front_before e he c List.mem_cons_self).trans hc).not_samePlace
      rcases List.mem_cons.mp he with rfl | he
      · exact absurd ⟨rfl, rfl⟩ hc.not_samePlace
      · exact he

/-! ### All pages -/

/-- The pages of a query up to the first empty one, each behind the last entry of the page before. The entries may
    come in another order for each page. -/
inductive Walk (q : Query) (es : List Entry) : Option String → List (List Entry) → Prop
  | stop {cursor : Option String} {fs : List Entry} (supplied : fs.Perm es)
      (page : { q with after := cursor }.page fs = []) : Walk q es cursor []
  | next {cursor : Option String} {fs front : List Entry} {last : Entry} {pages : List (List Entry)}
      (supplied : fs.Perm es) (page : { q with after := cursor }.page fs = front ++ [last])
      (rest : Walk q es (some last.id) pages) : Walk q es cursor ((front ++ [last]) :: pages)

/-- Behind the entries that stand in front of `rest`, a query gives the first of `rest`. -/
theorem page_of_split (distinct : (es.map Entry.id).Nodup) {front rest : List Entry}
    (split : q.matching es = front ++ rest) :
    { q with after := front.getLast?.map Entry.id }.page es = rest.take q.limit := by
  have matching : { q with after := front.getLast?.map Entry.id }.matching es = front ++ rest := split
  rw [page, matching]
  obtain rfl | ⟨before, last, rfl⟩ := List.eq_nil_or_concat' front
  · rfl
  · have ids := nodup_matching (q := q) distinct
    rw [split, List.append_assoc, List.map_append, List.nodup_append] at ids
    have apart : ∀ x ∈ before, x.id ≠ last.id := fun x hx =>
      ids.2.2 _ (List.mem_map_of_mem hx) _ (by simp)
    rw [List.getLast?_concat, Option.map_some, List.append_assoc, List.singleton_append, behind_append apart]

theorem exists_walk (distinct : (es.map Entry.id).Nodup) (positive : 1 ≤ q.limit) {front rest : List Entry}
    (split : q.matching es = front ++ rest) :
    ∃ pages, Walk q es (front.getLast?.map Entry.id) pages ∧ pages.flatten = rest := by
  have page := page_of_split distinct split
  -- Each page takes entries off the rest, so the walk ends.
  induction h : rest.length using Nat.strongRecOn generalizing front rest with
  | ind n ih =>
    subst h
    obtain hnil | ⟨init, last, hpage⟩ := List.eq_nil_or_concat' (rest.take q.limit)
    · have rest_nil : rest = [] := by
        rcases List.take_eq_nil_iff.mp hnil with h | h
        · omega
        · exact h
      exact ⟨[], .stop (.refl es) (page.trans hnil), rest_nil.symm⟩
    · have split' : q.matching es = (front ++ (init ++ [last])) ++ rest.drop q.limit := by
        rw [split, List.append_assoc, ← hpage, List.take_append_drop]
      have shorter : (rest.drop q.limit).length < rest.length := by
        have := congrArg List.length hpage
        rw [List.length_take, List.length_append, List.length_singleton] at this
        rw [List.length_drop]
        omega
      obtain ⟨pages, walk, flat⟩ := ih _ shorter split' (page_of_split distinct split') rfl
      rw [← List.append_assoc, List.getLast?_concat] at walk
      refine ⟨(init ++ [last]) :: pages, .next (.refl es) (page.trans hpage) walk, ?_⟩
      rw [List.flatten_cons, flat, ← hpage, List.take_append_drop]

/-- The pages do not depend on the orders in which the entries come. -/
theorem Walk.unique (distinct : (es.map Entry.id).Nodup) {cursor : Option String} {pages pages' : List (List Entry)}
    (h : Walk q es cursor pages) (h' : Walk q es cursor pages') : pages = pages' := by
  have same {cursor : Option String} {fs fs' page page' : List Entry} (hfs : fs.Perm es) (hfs' : fs'.Perm es)
      (h : { q with after := cursor }.page fs = page) (h' : { q with after := cursor }.page fs' = page') :
      page = page' := by
    rw [← h, ← h', page_perm _ (hfs.trans hfs'.symm) (((hfs.map _).nodup_iff).mpr distinct)]
  induction h generalizing pages' with
  | stop supplied page =>
    cases h' with
    | stop => rfl
    | next supplied' page' => exact absurd (same supplied supplied' page page') (by simp)
  | next supplied page _ ih =>
    cases h' with
    | stop supplied' page' => exact absurd (same supplied supplied' page page') (by simp)
    | next supplied' page' rest' =>
      obtain ⟨rfl, hlast⟩ := List.append_inj' (same supplied supplied' page page') rfl
      cases hlast
      rw [ih rest']

/-- Entries with distinct ids give the same page in whatever order they come, and the pages from the first up to the
    first empty one are together the accepted entries, each once and in the order of the query. -/
theorem walk_exact (q : Query) (es : List Entry) (distinct : (es.map Entry.id).Nodup) (positive : 1 ≤ q.limit) :
    (∀ fs, fs.Perm es → q.page fs = q.page es) ∧
      ∃ pages, Walk q es none pages ∧ (∀ pages', Walk q es none pages' → pages' = pages) ∧
        pages.flatten.Perm (es.filter q.accepts) ∧ pages.flatten.Pairwise (Before q.order) := by
  refine ⟨fun fs h => (page_perm q h.symm distinct).symm, ?_⟩
  have whole : q.matching es = [] ++ q.matching es := rfl
  obtain ⟨pages, walk, flat⟩ := exists_walk distinct positive whole
  refine ⟨pages, walk, fun pages' walk' => walk'.unique distinct walk, ?_, ?_⟩
  · rw [flat]
    exact List.mergeSort_perm _ _
  · rw [flat]
    exact pairwise_matching distinct

/-- Entries of one second, one of them archived, and one without a time, in pages of two. -/
theorem walk_exact_tied :
    let entry (id : String) (created : Option Instant) (isArchived : Bool) : Entry :=
      ⟨id, "towns", "u", [], [], 0, .training, "d", .worksheet, "s", false, isArchived, created, none, none, none⟩
    let second := Instant.ofParts? 0 1 0
    let es := [entry "untimed" none false, entry "b" second false, entry "gone" second true, entry "a" second false]
    let q : Query := ⟨none, 2, none, some false, .newestFirst⟩
    ∃ pages, Walk q es none pages ∧ pages.flatten.map Entry.id = ["a", "b", "untimed"] := by
  intro entry second es q
  obtain ⟨-, pages, walk, -, perm, sorted⟩ := walk_exact q es (by decide) (by decide)
  refine ⟨pages, walk, ?_⟩
  have expected : [entry "a" second false, entry "b" second false, entry "untimed" none false].Pairwise (Before q.order) := by
    decide
  have same : pages.flatten = [entry "a" second false, entry "b" second false, entry "untimed" none false] := by
    refine List.Perm.eq_of_pairwise (fun a b _ _ hab hba => absurd ⟨rfl, rfl⟩ (hab.trans hba).not_samePlace) sorted
      expected (perm.trans ?_)
    decide
  rw [same]
  rfl

end Query

/-! ### Answers of the service -/

section Answers
variable {u : Surroundings} {w : World Memory} {t : Turn} {after : Option String} {limit : Int}

theorem Turn.list_inv (list : t.request = .list after limit) {page : List Entry}
    (answer : (t.serve u w).1 = .ok (.entries page)) :
    page = (Query.listed after limit.toNat).page w.store.entries.values := by
  obtain ⟨source, settings, request⟩ := t
  cases list
  have served : (Turn.service ⟨source, settings, .list after limit⟩ u).handle (.list after limit) w =
      (.ok (.entries page), _) := Prod.ext answer rfl
  obtain ⟨r, h, hr⟩ := Task.map_inv served
  unfold Service.list at h
  split at h
  · obtain ⟨rfl, -⟩ := Task.throw_inv h
    cases hr
  · obtain ⟨-, ⟨_, rfl, -⟩ | ⟨_, rfl, hrun⟩⟩ := Service.callOr_inv rfl h <;> cases hr
    exact (Except.ok.inj (Prod.mk.inj hrun).1).symm

/-- A list with a positive limit is answered if its store call does not fail, and changes nothing. -/
theorem Turn.list_of_no_fault (list : t.request = .list after limit) (positive : 1 ≤ limit)
    (fault : u.fault w.calls .listEntries = none) :
    (t.serve u w).1 = .ok (.entries ((Query.listed after limit.toNat).page w.store.entries.values)) ∧
      (t.serve u w).2 = { w with calls := w.calls + 1 } := by
  obtain ⟨source, settings, request⟩ := t
  cases list
  have listed : (Turn.service ⟨source, settings, .list after limit⟩ u).list after limit w =
      (.ok ((Query.listed after limit.toNat).page w.store.entries.values), { w with calls := w.calls + 1 }) := by
    rw [Service.list, if_neg (by omega)]
    exact Service.callOr_of_no_fault rfl fault _
  exact Prod.mk.inj (Task.bind_ok listed)

end Answers

end GridCatalog
