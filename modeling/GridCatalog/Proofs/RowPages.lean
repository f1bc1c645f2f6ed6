import Mathlib.Data.List.Chain
import GridCatalog.Proofs.Run
import GridCatalog.Store.JsonDirectory

/-! Reading the rows of a dataset page by page.

    A page has the rows from one position to before another, whatever the bounds are. Rows in front of a bound
    and the page from there to a later bound are the rows in front of that (`take_append_pageRows`), so the pages
    between neighbouring bounds are together the rows between the first and the last of them. -/

namespace GridCatalog

/-! ### Rows between bounds -/

section Rows
variable {α : Type}

theorem filter_zipIdx (start stop : Nat) (rows : List α) (n : Nat) :
    ((rows.zipIdx n).filter fun p => start ≤ p.2 ∧ p.2 < stop).map Prod.fst =
      (rows.drop (start - n)).take (stop - max start n) := by
  induction rows generalizing n with
  | nil => simp
  | cons row rows ih =>
    rw [List.zipIdx_cons]
    by_cases hstart : start ≤ n
    · by_cases hstop : n < stop
      · rw [List.filter_cons_of_pos (by simpa using ⟨hstart, hstop⟩), List.map_cons, ih,
          show start - n = 0 by omega, show start - (n + 1) = 0 by omega,
          show stop - max start n = stop - max start (n + 1) + 1 by omega]
        rfl
      · rw [List.filter_cons_of_neg (by simp; omega), ih, show stop - max start (n + 1) = 0 by omega,
          show stop - max start n = 0 by omega, List.take_zero, List.take_zero]
    · rw [List.filter_cons_of_neg (by simp; omega), ih, show start - n = start - (n + 1) + 1 by omega,
        List.drop_succ_cons, show max start (n + 1) = max start n by omega]

/-- A page has the rows whose position lies between the bounds. -/
theorem pageRows_eq (rows : List α) (skip limit : Int) :
    pageRows rows skip limit = (rows.zipIdx.filter fun p => skip ≤ p.2 ∧ p.2 < limit).map Prod.fst := by
  have clamped : ∀ p ∈ rows.zipIdx, decide (skip ≤ p.2 ∧ p.2 < limit) =
      decide (clampBound rows.length skip ≤ p.2 ∧ p.2 < clampBound rows.length limit) := by
    intro p hp
    have := (List.mem_zipIdx hp).2.1
    refine decide_eq_decide.mpr ?_
    simp only [clampBound]
    omega
  rw [List.filter_congr clamped, filter_zipIdx, pageRows, pageBounds]
  dsimp only
  congr 1
  omega

theorem take_append_pageRows (rows : List α) {skip limit : Int} (h : skip ≤ limit) :
    rows.take (clampBound rows.length skip) ++ pageRows rows skip limit = rows.take (clampBound rows.length limit) := by
  have ordered : clampBound rows.length skip ≤ clampBound rows.length limit := by
    simp only [clampBound]
    omega
  rw [pageRows, pageBounds]
  dsimp only
  rw [← List.take_add]
  congr 1
  omega

/-- The pages between neighbouring bounds fill up the rows in front of the first bound to those in front of the last. -/
theorem take_append_pages (rows : List α) {first last : Int} {bounds : List Int}
    (ordered : (first :: bounds).IsChain (· ≤ ·)) (ends : (first :: bounds).getLast? = some last) :
    rows.take (clampBound rows.length first) ++ ((first :: bounds).zip bounds).flatMap (fun b => pageRows rows b.1 b.2) =
      rows.take (clampBound rows.length last) := by
  induction bounds generalizing first with
  | nil =>
    cases ends
    exact List.append_nil _
  | cons next bounds ih =>
    obtain ⟨h, ordered⟩ := List.isChain_cons_cons.mp ordered
    rw [List.getLast?_cons_cons] at ends
    rw [List.zip_cons_cons, List.flatMap_cons, ← List.append_assoc, take_append_pageRows rows h, ih ordered ends]

/-- Bounds in order, the first of them not behind the start of the rows and the last not in front of their end. -/
structure Spans (bounds : List Int) (size : Nat) : Prop where
  ordered : bounds.IsChain (· ≤ ·)
  starts : ∃ first ∈ bounds.head?, first ≤ 0
  ends : ∃ last ∈ bounds.getLast?, size ≤ last

theorem Spans.flatMap_pages {rows : List α} {bounds : List Int} (h : Spans bounds rows.length) :
    (bounds.zip bounds.tail).flatMap (fun b => pageRows rows b.1 b.2) = rows := by
  obtain ⟨first, hfirst, low⟩ := h.starts
  obtain ⟨last, hlast, high⟩ := h.ends
  cases bounds with
  | nil => cases hfirst
  | cons first' bounds =>
    cases hfirst
    have whole := take_append_pages rows h.ordered hlast
    rw [show clampBound rows.length first = 0 by simp only [clampBound]; omega,
      show clampBound rows.length last = rows.length by simp only [clampBound]; omega, List.take_zero, List.nil_append,
      List.take_length] at whole
    exact whole

end Rows

/-! ### Machine words -/

/-- A bound of a page, held between 0 and `size` in machine words. -/
def clampWord (size : UInt64) (bound : Int64) : UInt64 := min (max bound 0).toUInt64 size

/-- The bounds of a page in machine words. -/
def pageWords (size : UInt64) (skip limit : Int64) : UInt64 × UInt64 :=
  let start := clampWord size skip
  let stop := clampWord size limit
  if stop < start then (start, start) else (start, stop)

theorem toNat_clampWord (size : UInt64) (bound : Int64) :
    (clampWord size bound).toNat = clampBound size.toNat bound.toInt := by
  have nonneg : (max bound 0).toUInt64.toNat = bound.toInt.toNat := by
    rw [show max bound 0 = if bound ≤ 0 then 0 else bound from rfl]
    split
    · rename_i h
      have := Int64.le_iff_toInt_le.mp h
      rw [Int64.toInt_zero] at this
      rw [show bound.toInt.toNat = 0 by omega]
      rfl
    · rename_i h
      rw [Int64.toNat_toInt, Int64.toNat_toUInt64_of_le (Int64.le_of_lt (Int64.not_le.mp h))]
  rw [clampWord, clampBound, UInt64.toNat_min, nonneg]

/-- The bounds that machine words give are exact. -/
theorem toNat_pageWords (size : UInt64) (skip limit : Int64) :
    ((pageWords size skip limit).1.toNat, (pageWords size skip limit).2.toNat) =
      pageBounds size.toNat skip.toInt limit.toInt := by
  have order : clampWord size limit < clampWord size skip ↔
      clampBound size.toNat limit.toInt < clampBound size.toNat skip.toInt := by
    rw [UInt64.lt_iff_toNat_lt, toNat_clampWord, toNat_clampWord]
  rw [pageBounds, pageWords]
  split <;> rename_i h <;> rw [order] at h
  · rw [toNat_clampWord, Nat.max_eq_left (Nat.le_of_lt h)]
  · rw [toNat_clampWord, toNat_clampWord, Nat.max_eq_right (Nat.not_lt.mp h)]

/-! ### Reading -/

variable {σ α : Type}

/-- Reading leaves the state of the store as it is. -/
def Store.ReadsOnly (store : Store σ) : Prop := ∀ id stamp x,
  (store.run (.readEntry id) stamp x).2 = x ∧ (store.run (.readDataset id) stamp x).2 = x

theorem Memory.readsOnly : Memory.store.ReadsOnly := fun _ _ _ => ⟨rfl, rfl⟩

theorem JsonDirectory.readsOnly (j : JsonDirectory) : j.store.ReadsOnly := fun _ _ _ => ⟨rfl, rfl⟩

/-- The store holds an entry with its dataset: it answers with them. -/
structure Store.Holds (store : Store σ) (x : σ) (id : String) (e : Entry) (d : Dataset) : Prop where
  entry : ∀ stamp, (store.run (.readEntry id) stamp x).1 = .ok e
  dataset : ∀ stamp, (store.run (.readDataset e.datasetId) stamp x).1 = .ok d

namespace Service
variable {s : Service σ} {w : World σ} {id : String} {e : Entry} {d : Dataset}

theorem callOr_keeps_store {c : Call α} (reads : ∀ stamp x, (s.store.run c stamp x).2 = x) (blame : StoreError → Failure)
    (w : World σ) : (s.callOr blame c w).2.store = w.store := by
  rw [callOr_apply, call]
  split
  · rfl
  · exact reads _ _

theorem callOr_answers {c : Call α} {a : α} (reads : ∀ stamp x, (s.store.run c stamp x).2 = x)
    (answer : ∀ stamp, (s.store.run c stamp w.store).1 = .ok a) (fault : s.surroundings.fault w.calls c.kind = none)
    (blame : StoreError → Failure) : s.callOr blame c w = (.ok a, { w with calls := w.calls + 1 }) := by
  have run : s.store.run c (s.stamp w) w.store = (.ok a, w.store) := Prod.ext (answer _) (reads _ _)
  rw [callOr_apply, call, fault, run]
  rfl

/-- A page can be read of whatever the store holds, unless a call fails. -/
theorem read_holds (reads : s.store.ReadsOnly) (holds : s.store.Holds w.store id e d)
    (fault : s.surroundings.fault w.calls .readEntry = none)
    (fault' : s.surroundings.fault (w.calls + 1) .readDataset = none) (skip limit : Int) :
    s.read id skip limit w = (.ok (d.page skip limit), { w with calls := w.calls + 2 }) := by
  have first : s.entry id w = (.ok e, { w with calls := w.calls + 1 }) :=
    callOr_answers (fun stamp x => (reads id stamp x).1) holds.entry fault _
  have second : s.callOr datasetUnreadable (.readDataset e.datasetId) { w with calls := w.calls + 1 } =
      (.ok d, { w with calls := w.calls + 2 }) :=
    callOr_answers (w := { w with calls := w.calls + 1 }) (fun stamp x => (reads _ stamp x).2) holds.dataset fault' _
  have both : s.entryAndDataset id w = (.ok (e, d), { w with calls := w.calls + 2 }) := by
    rw [entryAndDataset, Task.bind_ok first, Task.bind_ok second]
    rfl
  rw [read, Task.bind_ok both]
  rfl

theorem bind_keeps_store {β : Type} {x : Task σ α} {f : α → Task σ β} (hx : ∀ w, (x w).2.store = w.store)
    (hf : ∀ a w, (f a w).2.store = w.store) (w : World σ) : ((x >>= f) w).2.store = w.store := by
  have kept := hx w
  rcases h : x w with ⟨e | a, v⟩ <;> rw [h] at kept
  · rw [Task.bind_error h]
    exact kept
  · rw [Task.bind_ok h]
    exact (hf a v).trans kept

/-- Reading a page does not touch the store, whether it succeeds or not. -/
theorem read_keeps_store (reads : s.store.ReadsOnly) (id : String) (skip limit : Int) (w : World σ) :
    (s.read id skip limit w).2.store = w.store := by
  have entry : ∀ w, (s.entry id w).2.store = w.store :=
    callOr_keeps_store (fun stamp x => (reads id stamp x).1) _
  have dataset (id : String) : ∀ w, (s.callOr datasetUnreadable (.readDataset id) w).2.store = w.store :=
    callOr_keeps_store (fun stamp x => (reads id stamp x).2) _
  have both : ∀ w, (s.entryAndDataset id w).2.store = w.store :=
    bind_keeps_store entry fun e => bind_keeps_store (dataset e.datasetId) fun _ _ => rfl
  exact bind_keeps_store both (fun _ _ => rfl) w

theorem mapM_read (reads : s.store.ReadsOnly) (holds : s.store.Holds w.store id e d)
    (fault : ∀ n, w.calls ≤ n → s.surroundings.fault n .readEntry = none ∧ s.surroundings.fault n .readDataset = none)
    (bounds : List (Int × Int)) :
    bounds.mapM (fun b => s.read id b.1 b.2) w =
      (.ok (bounds.map fun b => d.page b.1 b.2), { w with calls := w.calls + 2 * bounds.length }) := by
  induction bounds generalizing w with
  | nil => rfl
  | cons b bounds ih =>
    have first := read_holds reads holds (fault _ (Nat.le_refl _)).1 (fault _ (Nat.le_succ _)).2 b.1 b.2
    have rest := ih (w := { w with calls := w.calls + 2 }) holds fun n hn => fault n (Nat.le_trans (Nat.le_add_right ..) hn)
    rw [List.mapM_cons, Task.bind_ok first, Task.bind_ok rest, List.length_cons, List.map_cons,
      show w.calls + 2 * (bounds.length + 1) = w.calls + 2 + 2 * bounds.length by omega]
    rfl

/-- Reading an entry's dataset gives the rows between two bounds and leaves the store alone; the pages between bounds
    that span the dataset are together its whole body. Machine words are wide enough for the bounds, and these are in
    order and inside the rows. -/
theorem read_exact :
    (Memory.store.ReadsOnly ∧ ∀ j : JsonDirectory, j.store.ReadsOnly) ∧
    (∀ {σ : Type} (s : Service σ) (w : World σ) (id : String) (e : Entry) (d : Dataset), s.store.ReadsOnly →
      (∀ skip limit, (s.read id skip limit w).2.store = w.store) ∧
      (s.store.Holds w.store id e d →
        (∀ skip limit, s.surroundings.fault w.calls .readEntry = none →
          s.surroundings.fault (w.calls + 1) .readDataset = none →
          s.read id skip limit w =
            (.ok { d with body := (d.body.zipIdx.filter fun p => skip ≤ p.2 ∧ p.2 < limit).map Prod.fst },
              { w with calls := w.calls + 2 })) ∧
        ∀ bounds, Spans bounds d.rowCount →
          (∀ n, w.calls ≤ n →
            s.surroundings.fault n .readEntry = none ∧ s.surroundings.fault n .readDataset = none) →
          ∃ pages v, (bounds.zip bounds.tail).mapM (fun b => s.read id b.1 b.2) w = (.ok pages, v) ∧
            v.store = w.store ∧ pages.flatMap Dataset.body = d.body)) ∧
    ∀ size skip limit,
      ((pageWords size skip limit).1.toNat, (pageWords size skip limit).2.toNat) =
        pageBounds size.toNat skip.toInt limit.toInt ∧
      (pageWords size skip limit).1 ≤ (pageWords size skip limit).2 ∧ (pageWords size skip limit).2 ≤ size := by
  refine ⟨⟨Memory.readsOnly, JsonDirectory.readsOnly⟩, fun s w id e d reads => ⟨fun skip limit => ?_, fun holds => ⟨?_, ?_⟩⟩,
    fun size skip limit => ?_⟩
  · exact read_keeps_store reads id skip limit w
  · intro skip limit fault fault'
    rw [read_holds reads holds fault fault', Dataset.page, pageRows_eq]
  · intro bounds spans fault
    refine ⟨_, _, mapM_read reads holds fault _, rfl, ?_⟩
    rw [List.flatMap_map]
    exact spans.flatMap_pages
  · have words := toNat_pageWords size skip limit
    obtain ⟨ordered, inside⟩ := pageBounds_le size.toNat skip.toInt limit.toInt
    rw [← words] at ordered inside
    exact ⟨words, UInt64.le_iff_toNat_le.mpr ordered, UInt64.le_iff_toNat_le.mpr inside⟩

/-- Pages of three rows between bounds that reach to the ends of the machine integers, two of them at one place. -/
theorem read_exact_extremes :
    let d : Dataset := { Dataset.new "towns" "u" [] [[.texts ["a"]], [.texts ["b"]], [.texts ["c"]]] with id := "d" }
    let e := Entry.preview "e" d .worksheet "s"
    let s := (Turn.ofRequest (.entry "e")).service (.counting [])
    let w := World.start ((Memory.empty.insertDataset d).insertEntry e)
    let bounds : List Int := [-9223372036854775808, -1, 1, 1, 2, 9223372036854775807]
    (∃ pages v, (bounds.zip bounds.tail).mapM (fun b => s.read "e" b.1 b.2) w = (.ok pages, v) ∧
      v.store = w.store ∧ pages.flatMap Dataset.body = d.body) ∧
      s.read "e" 2 (-1) w = (.ok { d with body := [] }, { w with calls := 2 }) := by
  intro d e s w bounds
  have holds : s.store.Holds w.store "e" e d := ⟨fun _ => rfl, fun _ => rfl⟩
  obtain ⟨-, answered⟩ := read_exact.2.1 s w "e" e d read_exact.1.1
  obtain ⟨page, tiled⟩ := answered holds
  refine ⟨tiled bounds ⟨by decide, ⟨_, rfl, by decide⟩, ⟨_, rfl, by decide⟩⟩ fun _ _ => ⟨rfl, rfl⟩, ?_⟩
  exact page 2 (-1) rfl rfl

end Service
end GridCatalog
