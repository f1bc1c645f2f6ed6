import Mathlib.Data.Fintype.EquivFin
import GridCatalog.Proofs.References
import GridCatalog.Proofs.Winners

/-! Approvals one after the other.

    An approval works through its winning selections and takes the columns that each of them names. The next approval
    finds these columns under the indices that their winners gave them. So it takes, for each of its own winners, what
    the winners with that index took, and one approval that puts the two selections together makes the same of a
    dataset (`reshape_reshape`). However often a stored dataset is approved, it is what one approval makes of it
    (`approvals_compose`). -/

namespace GridCatalog

namespace Approval
variable {a b : Approval} {header : List Column} {α : Type}

/-! ### Winner by winner -/

/-- The selections that win the columns with the index that they name, by rank, with their places. -/
def leaders (a : Approval) : List (Selection × Nat) :=
  a.placed.filter fun x => a.placed.find? (fun y => y.1.column = x.1.column) = some x

theorem mem_leaders {x : Selection × Nat} : x ∈ a.leaders ↔ a.Wins x.1.column x.1 x.2 := by
  rw [leaders, List.mem_filter, decide_eq_true_eq, find?_placed, mem_placed]
  exact ⟨And.right, fun wins => ⟨wins.stands, wins⟩⟩

theorem pairwise_leaders (a : Approval) :
    a.leaders.Pairwise fun x y => x.1.index < y.1.index ∨ x.1.index = y.1.index ∧ x.2 < y.2 :=
  a.pairwise_placed.filter _

theorem nodup_leaders (a : Approval) : (a.leaders.map fun x => x.1.column).Nodup := by
  refine List.pairwise_map.mpr (a.pairwise_leaders.imp_of_mem fun {x y} hx hy before same => ?_)
  have first := find?_placed.mpr (mem_leaders.mp hx)
  rw [same, find?_placed.mpr (mem_leaders.mp hy)] at first
  cases first
  omega

/-- The columns of a header that have a winner, winner by winner. -/
def kept (a : Approval) (header : List Column) : List Winning :=
  a.leaders.flatMap fun s =>
    (header.zipIdx.filter fun x => x.1.index = s.1.column).map fun x => ⟨x.2, x.1, s.2, s.1⟩

theorem keeps_kept (a : Approval) (header : List Column) : a.Keeps header (a.kept header) where
  exactly x := by
    simp only [kept, List.mem_flatMap, List.mem_map, List.mem_filter, decide_eq_true_eq, mem_leaders,
      List.mem_zipIdx_iff_getElem?]
    constructor
    · rintro ⟨s, wins, c, ⟨stands, same⟩, rfl⟩
      exact ⟨stands, same ▸ wins⟩
    · rintro ⟨stands, wins⟩
      exact ⟨(x.selection, x.place), wins.names.symm ▸ wins, (x.column, x.position), ⟨stands, wins.names.symm⟩, rfl⟩
  ordered := by
    refine List.pairwise_flatMap.mpr ⟨fun s _ => ?_, a.pairwise_leaders.imp fun {s t} before x hx y hy => ?_⟩
    · refine List.pairwise_map.mpr (((pairwise_zipIdx header).filter _).imp fun lt => ?_)
      exact Or.inr ⟨rfl, Or.inr ⟨rfl, lt⟩⟩
    · obtain ⟨_, -, rfl⟩ := List.mem_map.mp hx
      obtain ⟨_, -, rfl⟩ := List.mem_map.mp hy
      exact before.imp id fun h => ⟨h.1, Or.inl h.2⟩

theorem Keeps.nil (unnamed : ∀ c ∈ header, ¬ a.Names c.index) : a.Keeps header [] where
  exactly x := by
    refine ⟨fun h => absurd h List.not_mem_nil, fun ⟨stands, wins⟩ => ?_⟩
    exact absurd ⟨x.selection, List.mem_of_getElem? wins.stands, wins.names⟩ (unnamed _ (List.mem_of_getElem? stands))
  ordered := .nil

/-- Columns, each with something that moves with it, as an approval arranges them. -/
def arrange (a : Approval) (xs : List (Column × α)) : List (Column × α) :=
  a.leaders.flatMap fun s => (xs.filter fun x => x.1.index = s.1.column).map (Prod.map s.1.give id)

/-! ### Two approvals -/

/-- Two approvals as one: for each winner of the second one, the winners of the first one that give the index that it
    names, in their order. -/
def andThen (a b : Approval) : Approval where
  name := b.name
  selections := b.leaders.flatMap fun t =>
    (a.leaders.filter fun s => s.1.index = t.1.column).map fun s => { t.1 with column := s.1.column }

/-- Selections that are in order and name different columns all win. -/
theorem leaders_eq (sorted : a.selections.Pairwise fun s t => s.index ≤ t.index)
    (apart : (a.selections.map Selection.column).Nodup) : a.leaders = a.selections.zipIdx := by
  have ordered : a.placed = a.selections.zipIdx := by
    refine List.mergeSort_of_pairwise ?_
    simp only [decide_eq_true_eq]
    rwa [← List.zipIdx_map_fst 0 a.selections, List.pairwise_map] at sorted
  refine (List.filter_eq_self.mpr fun x hx => ?_).trans ordered
  have stands := mem_placed.mp hx
  refine decide_eq_true (find?_placed.mpr ⟨stands, rfl, fun {s place} stands' same => ?_⟩)
  -- There is no other selection for the column.
  obtain rfl : x.2 = place := place_eq_of_nodup_map apart stands stands' same.symm
  rw [stands] at stands'
  cases stands'
  exact Or.inr ⟨rfl, Nat.le_refl _⟩

theorem leaders_andThen (a b : Approval) : (a.andThen b).leaders = (a.andThen b).selections.zipIdx := by
  refine leaders_eq (List.pairwise_flatMap.mpr ⟨fun t _ => ?_, ?_⟩) ?_
  · exact List.pairwise_map.mpr (List.pairwise_of_forall fun _ _ => Nat.le_refl _)
  · refine b.pairwise_leaders.imp fun {t t'} before s hs s' hs' => ?_
    obtain ⟨_, -, rfl⟩ := List.mem_map.mp hs
    obtain ⟨_, -, rfl⟩ := List.mem_map.mp hs'
    show t.1.index ≤ t'.1.index
    omega
  · rw [andThen, List.map_flatMap]
    simp only [List.map_map]
    refine List.nodup_flatMap.mpr ⟨fun t _ => (List.filter_sublist.map _).nodup a.nodup_leaders, ?_⟩
    have apart : b.leaders.Pairwise fun t t' => t.1.column ≠ t'.1.column := List.pairwise_map.mp b.nodup_leaders
    refine apart.imp fun {t t'} ne column h h' => ne ?_
    -- A column has one winner in the first approval, and this gives it one index.
    obtain ⟨s, hs, rfl⟩ := List.mem_map.mp h
    obtain ⟨s', hs', same⟩ := List.mem_map.mp h'
    simp only [List.mem_filter, decide_eq_true_eq] at hs hs'
    obtain rfl : s' = s := List.inj_on_of_nodup_map a.nodup_leaders hs'.1 hs.1 same
    exact hs.2.symm.trans hs'.2

/-- What the second approval takes with one selection, winner by winner of the first one. -/
theorem filter_arrange (a : Approval) (t : Selection) (xs : List (Column × α)) :
    ((a.arrange xs).filter fun x => x.1.index = t.column).map (Prod.map t.give id) =
      (a.leaders.filter fun s => s.1.index = t.column).flatMap fun s =>
        (xs.filter fun x => x.1.index = s.1.column).map (Prod.map t.give id) := by
  rw [arrange]
  induction a.leaders with
  | nil => rfl
  | cons s ss ih =>
    -- All that the winner takes has the index that it gives.
    have given : (fun x : Column × α => decide (x.1.index = t.column)) ∘ Prod.map s.1.give id =
        fun _ => decide (s.1.index = t.column) := rfl
    rw [List.flatMap_cons, List.filter_append, List.map_append, ih, List.filter_map, List.map_map, given, List.filter_cons]
    by_cases hs : s.1.index = t.column
    · rw [decide_eq_true hs, List.filter_true, if_pos rfl, List.flatMap_cons]
      rfl
    · rw [decide_eq_false hs, List.filter_false, if_neg Bool.false_ne_true]
      rfl

theorem arrange_arrange (a b : Approval) (xs : List (Column × α)) :
    b.arrange (a.arrange xs) = (a.andThen b).arrange xs := by
  have all : (a.andThen b).arrange xs = (a.andThen b).selections.flatMap fun s =>
      (xs.filter fun x => x.1.index = s.column).map (Prod.map s.give id) := by
    rw [arrange, leaders_andThen]
    conv_rhs => rw [← List.zipIdx_map_fst 0 (a.andThen b).selections, List.flatMap_map]
  rw [all, andThen, List.flatMap_assoc, arrange]
  refine List.flatMap_congr fun t _ => ?_
  rw [filter_arrange, List.flatMap_map]
  rfl

end Approval

namespace Dataset
variable {d : Dataset} {a b : Approval}

/-- The columns with their cells of a row; a row that is too short has empty cells. -/
def line (d : Dataset) (row : Row) : List (Column × Cell) :=
  d.header.zipIdx.map fun x => (x.1, row[x.2]?.getD (Cell.empty x.1.kind))

theorem line_eq_zip {row : Row} (h : row.length = d.columnCount) : d.line row = d.header.zip row := by
  refine List.ext_getElem (by simp [line, h, columnCount]) fun i hi hi' => ?_
  have inside : i < row.length := Nat.lt_of_lt_of_le hi' (by rw [List.length_zip]; omega)
  rw [List.getElem_zip]
  simp only [line, List.getElem_map, List.getElem_zipIdx, Nat.zero_add, List.getElem?_eq_getElem inside,
    Option.getD_some]

theorem map_kept (d : Dataset) (a : Approval) (row : Row) :
    ((a.kept d.header).map fun x => (x.heading, x.cell row)) = a.arrange (d.line row) := by
  rw [Approval.kept, Approval.arrange, List.map_flatMap]
  refine List.flatMap_congr fun s _ => ?_
  rw [line, List.map_map, List.filter_map, List.map_map]
  rfl

theorem header_reshape_eq (d : Dataset) (a : Approval) (row : Row) :
    (d.reshape a).header = (a.arrange (d.line row)).map Prod.fst := by
  rw [reshape_eq_keeping (a.keeps_kept d.header), ← map_kept, List.map_map]
  rfl

theorem body_reshape_eq (d : Dataset) (a : Approval) :
    (d.reshape a).body = d.body.map fun row => (a.arrange (d.line row)).map Prod.snd := by
  rw [reshape_eq_keeping (a.keeps_kept d.header)]
  simp only [← map_kept, List.map_map]
  rfl

theorem line_reshape (d : Dataset) (a : Approval) (row : Row) :
    (d.reshape a).line ((a.arrange (d.line row)).map Prod.snd) = a.arrange (d.line row) := by
  have header := d.header_reshape_eq a row
  rw [line_eq_zip (by rw [columnCount, header, List.length_map, List.length_map]), header]
  exact (List.zip_of_prod rfl rfl).symm

/-- Two approvals one after the other are one approval. -/
theorem reshape_reshape (d : Dataset) (a b : Approval) : (d.reshape a).reshape b = d.reshape (a.andThen b) := by
  have header : ((d.reshape a).reshape b).header = (d.reshape (a.andThen b)).header := by
    rw [header_reshape_eq _ b ((a.arrange (d.line [])).map Prod.snd), line_reshape, Approval.arrange_arrange,
      ← header_reshape_eq]
  have body : ((d.reshape a).reshape b).body = (d.reshape (a.andThen b)).body := by
    rw [body_reshape_eq, body_reshape_eq d a, body_reshape_eq, List.map_map]
    refine List.map_congr_left fun row _ => ?_
    rw [Function.comp_apply, line_reshape, Approval.arrange_arrange]
  exact congrArg₂ (fun header body => { d with name := b.name, header, body }) header body

/-- The second approval takes both columns to which the first one gave one index. -/
example : Approval.andThen ⟨"tied", [⟨1, 0, "city", 0, false⟩, ⟨0, 0, "name", 0, false⟩]⟩
    ⟨"one", [⟨0, 3, "both", 0, true⟩]⟩ = ⟨"one", [⟨1, 3, "both", 0, true⟩, ⟨0, 3, "both", 0, true⟩]⟩ := by
  unfold Approval.andThen Approval.leaders Approval.placed
  rw [mergeSort_eq_insertionSort, mergeSort_eq_insertionSort]
  decide +kernel

theorem foldl_reshape (d : Dataset) (a : Approval) (as : List Approval) :
    (a :: as).foldl reshape d = d.reshape (as.foldl Approval.andThen a) := by
  induction as generalizing a with
  | nil => rfl
  | cons b as ih =>
    rw [List.foldl_cons, List.foldl_cons, reshape_reshape]
    exact ih (a.andThen b)

/-! ### Stored datasets -/

/-- What an approval without selections makes of a dataset, which the service refuses, is made by one that names none of
    its columns. -/
theorem exists_reshape_eq (d : Dataset) (a : Approval) : ∃ m, m.selections ≠ [] ∧ d.reshape m = d.reshape a := by
  by_cases empty : a.selections = []
  · obtain ⟨k, hk⟩ := Infinite.exists_notMem_finset (d.header.map Column.index).toFinset
    rw [List.mem_toFinset, List.mem_map] at hk
    refine ⟨⟨a.name, [⟨k, 0, "", 0, false⟩]⟩, List.cons_ne_nil _ _, ?_⟩
    rw [reshape_eq_keeping (.nil _), reshape_eq_keeping (.nil _)]
    · rintro c - ⟨s, hs, -⟩
      exact absurd (empty ▸ hs) List.not_mem_nil
    · rintro c hc ⟨s, hs, same⟩
      rw [List.mem_singleton.mp hs] at same
      exact hk ⟨c, hc, same.symm⟩
  · exact ⟨a, empty, rfl⟩

/-- The dataset is the given one, or what one approval makes of it. -/
def ApprovedOnce (d₀ d : Dataset) : Prop :=
  d = d₀ ∨ ∃ m e t, m.selections ≠ [] ∧ d = (d₀.approved m e).touched t

theorem approved_approved (d : Dataset) (a b : Approval) (e e' : Entry) (t t' : Instant) :
    (((d.approved a e).touched t).approved b e').touched t' = (d.approved (a.andThen b) e').touched t' := by
  show ({ (d.reshape a).reshape b with entryId := some e'.id, updated := some t' } : Dataset) = _
  rw [reshape_reshape]
  rfl

theorem ApprovedOnce.approved {d₀ : Dataset} (h : d₀.ApprovedOnce d) (a : Approval) (e : Entry) (t : Instant) :
    d₀.ApprovedOnce ((d.approved a e).touched t) := by
  have once : ∀ b : Approval, ∃ m e' t', m.selections ≠ [] ∧
      (d₀.approved b e).touched t = (d₀.approved m e').touched t' := fun b => by
    obtain ⟨m, some, same⟩ := d₀.exists_reshape_eq b
    exact ⟨m, e, t, some, by rw [Dataset.approved, Dataset.approved, same]⟩
  rcases h with rfl | ⟨m, e', t', -, rfl⟩
  · exact Or.inr (once a)
  · rw [approved_approved]
    exact Or.inr (once (m.andThen a))

end Dataset

namespace World

/-- Two approvals of a dataset one after the other are one approval, which the two determine, and so are any number of
    them. A stored dataset is later, if it is still stored, what it was or what one approval makes of it, however often
    it has been approved since and whichever calls of the store have failed. -/
theorem approvals_compose :
    (∀ d a b, (Dataset.reshape d a).reshape b = d.reshape (a.andThen b)) ∧
    (∀ d a as, (a :: as).foldl Dataset.reshape d = d.reshape (as.foldl Approval.andThen a)) ∧
    ∀ u : Surroundings, Function.Injective u.freshId → ∀ before later id d₀ d,
      (reached u before).store.datasets.get? id = some d₀ →
      (reached u (before ++ later)).store.datasets.get? id = some d → d₀.ApprovedOnce d := by
  refine ⟨Dataset.reshape_reshape, Dataset.foldl_reshape, fun u hu before later id d₀ d stored₀ stored => ?_⟩
  rw [reached_append] at stored
  exact (Sound.reached hu before).dataset_induct hu (fun d a e t h => h.approved a e t) stored₀ (Or.inl rfl) later stored

/-- Two approvals, of which the first one fails halfway, leave the dataset as one approval of it. -/
theorem approvals_compose_reapproved :
    let u := Surroundings.counting [5]
    let ingest := Turn.ofRequest (.ingest "list")
    ∃ d₀ d, Function.Injective u.freshId ∧ (reached u [ingest]).store.datasets.get? "i" = some d₀ ∧
      (reached u ([ingest] ++ Turn.approvals)).store.datasets.get? "i" = some d ∧
      ∃ m e t, m.selections ≠ [] ∧ d = (d₀.approved m e).touched t ∧ d.header.map Column.title = ["town", "who"] := by
  intro u ingest
  have hu : Function.Injective u.freshId := Surroundings.counting_injective [5]
  obtain ⟨d₀, stored₀, name⟩ : ∃ d, (reached u [ingest]).store.datasets.get? "i" = some d ∧ d.name = "people" :=
    Option.map_eq_some_iff.mp (by decide +kernel)
  obtain ⟨d, stored, shown⟩ : ∃ d, (reached u ([ingest] ++ Turn.approvals)).store.datasets.get? "i" = some d ∧
      (d.name, d.header.map Column.title) = ("towns", ["town", "who"]) := by
    refine Option.map_eq_some_iff.mp ?_
    unfold reached World.after Turn.serve Service.handle Service.approve Dataset.reshape
    rw [Approval.picks_eq]
    decide +kernel
  obtain ⟨name', titles⟩ := Prod.mk.inj shown
  refine ⟨d₀, d, hu, stored₀, stored, ?_⟩
  rcases approvals_compose.2.2 u hu [ingest] Turn.approvals "i" d₀ d stored₀ stored with rfl | ⟨m, e, t, some, rfl⟩
  · rw [name] at name'
    exact absurd name' (by decide)
  · exact ⟨m, e, t, some, rfl, titles⟩

end World

end GridCatalog
