import Mathlib.Data.List.Sort
import GridCatalog.Proofs.Picks

/-! The columns that an approval keeps, without sorting.

    Of the selections that name the index of a column, one wins: the one with the least new index, and of those the
    first. The columns that have a winner are kept, ordered by the new index and the place of their winners and then by
    where they stood. A list that is so ordered is determined by its elements, so this says all there is to say about
    what an approval makes of a dataset (`reshape_iff_winners`). -/

namespace GridCatalog

/-! ### Stable sorting -/

section Sorting
variable {α : Type} {key : α → Nat} {l : List α}

theorem key_trans (x y z : α) (hxy : decide (key x ≤ key y) = true) (hyz : decide (key y ≤ key z) = true) :
    decide (key x ≤ key z) = true := by
  simp only [decide_eq_true_eq] at hxy hyz ⊢
  exact Nat.le_trans hxy hyz

theorem key_total (x y : α) : (decide (key x ≤ key y) || decide (key y ≤ key x)) = true := by
  simp only [Bool.or_eq_true, decide_eq_true_eq]
  exact Nat.le_total _ _

theorem pairwise_le_mergeSort (key : α → Nat) (l : List α) :
    (l.mergeSort fun x y => key x ≤ key y).Pairwise fun x y => key x ≤ key y := by
  simpa only [decide_eq_true_eq] using List.pairwise_mergeSort key_trans key_total l

theorem orderedInsert_append {x : α} {before after : List α} (passed : ∀ y ∈ before, ¬ key x ≤ key y)
    (stopped : ∀ y ∈ after, key x ≤ key y) :
    (before ++ after).orderedInsert (fun x y => key x ≤ key y) x = before ++ x :: after := by
  induction before with
  | nil =>
    cases after with
    | nil => rfl
    | cons y ys => exact List.orderedInsert_cons_of_le _ ys (stopped y List.mem_cons_self)
  | cons y before ih =>
    rw [List.cons_append, List.orderedInsert_cons, if_neg (passed y List.mem_cons_self),
      ih fun z hz => passed z (List.mem_cons_of_mem _ hz)]
    rfl

/-- Sorting by a key inserts one element after the other. The kernel can evaluate that, and not the sort. -/
theorem mergeSort_eq_insertionSort (key : α → Nat) (l : List α) :
    (l.mergeSort fun x y => key x ≤ key y) = l.insertionSort fun x y => key x ≤ key y := by
  induction l with
  | nil => exact List.mergeSort_nil
  | cons x l ih =>
    obtain ⟨before, after, sorted, rest, larger⟩ := List.mergeSort_cons key_trans key_total x l
    have ordered := pairwise_le_mergeSort key (x :: l)
    rw [sorted] at ordered
    have passed : ∀ y ∈ before, ¬ key x ≤ key y := by simpa using larger
    have stopped := (List.pairwise_cons.mp (List.pairwise_append.mp ordered).2.1).1
    rw [sorted, List.insertionSort_cons, ← ih, rest, orderedInsert_append passed stopped]

/-- Sorting by a key leaves the elements with one key in their order. -/
theorem filter_mergeSort (key : α → Nat) (k : Nat) (l : List α) :
    (l.mergeSort fun x y => key x ≤ key y).filter (fun x => key x = k) = l.filter fun x => key x = k := by
  have same : (l.filter fun x => key x = k).Pairwise fun x y => decide (key x ≤ key y) = true := by
    refine List.pairwise_of_forall_mem_list fun x hx y hy => ?_
    simp only [List.mem_filter, decide_eq_true_eq] at hx hy ⊢
    omega
  have kept := (List.sublist_mergeSort key_trans key_total same List.filter_sublist).filter fun x => decide (key x = k)
  rw [List.filter_filter] at kept
  simp only [Bool.and_self] at kept
  exact (kept.eq_of_length ((List.mergeSort_perm ..).filter _).length_eq.symm).symm

/-- Elements with the same key come out in the order in which they came in. -/
theorem pairwise_mergeSort_of_pairwise {R : α → α → Prop} (h : l.Pairwise R) :
    (l.mergeSort fun x y => key x ≤ key y).Pairwise fun x y => key x < key y ∨ key x = key y ∧ R x y := by
  rw [List.pairwise_iff_forall_sublist]
  intro x y hxy
  have le : key x ≤ key y := List.pairwise_iff_forall_sublist.mp (pairwise_le_mergeSort key l) hxy
  rcases Nat.lt_or_eq_of_le le with lt | same
  · exact Or.inl lt
  · have together := hxy.filter fun z => decide (key z = key x)
    rw [filter_mergeSort] at together
    simp only [List.filter_cons, same, decide_true, if_true, List.filter_nil] at together
    exact Or.inr ⟨same, List.pairwise_iff_forall_sublist.mp h (together.trans List.filter_sublist)⟩

theorem pairwise_zipIdx (l : List α) : l.zipIdx.Pairwise fun x y => x.2 < y.2 := by
  have := List.pairwise_lt_range' (s := 0) (n := l.length)
  rwa [← List.zipIdx_map_snd 0 l, List.pairwise_map] at this

theorem rel_of_pairwise {R : α → α → Prop} (h : l.Pairwise R) {i j : Nat} {x y : α} (hx : l[i]? = some x)
    (hy : l[j]? = some y) (lt : i < j) : R x y := by
  obtain ⟨hi, rfl⟩ := List.getElem?_eq_some_iff.mp hx
  obtain ⟨hj, rfl⟩ := List.getElem?_eq_some_iff.mp hy
  exact List.pairwise_iff_getElem.mp h i j hi hj lt

/-- In an ordered list the first match is the one that comes before all other matches. -/
theorem find?_eq_some_iff_of_pairwise {R : α → α → Prop} (asymm : ∀ {x y}, R x y → ¬ R y x) {p : α → Bool}
    (h : l.Pairwise R) {x : α} : l.find? p = some x ↔ x ∈ l ∧ p x = true ∧ ∀ y ∈ l, p y = true → y = x ∨ R x y := by
  induction l with
  | nil => simp
  | cons z l ih =>
    obtain ⟨first, rest⟩ := List.pairwise_cons.mp h
    rcases hz : p z with _ | _
    · rw [List.find?_cons_of_neg (by simp [hz]), ih rest]
      have ne : p x = true → x ≠ z := by
        rintro hx rfl
        rw [hz] at hx
        cases hx
      simp only [List.mem_cons, forall_eq_or_imp, hz, Bool.false_eq_true, false_implies, true_and]
      exact ⟨fun ⟨hm, hp, hy⟩ => ⟨Or.inr hm, hp, hy⟩, fun ⟨hm, hp, hy⟩ => ⟨hm.resolve_left (ne hp), hp, hy⟩⟩
    · rw [List.find?_cons_of_pos hz]
      constructor
      · rintro ⟨⟩
        refine ⟨List.mem_cons_self, hz, fun y hy _ => ?_⟩
        exact (List.mem_cons.mp hy).imp id (first y)
      · rintro ⟨hx, -, before⟩
        rcases before z List.mem_cons_self hz with rfl | hxz
        · rfl
        · rcases List.mem_cons.mp hx with rfl | hx
          · rfl
          · exact absurd (first x hx) (asymm hxz)

end Sorting

/-! ### Winners -/

/-- The selection at a place of an approval wins the columns with an index: of the selections that name the index it has
    the least new index, and of those with the same new index it comes first. -/
structure Approval.Wins (a : Approval) (index : Nat) (s : Selection) (place : Nat) : Prop where
  stands : a.selections[place]? = some s
  names : s.column = index
  least : ∀ {s' place'}, a.selections[place']? = some s' → s'.column = index →
    s.index < s'.index ∨ s.index = s'.index ∧ place ≤ place'

/-- The column as a selection asks for it, of the same kind and from the same origin. -/
def Selection.give (s : Selection) (c : Column) : Column where
  title := s.title
  origin := c.origin
  index := s.index
  kind := c.kind
  decimals := s.decimals
  isOutput := s.isOutput

/-- A column with its winner. -/
structure Winning where
  /-- The place of the column in the header. -/
  position : Nat
  column : Column
  /-- The place of the winner in the approval. -/
  place : Nat
  selection : Selection

namespace Winning

/-- One column comes before another one: its winner has a smaller new index, or the same one and stands before the
    other, or they have the same winner and the column stood before the other. -/
def Before (x y : Winning) : Prop :=
  x.selection.index < y.selection.index ∨ x.selection.index = y.selection.index ∧
    (x.place < y.place ∨ x.place = y.place ∧ x.position < y.position)

instance : Std.Irrefl Before := ⟨fun x h => by unfold Before at h; omega⟩

instance : Std.Antisymm Before := ⟨fun x y h h' => by unfold Before at h h'; omega⟩

/-- The column as its winner asks for it. -/
def heading (x : Winning) : Column := x.selection.give x.column

/-- What stood in the column, or the empty cell of its kind if the row is too short. -/
def cell (x : Winning) (row : Row) : Cell := row[x.position]?.getD (Cell.empty x.column.kind)

end Winning

/-- The columns of a header that have a winner, in their new order. -/
structure Approval.Keeps (a : Approval) (header : List Column) (kept : List Winning) : Prop where
  exactly : ∀ x, x ∈ kept ↔ header[x.position]? = some x.column ∧ a.Wins x.column.index x.selection x.place
  ordered : kept.Pairwise Winning.Before

namespace Approval
variable {a : Approval} {header : List Column} {index : Nat}

/-- There is only one such list. -/
theorem Keeps.unique {kept kept' : List Winning} (h : a.Keeps header kept) (h' : a.Keeps header kept') : kept = kept' :=
  h.ordered.eq_of_mem_iff h'.ordered fun x => (h.exactly x).trans (h'.exactly x).symm

/-- The ranked selections with their places in the approval. -/
def placed (a : Approval) : List (Selection × Nat) := a.selections.zipIdx.mergeSort fun x y => x.1.index ≤ y.1.index

theorem map_fst_placed (a : Approval) : a.placed.map Prod.fst = a.ranked := by
  rw [placed, ranked]
  conv_rhs => rw [← List.zipIdx_map_fst 0 a.selections]
  exact List.map_mergeSort fun _ _ _ _ => rfl

theorem mem_placed {x : Selection × Nat} : x ∈ a.placed ↔ a.selections[x.2]? = some x.1 := by
  rw [placed, List.mem_mergeSort, List.mem_zipIdx_iff_getElem?]

theorem pairwise_placed (a : Approval) :
    a.placed.Pairwise fun x y => x.1.index < y.1.index ∨ x.1.index = y.1.index ∧ x.2 < y.2 :=
  pairwise_mergeSort_of_pairwise (pairwise_zipIdx a.selections)

/-- The first of the ranked selections that names an index is the winner. -/
theorem find?_placed {x : Selection × Nat} :
    a.placed.find? (fun y => y.1.column = index) = some x ↔ a.Wins index x.1 x.2 := by
  rw [find?_eq_some_iff_of_pairwise (fun h => by omega) a.pairwise_placed]
  simp only [mem_placed, decide_eq_true_eq]
  constructor
  · rintro ⟨stands, names, before⟩
    refine ⟨stands, names, fun {s place} stands' names' => ?_⟩
    rcases before (s, place) stands' names' with rfl | lt | ⟨same, lt⟩
    · exact Or.inr ⟨rfl, Nat.le_refl _⟩
    · exact Or.inl lt
    · exact Or.inr ⟨same, Nat.le_of_lt lt⟩
  · intro h
    refine ⟨h.stands, h.names, fun y stands' names' => ?_⟩
    rcases h.least stands' names' with lt | ⟨same, le⟩
    · exact Or.inr (Or.inl lt)
    rcases Nat.lt_or_eq_of_le le with lt | place
    · exact Or.inr (Or.inr ⟨same, lt⟩)
    · left
      rw [← place, h.stands] at stands'
      exact Prod.ext (Option.some.inj stands').symm place.symm

/-- A selection wins the columns with an index if it is the one that a column with the index follows. -/
theorem wins_iff {s : Selection} {place : Nat} : a.Wins index s place ↔
    ∃ rank, a.ranked.zipIdx.find? (fun x => x.1.column = index) = some (s, rank) ∧ a.placed[rank]? = some (s, place) := by
  have first : a.placed.find? (fun x => x.1.column = index) =
      (a.placed.zipIdx.find? fun x => x.1.1.column = index).map Prod.fst := by
    conv_lhs => rw [← List.zipIdx_map_fst 0 a.placed, List.find?_map]
    rfl
  have ranked : a.ranked.zipIdx.find? (fun x => x.1.column = index) =
      (a.placed.zipIdx.find? fun x => x.1.1.column = index).map (Prod.map Prod.fst id) := by
    rw [← map_fst_placed, List.zipIdx_map, List.find?_map]
    rfl
  rw [← find?_placed (x := (s, place)), first, ranked]
  simp only [Option.map_eq_some_iff]
  constructor
  · rintro ⟨⟨x, rank⟩, found, rfl⟩
    exact ⟨rank, ⟨_, found, rfl⟩, List.mem_zipIdx_iff_getElem?.mp (List.mem_of_find?_eq_some found)⟩
  · rintro ⟨rank, ⟨⟨x, r⟩, found, same⟩, stands⟩
    obtain rfl : r = rank := (Prod.mk.inj same).2
    rw [show a.placed[r]? = some x from List.mem_zipIdx_iff_getElem?.mp (List.mem_of_find?_eq_some found)] at stands
    exact ⟨_, found, Option.some.inj stands⟩

/-- The columns that an approval keeps, by insertion. -/
theorem picks_eq : picks = fun a header =>
    (header.zipIdx.filterMap fun (c, position) =>
      Pick.find? (a.selections.insertionSort fun s t => s.index ≤ t.index) c position).insertionSort
        fun p q => p.rank ≤ q.rank := by
  funext a header
  rw [picks, ranked, mergeSort_eq_insertionSort, mergeSort_eq_insertionSort]

/-- A column with its winner, from the rank of the winner. -/
def won (a : Approval) (p : Pick) : Winning where
  position := p.position
  column := p.column
  place := (a.placed[p.rank]?.map Prod.snd).getD 0
  selection := p.selection

theorem placed_of_mem_picks {p : Pick} (h : p ∈ a.picks header) :
    a.placed[p.rank]? = some (p.selection, (a.won p).place) := by
  have found := (Pick.selection_inv (mem_picks.mp h).2).1
  rw [← map_fst_placed, List.getElem?_map] at found
  obtain ⟨⟨s, place⟩, stands, rfl⟩ := Option.map_eq_some_iff.mp found
  simp only [won, stands, Option.map_some, Option.getD_some]

theorem pairwise_picks (a : Approval) (header : List Column) :
    (a.picks header).Pairwise fun p q => p.rank < q.rank ∨ p.rank = q.rank ∧ p.position < q.position := by
  refine pairwise_mergeSort_of_pairwise (List.pairwise_filterMap.mpr ?_)
  refine (pairwise_zipIdx header).imp fun {x y} lt p hp q hq => ?_
  rw [(Pick.find?_inv hp).2, (Pick.find?_inv hq).2]
  exact lt

/-- The kept columns are those that have a winner, in the order of their winners. -/
theorem keeps_picks (a : Approval) (header : List Column) : a.Keeps header ((a.picks header).map a.won) where
  exactly x := by
    rw [List.mem_map, wins_iff]
    constructor
    · rintro ⟨p, hp, rfl⟩
      obtain ⟨stands, found⟩ := mem_picks.mp hp
      exact ⟨stands, p.rank, (Pick.find?_eq_some.mp found).1, placed_of_mem_picks hp⟩
    · rintro ⟨stands, rank, found, placed⟩
      let p : Pick := ⟨rank, x.selection, x.position, x.column⟩
      have hp : p ∈ a.picks header := mem_picks.mpr ⟨stands, Pick.find?_eq_some.mpr ⟨found, rfl, rfl⟩⟩
      refine ⟨p, hp, ?_⟩
      have same := placed.symm.trans (placed_of_mem_picks hp)
      have place : x.place = (a.won p).place := (Prod.mk.inj (Option.some.inj same)).2
      show Winning.mk x.position x.column (a.won p).place x.selection = x
      rw [← place]
  ordered := by
    refine List.pairwise_map.mpr ((a.pairwise_picks header).imp_of_mem fun {p q} hp hq order => ?_)
    have placed := placed_of_mem_picks hp
    have placed' := placed_of_mem_picks hq
    rcases order with lt | ⟨same, lt⟩
    · exact (rel_of_pairwise a.pairwise_placed placed placed' lt).imp id fun h => ⟨h.1, Or.inl h.2⟩
    · rw [← same, placed] at placed'
      obtain ⟨selection, place⟩ := Prod.mk.inj (Option.some.inj placed')
      exact Or.inr ⟨congrArg Selection.index selection, Or.inr ⟨place, lt⟩⟩

/-- The kept columns are those that a selection names. -/
theorem Keeps.columns_perm {kept : List Winning} (h : a.Keeps header kept) :
    (kept.map Winning.column).Perm (header.filter fun c => a.Names c.index) := by
  obtain rfl := h.unique (a.keeps_picks header)
  rw [List.map_map]
  exact a.columns_picks header

end Approval

namespace Dataset

/-- The dataset with the given columns of it, under a new name. -/
def keeping (d : Dataset) (name : String) (kept : List Winning) : Dataset :=
  { d with
    name
    header := kept.map Winning.heading
    body := d.body.map fun row => kept.map fun x => x.cell row }

theorem reshape_eq_keeping {d : Dataset} {a : Approval} {kept : List Winning} (h : a.Keeps d.header kept) :
    d.reshape a = d.keeping a.name kept := by
  obtain rfl := h.unique (a.keeps_picks d.header)
  rw [keeping, List.map_map]
  simp only [List.map_map]
  rfl

/-- What an approval makes of a dataset, for any header and rows of any length: the columns that have a winner, ordered
    by their winners and then by where they stood, with their titles, indices, decimal places and roles from the winners
    and their kinds and origins as they were; in each row what stood in these columns, or empty cells if the row is too
    short; the new name, and all else as it was. -/
theorem reshape_iff_winners (d d' : Dataset) (a : Approval) :
    d.reshape a = d' ↔ ∃ kept, a.Keeps d.header kept ∧ d' = d.keeping a.name kept := by
  constructor
  · rintro rfl
    exact ⟨_, a.keeps_picks d.header, reshape_eq_keeping (a.keeps_picks d.header)⟩
  · rintro ⟨kept, keeps, rfl⟩
    exact reshape_eq_keeping keeps

end Dataset

end GridCatalog
