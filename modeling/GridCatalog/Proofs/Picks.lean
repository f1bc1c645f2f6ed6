import GridCatalog.Approval

/-! The columns that an approval keeps.

    A kept column comes from one place of the header, and no place is used twice; the order of the
    kept columns is the only thing that sorting decides. -/

namespace GridCatalog

/-- One of the selections names the index. -/
def Approval.Names (a : Approval) (index : Nat) : Prop := ∃ s ∈ a.selections, s.column = index

instance (a : Approval) (index : Nat) : Decidable (a.Names index) :=
  inferInstanceAs (Decidable (∃ s ∈ a.selections, s.column = index))

namespace Pick
variable {ranked : List Selection} {column : Column} {position : Nat} {p : Pick}

theorem find?_eq_some : find? ranked column position = some p ↔
    ranked.zipIdx.find? (fun x => x.1.column = column.index) = some (p.selection, p.rank) ∧
      p.column = column ∧ p.position = position := by
  rw [find?, Option.map_eq_some_iff]
  constructor
  · rintro ⟨⟨s, rank⟩, hfind, rfl⟩
    exact ⟨hfind, rfl, rfl⟩
  · rintro ⟨hfind, rfl, rfl⟩
    exact ⟨_, hfind, rfl⟩

/-- A column follows a selection that names it. -/
theorem selection_inv (h : find? ranked column position = some p) :
    ranked[p.rank]? = some p.selection ∧ p.selection.column = column.index := by
  obtain ⟨hfind, -, -⟩ := find?_eq_some.mp h
  have hcolumn := List.find?_some hfind
  exact ⟨List.mem_zipIdx_iff_getElem?.mp (List.mem_of_find?_eq_some hfind), of_decide_eq_true hcolumn⟩

theorem find?_inv (h : find? ranked column position = some p) : p.column = column ∧ p.position = position :=
  (find?_eq_some.mp h).2

end Pick

/-- If the elements of a list have distinct keys, a key stands at one place. -/
theorem place_eq_of_nodup_map {α β : Type} {f : α → β} {l : List α} (distinct : (l.map f).Nodup) {i j : Nat} {x y : α}
    (hx : l[i]? = some x) (hy : l[j]? = some y) (same : f x = f y) : i = j := by
  refine (List.getElem?_inj ?_ distinct).mp ?_
  · rw [List.length_map]
    exact (List.getElem?_eq_some_iff.mp hx).1
  · rw [List.getElem?_map, List.getElem?_map, hx, hy, Option.map_some, Option.map_some, same]

namespace Approval
variable {a : Approval} {header : List Column} {p : Pick}

theorem ranked_perm (a : Approval) : a.ranked.Perm a.selections := List.mergeSort_perm ..

theorem picks_perm (a : Approval) (header : List Column) :
    (a.picks header).Perm (header.zipIdx.filterMap fun (c, position) => Pick.find? a.ranked c position) :=
  List.mergeSort_perm ..

/-- A column is kept from where it stands if a selection names it. -/
theorem mem_picks : p ∈ a.picks header ↔
    header[p.position]? = some p.column ∧ Pick.find? a.ranked p.column p.position = some p := by
  rw [(picks_perm a header).mem_iff, List.mem_filterMap]
  constructor
  · rintro ⟨⟨c, position⟩, hmem, hp⟩
    obtain ⟨rfl, rfl⟩ := Pick.find?_inv hp
    exact ⟨List.mem_zipIdx_iff_getElem?.mp hmem, hp⟩
  · rintro ⟨hc, hp⟩
    exact ⟨(p.column, p.position), List.mem_zipIdx_iff_getElem?.mpr hc, hp⟩

theorem column_find? (a : Approval) (column : Column) (position : Nat) :
    (Pick.find? a.ranked column position).map Pick.column = if a.Names column.index then some column else none := by
  rcases h : Pick.find? a.ranked column position with _ | p
  · refine (if_neg ?_).symm
    rintro ⟨s, hs, hcolumn⟩
    obtain ⟨rank, hrank⟩ := List.getElem?_of_mem (a.ranked_perm.mem_iff.mpr hs)
    rw [Pick.find?, Option.map_eq_none_iff, List.find?_eq_none] at h
    exact h (s, rank) (List.mem_zipIdx_iff_getElem?.mpr hrank) (decide_eq_true hcolumn)
  · obtain ⟨hselection, hcolumn⟩ := Pick.selection_inv h
    rw [if_pos ⟨_, a.ranked_perm.mem_iff.mp (List.mem_of_getElem? hselection), hcolumn⟩, Option.map_some,
      (Pick.find?_inv h).1]

/-- The kept columns are those that a selection names, in another order. -/
theorem columns_picks (a : Approval) (header : List Column) :
    ((a.picks header).map Pick.column).Perm (header.filter fun c => a.Names c.index) := by
  refine ((picks_perm a header).map _).trans (.of_eq ?_)
  have kept : (fun x : Column × Nat => (Pick.find? a.ranked x.1 x.2).map Pick.column) =
      (Option.guard fun c => decide (a.Names c.index)) ∘ Prod.fst := by
    funext x
    simp [column_find?, Option.guard]
  rw [List.map_filterMap, kept, ← List.filterMap_map, List.zipIdx_map_fst, List.filterMap_eq_filter]

end Approval

namespace Dataset
variable {d : Dataset} {a : Approval} {c : Column} {r i : Nat}

theorem header_reshape (d : Dataset) (a : Approval) : (d.reshape a).header = (a.picks d.header).map Pick.heading := rfl

theorem getElem?_header_reshape (h : (d.reshape a).header[i]? = some c) :
    ∃ p ∈ a.picks d.header, (a.picks d.header)[i]? = some p ∧ p.heading = c := by
  rw [header_reshape, List.getElem?_map] at h
  obtain ⟨p, hp, rfl⟩ := Option.map_eq_some_iff.mp h
  exact ⟨p, List.mem_of_getElem? hp, hp, rfl⟩

/-- A kept column has the cells that stood where it comes from. -/
theorem cell?_reshape {p : Pick} {row : Row} (hp : (a.picks d.header)[i]? = some p) (hrow : d.body[r]? = some row) :
    (d.reshape a).cell? r i = some (p.cell row) := by
  simp [cell?, reshape, hp, hrow]

end Dataset

end GridCatalog
