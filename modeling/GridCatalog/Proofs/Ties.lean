import Mathlib.Data.List.Perm.Subperm
import GridCatalog.Proofs.Event
import GridCatalog.Proofs.GridRows
import GridCatalog.Proofs.Picks

/-! Selections that pick several columns.

    A selection names a column by its index, and picks every column with that index (`rank_eq_iff`). The columns of a
    dataset have distinct indices when it is built, and still have them after an approval that gives distinct new ones;
    an approval may also give one index to several columns, and then the next one can pick them all with one
    selection. -/

namespace GridCatalog

namespace Approval
variable {a : Approval} {header : List Column} {p p' : Pick}

theorem selection_of_mem_picks (h : p ∈ a.picks header) :
    a.ranked[p.rank]? = some p.selection ∧ p.selection.column = p.column.index :=
  Pick.selection_inv (mem_picks.mp h).2

theorem selection_mem (h : p ∈ a.picks header) : p.selection ∈ a.selections :=
  a.ranked_perm.mem_iff.mp (List.mem_of_getElem? (selection_of_mem_picks h).1)

/-- Columns follow the same selection if and only if they have the same index. -/
theorem rank_eq_iff (h : p ∈ a.picks header) (h' : p' ∈ a.picks header) :
    p.rank = p'.rank ↔ p.column.index = p'.column.index := by
  constructor
  · intro same
    obtain ⟨hselection, hcolumn⟩ := selection_of_mem_picks h
    obtain ⟨hselection', hcolumn'⟩ := selection_of_mem_picks h'
    rw [same, hselection'] at hselection
    rw [← hcolumn, ← hcolumn', Option.some.inj hselection]
  · intro same
    obtain ⟨hfind, -, -⟩ := Pick.find?_eq_some.mp (mem_picks.mp h).2
    obtain ⟨hfind', -, -⟩ := Pick.find?_eq_some.mp (mem_picks.mp h').2
    rw [same, hfind'] at hfind
    exact (Prod.mk.inj (Option.some.inj hfind)).2.symm

/-- Each column has a selection of its own if and only if the columns that are named have distinct indices. -/
theorem nodup_ranks_iff (a : Approval) (header : List Column) :
    ((a.picks header).map Pick.rank).Nodup ↔ ((header.filter fun c => a.Names c.index).map Column.index).Nodup := by
  rw [← ((a.columns_picks header).map Column.index).nodup_iff, List.map_map]
  simp only [List.Nodup, List.pairwise_map]
  constructor
  · intro apart
    exact apart.imp_of_mem fun hp hp' hne same => hne ((rank_eq_iff hp hp').mpr same)
  · intro apart
    exact apart.imp_of_mem fun hp hp' hne same => hne ((rank_eq_iff hp hp').mp same)

theorem length_picks_le (apart : ((a.picks header).map Pick.rank).Nodup) :
    (a.picks header).length ≤ a.selections.length := by
  have below : (a.picks header).map Pick.rank ⊆ List.range a.ranked.length := by
    intro rank hrank
    obtain ⟨p, hp, rfl⟩ := List.mem_map.mp hrank
    exact List.mem_range.mpr (List.getElem?_eq_some_iff.mp (selection_of_mem_picks hp).1).1
  have := (List.subperm_of_subset apart below).length_le
  rwa [List.length_map, List.length_range, a.ranked_perm.length_eq] at this

theorem nodup_new_indices (distinct : (a.selections.map Selection.index).Nodup)
    (apart : ((a.picks header).map Pick.rank).Nodup) : ((a.picks header).map fun p => p.selection.index).Nodup := by
  -- Among the ranked selections, an index stands at one rank only.
  have ranked : (a.ranked.map Selection.index).Nodup := (a.ranked_perm.map _).nodup_iff.mpr distinct
  simp only [List.Nodup, List.pairwise_map] at apart ⊢
  refine apart.imp_of_mem fun {p p'} hp hp' hne same => hne ?_
  exact place_eq_of_nodup_map ranked (selection_of_mem_picks hp).1 (selection_of_mem_picks hp').1 same

end Approval

namespace Dataset
variable {d : Dataset}

theorem columnCount_reshape (d : Dataset) (a : Approval) :
    (d.reshape a).columnCount = (d.header.filter fun c => a.Names c.index).length := by
  rw [columnCount, header_reshape, List.length_map, ← (a.columns_picks d.header).length_eq, List.length_map]

def Indexed (d : Dataset) : Prop := (d.header.map Column.index).Nodup

theorem IsBuilt.indexed (h : d.IsBuilt) : d.Indexed := by
  obtain ⟨settings, name, userId, grid, h⟩ := h
  rw [Indexed, positions_ofGrid? h fun _ _ _ => rfl]
  exact List.nodup_range

theorem Indexed.nodup_ranks (h : d.Indexed) (a : Approval) : ((a.picks d.header).map Pick.rank).Nodup :=
  (a.nodup_ranks_iff d.header).mpr ((List.filter_sublist.map Column.index).nodup h)

theorem Indexed.reshape (h : d.Indexed) {a : Approval} (distinct : (a.selections.map Selection.index).Nodup) :
    (d.reshape a).Indexed := by
  have := Approval.nodup_new_indices distinct (h.nodup_ranks a)
  rw [Indexed, header_reshape, List.map_map]
  exact this

theorem Indexed.reshapes (h : d.Indexed) {as : List Approval}
    (distinct : ∀ a ∈ as, (a.selections.map Selection.index).Nodup) : (as.foldl Dataset.reshape d).Indexed := by
  induction as generalizing d with
  | nil => exact h
  | cons a as ih =>
    rw [List.forall_mem_cons] at distinct
    exact ih (h.reshape distinct.1) distinct.2

/-- After any approvals of a dataset that was built, each column of the next one follows a selection that names it. Each
    has a selection of its own if and only if the columns that are named have distinct indices, and then there are no
    more columns than selections; so it is whenever the approvals before gave distinct indices. -/
theorem picks_own_selections (built : d.IsBuilt) (as : List Approval) (a : Approval) :
    let before := as.foldl Dataset.reshape d
    let picks := a.picks before.header
    (before.reshape a).header = picks.map Pick.heading ∧
      (∀ p ∈ picks, a.ranked[p.rank]? = some p.selection ∧ p.selection.column = p.column.index) ∧
      ((picks.map Pick.rank).Nodup ↔ ((before.header.filter fun c => a.Names c.index).map Column.index).Nodup) ∧
      ((picks.map Pick.rank).Nodup → (before.reshape a).columnCount ≤ a.selections.length) ∧
      ((∀ b ∈ as, (b.selections.map Selection.index).Nodup) → (picks.map Pick.rank).Nodup) := by
  intro before picks
  refine ⟨rfl, fun p => Approval.selection_of_mem_picks, a.nodup_ranks_iff before.header, fun apart => ?_, fun distinct => ?_⟩
  · rw [columnCount, header_reshape, List.length_map]
    exact Approval.length_picks_le apart
  · exact (built.indexed.reshapes distinct).nodup_ranks a

/-- An approval that swaps two columns keeps them apart for the next one. -/
theorem picks_own_selections_swapped :
    let swap : Approval := ⟨"towns", [⟨0, 4, "who", 0, true⟩, ⟨1, 3, "town", 0, false⟩]⟩
    let again : Approval := ⟨"towns", [⟨4, 1, "who", 0, true⟩, ⟨3, 1, "town", 0, false⟩, ⟨3, 2, "city", 0, false⟩]⟩
    ∃ d, ofGrid? .default "people" "user" [["name", "city"], ["Ann", "Rome"]] = some d ∧
      ((again.picks (d.reshape swap).header).map Pick.rank).Nodup ∧ ((d.reshape swap).reshape again).columnCount ≤ 3 := by
  intro swap again
  obtain ⟨d, hd⟩ : ∃ d, ofGrid? .default "people" "user" [["name", "city"], ["Ann", "Rome"]] = some d := ⟨_, rfl⟩
  obtain ⟨-, -, -, fewer, apart⟩ := picks_own_selections ⟨_, _, _, _, hd⟩ [swap] again
  have apart := apart (by decide)
  exact ⟨d, hd, apart, fewer apart⟩

/-- When an approval gives both columns the same index, the next one picks both with one selection. -/
theorem tied_columns_share_selection :
    let tied : Approval := ⟨"tied", [⟨0, 0, "name", 0, false⟩, ⟨1, 0, "city", 0, false⟩]⟩
    let single : Approval := ⟨"one", [⟨0, 0, "name", 0, false⟩]⟩
    ∃ d, ofGrid? .default "people" "user" [["name", "city"], ["Ann", "Rome"]] = some d ∧
      ((d.reshape tied).reshape single).columnCount = 2 ∧ single.selections.length = 1 ∧
      ∀ p ∈ single.picks (d.reshape tied).header, p.rank = 0 := by
  intro tied single
  obtain ⟨d, hd, two⟩ : ∃ d, ofGrid? .default "people" "user" [["name", "city"], ["Ann", "Rome"]] = some d ∧
      (d.header.filter fun c => tied.Names c.index).length = 2 := ⟨_, rfl, by decide +kernel⟩
  have named : ∀ c ∈ (d.reshape tied).header, single.Names c.index := by
    intro c hc
    obtain ⟨p, hp, rfl⟩ := List.mem_map.mp hc
    have index : p.selection.index = 0 := by
      have all : ∀ s ∈ tied.selections, s.index = 0 := by decide
      exact all _ (Approval.selection_mem hp)
    exact ⟨_, List.mem_singleton_self _, index.symm⟩
  refine ⟨d, hd, ?_, rfl, fun p hp => ?_⟩
  · rw [columnCount_reshape, List.filter_eq_self.mpr fun c hc => decide_eq_true (named c hc)]
    exact (columnCount_reshape d tied).trans two
  · have := (List.getElem?_eq_some_iff.mp (Approval.selection_of_mem_picks hp).1).1
    rw [single.ranked_perm.length_eq] at this
    exact Nat.lt_one_iff.mp this

end Dataset

end GridCatalog
