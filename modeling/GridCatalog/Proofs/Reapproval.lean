import GridCatalog.Proofs.Ties
import GridCatalog.Proofs.Winners

/-! Approving a dataset as it is.

    A dataset can be approved with the selections that its own columns make, each with its index, title, decimal places
    and role. This leaves the dataset as it is if the indices do not decrease and columns with the same index agree in
    all that a selection sets, and only then (`reapproval_identity`). After an approval the indices never decrease; so
    once an approval has given distinct indices, the same choice can be repeated, in whatever order it is stated. -/

namespace GridCatalog

/-- The selection that asks for a column as it is. -/
def Column.restated (c : Column) : Selection where
  column := c.index
  index := c.index
  title := c.title
  decimals := c.decimals
  isOutput := c.isOutput

/-- The approval that asks for a dataset as it is. -/
def Dataset.ownApproval (d : Dataset) : Approval := ⟨d.name, d.header.map Column.restated⟩

/-- The selection gives the column all that the column has. -/
structure Selection.Restates (s : Selection) (c : Column) : Prop where
  index : s.index = c.index
  title : s.title = c.title
  decimals : s.decimals = c.decimals
  isOutput : s.isOutput = c.isOutput

theorem Pick.heading_eq_column {p : Pick} (h : p.selection.Restates p.column) : p.heading = p.column := by
  rw [heading, h.index, h.title, h.decimals, h.isOutput]

namespace Approval
variable {a : Approval} {header : List Column}

/-- Every column is named, and every selection that names a column gives it what it has. -/
structure Restates (a : Approval) (header : List Column) : Prop where
  names : ∀ c ∈ header, a.Names c.index
  own : ∀ c ∈ header, ∀ s ∈ a.selections, s.column = c.index → s.Restates c

namespace Restates

theorem exists_pick (h : a.Restates header) {c : Column} (hc : c ∈ header) (position : Nat) :
    ∃ p, Pick.find? a.ranked c position = some p := by
  have kept := a.column_find? c position
  rw [if_pos (h.names c hc)] at kept
  obtain ⟨p, hp, -⟩ := Option.map_eq_some_iff.mp kept
  exact ⟨p, hp⟩

theorem heading_eq (h : a.Restates header) {c : Column} (hc : c ∈ header) {position : Nat} {p : Pick}
    (hp : Pick.find? a.ranked c position = some p) : p.heading = c := by
  obtain ⟨rfl, -⟩ := Pick.find?_inv hp
  obtain ⟨stands, names⟩ := Pick.selection_inv hp
  exact Pick.heading_eq_column (h.own _ hc _ (a.ranked_perm.mem_iff.mp (List.mem_of_getElem? stands)) names)

/-- Columns whose indices do not decrease are already in the order of the selections that they follow. -/
theorem picks_eq (h : a.Restates header) (sorted : header.Pairwise fun c c' => c.index ≤ c'.index) :
    a.picks header = header.zipIdx.filterMap fun (c, position) => Pick.find? a.ranked c position := by
  have sorted : header.zipIdx.Pairwise fun x y => x.1.index ≤ y.1.index := by
    rwa [← List.zipIdx_map_fst 0 header, List.pairwise_map] at sorted
  refine List.mergeSort_of_pairwise (List.pairwise_filterMap.mpr (sorted.imp_of_mem ?_))
  intro x y hx hy le p hp q hq
  rw [decide_eq_true_eq]
  by_contra! lt
  -- The selection of the second column would stand first, so it has no greater index, and then both have the same.
  have ranked : q.selection.index ≤ p.selection.index :=
    rel_of_pairwise (pairwise_le_mergeSort Selection.index a.selections) (Pick.selection_inv hq).1
      (Pick.selection_inv hp).1 lt
  have index : p.selection.index = x.1.index :=
    congrArg Column.index (h.heading_eq (List.mem_of_getElem? (List.mem_zipIdx_iff_getElem?.mp hx)) hp)
  have index' : q.selection.index = y.1.index :=
    congrArg Column.index (h.heading_eq (List.mem_of_getElem? (List.mem_zipIdx_iff_getElem?.mp hy)) hq)
  rw [index, index'] at ranked
  have same : x.1.index = y.1.index := Nat.le_antisymm le ranked
  have found := (Pick.find?_eq_some.mp hp).1
  rw [same, (Pick.find?_eq_some.mp hq).1] at found
  exact absurd (Prod.mk.inj (Option.some.inj found)).2 (Nat.ne_of_lt lt)

theorem map_picks (h : a.Restates header) (sorted : header.Pairwise fun c c' => c.index ≤ c'.index) {β : Type}
    {g : Pick → β} {f : Column × Nat → β}
    (same : ∀ x ∈ header.zipIdx, ∀ p, Pick.find? a.ranked x.1 x.2 = some p → g p = f x) :
    (a.picks header).map g = header.zipIdx.map f := by
  rw [h.picks_eq sorted, List.map_filterMap, ← List.filterMap_eq_map]
  refine List.filterMap_congr fun x hx => ?_
  obtain ⟨p, hp⟩ := h.exists_pick (List.mem_of_getElem? (List.mem_zipIdx_iff_getElem?.mp hx)) x.2
  simp only [hp, Option.map_some, same x hx p hp, Function.comp_apply]

end Restates
end Approval

namespace Dataset
variable {d : Dataset} {a : Approval}

/-- The indices of the columns do not decrease. -/
def Sorted (d : Dataset) : Prop := d.header.Pairwise fun c c' => c.index ≤ c'.index

/-- Every row has one cell per column. -/
def Full (d : Dataset) : Prop := ∀ row ∈ d.body, row.length = d.columnCount

/-- Columns with the same index agree in all that a selection sets. -/
def TiesAgree (d : Dataset) : Prop := ∀ c ∈ d.header, ∀ c' ∈ d.header, c.index = c'.index →
  c.title = c'.title ∧ c.decimals = c'.decimals ∧ c.isOutput = c'.isOutput

theorem Indexed.tiesAgree (h : d.Indexed) : d.TiesAgree := by
  intro c hc c' hc' same
  obtain rfl := List.inj_on_of_nodup_map h hc hc' same
  exact ⟨rfl, rfl, rfl⟩

theorem sorted_reshape (d : Dataset) (a : Approval) : (d.reshape a).Sorted := by
  have keeps := a.keeps_picks d.header
  rw [Sorted, reshape_eq_keeping keeps]
  exact List.pairwise_map.mpr (keeps.ordered.imp fun {x y} before => by
    show x.selection.index ≤ y.selection.index
    unfold Winning.Before at before
    omega)

theorem full_reshape (d : Dataset) (a : Approval) : (d.reshape a).Full := fun _ => length_row_reshape

theorem reshape_eq_self (restates : a.Restates d.header) (name : a.name = d.name) (sorted : d.Sorted) (full : d.Full) :
    d.reshape a = d := by
  have header : (a.picks d.header).map Pick.heading = d.header := by
    rw [restates.map_picks sorted (f := Prod.fst), List.zipIdx_map_fst]
    exact fun x hx p => restates.heading_eq (List.mem_of_getElem? (List.mem_zipIdx_iff_getElem?.mp hx))
  have row : ∀ row ∈ d.body, ((a.picks d.header).map fun p => p.cell row) = row := by
    intro row hrow
    have width : row.length = d.header.length := full row hrow
    rw [restates.map_picks sorted (f := fun x => row[x.2]?.getD (Cell.empty x.1.kind)) fun x _ p hp => ?_]
    · refine List.ext_getElem (by rw [List.length_map, List.length_zipIdx, width]) fun i hi hi' => ?_
      rw [List.getElem_map, List.getElem_zipIdx, Nat.zero_add, List.getElem?_eq_getElem hi', Option.getD_some]
    · obtain ⟨column, position⟩ := Pick.find?_inv hp
      rw [Pick.cell, column, position]
  have body : (d.body.map fun row => (a.picks d.header).map fun p => p.cell row) = d.body :=
    (List.map_congr_left row).trans (List.map_id _)
  rw [reshape, name, header, body]

/-- The selections that ask for a dataset as it is restate its columns, in whatever order they stand. -/
theorem restates_of_perm (agree : d.TiesAgree) (perm : a.selections.Perm d.ownApproval.selections) :
    a.Restates d.header where
  names c hc := ⟨c.restated, perm.mem_iff.mpr (List.mem_map_of_mem hc), rfl⟩
  own c hc s hs names := by
    obtain ⟨c₁, hc₁, rfl⟩ := List.mem_map.mp (perm.mem_iff.mp hs)
    obtain ⟨title, decimals, isOutput⟩ := agree c₁ hc₁ c hc names
    exact ⟨names, title, decimals, isOutput⟩

/-- If a dataset is left as it is, columns with the same index have followed the same selection. -/
theorem tiesAgree_of_reshape_eq (h : d.reshape d.ownApproval = d) : d.TiesAgree := by
  have follows : ∀ c ∈ d.header, ∃ p ∈ d.ownApproval.picks d.header, p.heading = c ∧ p.column.index = c.index := by
    intro c hc
    rw [← h, header_reshape] at hc
    obtain ⟨p, hp, rfl⟩ := List.mem_map.mp hc
    obtain ⟨c₁, -, selection⟩ := List.mem_map.mp (Approval.selection_mem hp)
    refine ⟨p, hp, rfl, (Approval.selection_of_mem_picks hp).2.symm.trans ?_⟩
    show p.selection.column = p.selection.index
    rw [← selection]
    rfl
  intro c hc c' hc' same
  obtain ⟨p, hp, rfl, index⟩ := follows c hc
  obtain ⟨p', hp', rfl, index'⟩ := follows c' hc'
  have rank := (Approval.rank_eq_iff hp hp').mpr (index.trans (same.trans index'.symm))
  have selection := (Approval.selection_of_mem_picks hp).1
  rw [rank, (Approval.selection_of_mem_picks hp').1] at selection
  have selection := Option.some.inj selection
  exact ⟨congrArg Selection.title selection.symm, congrArg Selection.decimals selection.symm,
    congrArg Selection.isOutput selection.symm⟩

/-- Approving a dataset as it is leaves it as it is if and only if the indices do not decrease and columns with the same
    index agree in all that a selection sets. After any approval the indices do not decrease; so after an approval of a
    dataset that has just been ingested, with distinct new indices, approving it as it is leaves it as it is, in
    whatever order the selections stand. -/
theorem reapproval_identity :
    (∀ d : Dataset, d.Full → (d.reshape d.ownApproval = d ↔ d.Sorted ∧ d.TiesAgree)) ∧
    (∀ (d : Dataset) (a : Approval), (d.reshape a).Sorted) ∧
    ∀ (d : Dataset) (stamp : Stamp) (a : Approval) (e : Entry) (t : Instant), d.IsBuilt →
      (a.selections.map Selection.index).Nodup →
      let d' := ((d.stamped stamp).approved a e).touched t
      ∀ b : Approval, b.name = d'.name → b.selections.Perm d'.ownApproval.selections → d'.reshape b = d' := by
  refine ⟨fun d full => ⟨fun h => ?_, fun ⟨sorted, agree⟩ => ?_⟩, sorted_reshape, fun d stamp a e t built distinct => ?_⟩
  · have sorted := sorted_reshape d d.ownApproval
    rw [h] at sorted
    exact ⟨sorted, tiesAgree_of_reshape_eq h⟩
  · exact reshape_eq_self (restates_of_perm agree (.refl _)) rfl sorted full
  · intro d' b name perm
    have indexed : d'.Indexed := Indexed.reshape (d := d.stamped stamp) built.indexed distinct
    exact reshape_eq_self (restates_of_perm indexed.tiesAgree perm) name (sorted_reshape (d.stamped stamp) a)
      (full_reshape (d.stamped stamp) a)

/-- The choice of an approval that swaps two columns can be repeated in another order. After an approval that gives both
    columns the same index, but not the same title, the dataset cannot be approved as it is. -/
theorem reapproval_identity_swapped :
    let swap : Approval := ⟨"towns", [⟨0, 4, "who", 0, true⟩, ⟨1, 3, "town", 0, false⟩]⟩
    let again : Approval := ⟨"towns", [⟨4, 4, "who", 0, true⟩, ⟨3, 3, "town", 0, false⟩]⟩
    let tied : Approval := ⟨"tied", [⟨0, 0, "name", 0, false⟩, ⟨1, 0, "city", 0, false⟩]⟩
    ∃ d, ofGrid? .default "people" "user" [["name", "city"], ["Ann", "Rome"]] = some d ∧
      (let d' := ((d.stamped ⟨"i", default⟩).approved swap (.preview "ii" d .uploadedFile "list")).touched default
       d'.header.map Column.title = ["town", "who"] ∧ d'.reshape again = d') ∧
      (d.reshape tied).reshape (d.reshape tied).ownApproval ≠ d.reshape tied := by
  intro swap again tied
  obtain ⟨d, hd, titles, perm, untied⟩ : ∃ d,
      ofGrid? .default "people" "user" [["name", "city"], ["Ann", "Rome"]] = some d ∧
      (d.reshape swap).header.map Column.title = ["town", "who"] ∧
      again.selections = (d.reshape swap).ownApproval.selections.reverse ∧
      (d.reshape tied).header.map (fun c => (c.title, c.index)) = [("name", 0), ("city", 0)] := by
    refine ⟨_, rfl, ?_⟩
    rw [ownApproval, header_reshape _ swap, header_reshape _ tied, Approval.picks_eq]
    decide +kernel
  obtain ⟨same, -, repeats⟩ := reapproval_identity
  refine ⟨d, hd, ⟨titles, repeats d _ swap _ _ ⟨_, _, _, _, hd⟩ (by decide) again rfl (perm ▸ List.reverse_perm _)⟩, fun h => ?_⟩
  obtain ⟨-, agree⟩ := (same _ (full_reshape d tied)).mp h
  have stands : ∀ x ∈ [("name", 0), ("city", 0)], ∃ c ∈ (d.reshape tied).header, (c.title, c.index) = x := fun x hx =>
    List.mem_map.mp (untied ▸ hx)
  obtain ⟨c, hc, name⟩ := stands ("name", 0) (by decide)
  obtain ⟨c', hc', city⟩ := stands ("city", 0) (by decide)
  obtain ⟨title, index⟩ := Prod.mk.inj name
  obtain ⟨title', index'⟩ := Prod.mk.inj city
  have := (agree c hc c' hc' (index.trans index'.symm)).1
  rw [title, title'] at this
  exact absurd this (by decide)

end Dataset

end GridCatalog
