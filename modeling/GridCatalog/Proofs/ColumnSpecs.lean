import GridCatalog.CommandLine.ColumnSpec
import GridCatalog.Proofs.Ties
import GridCatalog.Proofs.Winners

/-! Approvals that are written as column specs.

    The title that a spec leaves out is looked up in the preview, and the columns to keep are then looked up in the
    dataset. The two meet in the same column if no index stands twice: so a column follows the spec that wins it, and
    keeps its own title if this spec gives none (`specs_keep_titles`). A spec that names no column might as well be
    missing (`reshape_matching`). -/

namespace GridCatalog

/-! ### Selections without a column -/

namespace Approval
variable {a : Approval} {header : List Column}

/-- The approval without the selections that name no column. -/
def matching (a : Approval) (header : List Column) : Approval :=
  { a with selections := a.selections.filter fun s => ∃ c ∈ header, c.index = s.column }

/-- The selections that name a column, with the places that they have among all selections. -/
def matched (a : Approval) (header : List Column) : List (Selection × Nat) :=
  a.selections.zipIdx.filter fun x => ∃ c ∈ header, c.index = x.1.column

theorem selections_matching (a : Approval) (header : List Column) :
    (a.matching header).selections = (a.matched header).map Prod.fst := by
  rw [matching, matched, ← List.zipIdx_map_fst 0 a.selections, List.filter_map, List.zipIdx_map_fst]
  rfl

theorem getElem?_matching {s : Selection} {j : Nat} :
    (a.matching header).selections[j]? = some s ↔ ∃ i, (a.matched header)[j]? = some (s, i) := by
  rw [selections_matching, List.getElem?_map, Option.map_eq_some_iff]
  constructor
  · rintro ⟨⟨s, i⟩, h, rfl⟩
    exact ⟨i, h⟩
  · rintro ⟨i, h⟩
    exact ⟨(s, i), h, rfl⟩

theorem mem_matched {s : Selection} {i : Nat} :
    (s, i) ∈ a.matched header ↔ a.selections[i]? = some s ∧ ∃ c ∈ header, c.index = s.column := by
  rw [matched, List.mem_filter, List.mem_zipIdx_iff_getElem?, decide_eq_true_eq]

/-- Leaving selections out keeps the others in their order. -/
theorem matched_le_iff {s s' : Selection} {i i' j j' : Nat} (h : (a.matched header)[j]? = some (s, i))
    (h' : (a.matched header)[j']? = some (s', i')) : j ≤ j' ↔ i ≤ i' := by
  have ordered : (a.matched header).Pairwise fun x y => x.2 < y.2 := (pairwise_zipIdx a.selections).filter _
  rcases Nat.lt_trichotomy j j' with lt | rfl | lt
  · have : i < i' := rel_of_pairwise ordered h h' lt
    omega
  · obtain ⟨-, rfl⟩ := Prod.mk.inj (Option.some.inj (h.symm.trans h'))
    simp
  · have : i' < i := rel_of_pairwise ordered h' h lt
    omega

theorem wins_matching {index : Nat} {s : Selection} {i j : Nat} (named : ∃ c ∈ header, c.index = index)
    (h : (a.matched header)[j]? = some (s, i)) : (a.matching header).Wins index s j ↔ a.Wins index s i := by
  constructor
  · intro wins
    refine ⟨(mem_matched.mp (List.mem_of_getElem? h)).1, wins.names, fun {s' i'} stands' names' => ?_⟩
    obtain ⟨j', h'⟩ := List.getElem?_of_mem (mem_matched.mpr ⟨stands', names' ▸ named⟩)
    exact (wins.least (getElem?_matching.mpr ⟨i', h'⟩) names').imp_right (And.imp_right (matched_le_iff h h').mp)
  · intro wins
    refine ⟨getElem?_matching.mpr ⟨i, h⟩, wins.names, fun {s' j'} stands' names' => ?_⟩
    obtain ⟨i', h'⟩ := getElem?_matching.mp stands'
    have stands := (mem_matched.mp (List.mem_of_getElem? h')).1
    exact (wins.least stands names').imp_right (And.imp_right (matched_le_iff h h').mpr)

/-- A column with its winner among the selections that name a column, put back to where the winner stands among all. -/
def replaced (a : Approval) (header : List Column) (x : Winning) : Winning :=
  { x with place := ((a.matched header)[x.place]?.map Prod.snd).getD 0 }

theorem matched_replaced {x : Winning} (stands : (a.matching header).selections[x.place]? = some x.selection) :
    (a.matched header)[x.place]? = some (x.selection, (a.replaced header x).place) := by
  obtain ⟨i, h⟩ := getElem?_matching.mp stands
  change _ = some (x.selection, ((a.matched header)[x.place]?.map Prod.snd).getD 0)
  rw [h]
  rfl

theorem Keeps.replaced {kept : List Winning} (h : (a.matching header).Keeps header kept) :
    a.Keeps header (kept.map (a.replaced header)) where
  exactly x := by
    rw [List.mem_map]
    constructor
    · rintro ⟨y, hy, rfl⟩
      obtain ⟨stands, wins⟩ := (h.exactly y).mp hy
      have named : ∃ c ∈ header, c.index = y.column.index := ⟨_, List.mem_of_getElem? stands, rfl⟩
      exact ⟨stands, (wins_matching named (matched_replaced wins.stands)).mp wins⟩
    · rintro ⟨stands, wins⟩
      have named : ∃ c ∈ header, c.index = x.column.index := ⟨_, List.mem_of_getElem? stands, rfl⟩
      obtain ⟨j, hj⟩ := List.getElem?_of_mem (mem_matched.mpr ⟨wins.stands, wins.names.symm ▸ named⟩)
      refine ⟨{ x with place := j }, (h.exactly _).mpr ⟨stands, (wins_matching named hj).mpr wins⟩, ?_⟩
      change { x with place := ((a.matched header)[j]?.map Prod.snd).getD 0 } = x
      rw [hj]
      rfl
  ordered := by
    refine List.pairwise_map.mpr (h.ordered.imp_of_mem fun {x y} hx hy before => ?_)
    have place := matched_replaced ((h.exactly x).mp hx).2.stands
    have place' := matched_replaced ((h.exactly y).mp hy).2.stands
    have le := matched_le_iff place place'
    have ge := matched_le_iff place' place
    rcases before with lt | ⟨same, before⟩
    · exact Or.inl lt
    · refine Or.inr ⟨same, before.imp (fun lt => ?_) fun h => ⟨?_, h.2⟩⟩ <;> omega

end Approval

/-- Selections that name no column have no effect. -/
theorem Dataset.reshape_matching (d : Dataset) (a : Approval) : d.reshape (a.matching d.header) = d.reshape a := by
  have keeps := (a.matching d.header).keeps_picks d.header
  rw [reshape_eq_keeping keeps, reshape_eq_keeping keeps.replaced]
  simp only [keeping, List.map_map]
  rfl

/-! ### Winners among specs -/

namespace ColumnSpec
variable {specs : List ColumnSpec} {s : ColumnSpec} {header : List Column} {c : Column} {index place : Nat}

/-- The spec at a place wins the columns with an index: of the specs for that index it has the least new index, and of
    those with the same new index it comes first. -/
structure Wins (specs : List ColumnSpec) (index : Nat) (s : ColumnSpec) (place : Nat) : Prop where
  stands : specs[place]? = some s
  names : s.column = index
  least : ∀ {s' place'}, specs[place']? = some s' → s'.column = index →
    s.index < s'.index ∨ s.index = s'.index ∧ place ≤ place'

/-- A column with the spec that wins it. -/
structure Choice where
  position : Nat
  column : Column
  place : Nat
  spec : ColumnSpec

namespace Choice

def Before (x y : Choice) : Prop :=
  x.spec.index < y.spec.index ∨ x.spec.index = y.spec.index ∧ x.place < y.place

/-- The column as its spec asks for it: with the title of the spec, or its own if the spec has none. -/
def heading (x : Choice) : Column where
  title := x.spec.title.getD x.column.title
  origin := x.column.origin
  index := x.spec.index
  kind := x.column.kind
  decimals := x.spec.decimals
  isOutput := x.spec.isOutput

def cell (x : Choice) (row : Row) : Cell := row[x.position]?.getD (Cell.empty x.column.kind)

end Choice

/-- The columns of a header that a spec names, each with the spec that wins it, in their new order. -/
structure Chooses (specs : List ColumnSpec) (header : List Column) (choices : List Choice) : Prop where
  exactly : ∀ x, x ∈ choices ↔ header[x.position]? = some x.column ∧ Wins specs x.column.index x.spec x.place
  ordered : choices.Pairwise Choice.Before

/-- The dataset with the chosen columns, under a new name. -/
def chosen (d : Dataset) (name : String) (choices : List Choice) : Dataset :=
  { d with
    name
    header := choices.map Choice.heading
    body := d.body.map fun row => choices.map fun x => x.cell row }

/-- What a spec selects, with the title that it is given. -/
def selection (s : ColumnSpec) (header : List Column) : Selection where
  column := s.column
  index := s.index
  title := s.titleIn header
  decimals := s.decimals
  isOutput := s.isOutput

theorem wins_approval {name : String} {t : Selection} :
    (approval name specs header).Wins index t place ↔ ∃ s, t = s.selection header ∧ Wins specs index s place := by
  have found (place : Nat) : (approval name specs header).selections[place]? =
      specs[place]?.map fun s => s.selection header := List.getElem?_map
  constructor
  · intro wins
    have stands := wins.stands
    rw [found, Option.map_eq_some_iff] at stands
    obtain ⟨s, hs, rfl⟩ := stands
    refine ⟨s, rfl, hs, wins.names, fun {s' place'} hs' names' => ?_⟩
    have stands' : (approval name specs header).selections[place']? = some (s'.selection header) := by
      rw [found, hs', Option.map_some]
    exact wins.least stands' names'
  · rintro ⟨s, rfl, wins⟩
    refine ⟨by rw [found, wins.stands, Option.map_some], wins.names, fun {t' place'} ht' names' => ?_⟩
    rw [found, Option.map_eq_some_iff] at ht'
    obtain ⟨s', hs', rfl⟩ := ht'
    exact wins.least hs' names'

/-- A column is found under its index if no other column has it. -/
theorem find?_index (distinct : (header.map Column.index).Nodup) (hc : c ∈ header) :
    header.find? (fun x => x.index = c.index) = some c := by
  obtain ⟨x, hx⟩ : ∃ x, header.find? (fun x => x.index = c.index) = some x := by
    rw [← Option.isSome_iff_exists, List.find?_isSome]
    exact ⟨c, hc, decide_eq_true rfl⟩
  have same := List.find?_some hx
  rw [decide_eq_true_eq] at same
  rw [hx, List.inj_on_of_nodup_map distinct (List.mem_of_find?_eq_some hx) hc same]

theorem titleIn_eq (distinct : (header.map Column.index).Nodup) (hc : c ∈ header) (names : s.column = c.index) :
    s.titleIn header = s.title.getD c.title := by
  rw [titleIn, names, find?_index distinct hc]
  cases s.title <;> rfl

/-- A kept column with its winner, as a choice of the spec that the winner comes from. -/
def choice? (specs : List ColumnSpec) (x : Winning) : Option Choice :=
  specs[x.place]?.map fun s => ⟨x.position, x.column, x.place, s⟩

theorem choice?_eq_some {x : Winning} {y : Choice} :
    choice? specs x = some y ↔ specs[x.place]? = some y.spec ∧ y.position = x.position ∧ y.column = x.column ∧
      y.place = x.place := by
  rw [choice?, Option.map_eq_some_iff]
  constructor
  · rintro ⟨s, hs, rfl⟩
    exact ⟨hs, rfl, rfl, rfl⟩
  · obtain ⟨position, column, place, spec⟩ := y
    rintro ⟨hs, rfl, rfl, rfl⟩
    exact ⟨spec, hs, rfl⟩

variable {name : String} {kept : List Winning}

/-- Each kept column comes from one choice, which asks for the same heading and cells. -/
theorem exists_choice (distinct : (header.map Column.index).Nodup)
    (h : (approval name specs header).Keeps header kept) {x : Winning} (hx : x ∈ kept) :
    ∃ y, choice? specs x = some y ∧ y.heading = x.heading ∧ y.cell = x.cell ∧
      Wins specs y.column.index y.spec y.place := by
  obtain ⟨stands, wins⟩ := (h.exactly x).mp hx
  obtain ⟨s, hs, winner⟩ := wins_approval.mp wins
  refine ⟨⟨x.position, x.column, x.place, s⟩, choice?_eq_some.mpr ⟨winner.stands, rfl, rfl, rfl⟩, ?_, rfl, winner⟩
  have title := titleIn_eq distinct (List.mem_of_getElem? stands) winner.names
  rw [Winning.heading, Selection.give, hs, Choice.heading]
  simp only [selection, title]

theorem chooses_of_keeps (distinct : (header.map Column.index).Nodup)
    (h : (approval name specs header).Keeps header kept) : Chooses specs header (kept.filterMap (choice? specs)) where
  exactly y := by
    rw [List.mem_filterMap]
    constructor
    · rintro ⟨x, hx, hy⟩
      obtain ⟨y', hy', -, -, winner⟩ := exists_choice distinct h hx
      obtain rfl : y = y' := Option.some.inj (hy.symm.trans hy')
      obtain ⟨-, position, column, -⟩ := choice?_eq_some.mp hy
      rw [position, column]
      exact ⟨((h.exactly x).mp hx).1, column ▸ winner⟩
    · rintro ⟨stands, winner⟩
      refine ⟨⟨y.position, y.column, y.place, y.spec.selection header⟩, (h.exactly _).mpr ⟨stands, ?_⟩, ?_⟩
      · exact wins_approval.mpr ⟨y.spec, rfl, winner⟩
      · exact choice?_eq_some.mpr ⟨winner.stands, rfl, rfl, rfl⟩
  ordered := by
    refine List.pairwise_filterMap.mpr (h.ordered.imp_of_mem fun {x x'} hx hx' before y hy y' hy' => ?_)
    obtain ⟨stands, wins⟩ := (h.exactly x).mp hx
    obtain ⟨stands', wins'⟩ := (h.exactly x').mp hx'
    obtain ⟨spec, -, -, place⟩ := choice?_eq_some.mp hy
    obtain ⟨spec', -, -, place'⟩ := choice?_eq_some.mp hy'
    have index {z : Winning} {s : ColumnSpec} (hs : specs[z.place]? = some s)
        (hz : (approval name specs header).Wins z.column.index z.selection z.place) : z.selection.index = s.index := by
      obtain ⟨t, ht, winner⟩ := wins_approval.mp hz
      obtain rfl : s = t := Option.some.inj (hs.symm.trans winner.stands)
      rw [ht]
      rfl
    rw [Choice.Before, ← index spec wins, ← index spec' wins', place, place']
    refine before.imp_right (And.imp_right fun lt => lt.resolve_right fun tied => ?_)
    -- One spec wins one index only, and this index stands at one position only.
    have same : x.column.index = x'.column.index := by
      have winner := wins.stands
      rw [tied.1, wins'.stands] at winner
      rw [← wins.names, ← wins'.names, Option.some.inj winner]
    have : x.position = x'.position := place_eq_of_nodup_map distinct stands stands' same
    omega

theorem map_choices {β : Type} {f : Choice → β} {g : Winning → β}
    (h : ∀ x ∈ kept, ∃ y, choice? specs x = some y ∧ f y = g x) : (kept.filterMap (choice? specs)).map f = kept.map g := by
  rw [List.map_filterMap, ← List.filterMap_eq_map]
  refine List.filterMap_congr fun x hx => ?_
  obtain ⟨y, hy, same⟩ := h x hx
  rw [hy, Option.map_some, same]
  rfl

theorem names_approval : (approval name specs header).Names index ↔ ∃ s ∈ specs, s.column = index := by
  simp [Approval.Names, approval]

theorem matching_approval (name : String) (specs : List ColumnSpec) (header : List Column) :
    (approval name specs header).matching header =
      approval name (specs.filter fun s => ∃ c ∈ header, c.index = s.column) header := by
  rw [Approval.matching, approval, List.filter_map]
  rfl

/-- With distinct indices and a preview that shows the columns, specs keep the columns that they name. Each of these
    follows the spec that wins it: it gets the title of this spec, or keeps its own if the spec has none, and the decimal
    places and the role of the same spec. Specs that name no column have no effect. -/
theorem specs_keep_titles {d : Dataset} {e : Entry} (distinct : d.Indexed) (mirrored : e.header = d.header) (name : String)
    (specs : List ColumnSpec) :
    (∃ choices, Chooses specs d.header choices ∧
      (choices.map Choice.column).Perm (d.header.filter fun c => ∃ s ∈ specs, s.column = c.index) ∧
      d.reshape (approval name specs e.header) = chosen d name choices) ∧
    d.reshape (approval name (specs.filter fun s => ∃ c ∈ d.header, c.index = s.column) e.header) =
      d.reshape (approval name specs e.header) := by
  rw [mirrored]
  refine ⟨?_, ?_⟩
  · have keeps := (approval name specs d.header).keeps_picks d.header
    have choice {x} (hx : x ∈ ((approval name specs d.header).picks d.header).map (approval name specs d.header).won) :=
      exists_choice distinct keeps hx
    have header := map_choices (f := Choice.heading) (g := Winning.heading) fun x hx => by
      obtain ⟨y, hy, heading, -⟩ := choice hx
      exact ⟨y, hy, heading⟩
    have cells (row : Row) := map_choices (f := fun y => y.cell row) (g := fun x => x.cell row) fun x hx => by
      obtain ⟨y, hy, -, cell, -⟩ := choice hx
      exact ⟨y, hy, congrFun cell row⟩
    have columns := map_choices (f := Choice.column) (g := Winning.column) fun x hx => by
      obtain ⟨y, hy, -⟩ := choice hx
      exact ⟨y, hy, (choice?_eq_some.mp hy).2.2.1⟩
    refine ⟨_, chooses_of_keeps distinct keeps, ?_, ?_⟩
    · have named := keeps.columns_perm
      simp only [names_approval] at named
      rw [columns]
      exact named
    · rw [Dataset.reshape_eq_keeping keeps, Dataset.keeping, chosen, header]
      simp only [cells]
      rfl
  · rw [← matching_approval, Dataset.reshape_matching]

/-- Specs out of order, two of them for each of two columns, one of which has a tie, and one for no column. -/
theorem specs_keep_titles_repeated :
    let specs : List ColumnSpec := [⟨2, 5, none, 1, false⟩, ⟨0, 7, some "who", 0, true⟩, ⟨9, 0, none, 0, false⟩,
      ⟨0, 3, none, 2, true⟩, ⟨2, 5, some "town", 0, true⟩]
    ∃ d, Dataset.ofGrid? .default "people" "user" [["name", "age", "city"], ["Ann", "31", "Rome"]] = some d ∧
      d.Indexed ∧ (Entry.preview "e" d .worksheet "s").header = d.header ∧
      ∃ choices, Chooses specs d.header choices ∧
        d.reshape (approval "towns" specs (Entry.preview "e" d .worksheet "s").header) = chosen d "towns" choices ∧
        choices.map Choice.heading = [⟨"name", 0, 3, .texts, 2, true⟩, ⟨"city", 2, 5, .texts, 1, false⟩] := by
  intro specs
  obtain ⟨d, hd, header⟩ : ∃ d, Dataset.ofGrid? .default "people" "user" [["name", "age", "city"], ["Ann", "31", "Rome"]] =
      some d ∧ d.header = [⟨"name", 0, 0, .texts, 0, false⟩, ⟨"age", 1, 1, .numbers, 0, false⟩,
        ⟨"city", 2, 2, .texts, 0, false⟩] := ⟨_, rfl, by decide +kernel⟩
  have headings : (d.reshape (approval "towns" specs d.header)).header =
      [⟨"name", 0, 3, .texts, 2, true⟩, ⟨"city", 2, 5, .texts, 1, false⟩] := by
    rw [Dataset.header_reshape, header, Approval.picks_eq]
    decide +kernel
  have distinct := Dataset.IsBuilt.indexed ⟨_, _, _, _, hd⟩
  have mirrored : (Entry.preview "e" d .worksheet "s").header = d.header := rfl
  obtain ⟨⟨choices, chooses, -, same⟩, -⟩ := specs_keep_titles distinct mirrored "towns" specs
  refine ⟨d, hd, distinct, mirrored, choices, chooses, same, ?_⟩
  exact (congrArg Dataset.header same).symm.trans headings

end ColumnSpec

end GridCatalog
