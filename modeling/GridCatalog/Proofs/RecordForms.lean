import GridCatalog.Record
import GridCatalog.Proofs.Faithful
import GridCatalog.Proofs.JsonNumbers

/-! The JSON forms of records that are written and read.

    A record is read field by field from its members. Everything in it is read back but the rows, which come back as
    `readRow` gives them; rows that hold a number that is not finite do not come back at all. -/

namespace GridCatalog

namespace Json
variable {α β γ : Type}

/-! ### Members -/

theorem Readable.ofMembers {members : List (String × Json)} (h : ∀ m ∈ members, Readable m.2) :
    Readable (.ofMembers members) := by
  refine .object (fun m hm => ?_) fun m hm => ?_ <;> obtain ⟨m₀, hm₀, rfl⟩ := List.mem_map.mp hm
  · rfl
  · exact h m₀ hm₀

theorem bind_of_eq_some {o : Option α} {a : α} {f : α → Option β} (h : o = some a) : o >>= f = f a := by
  rw [h]
  rfl

/-- An object whose members are some of the known ones in order is read as a record of these. -/
theorem record?_ofMembers {names : List String} {members : List (String × Json)}
    (known : (members.map Prod.fst).Sublist names) (distinct : names.Nodup) :
    (Json.ofMembers members).record? names = some members := by
  have named : (members.map fun m => (some m.1, m.2)).mapM (fun m => m.1.map (·, m.2)) = some members := by
    refine (mapM_map_some (k := id) fun m _ => ?_).trans (congrArg some (List.map_id members))
    rfl
  have kept : members.filter (fun m => names.contains m.1) = members := by
    refine List.filter_eq_self.mpr fun m hm => ?_
    exact List.contains_iff_mem.mpr (known.subset (List.mem_map_of_mem hm))
  unfold Json.ofMembers record?
  refine (bind_of_eq_some named).trans ?_
  show (if ((members.filter fun m => names.contains m.1).map Prod.fst).Nodup then
    some (members.filter fun m => names.contains m.1) else none) = some members
  rw [kept]
  exact if_pos (distinct.sublist known)

theorem lookup_optionMember (name key : String) (write : α → Json) (o : Option α) :
    (optionMember name write o).lookup key = if key = name then o.map write else none := by
  cases o with
  | none => simp [optionMember]
  | some a =>
    rw [optionMember, List.lookup_cons]
    by_cases h : key = name
    · simp [h]
    · rw [beq_false_of_ne h, if_neg h]
      rfl

theorem names_optionMember (name : String) (write : α → Json) (o : Option α) :
    ((optionMember name write o).map Prod.fst).Sublist [name] := by
  cases o with
  | none => exact List.nil_sublist [name]
  | some a => exact List.Sublist.refl [name]

namespace Record
variable {r : Record} {name : String} {v : Json} {read : Json → Option α} {a : α}

theorem required_of_lookup (h : r.lookup name = some v) (hread : read v = some a) :
    r.required name read = some a := by
  rw [required, h, Option.bind_some, hread]

theorem defaulted_of_lookup (h : r.lookup name = some v) (hread : read v = some a) (default : α) :
    r.defaulted name default read = some a := by
  rw [defaulted, h]
  exact hread

theorem optional_of_lookup {o : Option α} {write : α → Json} (h : r.lookup name = o.map write)
    (back : ∀ a ∈ o, write a ≠ .null ∧ read (write a) = some a) : r.optional name read = some o := by
  unfold optional
  rw [h]
  cases o with
  | none => rfl
  | some a =>
    obtain ⟨hnull, hread⟩ := back a rfl
    rw [Option.map_some]
    split
    · cases ‹some _ = none›
    · exact absurd (Option.some.inj ‹_›) hnull
    · cases ‹some _ = some _›
      rw [hread]
      rfl

end Record

/-! ### Values of fields -/

theorem text?_ofString (s : String) : text? (ofString s) = some s := rfl

theorem bool?_bool (b : Bool) : bool? (.bool b) = some b := rfl

theorem nat?_ofNat {n : Nat} (h : n < Text.natBound64) : (Json.ofNat n).nat? = some n := by
  have : (0 : Int) ≤ n ∧ (n : Int) < Text.natBound64 := ⟨by omega, by omega⟩
  simp [Json.ofNat, Json.ofInt, nat?, int?, this]

theorem readable_ofNat {n : Nat} (h : n < Text.natBound64) : Readable (.ofNat n) :=
  readable_integer (by omega) (by omega)

theorem list?_map {f : α → Json} {read : Json → Option β} {k : α → β} {l : List α}
    (h : ∀ a ∈ l, read (f a) = some (k a)) : list? read (.array (l.map f)) = some (l.map k) := mapM_map_some h

end Json

open Json

/-! ### Cells and rows -/

theorem Cell.readable (c : Cell) (h : ∀ x ∈ c.floats, x.isFinite = true ∧ Readable (ofFloat x)) : Readable c.toJson := by
  cases c with
  | numbers xs =>
    refine .array fun v hv => ?_
    obtain ⟨x, hx, rfl⟩ := List.mem_map.mp hv
    exact (h x hx).2
  | texts ts =>
    refine .array fun v hv => ?_
    obtain ⟨t, -, rfl⟩ := List.mem_map.mp hv
    exact .string t

/-- A cell of finite numbers is read back; an empty one comes back as one of numbers. -/
theorem Cell.ofJson?_toJson {c : Cell} (h : c.Finite) : Cell.ofJson? c.toJson = some (c.retype .numbers) := by
  cases c with
  | numbers xs =>
    have back : list? float? (.array (xs.map ofFloat)) = some (xs.map id) :=
      list?_map fun x hx => by rw [ofFloat, if_pos (h x hx)]; rfl
    have same : (numbers xs).retype .numbers = numbers xs := retype_kind (numbers xs)
    rw [toJson, ofJson?, back, List.map_id, same]
  | texts ts =>
    cases ts with
    | nil => rfl
    | cons t ts =>
      have noNumbers : list? float? (.array ((t :: ts).map ofString)) = none := rfl
      have back : list? text? (.array ((t :: ts).map ofString)) = some ((t :: ts).map id) := list?_map fun _ _ => rfl
      rw [toJson, ofJson?, noNumbers, back, List.map_id]
      rfl

theorem rowsOfJson?_rowsToJson {rows : List Row} (h : ∀ row ∈ rows, ∀ c ∈ row, c.Finite) :
    rowsOfJson? (rowsToJson rows) = some (rows.map (·.map (Cell.retype .numbers))) :=
  list?_map fun row hrow => list?_map fun c hc => Cell.ofJson?_toJson (h row hrow c hc)

/-! ### Columns -/

theorem CellKind.ofJson?_word (k : CellKind) : CellKind.ofJson? (ofString k.word) = some k := by cases k <;> rfl

theorem decimals_bounds (d : Int8) : -(Text.intBound8 : Int) ≤ d.toInt ∧ d.toInt < Text.intBound8 :=
  ⟨d.le_toInt, d.toInt_lt⟩

theorem decimalsOfJson?_ofInt (d : Int8) : decimalsOfJson? (ofInt d.toInt) = some d := by
  simp [decimalsOfJson?, int?, ofInt, decimals_bounds d]

/-- The positions of a column are natural numbers of 64 bits. -/
structure Column.InRange (c : Column) : Prop where
  origin : c.origin < Text.natBound64
  index : c.index < Text.natBound64

namespace Column
variable {c : Column}

theorem readable (h : c.InRange) (layout : ColumnLayout) : Readable (c.toJson layout) := by
  obtain ⟨low, high⟩ := decimals_bounds c.decimals
  have wide : Text.intBound8 ≤ Text.intBound64 ∧ Text.intBound8 ≤ Text.natBound64 := by decide
  have decimals : Readable (ofInt c.decimals.toInt) := readable_integer (by omega) (by omega)
  refine .ofMembers ?_
  cases layout <;>
    simp only [ColumnLayout.positions, List.cons_append, List.nil_append, List.forall_mem_cons, List.not_mem_nil,
      false_implies, implies_true, and_true]
  · exact ⟨.string _, readable_ofNat h.origin, readable_ofNat h.index, .string _, decimals, .bool _⟩
  · exact ⟨.string _, readable_ofNat h.index, readable_ofNat h.origin, .string _, decimals, .bool _⟩

theorem ofJson?_toJson (h : c.InRange) (layout : ColumnLayout) : Column.ofJson? layout (c.toJson layout) = some c := by
  have members : (c.toJson layout).record? layout.fields = some _ :=
    record?_ofMembers (by cases layout <;> exact List.Sublist.refl _) (by cases layout <;> decide)
  generalize hr : ("title", ofString c.title) :: layout.positions c ++ _ = r at members
  have title : r.lookup "title" = some (ofString c.title) := by rw [← hr]; rfl
  have origin : r.lookup "origin_index" = some (Json.ofNat c.origin) := by rw [← hr]; cases layout <;> rfl
  have index : r.lookup "index" = some (Json.ofNat c.index) := by rw [← hr]; cases layout <;> rfl
  have kind : r.lookup "col_type" = some (ofString c.kind.word) := by rw [← hr]; cases layout <;> rfl
  have decimals : r.lookup "decimals" = some (ofInt c.decimals.toInt) := by rw [← hr]; cases layout <;> rfl
  have isOutput : r.lookup "is_output" = some (.bool c.isOutput) := by rw [← hr]; cases layout <;> rfl
  rw [ofJson?, bind_of_eq_some members, bind_of_eq_some (Record.required_of_lookup title (text?_ofString _)),
    bind_of_eq_some (Record.required_of_lookup origin (nat?_ofNat h.origin)),
    bind_of_eq_some (Record.required_of_lookup index (nat?_ofNat h.index)),
    bind_of_eq_some (Record.required_of_lookup kind (CellKind.ofJson?_word c.kind)),
    bind_of_eq_some (Record.defaulted_of_lookup decimals (decimalsOfJson?_ofInt c.decimals) 0),
    bind_of_eq_some (Record.defaulted_of_lookup isOutput (bool?_bool _) false)]
  rfl

end Column

/-! ### Datasets and entries -/

/-- A number is read back from its text. -/
def NumberReadsBack (x : Float) : Prop := ofText? (ofFloat x).toCompactText = some (ofFloat x)

/-- A time is read back from its text. -/
def TimeReadsBack (t : Instant) : Prop := Instant.ofText? t.toText = some t

/-- Columns and rows whose positions are numbers of 64 bits and whose finite numbers are read back. -/
structure RowsReadBack (header : List Column) (rows : List Row) : Prop where
  columns : ∀ c ∈ header, c.InRange
  numbers : ∀ row ∈ rows, ∀ cell ∈ row, ∀ x ∈ cell.floats, x.isFinite = true → NumberReadsBack x

variable {header : List Column} {rows : List Row}

namespace RowsReadBack

theorem readable_rows (h : RowsReadBack header rows) (finite : ∀ row ∈ rows, ∀ c ∈ row, c.Finite) :
    Readable (rowsToJson rows) := by
  refine .array fun v hv => ?_
  obtain ⟨row, hrow, rfl⟩ := List.mem_map.mp hv
  refine .array fun v hv => ?_
  obtain ⟨c, hc, rfl⟩ := List.mem_map.mp hv
  refine c.readable fun x hx => ?_
  have hfinite := finite row hrow c hc x hx
  exact ⟨hfinite, readable_double hfinite (h.numbers row hrow c hc x hx hfinite)⟩

theorem readable_header (h : RowsReadBack header rows) (layout : ColumnLayout) :
    Readable (.array (header.map (Column.toJson layout))) := by
  refine .array fun v hv => ?_
  obtain ⟨c, hc, rfl⟩ := List.mem_map.mp hv
  exact Column.readable (h.columns c hc) layout

theorem header_read (h : RowsReadBack header rows) (layout : ColumnLayout) :
    list? (Column.ofJson? layout) (.array (header.map (Column.toJson layout))) = some header := by
  have := list?_map (k := id) fun c hc => Column.ofJson?_toJson (h.columns c hc) layout
  rwa [List.map_id] at this

end RowsReadBack

theorem retype_readRow (header : List Column) (rows : List Row) :
    (rows.map (·.map (Cell.retype .numbers))).map (retypeRow (header.map Column.kind)) = rows.map (readRow header) := by
  rw [List.map_map]
  rfl

theorem readable_optionMember {α : Type} {write : α → Json} (h : ∀ a, Readable (write a)) (name : String) (o : Option α) :
    ∀ m ∈ optionMember name write o, Readable m.2 := by
  intro m hm
  cases o with
  | none => cases hm
  | some a =>
    obtain rfl := List.mem_singleton.mp hm
    exact h a

theorem ofString_ne_null (s : String) : ofString s ≠ .null := fun h => by cases h

theorem Instant.ofJson?_ofString (s : String) : Instant.ofJson? (ofString s) = Instant.ofText? s := rfl

theorem Json.Record.optional_time {r : Record} {name : String} {time : Option Instant}
    (h : r.lookup name = time.map fun t => ofString t.toText) (back : ∀ t ∈ time, TimeReadsBack t) :
    r.optional name Instant.ofJson? = some time :=
  Json.Record.optional_of_lookup h fun t ht => ⟨ofString_ne_null _, (Instant.ofJson?_ofString _).trans (back t ht)⟩

/-- The columns, numbers and times of a dataset are read back one by one. -/
structure Dataset.PartsReadBack (d : Dataset) : Prop extends RowsReadBack d.header d.body where
  created : ∀ t ∈ d.created, TimeReadsBack t
  updated : ∀ t ∈ d.updated, TimeReadsBack t

namespace Dataset
variable {d : Dataset}

theorem readable (h : d.PartsReadBack) (finite : ∀ row ∈ d.body, ∀ c ∈ row, c.Finite) : Readable d.toJson := by
  refine .ofMembers ?_
  simp only [List.forall_mem_append, List.forall_mem_cons, List.not_mem_nil, false_implies, implies_true, and_true]
  have time (name : String) (t : Option Instant) : ∀ m ∈ timeMember name t, Readable m.2 :=
    readable_optionMember (fun _ => .string _) name t
  exact ⟨⟨⟨⟨⟨.string _, .string _⟩, readable_optionMember (fun _ => .string _) _ _⟩, .string _, h.readable_header _,
    h.readable_rows finite⟩, time _ _⟩, time _ _⟩

theorem record?_toJson (d : Dataset) : ∃ r, d.toJson.record? fields = some r ∧
    r.lookup "id" = some (ofString d.id) ∧ r.lookup "name" = some (ofString d.name) ∧
    r.lookup "metadata_id" = d.entryId.map ofString ∧ r.lookup "user_id" = some (ofString d.userId) ∧
    r.lookup "header" = some (.array (d.header.map (Column.toJson .originFirst))) ∧
    r.lookup "body" = some (rowsToJson d.body) ∧
    r.lookup "created_time" = d.created.map (fun t => ofString t.toText) ∧
    r.lookup "updated_time" = d.updated.map (fun t => ofString t.toText) := by
  refine ⟨_, record?_ofMembers ?_ (by decide), ?_⟩
  · simp only [List.map_append]
    exact ((((List.Sublist.refl _).append (names_optionMember ..)).append (.refl _)).append
      (names_optionMember ..)).append (names_optionMember ..)
  · simp [List.lookup_append, List.lookup_cons, lookup_optionMember, timeMember]

/-- A dataset is read back but for its rows, whose empty cells get the kinds that their places give them. -/
theorem ofJson?_toJson (h : d.PartsReadBack) (finite : ∀ row ∈ d.body, ∀ c ∈ row, c.Finite) :
    Dataset.ofJson? d.toJson = some { d with body := d.body.map (readRow d.header) } := by
  obtain ⟨r, hr, id, name, entryId, userId, header, body, created, updated⟩ := record?_toJson d
  have texts : ∀ x ∈ d.entryId, ofString x ≠ .null ∧ text? (ofString x) = some x := fun x _ => ⟨ofString_ne_null x, rfl⟩
  rw [ofJson?, bind_of_eq_some hr, bind_of_eq_some (Record.required_of_lookup header (h.header_read .originFirst)),
    bind_of_eq_some (Record.required_of_lookup body (rowsOfJson?_rowsToJson finite)),
    bind_of_eq_some (Record.defaulted_of_lookup id (text?_ofString _) ""),
    bind_of_eq_some (Record.required_of_lookup name (text?_ofString _)),
    bind_of_eq_some (Record.optional_of_lookup entryId texts),
    bind_of_eq_some (Record.required_of_lookup userId (text?_ofString _)),
    bind_of_eq_some (Record.optional_time created h.created),
    bind_of_eq_some (Record.optional_time updated h.updated), retype_readRow]
  rfl

end Dataset

theorem Purpose.ofJson?_word (p : Purpose) : Purpose.ofJson? (ofString p.word) = some p := by cases p <;> rfl

theorem Provenance.ofJson?_word (p : Provenance) : Provenance.ofJson? (ofString p.word) = some p := by cases p <;> rfl

/-- The columns, numbers and times of an entry are read back one by one. -/
structure Entry.PartsReadBack (e : Entry) : Prop extends RowsReadBack e.header e.examples where
  size : e.size < Text.natBound64
  created : ∀ t ∈ e.created, TimeReadsBack t
  updated : ∀ t ∈ e.updated, TimeReadsBack t
  synced : ∀ t ∈ e.synced, TimeReadsBack t
  archived : ∀ t ∈ e.archived, TimeReadsBack t

namespace Entry
variable {e : Entry}

theorem readable (h : e.PartsReadBack) (finite : ∀ row ∈ e.examples, ∀ c ∈ row, c.Finite) : Readable e.toJson := by
  have time (name : String) (t : Option Instant) : ∀ m ∈ timeMember name t, Readable m.2 :=
    readable_optionMember (fun _ => .string _) name t
  refine .ofMembers ?_
  simp only [List.forall_mem_append, List.forall_mem_cons, List.not_mem_nil, false_implies, implies_true, and_true]
  exact ⟨⟨⟨⟨⟨.string _, .string _, .string _, h.readable_header _, h.readable_rows finite, readable_ofNat h.size,
    .string _, .string _, .string _, .string _, .bool _, .bool _⟩, time _ _⟩, time _ _⟩, time _ _⟩, time _ _⟩

theorem record?_toJson (e : Entry) : ∃ r, e.toJson.record? fields = some r ∧
    r.lookup "id" = some (ofString e.id) ∧ r.lookup "name" = some (ofString e.name) ∧
    r.lookup "user_id" = some (ofString e.userId) ∧
    r.lookup "header" = some (.array (e.header.map (Column.toJson .indexFirst))) ∧
    r.lookup "examples" = some (rowsToJson e.examples) ∧ r.lookup "size" = some (Json.ofNat e.size) ∧
    r.lookup "process_type" = some (ofString e.purpose.word) ∧
    r.lookup "dataset_reference" = some (ofString e.datasetId) ∧
    r.lookup "source_type" = some (ofString e.provenance.word) ∧
    r.lookup "source_reference" = some (ofString e.sourceId) ∧
    r.lookup "is_temporary" = some (.bool e.isTemporary) ∧ r.lookup "is_archived" = some (.bool e.isArchived) ∧
    r.lookup "created_time" = e.created.map (fun t => ofString t.toText) ∧
    r.lookup "updated_time" = e.updated.map (fun t => ofString t.toText) ∧
    r.lookup "last_sync_time" = e.synced.map (fun t => ofString t.toText) ∧
    r.lookup "archived_time" = e.archived.map (fun t => ofString t.toText) := by
  refine ⟨_, record?_ofMembers ?_ (by decide), ?_⟩
  · simp only [List.map_append]
    exact ((((List.Sublist.refl _).append (names_optionMember ..)).append (names_optionMember ..)).append
      (names_optionMember ..)).append (names_optionMember ..)
  · simp [List.lookup_append, List.lookup_cons, lookup_optionMember, timeMember]

/-- An entry is read back but for its rows, whose empty cells get the kinds that their places give them. -/
theorem ofJson?_toJson (h : e.PartsReadBack) (finite : ∀ row ∈ e.examples, ∀ c ∈ row, c.Finite) :
    Entry.ofJson? e.toJson = some { e with examples := e.examples.map (readRow e.header) } := by
  obtain ⟨r, hr, id, name, userId, header, examples, size, purpose, datasetId, provenance, sourceId, isTemporary,
    isArchived, created, updated, synced, archived⟩ := record?_toJson e
  rw [ofJson?, bind_of_eq_some hr, bind_of_eq_some (Record.required_of_lookup header (h.header_read .indexFirst)),
    bind_of_eq_some (Record.required_of_lookup examples (rowsOfJson?_rowsToJson finite)),
    bind_of_eq_some (Record.required_of_lookup id (text?_ofString _)),
    bind_of_eq_some (Record.required_of_lookup name (text?_ofString _)),
    bind_of_eq_some (Record.required_of_lookup userId (text?_ofString _)),
    bind_of_eq_some (Record.required_of_lookup size (nat?_ofNat h.size)),
    bind_of_eq_some (Record.defaulted_of_lookup purpose (Purpose.ofJson?_word e.purpose) .training),
    bind_of_eq_some (Record.required_of_lookup datasetId (text?_ofString _)),
    bind_of_eq_some (Record.required_of_lookup provenance (Provenance.ofJson?_word e.provenance)),
    bind_of_eq_some (Record.required_of_lookup sourceId (text?_ofString _)),
    bind_of_eq_some (Record.required_of_lookup isTemporary (bool?_bool _)),
    bind_of_eq_some (Record.required_of_lookup isArchived (bool?_bool _)),
    bind_of_eq_some (Record.optional_time created h.created),
    bind_of_eq_some (Record.optional_time updated h.updated),
    bind_of_eq_some (Record.optional_time synced h.synced),
    bind_of_eq_some (Record.optional_time archived h.archived), retype_readRow]
  rfl

end Entry

/-! ### What is read -/

theorem mem_of_lookup {α β : Type} [BEq α] [LawfulBEq α] {l : List (α × β)} {a : α} {b : β} (h : l.lookup a = some b) :
    (a, b) ∈ l := by
  obtain ⟨l₁, l₂, rfl, -⟩ := List.lookup_eq_some_iff.mp h
  exact List.mem_append_right _ List.mem_cons_self

theorem Json.Finite.of_record? {v : Json} (hv : v.Finite) {names : List String} {r : Json.Record}
    (hr : v.record? names = some r) : ∀ m ∈ r, m.2.Finite := by
  rintro ⟨name, u⟩ hm
  cases hv with
  | null | bool | number | string => cases hr
  | array values =>
    unfold record? at hr
    dsimp only at hr
    split at hr <;> cases hr
    exact values u (List.of_mem_zip hm).2
  | object values =>
    unfold record? at hr
    obtain ⟨named, hnamed, hr⟩ := Option.bind_eq_some_iff.mp hr
    dsimp only at hr
    split at hr <;> cases hr
    obtain ⟨m, hmem, heq⟩ := exists_of_mapM hnamed _ (List.mem_filter.mp hm).1
    obtain ⟨_, -, heq⟩ := Option.map_eq_some_iff.mp heq
    cases heq
    exact values m hmem

theorem Json.Finite.of_required {r : Json.Record} (hr : ∀ m ∈ r, m.2.Finite) {name : String} {α : Type}
    {read : Json → Option α} {a : α} (h : r.required name read = some a) : ∃ u : Json, u.Finite ∧ read u = some a := by
  obtain ⟨u, hu, ha⟩ := Option.bind_eq_some_iff.mp h
  exact ⟨u, hr _ (mem_of_lookup hu), ha⟩

theorem Json.Finite.of_list? {v : Json} (hv : v.Finite) {α : Type} {read : Json → Option α} {as : List α}
    (h : list? read v = some as) : ∀ a ∈ as, ∃ u : Json, u.Finite ∧ read u = some a := by
  intro a ha
  cases hv with
  | null | bool | number | string | object => cases h
  | array values =>
    obtain ⟨u, hu, hread⟩ := exists_of_mapM h a ha
    exact ⟨u, values u hu, hread⟩

theorem Json.Finite.of_float? {v : Json} (hv : v.Finite) {x : Float} (h : v.float? = some x) : x.isFinite = true := by
  cases hv with
  | null | bool | string | array | object => cases h
  | @number content number =>
    match content with
    | none => cases h
    | some (.integer n) =>
      cases h
      exact Decimal.isFinite_ofInt (number _ rfl)
    | some (.double x) =>
      cases h
      exact number _ rfl

/-- The numbers of a cell that is read are finite, and an empty one holds numbers. -/
theorem Cell.of_ofJson? {v : Json} (hv : v.Finite) {c : Cell} (h : Cell.ofJson? v = some c) :
    c.Finite ∧ c.retype .numbers = c := by
  unfold ofJson? at h
  split at h
  · cases h
    rename_i xs hxs
    refine ⟨fun x hx => ?_, retype_kind (numbers xs)⟩
    obtain ⟨u, hu, hread⟩ := hv.of_list? hxs x hx
    exact hu.of_float? hread
  · rename_i hnone
    obtain ⟨ts, hts, rfl⟩ := Option.map_eq_some_iff.mp h
    refine ⟨fun x hx => (by cases hx), retype_eq_self.mpr fun hempty => ?_⟩
    -- An empty array would have been read as numbers.
    obtain rfl : ts = [] := List.length_eq_zero_iff.mp (of_decide_eq_true hempty)
    cases hv with
    | null | bool | number | string | object => cases hts
    | @array items =>
      obtain rfl : items = [] := List.length_eq_zero_iff.mp (length_of_mapM hts).symm
      cases hnone

/-- Rows that are read are faithful. -/
theorem faithful_of_rowsOfJson? {v : Json} (hv : v.Finite) (h : rowsOfJson? v = some rows) :
    FaithfulRows header (rows.map (retypeRow (header.map Column.kind))) := by
  have cell : ∀ row ∈ rows, ∀ c ∈ row, c.Finite ∧ c.retype .numbers = c := fun row hrow c hc => by
    obtain ⟨u, hu, hread⟩ := hv.of_list? h row hrow
    obtain ⟨w, hw, hread⟩ := hu.of_list? hread c hc
    exact Cell.of_ofJson? hw hread
  have same : rows.map (·.map (Cell.retype .numbers)) = rows :=
    (List.map_congr_left fun row hrow =>
      (List.map_congr_left fun c hc => (cell row hrow c hc).2).trans (List.map_id _)).trans (List.map_id _)
  rw [← same, retype_readRow]
  exact faithfulRows_readRow fun row hrow c hc => (cell row hrow c hc).1

theorem Dataset.faithful_of_ofJson? {v : Json} (hv : v.Finite) {d : Dataset} (h : Dataset.ofJson? v = some d) :
    d.Faithful := by
  unfold ofJson? at h
  obtain ⟨r, hr, h⟩ := Option.bind_eq_some_iff.mp h
  obtain ⟨header, -, h⟩ := Option.bind_eq_some_iff.mp h
  obtain ⟨body, hbody, h⟩ := Option.bind_eq_some_iff.mp h
  obtain ⟨u, hu, hrows⟩ := Json.Finite.of_required (hv.of_record? hr) hbody
  have faithful : FaithfulRows header _ := faithful_of_rowsOfJson? hu hrows
  iterate 6 obtain ⟨_, -, h⟩ := Option.bind_eq_some_iff.mp h
  cases h
  exact faithful

theorem Entry.faithful_of_ofJson? {v : Json} (hv : v.Finite) {e : Entry} (h : Entry.ofJson? v = some e) : e.Faithful := by
  unfold ofJson? at h
  obtain ⟨r, hr, h⟩ := Option.bind_eq_some_iff.mp h
  obtain ⟨header, -, h⟩ := Option.bind_eq_some_iff.mp h
  obtain ⟨examples, hexamples, h⟩ := Option.bind_eq_some_iff.mp h
  obtain ⟨u, hu, hrows⟩ := Json.Finite.of_required (hv.of_record? hr) hexamples
  have faithful : FaithfulRows header _ := faithful_of_rowsOfJson? hu hrows
  iterate 14 obtain ⟨_, -, h⟩ := Option.bind_eq_some_iff.mp h
  cases h
  exact faithful

end GridCatalog
