import GridCatalog.Proofs.DelimitedText
import GridCatalog.Proofs.DirectoryIngest

/-! Tables that are read back from delimited text.

    From the front of a field a written cell leads to a place behind its text, which a delimiter or a line end leaves
    with the field (`read_cell`). So a line puts one record behind the others, with the texts of its cells
    (`read_lines`), and a table that is read with the delimiter that is found in it comes back as its grid
    (`readGrid_written`). -/

namespace GridCatalog

namespace Delimited

/-! ### Byte order marks -/

theorem begins_inv {b : UInt8} {n : Nat} {bytes bytes' : List UInt8} (h : b :: bytes <+: UInt8.ofNat n :: bytes') :
    b.toNat = n % 256 ∧ bytes <+: bytes' := by
  obtain ⟨rfl, back⟩ := List.cons_prefix_cons.mp h
  exact ⟨UInt8.toNat_ofNat', back⟩

/-- Only the character of the byte order mark begins with its bytes. -/
theorem eq_of_mark {c : Char} {rest : List UInt8} (h : byteOrderMark <+: String.utf8EncodeChar c ++ rest) :
    c = '\uFEFF' := by
  have number : c.val.toNat = 0xFEFF := by
    unfold String.utf8EncodeChar at h
    dsimp only at h
    -- The first byte shows how many there are, and three bytes are enough for the number.
    split at h
    · have first : 0xEF = _ := (begins_inv h).1
      omega
    split at h
    · have first : 0xEF = _ := (begins_inv h).1
      omega
    split at h
    · obtain ⟨first, h⟩ := begins_inv h
      obtain ⟨second, h⟩ := begins_inv h
      obtain ⟨third, -⟩ := begins_inv h
      have first : 0xEF = _ := first
      have second : 0xBB = _ := second
      have third : 0xBF = _ := third
      omega
    · have first : 0xEF = _ := (begins_inv h).1
      omega
  exact Char.toNat_inj.mp number

theorem withoutMark_utf8Encode {s : List Char} (h : ∀ c ∈ s.head?, c ≠ '\uFEFF') :
    withoutMark (Text.utf8Encode s) = Text.utf8Encode s := by
  refine if_neg fun mark => ?_
  rw [List.isPrefixOf_iff_prefix] at mark
  cases s with
  | nil => exact absurd mark (by decide)
  | cons c s => exact h c rfl (eq_of_mark mark)

/-! ### Bytes -/

/-- The reading of bytes that follow what has been read. -/
def read (delimiter : UInt8) (p : Progress) (bytes : List UInt8) : Progress := bytes.foldl (Progress.push delimiter) p

/-- A byte that has no meaning next to a delimiter. -/
structure IsOrdinary (delimiter b : UInt8) : Prop where
  unquoted : b ≠ quote
  other : b ≠ delimiter
  inner : isLineEnd b = false

/-- The byte of a delimiter. -/
structure IsDelimiter (d : Char) (delimiter : UInt8) : Prop where
  candidate : d ∈ candidates
  encoded : Text.utf8Encode [d] = [delimiter]
  low : delimiter.toNat < 0x80
  char : Text.byteChar delimiter = d
  unquoted : delimiter ≠ quote
  inner : isLineEnd delimiter = false

theorem isDelimiter {d : Char} (hd : d ∈ candidates) : IsDelimiter d d.toUInt8 := by
  have among := hd
  simp only [candidates, List.mem_cons, List.not_mem_nil, or_false] at among
  rcases among with rfl | rfl | rfl | rfl <;> exact ⟨hd, by decide, by decide, by decide, by decide, by decide⟩

section
variable {d : Char} {delimiter b : UInt8} {records : List (List (List UInt8))} {fields : List (List UInt8)}
  {done bytes : List UInt8} {place : Place} {x : WrittenCell} {r : WrittenRow}

theorem read_append (delimiter : UInt8) (p : Progress) (bytes bytes' : List UInt8) :
    read delimiter p (bytes ++ bytes') = read delimiter (read delimiter p bytes) bytes' := List.foldl_append

/-- Bytes between quotes are read as they are. -/
theorem read_quoted (h : ∀ b ∈ bytes, b ≠ quote) :
    read delimiter ⟨records, fields, done, .quoted⟩ bytes = ⟨records, fields, bytes.reverse ++ done, .quoted⟩ := by
  induction bytes generalizing done with
  | nil => rfl
  | cons b bytes ih =>
    have step : Progress.push delimiter ⟨records, fields, done, .quoted⟩ b = ⟨records, fields, b :: done, .quoted⟩ :=
      if_neg (h b List.mem_cons_self)
    rw [read, List.foldl_cons, step, ← read, ih fun b hb => h b (List.mem_cons_of_mem _ hb)]
    simp

/-- Bytes without a meaning are read as they are. -/
theorem read_plain (h : ∀ b ∈ bytes, IsOrdinary delimiter b) :
    read delimiter ⟨records, fields, done, .plain⟩ bytes = ⟨records, fields, bytes.reverse ++ done, .plain⟩ := by
  induction bytes generalizing done with
  | nil => rfl
  | cons b bytes ih =>
    obtain ⟨-, other, inner⟩ := h b List.mem_cons_self
    have step : Progress.push delimiter ⟨records, fields, done, .plain⟩ b = ⟨records, fields, b :: done, .plain⟩ := by
      simp [Progress.push, Progress.pushPlain, other, inner, Progress.take]
    rw [read, List.foldl_cons, step, ← read, ih fun b hb => h b (List.mem_cons_of_mem _ hb)]
    simp

/-! ### Cells -/

/-- Between quotes a text with doubled quotes is read as the text. -/
theorem read_doubled (s : List Char) :
    read delimiter ⟨records, fields, done, .quoted⟩ (Text.utf8Encode (doubled s)) =
      ⟨records, fields, (Text.utf8Encode s).reverse ++ done, .quoted⟩ := by
  induction s generalizing done with
  | nil => rfl
  | cons c s ih =>
    unfold doubled
    split
    · rename_i hc
      subst hc
      show read delimiter ⟨records, fields, quote :: done, .quoted⟩ (Text.utf8Encode (doubled s)) = _
      rw [ih, show Text.utf8Encode ('"' :: s) = quote :: Text.utf8Encode s from rfl]
      simp
    · rename_i hc
      have unquoted : ∀ b ∈ Text.utf8Encode [c], b ≠ quote := fun b hb heq => by
        have := Text.byteChar_mem hb (by rw [heq]; decide)
        rw [List.mem_singleton, heq] at this
        exact hc this.symm
      rw [← List.singleton_append, Text.utf8Encode_append, read_append, read_quoted unquoted, ih,
        ← List.singleton_append (x := c) (l := s), Text.utf8Encode_append]
      simp

/-- A place in front of a field. -/
def Place.IsFront (p : Place) : Prop := p = .record ∨ p = .field

/-- A place behind the text of a field. -/
def Place.IsBack (p : Place) : Prop := p = .plain ∨ p = .behindQuote

/-- The bytes of a raw cell on one line have no meaning. -/
theorem ordinary_of_raw (hd : IsDelimiter d delimiter) (oneLine : x.isOneLine) (raw : x.isQuoted = false) :
    ∀ b ∈ Text.utf8Encode x.text.toList, IsOrdinary delimiter b := by
  intro b hb
  refine ⟨?_, ?_, Bool.eq_false_iff.mpr fun lineEnd => ?_⟩
  · rintro rfl
    exact (x.bare raw (Text.byteChar_mem hb (by decide))).1 (by decide)
  · rintro rfl
    have := (x.bare raw (Text.byteChar_mem hb hd.low)).2
    rw [hd.char] at this
    exact this hd.candidate
  · simp only [isLineEnd, Bool.or_eq_true, decide_eq_true_eq] at lineEnd
    obtain rfl | rfl := lineEnd
    · exact (x.ne_lineEnd oneLine (Text.byteChar_mem hb (by decide))).2 (by decide)
    · exact (x.ne_lineEnd oneLine (Text.byteChar_mem hb (by decide))).1 (by decide)

/-- The first byte of a raw cell opens a field that is not quoted. -/
theorem push_first (front : place.IsFront) (h : IsOrdinary delimiter b) :
    Progress.push delimiter ⟨records, fields, [], place⟩ b = ⟨records, fields, [b], .plain⟩ := by
  obtain ⟨unquoted, other, inner⟩ := h
  obtain rfl | rfl := front <;>
    simp [Progress.push, Progress.pushFirst, Progress.pushPlain, unquoted, other, inner, Progress.take]

/-- A written cell is read as its text. -/
theorem read_cell (hd : IsDelimiter d delimiter) (oneLine : x.isOneLine) (front : place.IsFront)
    (records : List (List (List UInt8))) (fields : List (List UInt8)) :
    ∃ back : Place, back.IsBack ∧
      read delimiter ⟨records, fields, [], place⟩ (Text.utf8Encode x.chars) =
        ⟨records, fields, (Text.utf8Encode x.text.toList).reverse, back⟩ := by
  unfold WrittenCell.chars
  split
  · have opened : Progress.push delimiter ⟨records, fields, [], place⟩ quote = ⟨records, fields, [], .quoted⟩ := by
      obtain rfl | rfl := front <;> rfl
    refine ⟨.behindQuote, Or.inr rfl, ?_⟩
    rw [← List.singleton_append, Text.utf8Encode_append, Text.utf8Encode_append, read_append, read_append,
      show read delimiter ⟨records, fields, [], place⟩ (Text.utf8Encode ['"']) = _ from opened, read_doubled,
      List.append_nil]
    rfl
  · rename_i raw
    have raw := eq_false_of_ne_true raw
    have ordinary := ordinary_of_raw hd oneLine raw
    obtain ⟨c, hc, -⟩ := x.exists_visible raw
    rcases hbytes : Text.utf8Encode x.text.toList with _ | ⟨b, bytes⟩
    · rw [Text.utf8Encode_injective (t := []) hbytes] at hc
      cases hc
    · rw [hbytes] at ordinary
      refine ⟨.plain, Or.inl rfl, ?_⟩
      rw [read, List.foldl_cons, push_first front (ordinary b List.mem_cons_self), ← read,
        read_plain fun b hb => ordinary b (List.mem_cons_of_mem _ hb)]
      simp

/-! ### Lines -/

/-- A delimiter behind a text ends the field. -/
theorem push_delimiter (hd : IsDelimiter d delimiter) {back : Place} (hback : back.IsBack) :
    Progress.push delimiter ⟨records, fields, done, back⟩ delimiter = ⟨records, done.reverse :: fields, [], .field⟩ := by
  have unquoted := hd.unquoted
  obtain rfl | rfl := hback <;> simp [Progress.push, Progress.pushPlain, Progress.endField, unquoted]

/-- The end of a line behind a text ends the record. -/
theorem read_lineEnd (hd : IsDelimiter d delimiter) {back : Place} (hback : back.IsBack) (r : WrittenRow) :
    read delimiter ⟨records, fields, done, back⟩ (Text.utf8Encode r.lineEnd) =
      ⟨(fields.reverse ++ [done.reverse]) :: records, [], [], .record⟩ := by
  have ends : ∀ b, isLineEnd b = true → Progress.push delimiter ⟨records, fields, done, back⟩ b =
      ⟨(fields.reverse ++ [done.reverse]) :: records, [], [], .record⟩ := fun b hb => by
    have other : b ≠ delimiter := fun heq => by
      rw [heq, hd.inner] at hb
      cases hb
    have unquoted : b ≠ quote := fun heq => by
      rw [heq] at hb
      exact absurd hb (by decide)
    obtain rfl | rfl := hback <;> simp [Progress.push, Progress.pushPlain, Progress.endRecord, unquoted, other, hb]
  unfold WrittenRow.lineEnd
  cases r.hasReturn with
  | false => exact ends 0x0A (by decide)
  | true =>
    show Progress.push delimiter (Progress.push delimiter _ 0x0D) 0x0A = _
    rw [ends 0x0D (by decide)]
    rfl

/-- The texts of the cells of a row, in bytes. -/
def WrittenRow.texts (r : WrittenRow) : List (List UInt8) := r.cells.map fun x => Text.utf8Encode x.text.toList

/-- Cells up to the end of their line are read as one record. -/
theorem read_cells (hd : IsDelimiter d delimiter) (r : WrittenRow) {xs : List WrittenCell} (some : xs ≠ [])
    (oneLine : ∀ x ∈ xs, x.isOneLine) (front : place.IsFront) :
    read delimiter ⟨records, fields, [], place⟩
        (Text.utf8Encode (Text.glue d (xs.map WrittenCell.chars) ++ r.lineEnd)) =
      ⟨(fields.reverse ++ xs.map fun x => Text.utf8Encode x.text.toList) :: records, [], [], .record⟩ := by
  induction xs generalizing fields place with
  | nil => exact absurd rfl some
  | cons x xs ih =>
    obtain ⟨back, hback, first⟩ := read_cell hd (oneLine x List.mem_cons_self) front records fields
    cases xs with
    | nil =>
      rw [List.map_singleton, Text.glue, Text.utf8Encode_append, read_append, first, read_lineEnd hd hback]
      simp
    | cons y ys =>
      have rest := @ih (Text.utf8Encode x.text.toList :: fields) .field (List.cons_ne_nil _ _)
        (fun x hx => oneLine x (List.mem_cons_of_mem _ hx)) (Or.inr rfl)
      rw [List.map_cons] at rest
      rw [List.map_cons, List.map_cons, Text.glue, List.append_assoc, Text.utf8Encode_append, read_append, first,
        List.cons_append, ← List.singleton_append, Text.utf8Encode_append, read_append, hd.encoded]
      rw [show read delimiter ⟨records, fields, _, back⟩ [delimiter] = _ from push_delimiter hd hback,
        List.reverse_reverse, rest]
      simp

/-- Lines are read as records of the texts of their cells. -/
theorem read_lines (hd : IsDelimiter d delimiter) {rows : List WrittenRow} (some : ∀ r ∈ rows, r.cells ≠ [])
    (oneLine : ∀ r ∈ rows, ∀ x ∈ r.cells, x.isOneLine) :
    read delimiter ⟨records, [], [], .record⟩ (Text.utf8Encode (writtenLines d rows)) =
      ⟨(rows.map WrittenRow.texts).reverse ++ records, [], [], .record⟩ := by
  induction rows generalizing records with
  | nil => rfl
  | cons r rows ih =>
    rw [writtenLines, List.flatMap_cons, ← writtenLines, Text.utf8Encode_append, read_append, WrittenRow.line,
      read_cells hd r (some r List.mem_cons_self) (oneLine r List.mem_cons_self) (Or.inl rfl),
      ih (fun r hr => some r (List.mem_cons_of_mem _ hr)) fun r hr => oneLine r (List.mem_cons_of_mem _ hr)]
    simp [WrittenRow.texts]

end

/-! ### Tables -/

namespace WrittenTable
variable {t : WrittenTable} {d : Char}

/-- A written table does not begin with a byte order mark. -/
theorem head?_writtenLines (t : WrittenTable) (d : Char) : ∀ c ∈ (writtenLines d t.rows).head?, c ≠ '\uFEFF' := by
  rcases hrows : t.rows with _ | ⟨r, rows⟩
  · intro c hc
    cases hc
  rcases hcells : r.cells with _ | ⟨x, xs⟩
  · exact absurd hcells (t.nonempty (hrows ▸ List.mem_cons_self))
  have unmarked := t.unmarked r (by rw [hrows]; rfl) x (by rw [hcells]; rfl)
  obtain ⟨rest, hline⟩ := Text.glue_cons d x.chars (xs.map WrittenCell.chars)
  obtain ⟨c, hc, -⟩ := x.exists_not_isBlank
  rw [writtenLines, List.flatMap_cons, WrittenRow.line, hcells, List.map_cons, hline, List.append_assoc,
    List.append_assoc, List.head?_append_of_ne_nil _ (List.ne_nil_of_mem hc)]
  unfold WrittenCell.chars
  split
  · rintro c ⟨⟩
    decide
  · rename_i raw
    rintro c hc rfl
    exact unmarked (eq_false_of_ne_true raw) hc

/-- A written table is read as its grid. -/
theorem grid?_bytes (t : WrittenTable) (hd : d ∈ candidates) : grid? d.toUInt8 (t.bytes d) = some t.grid := by
  have records_eq : records d.toUInt8 (t.bytes d) = t.rows.map WrittenRow.texts := by
    rw [records, bytes, withoutMark_utf8Encode (t.head?_writtenLines d)]
    have read : read d.toUInt8 .start (Text.utf8Encode (writtenLines d t.rows)) = ⟨_, [], [], .record⟩ :=
      read_lines (isDelimiter hd) (fun r => t.nonempty) t.oneLine
    rw [Delimited.read] at read
    rw [read]
    simp [Progress.finish]
  rw [grid?, records_eq]
  refine mapM_map_some fun r _ => mapM_map_some fun x _ => ?_
  rw [fieldText?, Text.utf8Decode?_utf8Encode]
  exact congrArg Option.some String.ofList_toList

/-- In a table with one column no delimiter is written. -/
theorem bytes_of_single (single : t.width = 1) (d e : Char) : t.bytes d = t.bytes e := by
  have line : ∀ r ∈ t.rows, r.line d = r.line e := fun r hr => by
    obtain ⟨x, hx⟩ := List.length_eq_one_iff.mp ((t.rectangular r hr).trans single)
    rw [WrittenRow.line, WrittenRow.line, hx]
    rfl
  refine congrArg Text.utf8Encode (congrArg List.flatten (List.map_congr_left fun r hr => ?_))
  rw [line r hr]

end WrittenTable

end Delimited

/-! ### Files -/

/-- A range that has all cells of a grid with the given numbers of rows and columns. -/
structure CellRange.Covers (r : CellRange) (rows width : Nat) : Prop where
  firstColumn : r.firstColumn = 0
  lastColumn : width ≤ r.lastColumn + 1
  firstRow : r.firstRow = 0
  lastRow : ∀ last ∈ r.lastRow, rows ≤ last + 1

theorem CellRange.cut_of_covers {r : CellRange} {grid : Grid} {width : Nat} (covers : r.Covers grid.length width)
    (fits : ∀ row ∈ grid, row.length ≤ width) : r.cut grid = grid := by
  have rows : r.cutRows grid = grid := by
    unfold cutRows
    rw [covers.firstRow, List.drop_zero]
    split
    · rename_i last hlast
      exact List.take_of_length_le (covers.lastRow last hlast)
    · rfl
  rw [cut, rows, List.map_congr_left (g := id) fun row hrow => ?_, List.map_id]
  rw [covers.firstColumn, List.drop_zero, CellRange.width, covers.firstColumn]
  exact List.take_of_length_le (Nat.le_trans (fits row hrow) covers.lastColumn)

namespace TextFiles
open Delimited
variable {f : TextFiles} {t : WrittenTable} {d : Char}

/-- A written table is parsed as its grid when its delimiter has to be found. -/
theorem parse_bytes (detecting : f.delimiter = none) (t : WrittenTable) (hd : d ∈ candidates) :
    f.parse (t.bytes d) = .ok t.grid := by
  have found := detect?_bytes t hd
  rw [parse, detecting, Option.none_or]
  by_cases bare : t.rows = []
  · rw [if_pos bare] at found
    rw [found, WrittenTable.grid, bare]
    rfl
  rw [if_neg bare] at found
  have read : grid? (if t.width - 1 = 0 then ',' else d).toUInt8 (t.bytes d) = some t.grid := by
    have pos := t.pos
    split
    · rw [t.bytes_of_single (by omega) d ',']
      exact t.grid?_bytes (by decide)
    · exact t.grid?_bytes hd
  simp only [found, Option.map_some, read]

/-- A table comes back from the file that it has been written to, whichever delimiter has been used and whichever cells
    have been quoted. -/
theorem readGrid_written (detecting : f.delimiter = none) (hd : d ∈ candidates) {sourceId title : String}
    {files : List TextFile} {file : TextFile} (listed : f.files sourceId = .ok files)
    (first : files.find? (fun file => file.sheet.title = title && file.sheet.isGrid) = some file)
    (written : f.disk.readAt f.base file.path = .ok (t.bytes d)) {range : CellRange}
    (covers : range.Covers t.grid.length t.width) : f.toSource.readGrid sourceId title range = .ok t.grid := by
  have fits : ∀ row ∈ t.grid, row.length ≤ t.width := fun row hrow => by
    obtain ⟨r, hr, rfl⟩ := List.mem_map.mp hrow
    exact Nat.le_of_eq ((List.length_map ..).trans (t.rectangular r hr))
  simp only [toSource, readGrid, listed, bind, Except.bind, first, written, parse_bytes detecting t hd,
    range.cut_of_covers covers fits]
  rfl

/-- A table with semicolons between its cells, of which the quoted ones hold more commas than there are columns. -/
theorem readGrid_written_towns :
    let raw (text : String) (h : text.toList.any (fun c => !Text.isBlank c) ∧ text.toList.all isBare) : WrittenCell :=
      ⟨text, false, fun _ => h⟩
    let quoted (text : String) : WrittenCell := ⟨text, true, nofun⟩
    let t : WrittenTable := {
      width := 2
      rows := [⟨[raw "town" (by decide +kernel), quoted "called, \"by\", some; or |all|"], true⟩,
        ⟨[quoted "", raw " São Tomé " (by decide +kernel)], false⟩]
      pos := by decide, rectangular := by decide +kernel, oneLine := by decide +kernel
      unmarked := by decide +kernel }
    let f : TextFiles := ⟨⟨⟨[(["towns.csv"], .file (t.bytes ';'))], by decide⟩⟩, [], none, none⟩
    let file : TextFile := ⟨"towns.csv", "towns.csv"⟩
    f.files "towns.csv" = .ok [file] ∧ f.disk.readAt f.base file.path = .ok (t.bytes ';') ∧
      CellRange.default.Covers t.grid.length t.width ∧ f.toSource.readGrid "towns.csv" "towns" .default =
        .ok [["town", "called, \"by\", some; or |all|"], ["", " São Tomé "]] := by
  intro raw quoted t f file
  have listed : f.files "towns.csv" = .ok [file] := World.ok_of_toOption (by decide +kernel)
  have written : f.disk.readAt f.base file.path = .ok (t.bytes ';') := World.ok_of_toOption (by decide +kernel)
  have covers : CellRange.default.Covers t.grid.length t.width := ⟨rfl, by decide, rfl, nofun⟩
  exact ⟨listed, written, covers, readGrid_written rfl (by decide) listed (by decide +kernel) written covers⟩

end TextFiles

end GridCatalog
