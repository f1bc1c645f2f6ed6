import GridCatalog.Assembly
import GridCatalog.Delimited.Detection

/-! Tables that are written as delimited text, and the delimiter that is found in them.

    A cell is written between quotes, with its own quotes doubled, or as it is if nothing in it has a meaning. Either
    way a line comes back to the outside of quotes behind each of its cells, and no delimiter stands there but those
    between the cells (`countOutside_cells`). So every line counts the same, and the delimiter of a table with more than
    one column is the one that it was written with (`detect?_bytes`). -/

namespace GridCatalog.Delimited

/-- Whether a character may stand in a cell without quotes. -/
def isBare (c : Char) : Bool := c ≠ '"' && !candidates.contains c

/-- A cell as it is written: between quotes, or as it is if it is not blank and has no quote and no delimiter. -/
structure WrittenCell where
  text : String
  isQuoted : Bool
  plain (raw : isQuoted = false) : text.toList.any (fun c => !Text.isBlank c) ∧ text.toList.all isBare

/-- A text with every quote in it written twice. -/
def doubled : List Char → List Char
  | [] => []
  | c :: rest => if c = '"' then '"' :: '"' :: doubled rest else c :: doubled rest

def WrittenCell.chars (x : WrittenCell) : List Char :=
  if x.isQuoted then '"' :: (doubled x.text.toList ++ ['"']) else x.text.toList

/-- Whether a cell has no line ends in it. -/
def WrittenCell.isOneLine (x : WrittenCell) : Bool := x.text.toList.all fun c => c ≠ '\r' && c ≠ '\n'

/-- A row on a line that ends in a line feed, with or without a carriage return in front of it. -/
structure WrittenRow where
  cells : List WrittenCell
  hasReturn : Bool

namespace WrittenRow

def line (d : Char) (r : WrittenRow) : List Char := Text.glue d (r.cells.map WrittenCell.chars)

def lineEnd (r : WrittenRow) : List Char := if r.hasReturn then ['\r', '\n'] else ['\n']

end WrittenRow

/-- The characters of rows on lines that follow each other. -/
def writtenLines (d : Char) (rows : List WrittenRow) : List Char := rows.flatMap fun r => r.line d ++ r.lineEnd

/-- A table of one or more columns in which no cell has a line end, with the choices that are made when it is
    written. -/
structure WrittenTable where
  width : Nat
  rows : List WrittenRow
  pos : 0 < width
  rectangular : ∀ r ∈ rows, r.cells.length = width
  oneLine : ∀ r ∈ rows, ∀ x ∈ r.cells, x.isOneLine
  /-- The table does not begin with what would be taken for a byte order mark. -/
  unmarked : ∀ r ∈ rows.head?, ∀ x ∈ r.cells.head?, x.isQuoted = false → x.text.toList.head? ≠ some '\uFEFF'

namespace WrittenTable

def grid (t : WrittenTable) : Grid := t.rows.map fun r => r.cells.map WrittenCell.text

/-- The bytes of a file that holds the table. -/
def bytes (d : Char) (t : WrittenTable) : List UInt8 := Text.utf8Encode (writtenLines d t.rows)

theorem nonempty (t : WrittenTable) {r : WrittenRow} (hr : r ∈ t.rows) : r.cells ≠ [] := by
  rw [← List.length_pos_iff, t.rectangular r hr]
  exact t.pos

end WrittenTable

/-! ### Cells -/

theorem mem_doubled {c : Char} {s : List Char} (h : c ∈ doubled s) : c ∈ s := by
  induction s with
  | nil => exact h
  | cons a s ih =>
    unfold doubled at h
    split at h <;> simp only [List.mem_cons] at h ⊢
    · rename_i ha
      obtain h | h | h := h
      · exact Or.inl (h.trans ha.symm)
      · exact Or.inl (h.trans ha.symm)
      · exact Or.inr (ih h)
    · exact h.imp_right ih

namespace WrittenCell
variable {x : WrittenCell} {c : Char}

theorem exists_visible (x : WrittenCell) (raw : x.isQuoted = false) : ∃ c ∈ x.text.toList, Text.isBlank c = false := by
  obtain ⟨c, hc, h⟩ := List.any_eq_true.mp (x.plain raw).1
  exact ⟨c, hc, by simpa using h⟩

theorem bare (raw : x.isQuoted = false) (hc : c ∈ x.text.toList) : c ≠ '"' ∧ c ∉ candidates := by
  simpa [isBare] using List.all_eq_true.mp (x.plain raw).2 c hc

theorem ne_lineEnd (oneLine : x.isOneLine) (hc : c ∈ x.text.toList) : c ≠ '\r' ∧ c ≠ '\n' := by
  simpa using List.all_eq_true.mp oneLine c hc

theorem mem_chars (h : c ∈ x.chars) : c = '"' ∨ c ∈ x.text.toList := by
  unfold chars at h
  split at h
  · simp only [List.mem_cons, List.mem_append, List.not_mem_nil, or_false] at h
    obtain h | h | h := h
    · exact Or.inl h
    · exact Or.inr (mem_doubled h)
    · exact Or.inl h
  · exact Or.inr h

/-- Something in a written cell is not blank: its text or the quotes around it. -/
theorem exists_not_isBlank (x : WrittenCell) : ∃ c ∈ x.chars, Text.isBlank c = false := by
  unfold chars
  split
  · exact ⟨'"', List.mem_cons_self, by decide⟩
  · rename_i raw
    exact x.exists_visible (eq_false_of_ne_true raw)

end WrittenCell

/-! ### Counting -/

section
variable {d e : Char}

/-- Between quotes nothing is counted, and behind doubled quotes the text is still between them. -/
theorem countOutside_doubled (e : Char) (s rest : List Char) :
    countOutside e true (doubled s ++ rest) = countOutside e true rest := by
  induction s with
  | nil => rfl
  | cons c s ih =>
    unfold doubled
    split
    · simp [countOutside, ih]
    · rename_i hc
      simp [countOutside, hc, ih]

/-- A text without quotes and without the character counts nothing. -/
theorem countOutside_plain {s : List Char} (h : ∀ c ∈ s, c ≠ '"' ∧ c ≠ e) (rest : List Char) :
    countOutside e false (s ++ rest) = countOutside e false rest := by
  induction s with
  | nil => rfl
  | cons c s ih =>
    obtain ⟨unquoted, other⟩ := h c List.mem_cons_self
    simp [countOutside, unquoted, other, ih fun c hc => h c (List.mem_cons_of_mem _ hc)]

theorem ne_quote_of_candidate (he : e ∈ candidates) : e ≠ '"' := by
  rintro rfl
  exact absurd he (by decide)

/-- A written cell counts nothing, and behind it the line is outside quotes again. -/
theorem countOutside_cell (he : e ∈ candidates) (x : WrittenCell) (rest : List Char) :
    countOutside e false (x.chars ++ rest) = countOutside e false rest := by
  unfold WrittenCell.chars
  split
  · simp [countOutside, countOutside_doubled]
  · rename_i raw
    refine countOutside_plain (fun c hc => ?_) rest
    obtain ⟨unquoted, other⟩ := x.bare (eq_false_of_ne_true raw) hc
    exact ⟨unquoted, fun heq => other (heq ▸ he)⟩

theorem countOutside_cells (hd : d ∈ candidates) (he : e ∈ candidates) (xs : List WrittenCell) :
    countOutside e false (Text.glue d (xs.map WrittenCell.chars)) = if d = e then xs.length - 1 else 0 := by
  induction xs with
  | nil => simp [Text.glue, countOutside]
  | cons x xs ih =>
    cases xs with
    | nil =>
      have := countOutside_cell he x []
      rw [List.append_nil] at this
      simp [Text.glue, this, countOutside]
    | cons y xs =>
      rw [List.map_cons] at ih ⊢
      rw [List.map_cons, Text.glue, ← List.map_cons, countOutside_cell he]
      simp only [countOutside, if_neg (ne_quote_of_candidate hd), List.map_cons, ih]
      by_cases hde : d = e <;> simp [hde]
      omega

end

/-! ### Lines -/

section
variable {d : Char} {r : WrittenRow} {rows : List WrittenRow}

theorem mem_line {c : Char} (h : c ∈ r.line d) : c = d ∨ c = '"' ∨ ∃ x ∈ r.cells, c ∈ x.text.toList := by
  obtain rfl | ⟨_, hpart, h⟩ := Text.mem_glue h
  · exact Or.inl rfl
  · obtain ⟨x, hx, rfl⟩ := List.mem_map.mp hpart
    exact Or.inr ((WrittenCell.mem_chars h).imp_right fun h => ⟨x, hx, h⟩)

/-- A line of cells without line ends has none. -/
theorem lineEnd_notMem_line (hd : d ∈ candidates) (oneLine : ∀ x ∈ r.cells, x.isOneLine) :
    '\r' ∉ r.line d ∧ '\n' ∉ r.line d := by
  constructor <;> intro h <;> obtain rfl | h | ⟨x, hx, h⟩ := mem_line h
  · exact absurd hd (by decide)
  · exact absurd h (by decide)
  · exact (x.ne_lineEnd (oneLine x hx) h).1 rfl
  · exact absurd hd (by decide)
  · exact absurd h (by decide)
  · exact (x.ne_lineEnd (oneLine x hx) h).2 rfl

/-- A line with a cell is not blank. -/
theorem line_not_blank (some : r.cells ≠ []) : (Text.trim (r.line d)).isEmpty = false := by
  have visible : ∃ c ∈ r.line d, Text.isBlank c = false := by
    rcases hcells : r.cells with _ | ⟨x, xs⟩
    · exact absurd hcells some
    · obtain ⟨c, hc, h⟩ := x.exists_not_isBlank
      refine ⟨c, ?_, h⟩
      obtain ⟨rest, hline⟩ := Text.glue_cons d x.chars (xs.map WrittenCell.chars)
      rw [WrittenRow.line, hcells, List.map_cons, hline]
      exact List.mem_append_left _ hc
  obtain ⟨c, hc, h⟩ := visible
  exact List.isEmpty_eq_false_iff.mpr (List.ne_nil_of_mem (Text.mem_trimEnds hc h))

/-- The bytes of a line, with the carriage return that a line feed takes with it. -/
def returned (d : Char) (r : WrittenRow) : List UInt8 :=
  Text.utf8Encode (r.line d) ++ if r.hasReturn then [0x0D] else []

theorem utf8Encode_row (d : Char) (r : WrittenRow) :
    Text.utf8Encode (r.line d ++ r.lineEnd) = returned d r ++ [0x0A] := by
  rw [Text.utf8Encode_append, returned, List.append_assoc, WrittenRow.lineEnd]
  cases r.hasReturn <;> rfl

theorem pieces_lines (hd : d ∈ candidates) (oneLine : ∀ r ∈ rows, ∀ x ∈ r.cells, x.isOneLine) :
    Text.pieces 0x0A (Text.utf8Encode (writtenLines d rows)) = rows.map (returned d) ++ [[]] := by
  induction rows with
  | nil => rfl
  | cons r rows ih =>
    have whole : (0x0A : UInt8) ∉ returned d r := fun h => by
      rw [returned, List.mem_append] at h
      obtain h | h := h
      · exact (lineEnd_notMem_line hd (oneLine r List.mem_cons_self)).2 (Text.byteChar_mem h (by decide))
      · split at h <;> simp at h
    rw [writtenLines, List.flatMap_cons, ← writtenLines, Text.utf8Encode_append, utf8Encode_row, List.append_assoc,
      List.singleton_append, Text.pieces_append, Text.pieces_of_notMem whole,
      ih fun r hr => oneLine r (List.mem_cons_of_mem _ hr)]
    rfl

theorem withoutReturn_returned (hd : d ∈ candidates) (oneLine : ∀ x ∈ r.cells, x.isOneLine) :
    withoutReturn (returned d r) = Text.utf8Encode (r.line d) := by
  unfold returned withoutReturn
  cases r.hasReturn with
  | true => simp
  | false =>
    simp only [Bool.false_eq_true, if_false, List.append_nil]
    refine if_neg fun h => (lineEnd_notMem_line hd oneLine).1 ?_
    exact Text.byteChar_mem (List.mem_of_getLast? h) (by decide)

/-- The lines of a text are the lines that were written. -/
theorem lines_writtenLines (hd : d ∈ candidates) (oneLine : ∀ r ∈ rows, ∀ x ∈ r.cells, x.isOneLine) :
    lines (Text.utf8Encode (writtenLines d rows)) = rows.map fun r => Text.utf8Encode (r.line d) := by
  simp only [lines, pieces_lines hd oneLine, List.dropLast_concat, List.getLast?_concat, Option.getD_some, if_true,
    List.append_nil, List.map_map]
  exact List.map_congr_left fun r hr => withoutReturn_returned hd (oneLine r hr)

theorem sample_writtenLines (hd : d ∈ candidates) (some : ∀ r ∈ rows, r.cells ≠ [])
    (oneLine : ∀ r ∈ rows, ∀ x ∈ r.cells, x.isOneLine) :
    sample (Text.utf8Encode (writtenLines d rows)) = (rows.take sampleLines).map (WrittenRow.line d) := by
  have decoded : (Text.utf8Decode? ∘ fun r : WrittenRow => Text.utf8Encode (r.line d)) = Option.some ∘ WrittenRow.line d :=
    funext fun r => Text.utf8Decode?_utf8Encode _
  rw [sample, lines_writtenLines hd oneLine, ← List.map_take, List.filterMap_map, decoded, ← List.filterMap_map,
    List.filterMap_some, List.filter_eq_self]
  intro line hline
  obtain ⟨r, hr, rfl⟩ := List.mem_map.mp hline
  rw [line_not_blank (some r (List.mem_of_mem_take hr))]
  rfl

end

/-! ### Detection -/

section
variable {d e : Char}

theorem score_zero (e : Char) (counts : List Nat) : score e (0 :: counts) = 0 := rfl

theorem score_pos (e : Char) {k : Nat} (hk : 0 < k) (counts : List Nat) : 0 < score e (k :: counts) := by
  simp only [score, if_neg (Nat.ne_of_gt hk)]
  split
  · omega
  · split <;> omega

theorem foldl_better_of_le {best : Char × Nat} {xs : List (Char × Nat)} (h : ∀ x ∈ xs, x.2 ≤ best.2) :
    xs.foldl better best = best := by
  induction xs with
  | nil => rfl
  | cons x xs ih =>
    rw [List.foldl_cons, better, if_neg (Nat.not_lt.mpr (h x List.mem_cons_self))]
    exact ih fun x hx => h x (List.mem_cons_of_mem _ hx)

/-- Of the candidates the only one with a score is the best. -/
theorem foldl_better_of_single {n : Nat} (hd : d ∈ candidates) (pos : 0 < n) :
    (candidates.map fun e => (e, if d = e then n else 0)).foldl better (',', 0) = (d, n) := by
  simp only [candidates, List.mem_cons, List.not_mem_nil, or_false] at hd
  rcases hd with rfl | rfl | rfl | rfl <;> simp [candidates, better, pos]

/-- If the first line that is looked at counts no candidate but one, that one is the delimiter. Whatever the lines
    behind it count, a candidate that the first line does not count has no score. -/
theorem detect?_of_first {bytes : List UInt8} {line : List Char} (hd : d ∈ candidates)
    (first : (sample bytes).head? = some line) (others : ∀ e ∈ candidates, d ≠ e → countOutside e false line = 0) :
    detect? bytes = some (if countOutside d false line = 0 then ',' else d) := by
  obtain ⟨more, sampled⟩ := List.head?_eq_some_iff.mp first
  let n := score d (countOutside d false line :: more.map (countOutside d false))
  have scores : (candidates.map fun e => (e, score e ((line :: more).map (countOutside e false)))) =
      candidates.map fun e => (e, if d = e then n else 0) := by
    refine List.map_congr_left fun e he => ?_
    split
    · rename_i hde
      rw [← hde, List.map_cons]
    · rename_i hde
      rw [List.map_cons, others e he hde, score_zero]
  simp only [detect?, sampled, scores, List.isEmpty_cons, Bool.false_eq_true, if_false]
  split
  · rename_i uncounted
    have unscored : n = 0 := uncounted ▸ score_zero d _
    rw [unscored, foldl_better_of_le]
    simp
  · rename_i counted
    have pos : 0 < n := score_pos d (Nat.pos_of_ne_zero counted) _
    rw [foldl_better_of_single hd pos]

/-- The delimiter that is found in a table with more than one column is the one that it was written with. A table with
    one column counts as delimited by commas, and one without rows has no delimiter. -/
theorem detect?_bytes (t : WrittenTable) (hd : d ∈ candidates) :
    detect? (t.bytes d) = if t.rows = [] then none else some (if t.width - 1 = 0 then ',' else d) := by
  have lines := sample_writtenLines hd (fun r => t.nonempty) t.oneLine
  rw [WrittenTable.bytes]
  rcases hrows : t.rows with _ | ⟨r, rows⟩
  · rw [hrows] at lines
    rw [detect?, lines]
    rfl
  · have width := t.rectangular r (hrows ▸ List.mem_cons_self)
    have counts := fun e (he : e ∈ candidates) => countOutside_cells hd he r.cells
    rw [hrows] at lines
    rw [detect?_of_first hd (by rw [lines]; rfl) fun e he hde => (counts e he).trans (if_neg hde), counts d hd, if_pos rfl,
      width, if_neg (List.cons_ne_nil _ _)]

end

end GridCatalog.Delimited
