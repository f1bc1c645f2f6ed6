import Mathlib.Data.List.TakeWhile
import GridCatalog.Proofs.DelimitedText

/-! Files with all cells between quotes, and what the delimiter that is found in them depends on.

    A candidate that the first line does not count has no score, and of a quoted row the first line counts only the
    delimiter (`countOutside_firstLine`). So the texts of the cells matter in one way only: a line feed in the first
    cell ends the first line in front of any delimiter, and the comma is taken instead (`quoted_texts_matter`). -/

namespace GridCatalog.Delimited

/-! ### Counting in a part of a line -/

section
variable {e : Char} {inQuotes : Bool} {s t : List Char}

theorem countOutside_le_append (e : Char) (inQuotes : Bool) (s t : List Char) :
    countOutside e inQuotes s ≤ countOutside e inQuotes (s ++ t) := by
  induction s generalizing inQuotes with
  | nil => exact Nat.zero_le _
  | cons c s ih =>
    simp only [List.cons_append, countOutside]
    split
    · exact ih _
    · exact Nat.add_le_add_left (ih _) _

theorem countOutside_le (h : s <+: t) : countOutside e inQuotes s ≤ countOutside e inQuotes t := by
  obtain ⟨rest, rfl⟩ := h
  exact countOutside_le_append e inQuotes s rest

/-- A carriage return is no candidate. -/
theorem countOutside_return (he : e ∈ candidates) (s : List Char) :
    countOutside e inQuotes (s ++ ['\r']) = countOutside e inQuotes s := by
  induction s generalizing inQuotes with
  | nil =>
    have : '\r' ≠ e := by
      rintro rfl
      exact absurd he (by decide)
    simp [countOutside, this]
  | cons c s ih => simp only [List.cons_append, countOutside, ih]

end

/-! ### The first line -/

/-- What stands in front of the first line feed. -/
def firstLine (text : List Char) : List Char := text.takeWhile (· ≠ '\n')

theorem firstLine_append_of_notMem {s : List Char} (h : '\n' ∉ s) (t : List Char) :
    firstLine (s ++ t) = s ++ firstLine t :=
  List.takeWhile_append_of_pos fun _ hc => decide_eq_true fun e => h (e ▸ hc)

theorem firstLine_append_of_mem {s : List Char} (h : '\n' ∈ s) (t : List Char) : firstLine (s ++ t) = firstLine s := by
  obtain ⟨front, back, rfl, whole⟩ := List.eq_append_cons_of_mem h
  rw [List.append_assoc, firstLine_append_of_notMem whole, firstLine_append_of_notMem whole]
  rfl

/-- A carriage return at the end of the bytes of a text is the last character of the text. -/
theorem withoutReturn_utf8Encode (s : List Char) :
    ∃ line, withoutReturn (Text.utf8Encode s) = Text.utf8Encode line ∧ (line = s ∨ s = line ++ ['\r']) := by
  unfold withoutReturn
  split
  · rename_i last
    have nonempty : s ≠ [] := by
      rintro rfl
      cases last
    obtain ⟨front, c, rfl⟩ : ∃ front c, s = front ++ [c] := ⟨_, _, (List.dropLast_concat_getLast nonempty).symm⟩
    have ends : (0x0D : UInt8) ∈ Text.utf8Encode [c] := by
      rw [Text.utf8Encode_append, List.getLast?_append] at last
      rcases hc : (Text.utf8Encode [c]).getLast? with _ | b
      · have := congrArg List.length (List.getLast?_eq_none_iff.mp hc)
        rw [Text.utf8Encode_singleton, String.length_utf8EncodeChar] at this
        exact absurd this (Nat.ne_of_gt c.utf8Size_pos)
      · rw [hc] at last
        cases last
        exact List.mem_of_getLast? hc
    obtain rfl : '\r' = c := List.mem_singleton.mp (Text.byteChar_mem ends (by decide))
    refine ⟨front, ?_, Or.inr rfl⟩
    rw [Text.utf8Encode_append]
    exact List.dropLast_concat
  · exact ⟨s, rfl, Or.inl rfl⟩

theorem lineFeed_notMem_firstLine (text : List Char) : '\n' ∉ firstLine text := fun h => by
  simpa using List.mem_takeWhile_imp h

theorem firstLine_cases (text : List Char) :
    firstLine text = text ∨ ∃ back, firstLine text ++ '\n' :: back = text := by
  have parts : firstLine text ++ text.dropWhile (· ≠ '\n') = text := List.takeWhile_append_dropWhile
  have stops := List.head?_dropWhile_not (· ≠ '\n') text
  rcases hrest : text.dropWhile (· ≠ '\n') with _ | ⟨c, back⟩
  · rw [hrest, List.append_nil] at parts
    exact Or.inl parts
  · rw [hrest] at parts stops
    obtain rfl : c = '\n' := by simpa using stops
    exact Or.inr ⟨back, parts⟩

/-- The first of the lines of a text; a text that ends without a line feed keeps a carriage return at its end. -/
theorem head?_lines {text : List Char} (nonempty : firstLine text ≠ []) :
    ∃ line, (lines (Text.utf8Encode text)).head? = some (Text.utf8Encode line) ∧
      (line = firstLine text ∨ firstLine text = line ++ ['\r']) := by
  have whole : (0x0A : UInt8) ∉ Text.utf8Encode (firstLine text) := fun h =>
    lineFeed_notMem_firstLine text (Text.byteChar_mem h (by decide))
  rcases firstLine_cases text with all | ⟨back, hback⟩
  · rw [all] at whole nonempty
    have visible : Text.utf8Encode text ≠ [] := fun h => nonempty (Text.utf8Encode_injective (t := []) h)
    refine ⟨text, ?_, Or.inl all.symm⟩
    simp [lines, Text.pieces_of_notMem whole, visible]
  · obtain ⟨line, unreturned, same⟩ := withoutReturn_utf8Encode (firstLine text)
    refine ⟨line, ?_, same⟩
    have bytes : Text.utf8Encode text = Text.utf8Encode (firstLine text) ++ 0x0A :: Text.utf8Encode back := by
      have := Text.utf8Encode_append (firstLine text) ('\n' :: back)
      rwa [hback] at this
    obtain ⟨part, parts, hparts⟩ := List.exists_cons_of_ne_nil (Text.pieces_ne_nil 0x0A (Text.utf8Encode back))
    rw [lines, bytes, Text.pieces_append, Text.pieces_of_notMem whole, hparts, List.singleton_append,
      List.dropLast_cons_of_ne_nil (List.cons_ne_nil _ _), List.map_cons, unreturned]
    rfl

/-- The first line is looked at if it is not blank. -/
theorem head?_sample {text : List Char} {c : Char} (hc : c ∈ firstLine text) (visible : Text.isBlank c = false) :
    ∃ line, (sample (Text.utf8Encode text)).head? = some line ∧
      (line = firstLine text ∨ firstLine text = line ++ ['\r']) := by
  obtain ⟨line, first, same⟩ := head?_lines (List.ne_nil_of_mem hc)
  refine ⟨line, ?_, same⟩
  obtain ⟨more, hlines⟩ := List.head?_eq_some_iff.mp first
  have inside : c ∈ line := by
    rcases same with rfl | same
    · exact hc
    · rw [same, List.mem_append, List.mem_singleton] at hc
      exact hc.resolve_right fun h => absurd (h ▸ visible) (by decide)
  have kept : (Text.trim line).isEmpty = false :=
    List.isEmpty_eq_false_iff.mpr (List.ne_nil_of_mem (Text.mem_trimEnds inside visible))
  simp [sample, hlines, sampleLines, Text.utf8Decode?_utf8Encode, kept]

/-! ### Rows -/

/-- The characters of a file with rows on lines, the last of which may be without its end. -/
def fileText (d : Char) (isEnded : Bool) : List WrittenRow → List Char
  | [] => []
  | [r] => r.line d ++ if isEnded then r.lineEnd else []
  | r :: next :: rows => r.line d ++ (r.lineEnd ++ fileText d isEnded (next :: rows))

section
variable {d e : Char} {r : WrittenRow} {x : WrittenCell}

theorem firstLine_lineEnd (r : WrittenRow) (rest : List Char) : firstLine (r.lineEnd ++ rest) <+: ['\r'] := by
  unfold WrittenRow.lineEnd
  split
  · exact List.prefix_refl _
  · exact List.nil_prefix

/-- The first row is at the start of a file, and its line ends behind it. -/
theorem exists_fileText (d : Char) (isEnded : Bool) (r : WrittenRow) (rows : List WrittenRow) :
    ∃ tail, fileText d isEnded (r :: rows) = r.line d ++ tail ∧ firstLine tail <+: ['\r'] := by
  rcases rows with _ | ⟨next, rows⟩
  · refine ⟨_, rfl, ?_⟩
    split
    · rw [← List.append_nil r.lineEnd]
      exact firstLine_lineEnd r []
    · exact List.nil_prefix
  · exact ⟨_, rfl, firstLine_lineEnd r _⟩

/-- No other candidate is counted in the first line, wherever that is cut off. -/
theorem countOutside_firstLine (hd : d ∈ candidates) (he : e ∈ candidates) (hde : d ≠ e) {tail : List Char}
    (ended : firstLine tail <+: ['\r']) : countOutside e false (firstLine (r.line d ++ tail)) = 0 := by
  have inside : firstLine (r.line d ++ tail) <+: r.line d ++ ['\r'] := by
    by_cases h : '\n' ∈ r.line d
    · rw [firstLine_append_of_mem h]
      exact (List.takeWhile_prefix _).trans (List.prefix_append _ _)
    · rw [firstLine_append_of_notMem h]
      exact (List.prefix_append_right_inj _).mpr ended
  have uncounted : countOutside e false (r.line d ++ ['\r']) = 0 := by
    rw [countOutside_return he, WrittenRow.line, countOutside_cells hd he, if_neg hde]
  exact Nat.le_zero.mp (uncounted ▸ countOutside_le inside)

theorem mem_doubled_of_mem {c : Char} {s : List Char} (h : c ∈ s) : c ∈ doubled s := by
  induction s with
  | nil => cases h
  | cons a s ih =>
    unfold doubled
    split <;> rename_i ha <;> rcases List.mem_cons.mp h with rfl | h
    · exact ha ▸ List.mem_cons_self
    · exact List.mem_cons_of_mem _ (List.mem_cons_of_mem _ (ih h))
    · exact List.mem_cons_self
    · exact List.mem_cons_of_mem _ (ih h)

theorem chars_of_quoted (quoted : x.isQuoted) : x.chars = '"' :: doubled x.text.toList ++ ['"'] := if_pos quoted

/-- A line that ends between the quotes of its first cell counts nothing. -/
theorem countOutside_broken (quoted : x.isQuoted) (broken : '\n' ∈ x.text.toList) (e : Char) (rest : List Char) :
    countOutside e false (firstLine (x.chars ++ rest)) = 0 := by
  have inside : firstLine (x.chars ++ rest) <+: '"' :: doubled x.text.toList := by
    have break_inside : '\n' ∈ '"' :: doubled x.text.toList := List.mem_cons_of_mem _ (mem_doubled_of_mem broken)
    rw [chars_of_quoted quoted, List.append_assoc, firstLine_append_of_mem break_inside]
    exact List.takeWhile_prefix _
  have uncounted : countOutside e false ('"' :: doubled x.text.toList) = 0 := by
    have := countOutside_doubled e x.text.toList []
    rw [List.append_nil] at this
    simpa [countOutside] using this
  exact Nat.le_zero.mp (uncounted ▸ countOutside_le inside)

/-- A line that goes on behind its first cell counts the delimiter there. -/
theorem countOutside_unbroken (hd : d ∈ candidates) (whole : '\n' ∉ x.text.toList) (rest : List Char) :
    0 < countOutside d false (firstLine (x.chars ++ d :: rest)) := by
  have delimiter_ne : '\n' ≠ d := by
    rintro rfl
    exact absurd hd (by decide)
  have unbroken : '\n' ∉ x.chars ++ [d] := fun h => by
    rcases List.mem_append.mp h with h | h
    · exact (WrittenCell.mem_chars h).elim (by decide) whole
    · exact delimiter_ne (List.mem_singleton.mp h)
  have counted : countOutside d false (x.chars ++ [d]) = 1 := by
    rw [countOutside_cell hd]
    simp [countOutside, ne_quote_of_candidate hd]
  rw [List.append_cons, firstLine_append_of_notMem unbroken]
  exact counted.ge.trans (countOutside_le_append ..)

/-- The delimiter of a file whose first row begins with a quoted cell and has another one depends on whether there is a
    line feed in that cell. -/
theorem detect?_fileText {y : WrittenCell} {cells : List WrittenCell} (hd : d ∈ candidates) (isEnded : Bool)
    (rows : List WrittenRow) (hcells : r.cells = x :: y :: cells) (quoted : x.isQuoted) :
    detect? (Text.utf8Encode (fileText d isEnded (r :: rows))) =
      some (if '\n' ∈ x.text.toList then ',' else d) := by
  obtain ⟨tail, text, ended⟩ := exists_fileText d isEnded r rows
  have begins : r.line d ++ tail = x.chars ++ d :: (Text.glue d ((y :: cells).map WrittenCell.chars) ++ tail) := by
    simp [WrittenRow.line, hcells, Text.glue]
  have quote_mem : '"' ∈ firstLine (r.line d ++ tail) := by
    rw [begins, chars_of_quoted quoted]
    exact List.mem_cons_self
  obtain ⟨line, first, same⟩ := head?_sample quote_mem (by decide)
  -- A carriage return at the end of the first line does not count.
  have counts : ∀ e ∈ candidates, countOutside e false line = countOutside e false (firstLine (r.line d ++ tail)) := by
    intro e he
    rcases same with same | same
    · rw [same]
    · rw [same, countOutside_return he]
  rw [text, detect?_of_first hd first fun e he hde => (counts e he).trans (countOutside_firstLine hd he hde ended),
    counts d hd, begins]
  by_cases broken : '\n' ∈ x.text.toList
  · rw [if_pos broken, if_pos (countOutside_broken quoted broken d _)]
  · rw [if_neg broken, if_neg (Nat.ne_of_gt (countOutside_unbroken hd broken _))]

end

/-! ### Files of quoted cells -/

/-- What a row has besides the texts of its cells, if those are quoted. -/
def WrittenRow.layout (r : WrittenRow) : Nat × Bool := (r.cells.length, r.hasReturn)

/-- Every cell is written between quotes, in two or more columns. -/
structure QuotedRows (rows : List WrittenRow) : Prop where
  wide : ∀ r ∈ rows, 2 ≤ r.cells.length
  quoted : ∀ r ∈ rows, ∀ x ∈ r.cells, x.isQuoted

/-- Whether there is a line feed in the first cell of the first row. -/
def breaksFirst (rows : List WrittenRow) : Bool :=
  (rows.head?.bind fun r => r.cells.head?).any fun x => x.text.toList.contains '\n'

theorem QuotedRows.detect?_eq {rows : List WrittenRow} (h : QuotedRows rows) {d : Char} (hd : d ∈ candidates)
    (isEnded : Bool) :
    detect? (Text.utf8Encode (fileText d isEnded rows)) =
      if rows = [] then none else some (if breaksFirst rows then ',' else d) := by
  rcases rows with _ | ⟨r, rows⟩
  · rfl
  · have wide := h.wide r List.mem_cons_self
    rcases hcells : r.cells with _ | ⟨x, _ | ⟨y, cells⟩⟩
    · simp [hcells] at wide
    · simp [hcells] at wide
    · have quoted := h.quoted r List.mem_cons_self x (hcells ▸ List.mem_cons_self)
      rw [detect?_fileText hd isEnded rows hcells quoted, if_neg (List.cons_ne_nil _ _)]
      simp [breaksFirst, hcells]

/-- Of two files that differ in the texts between the quotes, the same delimiter is found exactly if it is the comma or
    the first cell has a line feed in both or in neither. -/
theorem quoted_texts_matter {d : Char} (hd : d ∈ candidates) (isEnded : Bool) {rows rows' : List WrittenRow}
    (layout : rows.map WrittenRow.layout = rows'.map WrittenRow.layout) (h : QuotedRows rows) (h' : QuotedRows rows') :
    (detect? (Text.utf8Encode (fileText d isEnded rows)) = detect? (Text.utf8Encode (fileText d isEnded rows')) ↔
        d = ',' ∨ breaksFirst rows = breaksFirst rows') ∧
      detect? (Text.utf8Encode (fileText d isEnded rows)) =
        if rows = [] then none else some (if breaksFirst rows then ',' else d) := by
  refine ⟨?_, h.detect?_eq hd isEnded⟩
  rw [h.detect?_eq hd, h'.detect?_eq hd]
  rcases rows with _ | ⟨r, rows⟩
  · obtain rfl : rows' = [] := by simpa using layout
    simp
  · have some : rows' ≠ [] := by
      rintro rfl
      cases layout
    rw [if_neg (List.cons_ne_nil _ _), if_neg some]
    cases breaksFirst (r :: rows) <;> cases breaksFirst rows' <;> simp [eq_comm]

def quotedCell (text : String) : WrittenCell := ⟨text, true, fun raw => absurd raw (by decide)⟩

/-- Delimiters, quotes and a line feed behind the first cell do not matter. -/
theorem quoted_texts_matter_towns :
    let rows : List WrittenRow := [⟨[quotedCell "a,b", quotedCell "x\n,y"], false⟩, ⟨[quotedCell "\"|", quotedCell "2"], true⟩]
    let rows' : List WrittenRow := [⟨[quotedCell "town", quotedCell "size"], false⟩, ⟨[quotedCell "Rome", quotedCell "2"], true⟩]
    ';' ∈ candidates ∧ rows.map WrittenRow.layout = rows'.map WrittenRow.layout ∧ QuotedRows rows ∧ QuotedRows rows' ∧
      detect? (Text.utf8Encode (fileText ';' true rows)) = some ';' ∧
      detect? (Text.utf8Encode (fileText ';' true rows')) = some ';' := by
  intro rows rows'
  have hd : ';' ∈ candidates := by decide
  have layout : rows.map WrittenRow.layout = rows'.map WrittenRow.layout := rfl
  have h : QuotedRows rows := ⟨by decide, by decide⟩
  have h' : QuotedRows rows' := ⟨by decide, by decide⟩
  obtain ⟨same, found⟩ := quoted_texts_matter hd true layout h h'
  have found : detect? (Text.utf8Encode (fileText ';' true rows)) = some ';' := found
  exact ⟨hd, layout, h, h', found, (same.mpr (Or.inr rfl)).symm.trans found⟩

/-- A line feed in the first cell hides the delimiter. -/
theorem quoted_break_hides :
    let rows : List WrittenRow := [⟨[quotedCell "a\nb", quotedCell "c"], false⟩]
    let rows' : List WrittenRow := [⟨[quotedCell "a b", quotedCell "c"], false⟩]
    ';' ∈ candidates ∧ rows.map WrittenRow.layout = rows'.map WrittenRow.layout ∧ QuotedRows rows ∧ QuotedRows rows' ∧
      detect? (Text.utf8Encode (fileText ';' true rows)) = some ',' ∧
      detect? (Text.utf8Encode (fileText ';' true rows')) = some ';' := by
  intro rows rows'
  have hd : ';' ∈ candidates := by decide
  have h : QuotedRows rows := ⟨by decide, by decide⟩
  have h' : QuotedRows rows' := ⟨by decide, by decide⟩
  exact ⟨hd, rfl, h, h', h.detect?_eq hd true, h'.detect?_eq hd true⟩

end GridCatalog.Delimited
