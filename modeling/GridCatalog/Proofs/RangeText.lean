import Mathlib.Data.List.Basic
import Mathlib.Data.List.TakeWhile
import Mathlib.Data.Nat.Digits.Defs
import GridCatalog.CellRange

/-! Which texts are ranges, and which range a text is.

    A side of a range is a run of letters, which number its column in bijective base 26, and a run of
    digits, which number its row (`Names`). A text is a range if it is two sides with a colon between them
    and their numbers fit a machine word (`ofText?_eq_some_iff`). What is read can be written and read
    again, so each range has one text that stands for all of its texts. -/

namespace GridCatalog.CellRange

/-- The number of a letter in either case; `A` is 1 and `Z` is 26. -/
def letterNumber (c : Char) : Nat := "ABCDEFGHIJKLMNOPQRSTUVWXYZ".toList.idxOf c.toUpper + 1

/-- The number that a run of letters stands for in bijective base 26. -/
def columnNumber (letters : List Char) : Nat := Nat.ofDigits 26 (letters.reverse.map letterNumber)

/-- The number that a run of digits stands for. -/
def rowNumber (digits : List Char) : Nat := Nat.ofDigitChars 10 digits 0

/-- Letters and digits name a column and a row, both counted from 1; without digits there is no row. -/
structure Names (letters digits : List Char) (column : Nat) (row : Option Nat) : Prop where
  nonempty : letters ≠ []
  alphabetic : ∀ c ∈ letters, c.isAlpha
  decimal : ∀ c ∈ digits, c.isDigit
  column : columnNumber letters = column + 1 ∧ column + 1 < Text.natBound64
  row : match row with
    | none => digits = []
    | some n => digits ≠ [] ∧ rowNumber digits = n + 1 ∧ n + 1 < Text.natBound64

/-- The ends of a range are in order and can be numbered from 1 in a machine word. -/
structure Addressable (r : CellRange) : Prop where
  columns : r.firstColumn ≤ r.lastColumn
  lastColumn : r.lastColumn + 1 < Text.natBound64
  firstRow : r.firstRow + 1 < Text.natBound64
  lastRow : ∀ last ∈ r.lastRow, r.firstRow ≤ last ∧ last + 1 < Text.natBound64

/-! ### Letters -/

theorem of_toNat_lt {p : Char → Prop} (table : ∀ n < 128, p (Char.ofNat n)) {c : Char} (h : c.toNat < 128) : p c := by
  rw [← Char.ofNat_toNat c]
  exact table c.toNat h

/-- What holds of the characters below 128 holds of a letter or a digit. -/
theorem of_ascii {p : Char → Prop} (table : ∀ n < 128, p (Char.ofNat n)) {c : Char} (h : c.isAlphanum) : p c := by
  have small : c.toNat < 128 := by
    change (decide (c.val ≥ 'A'.val ∧ c.val ≤ 'Z'.val) || (c.val ≥ 'a'.val && c.val ≤ 'z'.val) ||
      (c.val ≥ '0'.val && c.val ≤ '9'.val)) = true at h
    simp [UInt32.le_iff_toNat_le] at h
    omega
  exact of_toNat_lt table small

theorem isAlphanum_of_isAlpha {c : Char} (h : c.isAlpha) : c.isAlphanum := by rw [Char.isAlphanum, h, Bool.true_or]

theorem isAlphanum_of_isDigit {c : Char} (h : c.isDigit) : c.isAlphanum := by rw [Char.isAlphanum, h, Bool.or_true]

/-- A letter or a digit is no blank, a digit is no letter, and the value of a letter is its number, at most 26. -/
theorem alphanum_cases {c : Char} (h : c.isAlphanum) : Text.isBlank c = false ∧ (c.isDigit → c.isAlpha = false) ∧
    (c.isAlpha → letterValue c = letterNumber c ∧ letterValue c ≤ 26) :=
  of_ascii (p := fun c => c.isAlphanum → Text.isBlank c = false ∧ (c.isDigit → c.isAlpha = false) ∧
    (c.isAlpha → letterValue c = letterNumber c ∧ letterValue c ≤ 26)) (by decide +kernel) h h

theorem isBlank_of_isAlphanum {c : Char} (h : c.isAlphanum) : Text.isBlank c = false := (alphanum_cases h).1

theorem isAlpha_of_isDigit {c : Char} (h : c.isDigit) : c.isAlpha = false :=
  (alphanum_cases (isAlphanum_of_isDigit h)).2.1 h

theorem letterValue_eq {c : Char} (h : c.isAlpha) : letterValue c = letterNumber c :=
  ((alphanum_cases (isAlphanum_of_isAlpha h)).2.2 h).1

theorem letterValue_le {c : Char} (h : c.isAlpha) : letterValue c ≤ 26 :=
  ((alphanum_cases (isAlphanum_of_isAlpha h)).2.2 h).2

theorem lettersValue_eq {letters : List Char} (h : ∀ c ∈ letters, c.isAlpha) :
    lettersValue letters = columnNumber letters := by
  rw [columnNumber, Nat.ofDigits_eq_foldr, List.map_reverse, List.foldr_reverse, List.foldl_map, lettersValue]
  refine List.foldl_ext _ _ _ fun n c hc => ?_
  rw [letterValue_eq (h c hc), Nat.cast_id, Nat.add_comm]

theorem letter_of_lt {n : Nat} (h : n < 26) : (letter n).isAlpha ∧ letterValue (letter n) = n + 1 := by
  have table : ∀ n < 26, (letter n).isAlpha ∧ letterValue (letter n) = n + 1 := by decide +kernel
  exact table n h

theorem isAlpha_of_mem_columnLetters {column : Nat} {c : Char} (h : c ∈ columnLetters column) : c.isAlpha := by
  fun_induction columnLetters column with
  | case1 column hlt =>
    rw [List.mem_singleton.mp h]
    exact (letter_of_lt hlt).1
  | case2 column hge ih =>
    rcases List.mem_append.mp h with h | h
    · exact ih h
    · rw [List.mem_singleton.mp h]
      exact (letter_of_lt (Nat.mod_lt _ (by decide))).1

theorem lettersValue_append (letters : List Char) (c : Char) :
    lettersValue (letters ++ [c]) = 26 * lettersValue letters + letterValue c :=
  List.foldl_concat _ _ _ _

/-- A column is read back from its letters. -/
theorem lettersValue_columnLetters (column : Nat) : lettersValue (columnLetters column) = column + 1 := by
  fun_induction columnLetters column with
  | case1 column hlt =>
    rw [← List.nil_append [_], lettersValue_append, (letter_of_lt hlt).2]
    exact Nat.zero_add (column + 1)
  | case2 column hge ih =>
    have hmod := Nat.mod_lt column (by decide : 0 < 26)
    rw [lettersValue_append, ih, (letter_of_lt hmod).2]
    omega

theorem columnLetters_ne_nil (column : Nat) : columnLetters column ≠ [] := by
  intro h
  have numbered := lettersValue_columnLetters column
  rw [h] at numbered
  cases numbered

/-! ### Sides of a range -/

theorem while_of_head? {p : Char → Bool} {s : List Char} (h : ∀ c ∈ s.head?, p c = false) :
    s.takeWhile p = [] ∧ s.dropWhile p = s := by
  cases s with
  | nil => exact ⟨rfl, rfl⟩
  | cons c s => simp [h c rfl]

/-- A side of a range ends where neither a letter nor a digit follows. -/
theorem corner_append {letters digits rest : List Char} (alphabetic : ∀ c ∈ letters, c.isAlpha)
    (decimal : ∀ c ∈ digits, c.isDigit) (ends : ∀ c ∈ rest.head?, c.isAlpha = false ∧ c.isDigit = false) :
    corner (letters ++ digits ++ rest) = ⟨letters, digits, rest⟩ := by
  have after_letters : ∀ c ∈ (digits ++ rest).head?, c.isAlpha = false := by
    cases digits with
    | nil => exact fun c hc => (ends c hc).1
    | cons d digits =>
      rintro _ ⟨⟩
      exact isAlpha_of_isDigit (decimal d List.mem_cons_self)
  have letters_end := while_of_head? after_letters
  have digits_end := while_of_head? fun c hc => (ends c hc).2
  rw [corner, List.append_assoc, List.takeWhile_append_of_pos alphabetic, List.dropWhile_append_of_pos alphabetic,
    letters_end.1, letters_end.2, List.takeWhile_append_of_pos decimal, List.dropWhile_append_of_pos decimal,
    digits_end.1, digits_end.2, List.append_nil, List.append_nil]

theorem append_corner (s : List Char) : (corner s).letters ++ (corner s).digits ++ (corner s).rest = s := by
  rw [corner, List.append_assoc, List.takeWhile_append_dropWhile, List.takeWhile_append_dropWhile]

theorem isAlpha_of_mem_corner {s : List Char} {c : Char} (h : c ∈ (corner s).letters) : c.isAlpha :=
  List.mem_takeWhile_imp h

theorem isDigit_of_mem_corner {s : List Char} {c : Char} (h : c ∈ (corner s).digits) : c.isDigit :=
  List.mem_takeWhile_imp h

theorem fromOne?_eq_some {n m : Nat} : fromOne? n = some m ↔ n = m + 1 ∧ m + 1 < Text.natBound64 := by
  simp only [fromOne?, Bool.and_eq_true, decide_eq_true_eq, Option.ite_none_right_eq_some, Option.some.injEq]
  omega

theorem row?_eq_some {digits : List Char} (decimal : ∀ c ∈ digits, c.isDigit) {row : Option Nat} :
    row? digits = some row ↔ match row with
      | none => digits = []
      | some n => digits ≠ [] ∧ rowNumber digits = n + 1 ∧ n + 1 < Text.natBound64 := by
  cases digits with
  | nil => cases row <;> simp [row?]
  | cons c digits =>
    have numeral : Text.numeral? (c :: digits) = some (rowNumber (c :: digits)) :=
      if_neg (by simpa using ⟨decimal c List.mem_cons_self, fun d hd => decimal d (List.mem_cons_of_mem _ hd)⟩)
    rw [row?, if_neg (by simp), numeral, Option.bind_some]
    cases row with
    | none => simp
    | some n => simp [fromOne?_eq_some]

/-- A side of a range is read as the column and the row that its letters and digits name. -/
theorem position?_eq_some {letters digits rest : List Char} (alphabetic : ∀ c ∈ letters, c.isAlpha)
    (decimal : ∀ c ∈ digits, c.isDigit) {column : Nat} {row : Option Nat} :
    Corner.position? ⟨letters, digits, rest⟩ = some (column, row) ↔ Names letters digits column row := by
  have split : Corner.position? ⟨letters, digits, rest⟩ = some (column, row) ↔
      letters ≠ [] ∧ fromOne? (lettersValue letters) = some column ∧ row? digits = some row := by
    simp only [Corner.position?]
    cases letters with
    | nil => simp
    | cons c letters => simp [Option.bind_eq_some_iff]
  rw [split, fromOne?_eq_some, lettersValue_eq alphabetic, row?_eq_some decimal]
  constructor
  · rintro ⟨nonempty, column, row⟩
    exact ⟨nonempty, alphabetic, decimal, column, row⟩
  · rintro ⟨nonempty, -, -, column, row⟩
    exact ⟨nonempty, column, row⟩

/-! ### Reading -/

variable {text : String} {r : CellRange}

/-- A text is a range with the given ends: it is two sides with a colon between them, and nothing else but blanks. -/
def WrittenAs (r : CellRange) (text : String) : Prop :=
  ∃ letters digits letters' digits' row, Text.trim text.toList = letters ++ digits ++ ':' :: (letters' ++ digits') ∧
    Names letters digits r.firstColumn row ∧ Names letters' digits' r.lastColumn r.lastRow ∧
    r.firstColumn ≤ r.lastColumn ∧ (∀ first ∈ row, ∀ last ∈ r.lastRow, first ≤ last) ∧ r.firstRow = row.getD 0

theorem rowsInOrder_iff {first last : Option Nat} :
    rowsInOrder first last ↔ ∀ n ∈ first, ∀ m ∈ last, n ≤ m := by
  cases first <;> cases last <;> simp [rowsInOrder]

theorem between?_eq_some {first last : Nat × Option Nat} :
    between? first last = some r ↔ first.1 = r.firstColumn ∧ last = (r.lastColumn, r.lastRow) ∧
      r.firstColumn ≤ r.lastColumn ∧ (∀ n ∈ first.2, ∀ m ∈ r.lastRow, n ≤ m) ∧ r.firstRow = first.2.getD 0 := by
  obtain ⟨column, row⟩ := first
  obtain ⟨column', row'⟩ := last
  obtain ⟨firstColumn, lastColumn, firstRow, lastRow⟩ := r
  rw [between?]
  simp only [Bool.and_eq_true, decide_eq_true_eq, rowsInOrder_iff, Option.ite_none_right_eq_some, Option.some.injEq,
    mk.injEq, Prod.mk.injEq]
  constructor
  · rintro ⟨⟨columns, rows⟩, rfl, rfl, rfl, rfl⟩
    exact ⟨rfl, ⟨rfl, rfl⟩, columns, rows, rfl⟩
  · rintro ⟨rfl, ⟨rfl, rfl⟩, columns, rows, rfl⟩
    exact ⟨⟨columns, rows⟩, rfl, rfl, rfl, rfl⟩

theorem ofText?_inv (h : ofText? text = some r) :
    ∃ more, (corner (Text.trim text.toList)).rest = ':' :: more ∧ (corner more).rest = [] ∧
      ∃ first last, (corner (Text.trim text.toList)).position? = some first ∧
        (corner more).position? = some last ∧ between? first last = some r := by
  unfold ofText? at h
  dsimp only at h
  split at h
  · rename_i more hmore
    split at h
    · rename_i hend
      obtain ⟨first, hfirst, h⟩ := Option.bind_eq_some_iff.mp h
      obtain ⟨last, hlast, h⟩ := Option.bind_eq_some_iff.mp h
      exact ⟨more, hmore, List.isEmpty_iff.mp hend, first, last, hfirst, hlast, h⟩
    · cases h
  · cases h

theorem ofText?_eq_some_iff : ofText? text = some r ↔ r.WrittenAs text := by
  constructor
  · intro h
    obtain ⟨more, hmore, hend, ⟨column, row⟩, last, hfirst, hlast, h⟩ := ofText?_inv h
    obtain ⟨rfl, rfl, columns, rows, firstRow⟩ := between?_eq_some.mp h
    have start := append_corner (Text.trim text.toList)
    have stop := append_corner more
    rw [hmore, ← stop, hend, List.append_nil] at start
    refine ⟨_, _, _, _, row, start.symm, ?_, ?_, columns, rows, firstRow⟩
    · exact (position?_eq_some (fun _ => isAlpha_of_mem_corner) fun _ => isDigit_of_mem_corner).mp hfirst
    · exact (position?_eq_some (fun _ => isAlpha_of_mem_corner) fun _ => isDigit_of_mem_corner).mp hlast
  · rintro ⟨letters, digits, letters', digits', row, htext, first, last, columns, rows, firstRow⟩
    have start : corner (Text.trim text.toList) = ⟨letters, digits, ':' :: (letters' ++ digits')⟩ := by
      rw [htext]
      refine corner_append first.alphabetic first.decimal ?_
      rintro _ ⟨⟩
      exact ⟨rfl, rfl⟩
    have stop : corner (letters' ++ digits') = ⟨letters', digits', []⟩ := by
      rw [← List.append_nil (letters' ++ digits')]
      exact corner_append last.alphabetic last.decimal fun c hc => nomatch hc
    have first_read : Corner.position? ⟨letters, digits, ':' :: (letters' ++ digits')⟩ = some (r.firstColumn, row) :=
      (position?_eq_some first.alphabetic first.decimal).mpr first
    have last_read : Corner.position? ⟨letters', digits', []⟩ = some (r.lastColumn, r.lastRow) :=
      (position?_eq_some last.alphabetic last.decimal).mpr last
    simp only [ofText?, start, stop, first_read, last_read, List.isEmpty_nil, if_true, Option.bind_eq_bind, Option.bind_some]
    exact between?_eq_some.mpr ⟨rfl, rfl, columns, rows, firstRow⟩

theorem WrittenAs.addressable (h : r.WrittenAs text) : r.Addressable := by
  obtain ⟨letters, digits, letters', digits', row, -, first, last, columns, rows, firstRow⟩ := h
  refine ⟨columns, last.column.2, ?_, ?_⟩
  · cases row with
    | none => rw [firstRow]; decide
    | some n => rw [firstRow]; exact first.row.2.2
  · intro n hn
    have names := last.row
    rw [hn] at names
    refine ⟨?_, names.2.2⟩
    cases row with
    | none => rw [firstRow]; exact Nat.zero_le n
    | some m => rw [firstRow]; exact rows m rfl n hn

/-! ### Writing -/

/-- The digits of a row, if there is one. -/
def rowDigits (row : Option Nat) : List Char := row.elim [] fun n => Text.digits (n + 1)

/-- The first row as far as it is written. -/
def writtenRow (r : CellRange) : Option Nat :=
  if r.lastRow.isSome || 0 < r.firstRow then some r.firstRow else none

theorem mem_writtenRow {n : Nat} (h : n ∈ r.writtenRow) : n = r.firstRow := by
  unfold writtenRow at h
  split at h <;> cases h
  rfl

theorem getD_writtenRow (r : CellRange) : r.writtenRow.getD 0 = r.firstRow := by
  unfold writtenRow
  split <;> rename_i h
  · rfl
  · simp at h
    exact h.2.symm

theorem toList_toText (r : CellRange) : r.toText.toList =
    columnLetters r.firstColumn ++ rowDigits r.writtenRow ++ ':' :: (columnLetters r.lastColumn ++ rowDigits r.lastRow) := by
  have first : rowDigits r.writtenRow =
      if r.lastRow.isSome || 0 < r.firstRow then Text.digits (r.firstRow + 1) else [] := by
    unfold writtenRow
    split <;> rfl
  rw [toText, String.toList_ofList, first]
  cases r.lastRow <;> rfl

theorem names_written {column : Nat} {row : Option Nat} (hcolumn : column + 1 < Text.natBound64)
    (hrow : ∀ n ∈ row, n + 1 < Text.natBound64) : Names (columnLetters column) (rowDigits row) column row where
  nonempty := columnLetters_ne_nil column
  alphabetic _ := isAlpha_of_mem_columnLetters
  decimal c hc := by
    cases row with
    | none => cases hc
    | some n => exact Nat.isDigit_of_mem_toDigits (by decide) (by decide) hc
  column := by
    rw [← lettersValue_eq fun _ => isAlpha_of_mem_columnLetters]
    exact ⟨lettersValue_columnLetters column, hcolumn⟩
  row := by
    cases row with
    | none => rfl
    | some n => exact ⟨Text.digits_ne_nil _, Text.ofDigitChars_digits _, hrow n rfl⟩

theorem isBlank_of_names {letters digits : List Char} {column : Nat} {row : Option Nat}
    (h : Names letters digits column row) {c : Char} (hc : c ∈ letters ++ digits) : Text.isBlank c = false := by
  rcases List.mem_append.mp hc with hc | hc
  · exact isBlank_of_isAlphanum (isAlphanum_of_isAlpha (h.alphabetic c hc))
  · exact isBlank_of_isAlphanum (isAlphanum_of_isDigit (h.decimal c hc))

/-- Two sides with a colon between them have no blanks at their ends. -/
theorem trim_sides {letters digits letters' digits' : List Char} {column column' : Nat} {row row' : Option Nat}
    (first : Names letters digits column row) (last : Names letters' digits' column' row') :
    Text.trim (letters ++ digits ++ ':' :: (letters' ++ digits')) =
      letters ++ digits ++ ':' :: (letters' ++ digits') := by
  refine Text.trimEnds_eq_self (fun c hc => isBlank_of_names first ?_) fun c hc => isBlank_of_names last ?_
  · rw [List.head?_append_of_ne_nil _ (by simp [first.nonempty])] at hc
    exact List.mem_of_mem_head? hc
  · rw [List.getLast?_append_cons, List.getLast?_cons_of_ne_nil (by simp [last.nonempty])] at hc
    exact List.mem_of_getLast? hc

/-- A range is read back from its text. -/
theorem Addressable.ofText?_toText (h : r.Addressable) : ofText? r.toText = some r := by
  have first : Names (columnLetters r.firstColumn) (rowDigits r.writtenRow) r.firstColumn r.writtenRow := by
    refine names_written (Nat.lt_of_le_of_lt (Nat.succ_le_succ h.columns) h.lastColumn) fun n hn => ?_
    rw [mem_writtenRow hn]
    exact h.firstRow
  have last : Names (columnLetters r.lastColumn) (rowDigits r.lastRow) r.lastColumn r.lastRow :=
    names_written h.lastColumn fun n hn => (h.lastRow n hn).2
  refine ofText?_eq_some_iff.mpr ⟨_, _, _, _, r.writtenRow, ?_, first, last, h.columns, fun n hn m hm => ?_,
    (getD_writtenRow r).symm⟩
  · rw [toList_toText, trim_sides first last]
  · rw [mem_writtenRow hn]
    exact (h.lastRow m hm).1

/-! ### Machine words -/

/-- The sum of two machine words, if it fits one. -/
def add? (a b : UInt64) : Option UInt64 := if a.toNat + b.toNat < Text.natBound64 then some (a + b) else none

/-- The product of two machine words, if it fits one. -/
def mul? (a b : UInt64) : Option UInt64 := if a.toNat * b.toNat < Text.natBound64 then some (a * b) else none

/-- A number of digits of a base, read in machine words; a step that does not fit one fails. -/
def word? (base : UInt64) (ds : List UInt64) : Option UInt64 :=
  ds.foldlM (fun n d => (mul? base n).bind fun m => add? m d) 0

/-- A word with the value of `n`, wrapped around, is right if and only if `n` fits. -/
theorem wrapped_eq_iff {a c : UInt64} {n : Nat} (wraps : a.toNat = n % Text.natBound64) :
    n < Text.natBound64 ∧ a = c ↔ c.toNat = n := by
  constructor
  · rintro ⟨fits, rfl⟩
    rw [wraps, Nat.mod_eq_of_lt fits]
  · rintro rfl
    have fits : c.toNat < Text.natBound64 := c.toNat_lt
    exact ⟨fits, UInt64.toNat_inj.mp (wraps.trans (Nat.mod_eq_of_lt fits))⟩

theorem add?_eq_some {a b c : UInt64} : add? a b = some c ↔ c.toNat = a.toNat + b.toNat := by
  rw [add?, Option.ite_none_right_eq_some, Option.some.injEq]
  exact wrapped_eq_iff (UInt64.toNat_add a b)

theorem mul?_eq_some {a b c : UInt64} : mul? a b = some c ↔ c.toNat = a.toNat * b.toNat := by
  rw [mul?, Option.ite_none_right_eq_some, Option.some.injEq]
  exact wrapped_eq_iff (UInt64.toNat_mul a b)

theorem exists_word {n : Nat} {m : UInt64} (h : n ≤ m.toNat) : ∃ w : UInt64, w.toNat = n :=
  ⟨.ofNat n, UInt64.toNat_ofNat_of_lt (Nat.lt_of_le_of_lt h m.toNat_lt)⟩

theorem digit?_eq_some {base n d m : UInt64} :
    ((mul? base n).bind fun k => add? k d) = some m ↔ m.toNat = base.toNat * n.toNat + d.toNat := by
  rw [Option.bind_eq_some_iff]
  simp only [mul?_eq_some, add?_eq_some]
  constructor
  · rintro ⟨k, hk, hm⟩
    rw [hm, hk]
  · intro h
    obtain ⟨k, hk⟩ := exists_word (m := m) (n := base.toNat * n.toNat) (by omega)
    exact ⟨k, hk, by rw [h, hk]⟩

theorem le_foldl_digits {base : Nat} (hbase : 1 ≤ base) (ds : List UInt64) (n : Nat) :
    n ≤ ds.foldl (fun n d => base * n + d.toNat) n := by
  induction ds generalizing n with
  | nil => exact Nat.le_refl n
  | cons d ds ih =>
    have : n ≤ base * n := Nat.le_mul_of_pos_left n hbase
    exact Nat.le_trans (by omega) (ih (base * n + d.toNat))

/-- Reading in machine words gives the number that the digits stand for, and fails only if that fits no word. -/
theorem word?_eq_some {base m : UInt64} (hbase : 1 ≤ base.toNat) (ds : List UInt64) :
    word? base ds = some m ↔ m.toNat = ds.foldl (fun n d => base.toNat * n + d.toNat) 0 := by
  have from_word (n : UInt64) : ds.foldlM (fun n d => (mul? base n).bind fun k => add? k d) n = some m ↔
      m.toNat = ds.foldl (fun n d => base.toNat * n + d.toNat) n.toNat := by
    induction ds generalizing n with
    | nil =>
      rw [List.foldlM_nil, List.foldl_nil, Option.pure_def, Option.some.injEq, ← UInt64.toNat_inj, eq_comm]
    | cons d ds ih =>
      rw [List.foldlM_cons, List.foldl_cons, Option.bind_eq_bind, Option.bind_eq_some_iff]
      simp only [digit?_eq_some, ih]
      constructor
      · rintro ⟨k, hk, hm⟩
        rw [hm, hk]
      · intro h
        -- Later digits only make a number larger, so a number that fits has fitted all along.
        obtain ⟨k, hk⟩ := exists_word (h ▸ le_foldl_digits hbase ds _)
        exact ⟨k, hk, by rw [h, hk]⟩
  exact from_word 0

/-- The number of a run of letters, read in machine words. -/
def columnWord? (letters : List Char) : Option UInt64 := word? 26 (letters.map fun c => .ofNat (letterValue c))

/-- The number of a run of digits, read in machine words. -/
def rowWord? (digits : List Char) : Option UInt64 := word? 10 (digits.map fun c => .ofNat (c.toNat - '0'.toNat))

theorem foldl_words {base : Nat} {value : Char → Nat} {cs : List Char} (small : ∀ c ∈ cs, value c < Text.natBound64) :
    cs.foldl (fun n c => base * n + (UInt64.ofNat (value c)).toNat) 0 = cs.foldl (fun n c => base * n + value c) 0 := by
  refine List.foldl_ext _ _ 0 fun n c hc => ?_
  rw [UInt64.toNat_ofNat_of_lt' (small c hc)]

theorem columnWord?_eq_some {letters : List Char} (alphabetic : ∀ c ∈ letters, c.isAlpha) {n : UInt64} :
    columnWord? letters = some n ↔ n.toNat = columnNumber letters := by
  have small : ∀ c ∈ letters, letterValue c < Text.natBound64 := fun c hc =>
    Nat.lt_of_le_of_lt (letterValue_le (alphabetic c hc)) (by decide)
  rw [columnWord?, word?_eq_some (by decide), List.foldl_map, foldl_words small, ← lettersValue_eq alphabetic]
  rfl

theorem rowWord?_eq_some {digits : List Char} (decimal : ∀ c ∈ digits, c.isDigit) {n : UInt64} :
    rowWord? digits = some n ↔ n.toNat = rowNumber digits := by
  have small : ∀ c ∈ digits, c.toNat - '0'.toNat < Text.natBound64 := fun c hc =>
    of_ascii (p := fun c => c.toNat - '0'.toNat < Text.natBound64) (by decide) (isAlphanum_of_isDigit (decimal c hc))
  rw [rowWord?, word?_eq_some (by decide), List.foldl_map, foldl_words small]
  rfl

theorem columnNumber_pos {letters : List Char} (nonempty : letters ≠ []) (alphabetic : ∀ c ∈ letters, c.isAlpha) :
    1 ≤ columnNumber letters := by
  rw [← lettersValue_eq alphabetic, ← List.dropLast_append_getLast nonempty, lettersValue_append, letterValue]
  omega

/-- A text is a range exactly if it is written as one, and reading its numbers never leaves the machine words.
    A range is read back from its text, so two texts are the same range exactly if that is written in the same way. -/
theorem text_exact :
    (∀ text r, ofText? text = some r ↔ r.WrittenAs text) ∧
    (∀ letters n, letters ≠ [] → (∀ c ∈ letters, c.isAlpha) →
      (columnWord? letters = some n ↔ n.toNat = columnNumber letters) ∧ 1 ≤ columnNumber letters) ∧
    (∀ digits n, (∀ c ∈ digits, c.isDigit) → (rowWord? digits = some n ↔ n.toNat = rowNumber digits)) ∧
    (∀ r, Addressable r → ofText? r.toText = some r) ∧
    ∀ text r, ofText? text = some r → r.Addressable ∧ ofText? r.toText = some r ∧
      ∀ text' r', ofText? text' = some r' → (r.toText = r'.toText ↔ r = r') := by
  refine ⟨fun _ _ => ofText?_eq_some_iff, fun letters n nonempty alphabetic => ?_, fun digits n decimal => ?_,
    fun r h => h.ofText?_toText, fun text r h => ?_⟩
  · exact ⟨columnWord?_eq_some alphabetic, columnNumber_pos nonempty alphabetic⟩
  · exact rowWord?_eq_some decimal
  · have addressable := (ofText?_eq_some_iff.mp h).addressable
    refine ⟨addressable, addressable.ofText?_toText, fun text' r' h' => ⟨fun same => ?_, congrArg toText⟩⟩
    have read := (ofText?_eq_some_iff.mp h').addressable.ofText?_toText
    rw [← same, addressable.ofText?_toText] at read
    exact Option.some.inj read

/-- The last column and the last row that can be named, and the first column that cannot. -/
theorem text_exact_largest :
    let r : CellRange := ⟨1, 18446744073709551614, 1, some 18446744073709551614⟩
    ofText? "\tb2:gkgwbylwrxtlpo018446744073709551615 " = some r ∧ ofText? r.toText = some r ∧
      columnWord? "GKGWBYLWRXTLPP".toList = none := by
  intro r
  have written : r.WrittenAs "\tb2:gkgwbylwrxtlpo018446744073709551615 " := by
    refine ⟨"b".toList, "2".toList, "gkgwbylwrxtlpo".toList, "018446744073709551615".toList, some 1, by decide +kernel, ?_, ?_,
      Nat.le_of_ble_eq_true rfl, ?_, rfl⟩
    · exact ⟨by simp, List.all_eq_true.mp rfl, List.all_eq_true.mp rfl, by decide +kernel, by decide +kernel⟩
    · exact ⟨by simp, List.all_eq_true.mp rfl, List.all_eq_true.mp rfl, by decide +kernel, by decide +kernel⟩
    · rintro _ ⟨⟩ _ ⟨⟩
      exact Nat.le_of_ble_eq_true rfl
  have read := (text_exact.1 _ r).mpr written
  refine ⟨read, (text_exact.2.2.2.2 _ r read).2.1, ?_⟩
  refine Option.eq_none_iff_forall_ne_some.mpr fun n hn => ?_
  have too_large : columnNumber "GKGWBYLWRXTLPP".toList = Text.natBound64 := by decide +kernel
  have := (text_exact.2.1 _ n (by simp) (List.all_eq_true.mp rfl)).1.mp hn
  exact Nat.ne_of_lt n.toNat_lt (this.trans too_large)

end GridCatalog.CellRange
