import GridCatalog.CommandLine.ColumnSpec
import GridCatalog.Proofs.Elementwise
import GridCatalog.Proofs.LetterCase
import GridCatalog.Proofs.Numerals
import GridCatalog.Proofs.Shape

/-! Which texts are column specs, and which spec a text is.

    A text is cut at its colons and each part is stripped of blanks; what the parts have to be then is said part by part
    (`Spells`, `WellFormed`). Any spec whose title can stand between colons is read from its parts, whatever blanks are
    put around them (`grammar`). -/

namespace GridCatalog

namespace Text

/-- A text that can be told from the colons and blanks around it. -/
structure IsField (t : List Char) : Prop where
  whole : ':' ∉ t
  first : ∀ c ∈ t.head?, isBlank c = false
  last : ∀ c ∈ t.getLast?, isBlank c = false

/-- A text with blanks put around it. -/
def Padded (t s : List Char) : Prop :=
  ∃ front back, s = front ++ t ++ back ∧ front.all isBlank ∧ back.all isBlank

/-- A text is the word, in small letters or capitals. -/
def IsWord (word : String) (t : List Char) : Prop := t.map Char.toLower = word.toList

variable {t s : List Char}

theorem isField_of_forall (h : ∀ c ∈ t, isBlank c = false ∧ c ≠ ':') : IsField t where
  whole colon := (h ':' colon).2 rfl
  first c hc := (h c (List.mem_of_mem_head? hc)).1
  last c hc := (h c (List.mem_of_mem_getLast? hc)).1

theorem IsField.trim_padded (field : IsField t) (padded : Padded t s) : trim s = t := by
  obtain ⟨front, back, hs, hfront, hback⟩ := padded
  rw [List.all_eq_true] at hfront hback
  exact (Stripped.eq ⟨⟨front, back, hs, hfront, hback⟩, field.first, field.last⟩).symm

theorem IsField.whole_padded (field : IsField t) (padded : Padded t s) : ':' ∉ s := by
  obtain ⟨front, back, rfl, hfront, hback⟩ := padded
  rw [List.all_eq_true] at hfront hback
  intro colon
  rw [List.mem_append, List.mem_append] at colon
  rcases colon with (colon | colon) | colon
  · cases hfront ':' colon
  · exact field.whole colon
  · cases hback ':' colon

theorem field_of_isDigit {c : Char} (h : c.isDigit) : isBlank c = false ∧ c ≠ ':' := by
  refine ⟨CellRange.isBlank_of_isAlphanum (CellRange.isAlphanum_of_isDigit h), ?_⟩
  rintro rfl
  cases h

theorem isField_digits (n : Nat) : IsField (digits n) :=
  isField_of_forall fun _ hc => field_of_isDigit (isDigit_of_mem_digits hc)

theorem isField_intText (z : Int) : IsField (intText z).toList := by
  refine isField_of_forall fun c hc => ?_
  rcases mem_intText hc with rfl | digit
  · decide
  · exact field_of_isDigit digit

theorem isField_of_isWord {word : String} (letters : ∀ c ∈ word.toList, IsWordLetter c) (h : IsWord word t) :
    IsField t := by
  refine isField_of_forall fun c hc => ?_
  have letter : IsWordLetter c.toLower := letters _ (h ▸ List.mem_map_of_mem hc)
  exact CellRange.of_toNat_lt (p := fun c => c.toLower.isAlphanum → isBlank c = false ∧ c ≠ ':') (by decide +kernel)
    (ascii_of_toLower letter) letter.1

end Text

namespace ColumnSpec
variable {text : String} {s : ColumnSpec} {piece t : List Char} {n : Nat} {isOutput : Bool}

/-! ### The grammar -/

/-- The parts of a text between its colons, without the blanks around them. -/
def parts (text : String) : List (List Char) := (text.toList.splitOn ':').map Text.trim

/-- A part, or nothing if there are not that many. -/
def part (text : String) (n : Nat) : List Char := (parts text)[n]?.getD []

/-- The words for a flag; nothing also stands for an input. -/
def flagWords : Bool → List String
  | false => ["", "false", "no", "0", "input"]
  | true => ["true", "yes", "1", "output"]

/-- A text is one of the words for a flag, in any case. -/
def IsFlag (isOutput : Bool) (t : List Char) : Prop := ∃ word ∈ flagWords isOutput, Text.IsWord word t

/-- What the parts of a text have to be for it to stand for a spec. -/
structure Spells (text : String) (s : ColumnSpec) : Prop where
  count : 2 ≤ (parts text).length ∧ (parts text).length ≤ 5
  column : Text.IsUnsigned (part text 0) s.column ∧ s.column < UInt64.size
  index : Text.IsUnsigned (part text 1) s.index ∧ s.index < UInt64.size
  title : s.title = if part text 2 = [] then none else some (String.ofList (part text 2))
  decimals : if part text 3 = [] then s.decimals = 0 else Text.IsSigned (part text 3) s.decimals.toInt
  flag : IsFlag s.isOutput (part text 4)

/-- What the parts of a text have to be for it to stand for any spec. -/
structure WellFormed (text : String) : Prop where
  count : 2 ≤ (parts text).length ∧ (parts text).length ≤ 5
  column : ∃ n < UInt64.size, Text.IsUnsigned (part text 0) n
  index : ∃ n < UInt64.size, Text.IsUnsigned (part text 1) n
  decimals : part text 3 = [] ∨ ∃ z : Int, -128 ≤ z ∧ z < 128 ∧ Text.IsSigned (part text 3) z
  flag : ∃ isOutput, IsFlag isOutput (part text 4)

/-- The numbers of a spec are machine words, and its title, if any, is a text that a part can be. -/
structure Writable (s : ColumnSpec) : Prop where
  column : s.column < UInt64.size
  index : s.index < UInt64.size
  title : ∀ title ∈ s.title, title ≠ "" ∧ Text.IsField title.toList

/-- The parts that a spec is written in, with a given flag. -/
def fields (s : ColumnSpec) (flag : List Char) : List (List Char) :=
  [Text.digits s.column, Text.digits s.index, (s.title.getD "").toList, (Text.intText s.decimals.toInt).toList, flag]

/-! ### Reading the parts -/

theorem isWordLetter_of_flag {word : String} (h : word ∈ flagWords isOutput) :
    ∀ c ∈ word.toList, Text.IsWordLetter c := by
  have letters : (flagWords isOutput).all fun word => word.toList.all fun c => decide (Text.IsWordLetter c) := by
    cases isOutput <;> decide
  intro c hc
  exact of_decide_eq_true (List.all_eq_true.mp (List.all_eq_true.mp letters word h) c hc)

theorem lower_mem_flagWords : String.ofList (Text.lower t) ∈ flagWords isOutput ↔ IsFlag isOutput t := by
  constructor
  · intro h
    have lower := (String.toList_ofList (l := Text.lower t)).symm
    exact ⟨_, h, (Text.lower_eq_iff (isWordLetter_of_flag h)).mp lower⟩
  · rintro ⟨word, h, spelled⟩
    rw [(Text.lower_eq_iff (isWordLetter_of_flag h)).mpr spelled, String.ofList_toList]
    exact h

theorem indexOf_eq_ok {fault : String → Fault} :
    indexOf fault piece = .ok n ↔ Text.IsUnsigned (Text.trim piece) n ∧ n < UInt64.size := by
  have bound : Text.natBound64 = UInt64.size := rfl
  rw [← Text.unsigned?_eq_some, indexOf, bound]
  cases Text.unsigned? UInt64.size (Text.trim piece) <;> simp

theorem titleOf_eq (piece : List Char) :
    titleOf piece = if Text.trim piece = [] then none else some (String.ofList (Text.trim piece)) := by
  simp [titleOf]

theorem decimalsOf_eq_ok {d : Int8} :
    decimalsOf piece = .ok d ↔
      if Text.trim piece = [] then d = 0 else Text.IsSigned (Text.trim piece) d.toInt := by
  rw [decimalsOf]
  by_cases blank : Text.trim piece = []
  · simp [blank, eq_comm]
  rw [if_neg (by simpa using blank), if_neg blank]
  constructor
  · intro h
    split at h
    · rename_i z read
      cases h
      obtain ⟨signed, low, high⟩ := (Text.signed?_eq_some (by decide)).mp read
      rwa [Int8.toInt_ofInt_of_le low high]
    · cases h
  · intro signed
    have read : Text.signed? Text.intBound8 (Text.trim piece) = some d.toInt :=
      (Text.signed?_eq_some (by decide)).mpr ⟨signed, d.le_toInt, d.toInt_lt⟩
    rw [read]
    exact congrArg Except.ok d.ofInt_toInt

theorem flagOf_eq_ok : flagOf piece = .ok isOutput ↔ IsFlag isOutput (Text.trim piece) := by
  have apart : ∀ word ∈ flagWords true, word ∉ flagWords false := by decide
  rw [← lower_mem_flagWords, flagOf]
  change (if (flagWords false).contains _ then _ else if (flagWords true).contains _ then _ else _) = _ ↔ _
  generalize String.ofList (Text.lower (Text.trim piece)) = word
  simp only [List.contains_iff_mem]
  split
  · rename_i input
    cases isOutput <;> simp [input]
    exact fun output => apart word output input
  split
  · rename_i input output
    cases isOutput <;> simp [input, output]
  · rename_i input output
    cases isOutput <;> simp [input, output]

theorem part_eq (text : String) (n : Nat) : part text n = Text.trim ((Text.pieces ':' text.toList)[n]?.getD []) := by
  rw [part, parts, ← Text.pieces_eq_splitOn, List.getElem?_map]
  cases (Text.pieces ':' text.toList)[n]? <;> rfl

theorem ofText_of_pieces {column index : List Char} {rest : List (List Char)}
    (cut : Text.pieces ':' text.toList = column :: index :: rest) :
    ofText text = .ok s ↔ rest.length ≤ 3 ∧ indexOf .origin column = .ok s.column ∧
      indexOf .index index = .ok s.index ∧ titleOf (rest[0]?.getD []) = s.title ∧
      decimalsOf (rest[1]?.getD []) = .ok s.decimals ∧ flagOf (rest[2]?.getD []) = .ok s.isOutput := by
  rw [ofText, cut]
  dsimp only
  by_cases many : 3 < rest.length
  · rw [if_pos many]
    constructor
    · rintro ⟨⟩
    · rintro ⟨few, -⟩
      omega
  rw [if_neg many]
  simp only [bind_eq_ok, pure, Except.pure]
  constructor
  · rintro ⟨c, hc, i, hi, d, hd, o, ho, ⟨⟩⟩
    exact ⟨Nat.le_of_not_lt many, hc, hi, rfl, hd, ho⟩
  · rintro ⟨-, hc, hi, ht, hd, ho⟩
    refine ⟨s.column, hc, s.index, hi, s.decimals, hd, s.isOutput, ho, ?_⟩
    rw [ht]

/-- A text is read as a spec exactly if its parts are what they have to be. -/
theorem ofText_eq_ok : ofText text = .ok s ↔ Spells text s := by
  have length : (parts text).length = (Text.pieces ':' text.toList).length := by
    rw [parts, List.length_map, Text.pieces_eq_splitOn]
  rcases cut : Text.pieces ':' text.toList with _ | ⟨column, _ | ⟨index, rest⟩⟩
  · exact absurd cut (Text.pieces_ne_nil _ _)
  · constructor
    · intro h
      rw [ofText, cut] at h
      cases h
    · intro h
      have := h.count
      rw [length, cut] at this
      cases Nat.le_of_succ_le_succ this.1
  have read (n : Nat) : part text n = Text.trim ((column :: index :: rest)[n]?.getD []) := cut ▸ part_eq text n
  rw [cut, List.length_cons, List.length_cons] at length
  rw [ofText_of_pieces cut, indexOf_eq_ok, indexOf_eq_ok, titleOf_eq, decimalsOf_eq_ok, flagOf_eq_ok]
  constructor
  · rintro ⟨few, hc, hi, ht, hd, ho⟩
    refine ⟨by omega, ?_, ?_, ?_, ?_, ?_⟩ <;> rw [read]
    · exact hc
    · exact hi
    · exact ht.symm
    · exact hd
    · exact ho
  · rintro ⟨few, hc, hi, ht, hd, ho⟩
    rw [read] at hc hi ht hd ho
    exact ⟨by omega, hc, hi, ht.symm, hd, ho⟩

theorem exists_spells : (∃ s, Spells text s) ↔ WellFormed text := by
  constructor
  · rintro ⟨s, h⟩
    refine ⟨h.count, ⟨s.column, h.column.2, h.column.1⟩, ⟨s.index, h.index.2, h.index.1⟩, ?_, ⟨s.isOutput, h.flag⟩⟩
    have decimals := h.decimals
    split at decimals
    · rename_i missing
      exact .inl missing
    · exact .inr ⟨s.decimals.toInt, s.decimals.le_toInt, s.decimals.toInt_lt, decimals⟩
  · rintro ⟨count, ⟨column, hcolumn, numeral⟩, ⟨index, hindex, numeral'⟩, decimals, isOutput, flag⟩
    obtain ⟨d, hd⟩ : ∃ d : Int8, if part text 3 = [] then d = 0 else Text.IsSigned (part text 3) d.toInt := by
      by_cases missing : part text 3 = []
      · exact ⟨0, by rw [if_pos missing]⟩
      · obtain ⟨z, low, high, signed⟩ := decimals.resolve_left missing
        refine ⟨Int8.ofInt z, ?_⟩
        rwa [if_neg missing, Int8.toInt_ofInt_of_le low high]
    exact ⟨⟨column, index, _, d, isOutput⟩, count, ⟨numeral, hcolumn⟩, ⟨numeral', hindex⟩, rfl, hd, flag⟩

/-! ### Writing the parts -/

theorem Writable.isField (writable : s.Writable) {flag : List Char} (hflag : IsFlag s.isOutput flag) :
    ∀ t ∈ s.fields flag, Text.IsField t := by
  intro t ht
  simp only [fields, List.mem_cons, List.not_mem_nil, or_false] at ht
  rcases ht with rfl | rfl | rfl | rfl | rfl
  · exact Text.isField_digits s.column
  · exact Text.isField_digits s.index
  · cases title : s.title with
    | none => exact Text.isField_of_forall fun c hc => nomatch hc
    | some t => exact (writable.title t title).2
  · exact Text.isField_intText _
  · obtain ⟨word, listed, spelled⟩ := hflag
    exact Text.isField_of_isWord (isWordLetter_of_flag listed) spelled

/-- Texts that are put between colons, with blanks around them, are the parts. -/
theorem parts_padded {fields texts : List (List Char)} (some_field : fields ≠ [])
    (whole : ∀ t ∈ fields, Text.IsField t) (padded : List.Forall₂ Text.Padded fields texts) :
    parts (String.ofList ([':'].intercalate texts)) = fields := by
  have trimmed : texts.map Text.trim = fields ∧ ∀ t ∈ texts, ':' ∉ t := by
    clear some_field
    induction padded with
    | nil => exact ⟨rfl, fun t ht => nomatch ht⟩
    | cons first rest ih =>
      obtain ⟨field, whole⟩ := List.forall_mem_cons.mp whole
      obtain ⟨trimmed, no_colon⟩ := ih whole
      refine ⟨?_, List.forall_mem_cons.mpr ⟨field.whole_padded first, no_colon⟩⟩
      rw [List.map_cons, field.trim_padded first, trimmed]
  have some_text : texts ≠ [] := by
    rintro rfl
    exact some_field trimmed.1.symm
  rw [parts, String.toList_ofList, List.splitOn_intercalate ':' trimmed.2 some_text, trimmed.1]

theorem Writable.spells (writable : s.Writable) {flag : List Char} (hflag : IsFlag s.isOutput flag)
    (cut : parts text = s.fields flag) : Spells text s := by
  have read (n : Nat) : part text n = (s.fields flag)[n]?.getD [] := by rw [part, cut]
  refine ⟨?_, ?_, ?_, ?_, ?_, ?_⟩
  · rw [cut]
    change 2 ≤ 5 ∧ 5 ≤ 5
    decide
  · rw [read]
    exact ⟨Text.isUnsigned_digits s.column, writable.column⟩
  · rw [read]
    exact ⟨Text.isUnsigned_digits s.index, writable.index⟩
  · rw [read]
    change s.title = if (s.title.getD "").toList = [] then none else some (String.ofList (s.title.getD "").toList)
    cases title : s.title with
    | none => rfl
    | some t =>
      have some_char : t.toList ≠ [] := by simpa using (writable.title t title).1
      rw [Option.getD_some, if_neg some_char, String.ofList_toList]
  · rw [read]
    have signed := Text.isSigned_intText s.decimals.toInt
    change if (Text.intText s.decimals.toInt).toList = [] then _ else Text.IsSigned (Text.intText s.decimals.toInt).toList _
    rwa [if_neg signed.ne_nil]
  · rw [read]
    exact hflag

/-- The texts that are specs, the spec that each of them is, and the texts that are written for a spec. -/
theorem text_grammar :
    (∀ text, (∃ s, ofText text = .ok s) ↔ WellFormed text) ∧
    (∀ text s, ofText text = .ok s ↔ Spells text s) ∧
    ∀ (s : ColumnSpec) (flag : List Char) (texts : List (List Char)), s.Writable → IsFlag s.isOutput flag →
      List.Forall₂ Text.Padded (s.fields flag) texts → ofText (String.ofList ([':'].intercalate texts)) = .ok s := by
  refine ⟨?_, fun text s => ofText_eq_ok, ?_⟩
  · intro text
    rw [← exists_spells]
    exact exists_congr fun s => ofText_eq_ok
  · intro s flag texts writable hflag padded
    have some_field : s.fields flag ≠ [] := List.cons_ne_nil _ _
    have cut := parts_padded some_field (writable.isField hflag) padded
    exact ofText_eq_ok.mpr (writable.spells hflag cut)

/-- A spec with the largest column, the least number of decimal places and blanks in its title. -/
def extreme : ColumnSpec := ⟨18446744073709551615, 0, some "net  Größe", -128, true⟩

theorem text_grammar_extreme :
    extreme.Writable ∧ IsFlag true "yEs".toList ∧
      List.Forall₂ Text.Padded (extreme.fields "yEs".toList)
        ["\t18446744073709551615".toList, "0 ".toList, " net  Größe\n".toList, "-128".toList, "\u3000yEs ".toList] ∧
      ofText "\t18446744073709551615:0 : net  Größe\n:-128:\u3000yEs " = .ok extreme := by
  have writable : extreme.Writable := by
    refine ⟨by decide, by decide, ?_⟩
    rintro _ ⟨⟩
    refine ⟨by decide, by decide, ?_, ?_⟩ <;> rintro _ ⟨⟩ <;> rfl
  have flag : IsFlag true "yEs".toList := ⟨"yes", by decide, rfl⟩
  have padded : List.Forall₂ Text.Padded (extreme.fields "yEs".toList)
      ["\t18446744073709551615".toList, "0 ".toList, " net  Größe\n".toList, "-128".toList, "\u3000yEs ".toList] := by
    refine .cons ⟨['\t'], [], ?_⟩ (.cons ⟨[], [' '], ?_⟩ (.cons ⟨[' '], ['\n'], ?_⟩ (.cons ⟨[], [], ?_⟩
      (.cons ⟨['\u3000'], [' '], ?_⟩ .nil)))) <;> decide +kernel
  exact ⟨writable, flag, padded, text_grammar.2.2 extreme "yEs".toList _ writable flag padded⟩

end ColumnSpec

end GridCatalog
