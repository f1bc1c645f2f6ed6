import GridCatalog.Proofs.Rule
import GridCatalog.Proofs.Shape

/-! Which rule a column is read by.

    A rule applies to a text that has its shape and, in strict mode, numbers in all its parts. It then makes a cell of
    these parts alone (`cell?_eq_some`), so the settings decide only about which rule is chosen: the first one that
    applies to every text of the column (`Rule.Chosen`, which `ruleOf` computes). -/

namespace GridCatalog.Inference

variable {settings : InferenceSettings} {column : List String} {rule : Rule} {text : String}

/-! ### Numbers -/

/-- A part that a finite number can be read from, blanks around it aside. -/
def HasNumber (part : List Char) : Prop :=
  ∃ x, Decimal.readFloat? (Text.trim part) = some x ∧ x.isFinite = true

/-- The number of a part, or 0 if it has none. -/
def numberOf (part : List Char) : Float := (number? part).getD 0

theorem number?_eq_some {part : List Char} {x : Float} :
    number? part = some x ↔ Decimal.readFloat? (Text.trim part) = some x ∧ x.isFinite = true := by
  rw [number?, Option.bind_eq_some_iff]
  constructor
  · rintro ⟨y, hy, hx⟩
    split at hx <;> cases hx
    exact ⟨hy, ‹_›⟩
  · rintro ⟨hx, hfinite⟩
    exact ⟨x, hx, if_pos hfinite⟩

theorem isFinite_numberOf (part : List Char) : (numberOf part).isFinite = true := by
  unfold numberOf
  rcases hx : number? part with _ | x
  · decide +kernel
  · exact (number?_eq_some.mp hx).2

theorem hasNumber_iff {part : List Char} : HasNumber part ↔ (number? part).isSome = true := by
  rw [Option.isSome_iff_exists]
  exact exists_congr fun _ => number?_eq_some.symm

theorem convert_eq (part : List Char) (h : settings.strictNumbers = true → HasNumber part) :
    convert settings part = some (numberOf part) := by
  unfold convert numberOf
  rcases hx : number? part with _ | x
  · have : ¬settings.strictNumbers = true := by
      intro hs
      have := hasNumber_iff.mp (h hs)
      rw [hx] at this
      cases this
    exact if_neg this
  · rfl

theorem convert_eq_none {part : List Char} (hs : settings.strictNumbers = true) (h : ¬HasNumber part) :
    convert settings part = none := by
  have : number? part = none := by simpa [hasNumber_iff] using h
  simp [convert, this, hs]

theorem mapM_convert {parts : List (List Char)} {xs : List Float} :
    parts.mapM (convert settings) = some xs ↔
      (settings.strictNumbers = true → ∀ part ∈ parts, HasNumber part) ∧ xs = parts.map numberOf := by
  by_cases h : settings.strictNumbers = true → ∀ part ∈ parts, HasNumber part
  · have := mapM_map_some (f := id) fun part hpart => convert_eq part fun hs => h hs part hpart
    rw [List.map_id] at this
    rw [this, Option.some_inj]
    exact ⟨fun heq => ⟨h, heq.symm⟩, fun heq => heq.2.symm⟩
  · have : parts.mapM (convert settings) = none := by
      push Not at h
      obtain ⟨hs, part, hpart, hnone⟩ := h
      exact mapM_of_isNone (convert_eq_none hs hnone) hpart
    rw [this]
    exact ⟨nofun, fun heq => absurd heq.1 h⟩

/-! ### Rules -/

namespace Rule

/-- The place of a rule in the order in which the rules are tried. -/
def rank : Rule → Nat
  | numberLists => 0
  | textLists => 1
  | plainNumbers => 2
  | singleTexts => 3

/-- The shape of the texts that a rule is for. -/
def Shaped : Rule → List Char → Prop
  | numberLists => DigitInBrackets
  | textLists => InBrackets
  | plainNumbers => OfNumberMarks
  | singleTexts => fun _ => True

/-- The parts of a text that a rule converts: those of a list between its commas, or the whole text. -/
def Parts : Rule → List Char → List (List Char) → Prop
  | numberLists, s, parts | textLists, s, parts =>
    ∃ content, Text.Stripped isListPadding s content ∧ parts = content.splitOn ','
  | plainNumbers, s, parts | singleTexts, s, parts => parts = [s]

/-- All parts that a rule converts have numbers. -/
def Numeric (rule : Rule) (text : String) : Prop :=
  ∀ parts, rule.Parts text.toList parts → ∀ part ∈ parts, HasNumber part

/-- Whether a rule is possible for a text. -/
def Applies (settings : InferenceSettings) (rule : Rule) (text : String) : Prop :=
  rule.Shaped text.toList ∧ (settings.strictNumbers = true → rule.kind = .numbers → rule.Numeric text)

/-- The first rule that applies to every text of a column. -/
def Chosen (settings : InferenceSettings) (column : List String) (rule : Rule) : Prop :=
  (∀ text ∈ column, rule.Applies settings text) ∧
    ∀ earlier : Rule, earlier.rank < rule.rank → ∃ text ∈ column, ¬earlier.Applies settings text

def parts : Rule → List Char → List (List Char)
  | numberLists | textLists => listParts
  | plainNumbers | singleTexts => fun s => [s]

/-- The cell that a rule makes of a text that it applies to. -/
def made (rule : Rule) (text : String) : Cell :=
  match rule.kind with
  | .numbers => .numbers ((rule.parts text.toList).map numberOf)
  | .texts => .texts ((rule.parts text.toList).map String.ofList)

theorem parts_iff {s : List Char} {parts : List (List Char)} : rule.Parts s parts ↔ parts = rule.parts s := by
  have list : (∃ content, Text.Stripped isListPadding s content ∧ parts = content.splitOn ',') ↔
      parts = listParts s := by
    constructor
    · rintro ⟨content, hcontent, rfl⟩
      exact (listParts_eq hcontent).symm
    · rintro rfl
      exact ⟨_, Text.stripped_trimEnds _ _, listParts_eq (Text.stripped_trimEnds _ _)⟩
  cases rule with
  | numberLists => exact list
  | textLists => exact list
  | plainNumbers => exact Iff.rfl
  | singleTexts => exact Iff.rfl

theorem numeric_iff : rule.Numeric text ↔ ∀ part ∈ rule.parts text.toList, HasNumber part := by
  simp [Numeric, parts_iff]

/-- A rule has a cell for a text exactly if it applies, and the cell is that of the parts. -/
theorem cell?_eq_some {c : Cell} :
    rule.cell? settings text = some c ↔ rule.Applies settings text ∧ c = rule.made text := by
  have guarded {p : Prop} [Decidable p] {o : Option Cell} : (if p then o else none) = some c ↔ p ∧ o = some c := by
    split <;> simp [*]
  unfold Applies
  rw [numeric_iff]
  cases rule with
  | numberLists =>
    simp only [cell?, numberList, guarded, isNumberList_iff, Option.map_eq_some_iff, mapM_convert]
    constructor
    · rintro ⟨hs, xs, ⟨hn, rfl⟩, rfl⟩
      exact ⟨⟨hs, fun h _ => hn h⟩, rfl⟩
    · rintro ⟨⟨hs, hn⟩, rfl⟩
      exact ⟨hs, _, ⟨fun h => hn h rfl, rfl⟩, rfl⟩
  | textLists =>
    simp only [cell?, guarded, isBracketed_iff, Option.some_inj]
    constructor
    · rintro ⟨hs, rfl⟩
      exact ⟨⟨hs, fun _ h => by cases h⟩, rfl⟩
    · rintro ⟨⟨hs, -⟩, rfl⟩
      exact ⟨hs, rfl⟩
  | plainNumbers =>
    have single := @mapM_convert settings [text.toList]
    simp only [cell?, plainNumber, guarded, isPlainNumber_iff, Option.map_eq_some_iff]
    constructor
    · rintro ⟨hs, x, hx, rfl⟩
      have : [text.toList].mapM (convert settings) = some [x] := by simp [hx]
      obtain ⟨hn, hxs⟩ := single.mp this
      exact ⟨⟨hs, fun h _ => hn h⟩, congrArg Cell.numbers hxs⟩
    · rintro ⟨⟨hs, hn⟩, rfl⟩
      exact ⟨hs, _, convert_eq _ fun h => hn h rfl _ (List.mem_singleton_self _), rfl⟩
  | singleTexts =>
    have : singleTexts.made text = .texts [text] := by simp [made, kind, parts]
    rw [this]
    constructor
    · rintro ⟨⟩
      exact ⟨⟨trivial, fun _ h => by cases h⟩, rfl⟩
    · rintro ⟨-, rfl⟩
      rfl

theorem fits_iff : rule.fits settings text = true ↔ rule.Applies settings text := by
  simp [fits, Option.isSome_iff_exists, cell?_eq_some]

theorem cell_eq (h : rule.Applies settings text) : rule.cell settings text = rule.made text := by
  rw [cell, cell?_eq_some.mpr ⟨h, rfl⟩, Option.getD_some]

theorem kind_made (rule : Rule) (text : String) : (rule.made text).kind = rule.kind := by
  cases rule <;> rfl

theorem parts_ne_nil (rule : Rule) (s : List Char) : rule.parts s ≠ [] := by
  cases rule with
  | numberLists | textLists => exact Text.pieces_ne_nil _ _
  | plainNumbers | singleTexts => exact List.cons_ne_nil _ _

theorem isEmpty_made (rule : Rule) (text : String) : (rule.made text).isEmpty = false := by
  have := rule.parts_ne_nil text.toList
  unfold made
  cases rule.kind <;> simpa [Cell.isEmpty, Cell.size] using this

/-- Every cell is of the rule's kind, also that of a text that the rule does not fit. -/
theorem kind_cell (settings : InferenceSettings) (rule : Rule) (text : String) :
    (rule.cell settings text).kind = rule.kind := by
  unfold cell
  rcases h : rule.cell? settings text with _ | c
  · exact Cell.kind_empty _
  · obtain ⟨-, rfl⟩ := cell?_eq_some.mp h
    exact kind_made rule text

theorem isEmpty_cell (h : rule.fits settings text = true) : (rule.cell settings text).isEmpty = false := by
  rw [cell_eq (fits_iff.mp h)]
  exact isEmpty_made rule text

theorem kind_eq_numbers : rule.kind = .numbers ↔ rule = numberLists ∨ rule = plainNumbers := by
  cases rule <;> simp [kind]

/-- A list is no plain number. -/
theorem Shaped.not_plain {s : List Char} (h : rule.Shaped s) (hlist : rule = numberLists ∨ rule = textLists) :
    ¬plainNumbers.Shaped s := by
  rcases hlist with rfl | rfl
  · exact not_ofNumberMarks (inBrackets_of_digit h)
  · exact not_ofNumberMarks h

theorem rank_inj {r r' : Rule} (h : r.rank = r'.rank) : r = r' := by
  cases r <;> cases r' <;> first | rfl | cases h

/-- No rule before the chosen one fits every text. -/
theorem rank_ruleOf_le (h : column.all (rule.fits settings) = true) : (ruleOf settings column).rank ≤ rule.rank := by
  unfold ruleOf
  cases rule with
  | numberLists => rw [if_pos h]
  | textLists | plainNumbers =>
    rw [if_pos h]
    split_ifs <;> decide
  | singleTexts => split_ifs <;> decide

theorem chosen_ruleOf (settings : InferenceSettings) (column : List String) :
    (ruleOf settings column).Chosen settings column := by
  refine ⟨fun text ht => fits_iff.mp (ruleOf_fits ht), ?_⟩
  intro earlier hlt
  by_contra hall
  push Not at hall
  have := rank_ruleOf_le (List.all_eq_true.mpr fun text ht => fits_iff.mpr (hall text ht))
  omega

theorem Chosen.unique {r r' : Rule} (h : r.Chosen settings column) (h' : r'.Chosen settings column) : r = r' := by
  rcases Nat.lt_trichotomy r.rank r'.rank with hlt | heq | hlt
  · obtain ⟨text, ht, hnot⟩ := h'.2 r hlt
    exact absurd (h.1 text ht) hnot
  · exact rank_inj heq
  · obtain ⟨text, ht, hnot⟩ := h.2 r' hlt
    exact absurd (h'.1 text ht) hnot

theorem chosen_iff : rule.Chosen settings column ↔ ruleOf settings column = rule :=
  ⟨fun h => (chosen_ruleOf settings column).unique h, fun h => h ▸ chosen_ruleOf settings column⟩

end Rule

/-- A column has the kind of its rule, and its cells are those that the rule makes. -/
theorem infer_of_chosen (h : rule.Chosen settings column) :
    infer settings column = ⟨rule.kind, column.map rule.made⟩ := by
  rw [infer_eq, Rule.chosen_iff.mp h]
  exact congrArg _ (List.map_congr_left fun text ht => Rule.cell_eq (h.1 text ht))

end GridCatalog.Inference
