import GridCatalog.Proofs.Faithful
import GridCatalog.Proofs.RuleChoice

/-! What the cells of a column hold.

    Every text of a column has one cell, in order, and `Rule.Reads` says for each rule what stands in it. A list loses
    only the padding around it, every part of it has a place in the cell, and no number is invented but the 0 of a part
    without one. -/

namespace GridCatalog.Inference

/-- `x` is the finite number in a part, blanks around it aside, or 0 if there is none. -/
def ReadsAs (part : List Char) (x : Float) : Prop :=
  (Decimal.readFloat? (Text.trim part) = some x ∧ x.isFinite = true) ∨ (¬HasNumber part ∧ x = 0)

/-- What the cell of a text holds under a rule. -/
def Rule.Reads : Rule → String → Cell → Prop
  | numberLists, text, cell => ∃ content numbers, Text.Stripped isListPadding text.toList content ∧
      cell = .numbers numbers ∧ numbers.length = text.toList.count ',' + 1 ∧
      List.Forall₂ ReadsAs (content.splitOn ',') numbers
  | textLists, text, cell => ∃ content parts, Text.Stripped isListPadding text.toList content ∧
      cell = .texts parts ∧ parts.length = text.toList.count ',' + 1 ∧
      ",".intercalate parts = String.ofList content
  | plainNumbers, text, cell => ∃ x, cell = .numbers [x] ∧ ReadsAs text.toList x
  | singleTexts, text, cell => cell = .texts [text]

theorem readsAs_numberOf (part : List Char) : ReadsAs part (numberOf part) := by
  by_cases h : HasNumber part
  · obtain ⟨x, hx⟩ := h
    rw [numberOf, number?_eq_some.mpr hx]
    exact Or.inl hx
  · have : number? part = none := by simpa [hasNumber_iff] using h
    rw [numberOf, this]
    exact Or.inr ⟨h, rfl⟩

theorem intercalate_parts (s : List Char) :
    ",".intercalate ((s.splitOn ',').map String.ofList) = String.ofList s := by
  have hparts : ((s.splitOn ',').map String.ofList).map String.toList = s.splitOn ',' := by simp
  have hjoin : [','].intercalate (s.splitOn ',') = s := List.intercalate_splitOn ','
  rw [← String.toList_inj, String.toList_intercalate, hparts]
  exact hjoin.trans String.toList_ofList.symm

theorem Rule.reads_made (rule : Rule) (text : String) : rule.Reads text (rule.made text) := by
  have hstripped := Text.stripped_trimEnds isListPadding text.toList
  have hlen := length_listParts text.toList
  cases rule with
  | numberLists =>
    refine ⟨_, _, hstripped, rfl, by rw [List.length_map]; exact hlen, ?_⟩
    rw [← listParts_eq hstripped, List.forall₂_map_right_iff]
    exact List.forall₂_same.mpr fun part _ => readsAs_numberOf part
  | textLists =>
    refine ⟨_, _, hstripped, rfl, by rw [List.length_map]; exact hlen, ?_⟩
    rw [← intercalate_parts, ← listParts_eq hstripped]
    rfl
  | plainNumbers => exact ⟨_, rfl, readsAs_numberOf _⟩
  | singleTexts => simp [Reads, made, kind, parts]

/-- A column is read by the first rule that applies to all its texts: text by text, into cells of the rule's kind with
    finite numbers only. -/
theorem infer_reads (settings : InferenceSettings) (column : List String) :
    ∃ rule : Rule, rule.Chosen settings column ∧ (infer settings column).kind = rule.kind ∧
      List.Forall₂ rule.Reads column (infer settings column).cells ∧
      ∀ cell ∈ (infer settings column).cells, cell.kind = rule.kind ∧ cell.Finite := by
  have chosen := Rule.chosen_ruleOf settings column
  have made := infer_of_chosen chosen
  refine ⟨_, chosen, congrArg TypedColumn.kind made, ?_, fun cell hcell => ?_⟩
  · rw [made, List.forall₂_map_right_iff, List.forall₂_same]
    exact fun text _ => Rule.reads_made _ text
  · rw [infer_eq] at hcell
    obtain ⟨text, -, rfl⟩ := List.mem_map.mp hcell
    exact ⟨Rule.kind_cell settings _ text, Rule.finite_cell settings _ text⟩

end GridCatalog.Inference
