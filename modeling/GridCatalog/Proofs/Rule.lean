import GridCatalog.Inference.ColumnType
import GridCatalog.Proofs.Elementwise

/-! The rules by which columns are read, one text at a time.

    A rule gives a cell for a text that it fits. A column is read by the first rule that fits every
    text of it (`ruleOf`), and every cell comes from its own text alone (`infer_eq`). -/

namespace GridCatalog.Inference

/-- How the texts of a column are read. -/
inductive Rule where
  | numberLists
  | textLists
  | plainNumbers
  | singleTexts
deriving DecidableEq, Repr

namespace Rule

def kind : Rule → CellKind
  | numberLists | plainNumbers => .numbers
  | textLists | singleTexts => .texts

/-- The cell of a text that a rule fits. -/
def cell? (settings : InferenceSettings) : Rule → String → Option Cell
  | numberLists, text => if isNumberList text.toList then numberList settings text.toList else none
  | textLists, text => if isBracketed text.toList then some (textList text.toList) else none
  | plainNumbers, text => if isPlainNumber text.toList then plainNumber settings text.toList else none
  | singleTexts, text => some (.texts [text])

def fits (settings : InferenceSettings) (rule : Rule) (text : String) : Bool := (rule.cell? settings text).isSome

/-- The cell of a text; one that the rule does not fit has an empty cell. -/
def cell (settings : InferenceSettings) (rule : Rule) (text : String) : Cell :=
  (rule.cell? settings text).getD (.empty rule.kind)

end Rule

/-- The first rule that fits all texts of a column. -/
def ruleOf (settings : InferenceSettings) (column : List String) : Rule :=
  if column.all (Rule.numberLists.fits settings) then .numberLists
  else if column.all (Rule.textLists.fits settings) then .textLists
  else if column.all (Rule.plainNumbers.fits settings) then .plainNumbers
  else .singleTexts

section
variable {settings : InferenceSettings} {column : List String} {text : String}

/-- A rule with a shape is tried text by text. -/
theorem applyRule_eq {shape : List Char → Bool} {convert : List Char → Option Cell} {rule : Rule}
    (h : ∀ text, rule.cell? settings text = if shape text.toList then convert text.toList else none) :
    applyRule shape convert (column.map String.toList) =
      if column.all (rule.fits settings) then some (column.map (rule.cell settings)) else none := by
  have shaped : ∀ {text}, rule.fits settings text = true → shape text.toList = true ∧
      rule.cell? settings text = convert text.toList := fun {text} hf => by
    rw [Rule.fits, h] at hf
    rw [h]
    split at hf
    · exact ⟨‹_›, if_pos ‹_›⟩
    · cases hf
  have converted : ∀ {text}, shape text.toList = true → rule.cell? settings text = convert text.toList :=
    fun hs => (h _).trans (if_pos hs)
  unfold applyRule
  by_cases hall : column.all (rule.fits settings) = true
  · have fit := List.all_eq_true.mp hall
    rw [if_pos hall, if_pos, List.mapM_map, mapM_of_isSome (Cell.empty rule.kind)]
    · refine congrArg some (List.map_congr_left fun text ht => ?_)
      rw [Rule.cell, (shaped (fit text ht)).2]
      rfl
    · intro text ht
      have := fit text ht
      rw [Rule.fits, (shaped this).2] at this
      exact this
    · rw [List.all_map, List.all_eq_true]
      exact fun text ht => (shaped (fit text ht)).1
  · rw [if_neg hall]
    split
    · rename_i hshape
      obtain ⟨text, ht, hn⟩ := List.all_eq_false.mp (Bool.eq_false_iff.mpr hall)
      have hs : shape text.toList = true := List.all_eq_true.mp hshape _ (List.mem_map_of_mem ht)
      rw [Rule.fits, converted hs] at hn
      exact mapM_of_isNone (Option.not_isSome_iff_eq_none.mp hn) (List.mem_map_of_mem ht)
    · rfl

theorem fits_textLists (text : String) : Rule.textLists.fits settings text = isBracketed text.toList := by
  rw [Rule.fits, Rule.cell?]
  split <;> simp_all

/-- A column is converted text by text, by the first rule that fits all of it. -/
theorem infer_eq (settings : InferenceSettings) (column : List String) :
    infer settings column =
      ⟨(ruleOf settings column).kind, column.map ((ruleOf settings column).cell settings)⟩ := by
  have lists := @applyRule_eq settings column isNumberList (numberList settings) .numberLists fun _ => rfl
  have plain := @applyRule_eq settings column isPlainNumber (plainNumber settings) .plainNumbers fun _ => rfl
  have bracketed : (column.map String.toList).all isBracketed = column.all (Rule.textLists.fits settings) := by
    rw [List.all_map]
    exact congrArg column.all (funext fun text => (fits_textLists text).symm)
  unfold infer ruleOf
  simp only [lists, plain, bracketed]
  by_cases h₁ : column.all (Rule.numberLists.fits settings) = true
  · simp only [if_pos h₁]
    rfl
  by_cases h₂ : column.all (Rule.textLists.fits settings) = true
  · simp only [if_neg h₁, if_pos h₂, List.map_map]
    refine congrArg (TypedColumn.mk .texts) (List.map_congr_left fun text ht => ?_)
    have := List.all_eq_true.mp h₂ text ht
    rw [fits_textLists] at this
    rw [Rule.cell, Rule.cell?, if_pos this]
    rfl
  by_cases h₃ : column.all (Rule.plainNumbers.fits settings) = true
  · simp only [if_neg h₁, if_neg h₂, if_pos h₃]
    rfl
  · simp only [if_neg h₁, if_neg h₂, if_neg h₃]
    rfl

theorem ruleOf_fits (ht : text ∈ column) : (ruleOf settings column).fits settings text = true := by
  unfold ruleOf
  split
  · exact List.all_eq_true.mp ‹_› text ht
  split
  · exact List.all_eq_true.mp ‹_› text ht
  split
  · exact List.all_eq_true.mp ‹_› text ht
  · rfl

end

end GridCatalog.Inference
