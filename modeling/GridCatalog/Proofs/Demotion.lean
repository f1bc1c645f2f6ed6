import Mathlib.Logic.Equiv.Defs
import GridCatalog.Proofs.RuleChoice

/-! Columns with their texts in another order, or with more texts.

    The rule of a column depends on which texts are in it and on nothing else. More texts leave fewer rules, so the rule
    only moves down (`Rule.Chosen.rank_le`). Rules for numbers stand between those for texts, but a column that has a
    list in it never gets to the one for plain numbers. -/

namespace GridCatalog.Inference

variable {settings : InferenceSettings} {column longer : List String} {rule rule' : Rule}

/-- The texts of a column in the order that a permutation of their places gives them. -/
def permuted (column : List String) (σ : Equiv.Perm (Fin column.length)) : List String :=
  List.ofFn fun i => column[σ i]

theorem mem_permuted {σ : Equiv.Perm (Fin column.length)} {text : String} :
    text ∈ permuted column σ ↔ text ∈ column := by
  rw [permuted, List.mem_ofFn, List.mem_iff_get]
  constructor
  · rintro ⟨i, rfl⟩
    exact ⟨σ i, rfl⟩
  · rintro ⟨i, rfl⟩
    exact ⟨σ.symm i, by simp⟩

namespace Rule

theorem Chosen.congr (h : rule.Chosen settings column) (hmem : ∀ text, text ∈ longer ↔ text ∈ column) :
    rule.Chosen settings longer := by
  refine ⟨fun text ht => h.1 text ((hmem text).mp ht), fun earlier hlt => ?_⟩
  obtain ⟨text, ht, hnot⟩ := h.2 earlier hlt
  exact ⟨text, (hmem text).mpr ht, hnot⟩

/-- More texts never move the rule up. -/
theorem Chosen.rank_le (h : rule.Chosen settings column) (h' : rule'.Chosen settings longer)
    (hsub : column ⊆ longer) : rule.rank ≤ rule'.rank := by
  by_contra hlt
  obtain ⟨text, ht, hnot⟩ := h.2 rule' (by omega)
  exact hnot (h'.1 text (hsub ht))

/-- A column of texts holds texts with more texts too. -/
theorem Chosen.kind_texts (h : rule.Chosen settings column) (h' : rule'.Chosen settings longer)
    (hsub : column ⊆ longer) (hkind : rule.kind = .texts) : rule'.kind = .texts := by
  have hrank := h.rank_le h' hsub
  rcases hkind' : rule'.kind with _ | _
  · exfalso
    rcases kind_eq_numbers.mp hkind' with rfl | rfl
    · obtain rfl : rule = numberLists := rank_inj (Nat.le_zero.mp hrank)
      cases hkind
    · cases rule with
      | numberLists | plainNumbers => cases hkind
      | singleTexts => exact absurd hrank (by decide)
      | textLists =>
        -- The column is not empty, or it would be one of lists of numbers.
        obtain ⟨text, ht, -⟩ := h.2 numberLists (by decide)
        exact (h.1 text ht).1.not_plain (Or.inr rfl) (h'.1 text (hsub ht)).1
  · rfl

end Rule

theorem getElem?_cells (h : rule.Chosen settings column) (i : Nat) :
    (infer settings column).cells[i]? = column[i]?.map rule.made := by
  rw [infer_of_chosen h, List.getElem?_map]

/-- A permuted column has the permuted cells. A column with more texts has a rule that does not stand earlier, holds
    texts if the shorter one does, and has the same cells for the same texts while the rule stays. -/
theorem order_free_demoting (settings : InferenceSettings) (column : List String) :
    (∀ σ : Equiv.Perm (Fin column.length),
      (infer settings (permuted column σ)).kind = (infer settings column).kind ∧
      (infer settings (permuted column σ)).cells.map some =
        List.ofFn fun i => (infer settings column).cells[(σ i : Nat)]?) ∧
    ∀ longer, column ⊆ longer →
      ((infer settings column).kind = .texts → (infer settings longer).kind = .texts) ∧
      ∃ rule rule' : Rule, rule.Chosen settings column ∧ rule'.Chosen settings longer ∧ rule.rank ≤ rule'.rank ∧
        (rule' = rule → ∀ (i j : Nat) (text : String), column[i]? = some text → longer[j]? = some text →
          (infer settings longer).cells[j]? = (infer settings column).cells[i]?) := by
  have chosen := Rule.chosen_ruleOf settings column
  generalize ruleOf settings column = rule at chosen
  constructor
  · intro σ
    have chosen' : rule.Chosen settings (permuted column σ) := chosen.congr fun text => mem_permuted
    constructor
    · rw [infer_of_chosen chosen, infer_of_chosen chosen']
    · rw [infer_of_chosen chosen', permuted, List.map_map, List.map_ofFn]
      refine congrArg List.ofFn (funext fun i => ?_)
      simp [getElem?_cells chosen]
  · intro longer hsub
    have chosen' := Rule.chosen_ruleOf settings longer
    generalize ruleOf settings longer = rule' at chosen'
    constructor
    · rw [infer_of_chosen chosen, infer_of_chosen chosen']
      exact chosen.kind_texts chosen' hsub
    · refine ⟨rule, rule', chosen, chosen', chosen.rank_le chosen' hsub, ?_⟩
      rintro rfl i j text hi hj
      rw [getElem?_cells chosen, getElem?_cells chosen', hi, hj]

/-- A list among plain numbers keeps the column from holding numbers. -/
theorem order_free_demoting_mixed :
    ["[a]"] ⊆ ["5", "[a]", "7"] ∧ (infer .default ["[a]"]).kind = .texts ∧
      (infer .default ["5", "[a]", "7"]).kind = .texts := by
  have hsub : ["[a]"] ⊆ ["5", "[a]", "7"] := by simp
  have hkind : (infer .default ["[a]"]).kind = .texts := by decide +kernel
  exact ⟨hsub, hkind, ((order_free_demoting .default ["[a]"]).2 _ hsub).1 hkind⟩

end GridCatalog.Inference
