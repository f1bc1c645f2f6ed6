import GridCatalog.Proofs.Faithful
import GridCatalog.Proofs.RuleChoice

/-! Strict and permissive inference.

    Strict mode gives a rule for numbers up when a part has no number. If the rule of the permissive mode does not have
    to, the two results are equal; if it has to, no other rule for numbers fits, since a text in brackets is no plain
    number, and the column holds texts (`strict_permissive`). -/

namespace GridCatalog

/-- Number columns need numbers in all parts. -/
def InferenceSettings.strict : InferenceSettings := ⟨true⟩

/-- The same kind, and cells that are equal when their numbers are compared as numbers. -/
def TypedColumn.Agrees (a b : TypedColumn) : Prop :=
  a.kind = b.kind ∧ List.Forall₂ (fun x y => x.agrees y = true) a.cells b.cells

theorem CellKind.eq_numbers {k : CellKind} (h : k ≠ .texts) : k = .numbers := by
  cases k with
  | numbers => rfl
  | texts => exact absurd rfl h

open Float.Model in
theorem Decimal.beq_self_of_isFinite {x : Float} (h : x.isFinite = true) : (x == x) = true := by
  show x.toModel.unpack.beq x.toModel.unpack = true
  have hu : x.toModel.unpack.isFinite = true := h
  generalize x.toModel.unpack = u at hu
  cases u with
  | notANumber | infinity => cases hu
  | zero => rfl
  | finite sign m e =>
    have hm : compare m m = .eq := Std.ReflOrd.compare_self
    have he : compare e e = .eq := Std.ReflOrd.compare_self
    cases sign with
    | positive =>
      show (some ((compare e e).then (compare m m)) == some .eq) = true
      rw [hm, he]
      rfl
    | negative =>
      show (some ((compare e e).then (compare m m)).swap == some .eq) = true
      rw [hm, he]
      rfl

theorem Cell.agrees_self {c : Cell} (h : c.Finite) : c.agrees c = true := by
  cases c with
  | numbers xs =>
    have hzip : xs.zip xs = xs.map fun x => (x, x) := by simp [List.zip_eq_zipWith]
    simp only [agrees, hzip, List.all_map, decide_true, Bool.true_and, List.all_eq_true]
    exact fun x hx => Decimal.beq_self_of_isFinite (h x hx)
  | texts => simp [agrees]

namespace Inference
variable {column : List String} {rule rule' : Rule} {text : String}

theorem agrees_infer (settings : InferenceSettings) (column : List String) :
    (infer settings column).Agrees (infer settings column) := by
  refine ⟨rfl, List.forall₂_same.mpr fun cell hcell => Cell.agrees_self ?_⟩
  rw [infer_eq] at hcell
  obtain ⟨text, -, rfl⟩ := List.mem_map.mp hcell
  exact Rule.finite_cell settings _ text

namespace Rule

/-- No text has the shapes of two rules for numbers. -/
theorem eq_of_shaped {s : List Char} (h : rule.Shaped s) (h' : rule'.Shaped s) (hkind : rule.kind = .numbers)
    (hkind' : rule'.kind = .numbers) : rule = rule' := by
  rcases kind_eq_numbers.mp hkind with rfl | rfl <;> rcases kind_eq_numbers.mp hkind' with rfl | rfl
  · rfl
  · exact absurd h' (h.not_plain (Or.inl rfl))
  · exact absurd h (h'.not_plain (Or.inl rfl))
  · rfl

theorem applies_permissive : rule.Applies .default text ↔ rule.Shaped text.toList :=
  ⟨fun h => h.1, fun h => ⟨h, nofun⟩⟩

theorem Applies.permissive (h : rule.Applies .strict text) : rule.Applies .default text :=
  applies_permissive.mpr h.1

/-- The permissive rule is that of the strict mode too if it coerces nothing. -/
theorem Chosen.strict (h : rule.Chosen .default column)
    (hnumeric : rule.kind = .numbers → ∀ text ∈ column, rule.Numeric text) : rule.Chosen .strict column := by
  refine ⟨fun text ht => ⟨(h.1 text ht).1, fun _ hkind => hnumeric hkind text ht⟩, fun earlier hlt => ?_⟩
  obtain ⟨text, ht, hnot⟩ := h.2 earlier hlt
  exact ⟨text, ht, mt Applies.permissive hnot⟩

/-- If the permissive rule coerces something, then the strict mode reads the column as texts. -/
theorem Chosen.kind_of_coerced (h : rule.Chosen .default column) (h' : rule'.Chosen .strict column)
    (hkind : rule.kind = .numbers) (ht : text ∈ column) (hnot : ¬rule.Numeric text) : rule'.kind = .texts := by
  rcases hkind' : rule'.kind with _ | _
  · have happlies := h'.1 text ht
    obtain rfl := eq_of_shaped (h.1 text ht).1 happlies.1 hkind hkind'
    exact absurd (happlies.2 rfl hkind) hnot
  · rfl

end Rule

/-- The two modes give equal results unless a part of a number column has no number, and then the strict mode gives
    texts. -/
theorem strict_permissive (column : List String) :
    ∃ rule : Rule, rule.Chosen .default column ∧
      (infer .strict column = infer .default column ↔
        (infer .default column).kind = .texts ∨ ∀ text ∈ column, rule.Numeric text) ∧
      ((infer .strict column).Agrees (infer .default column) ↔ infer .strict column = infer .default column) ∧
      (infer .strict column ≠ infer .default column → (infer .strict column).kind = .texts) ∧
      ((infer .strict column).kind = .numbers → infer .strict column = infer .default column) := by
  have chosen := Rule.chosen_ruleOf .default column
  have permissive := infer_of_chosen chosen
  generalize ruleOf .default column = rule at chosen permissive
  refine ⟨rule, chosen, ?_⟩
  have hkind : (infer .default column).kind = rule.kind := congrArg TypedColumn.kind permissive
  by_cases h : (infer .default column).kind = .texts ∨ ∀ text ∈ column, rule.Numeric text
  · have heq : infer .strict column = infer .default column := by
      rw [permissive]
      refine infer_of_chosen (chosen.strict fun hnumbers => h.resolve_left ?_)
      rw [hkind, hnumbers]
      nofun
    have hagrees : (infer .strict column).Agrees (infer .default column) := heq ▸ agrees_infer _ _
    exact ⟨iff_of_true heq h, iff_of_true hagrees heq, fun hne => absurd heq hne, fun _ => heq⟩
  · have hstrict : (infer .strict column).kind = .texts := by
      push Not at h
      obtain ⟨hnumbers, text, ht, hnot⟩ := h
      have chosen' := Rule.chosen_ruleOf .strict column
      rw [infer_of_chosen chosen']
      exact chosen.kind_of_coerced chosen' (CellKind.eq_numbers (hkind ▸ hnumbers)) ht hnot
    have hkinds : (infer .strict column).kind ≠ (infer .default column).kind := by
      rw [hstrict]
      exact fun heq => h (Or.inl heq.symm)
    have hne : infer .strict column ≠ infer .default column := fun heq => hkinds (congrArg TypedColumn.kind heq)
    have hdisagrees : ¬(infer .strict column).Agrees (infer .default column) := fun hagrees => hkinds hagrees.1
    refine ⟨iff_of_false hne h, iff_of_false hdisagrees hne, fun _ => hstrict, fun hnumbers => ?_⟩
    rw [hstrict] at hnumbers
    cases hnumbers

end Inference

end GridCatalog
