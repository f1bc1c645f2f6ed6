import GridCatalog.Proofs.RecordForms

/-! The JSON round trip.

    A dataset or an entry comes back from its JSON text exactly if its rows are faithful to its header
    (`json_round_trip`). Whatever a text is, the records that are read from it are faithful, so no others can come back;
    and a record with faithful rows is read back part by part. Datasets that are built from grids are faithful, and
    stay so when they are reshaped and cut. -/

namespace GridCatalog

/-- A change of the rows and columns of a dataset. -/
inductive Edit where
  | reshape (a : Approval)
  | page (skip limit : Int)

namespace Dataset
variable {d : Dataset}

def edit (d : Dataset) : Edit → Dataset
  | .reshape a => d.reshape a
  | .page skip limit => d.page skip limit

/-- A dataset after changes. -/
def edited (d : Dataset) (edits : List Edit) : Dataset := edits.foldl edit d

theorem Faithful.edit (h : d.Faithful) (x : Edit) : (d.edit x).Faithful := by
  cases x with
  | reshape a => exact h.reshape a
  | page skip limit => exact h.page skip limit

theorem Faithful.edited (h : d.Faithful) (edits : List Edit) : (d.edited edits).Faithful := by
  induction edits generalizing d with
  | nil => exact h
  | cons x edits ih => exact ih (h.edit x)

end Dataset

/-- A record comes back from its text exactly if it is one of those that can be read. -/
theorem read_iff {α : Type} {write : α → Json} {read : Json → Option α} {a : α} {P : Prop}
    (only : ∀ {v : Json}, v.Finite → read v = some a → P) (readable : P → Json.Readable (write a))
    (back : P → read (write a) = some a) {text : String}
    (htext : text ∈ [(write a).toCompactText, (write a).toIndentedText]) :
    (Json.ofText? text).bind read = some a ↔ P := by
  constructor
  · intro hread
    obtain ⟨v, hv, ha⟩ := Option.bind_eq_some_iff.mp hread
    exact only (Json.Finite.of_bytes hv) ha
  · intro hP
    have hv : Json.ofText? text = some (write a) := by
      simp only [List.mem_cons, List.not_mem_nil, or_false] at htext
      rcases htext with rfl | rfl
      · exact (readable hP).ofText?_compact
      · exact (readable hP).ofText?_indented
    rw [hv, Option.bind_some, back hP]

theorem Dataset.read_iff {d : Dataset} (h : d.PartsReadBack) {text : String}
    (htext : text ∈ [d.toJson.toCompactText, d.toJson.toIndentedText]) :
    (Json.ofText? text).bind Dataset.ofJson? = some d ↔ d.Faithful := by
  refine GridCatalog.read_iff (fun hv hd => faithful_of_ofJson? hv hd) (fun faithful => d.readable h faithful.finite)
    (fun faithful => ?_) htext
  rw [ofJson?_toJson h faithful.finite, FaithfulRows.map_readRow faithful]

theorem Entry.read_iff {e : Entry} (h : e.PartsReadBack) {text : String}
    (htext : text ∈ [e.toJson.toCompactText, e.toJson.toIndentedText]) :
    (Json.ofText? text).bind Entry.ofJson? = some e ↔ e.Faithful := by
  refine GridCatalog.read_iff (fun hv he => faithful_of_ofJson? hv he) (fun faithful => e.readable h faithful.finite)
    (fun faithful => ?_) htext
  rw [ofJson?_toJson h faithful.finite, FaithfulRows.map_readRow faithful]

/-- Records come back from their texts exactly if their rows are faithful, and all that are built from grids or read
    from texts are. -/
theorem json_round_trip :
    (∀ d : Dataset, d.PartsReadBack → ∀ text ∈ [d.toJson.toCompactText, d.toJson.toIndentedText],
      ((Json.ofText? text).bind Dataset.ofJson? = some d ↔ d.Faithful)) ∧
    (∀ e : Entry, e.PartsReadBack → ∀ text ∈ [e.toJson.toCompactText, e.toJson.toIndentedText],
      ((Json.ofText? text).bind Entry.ofJson? = some e ↔ e.Faithful)) ∧
    (∀ settings name userId grid d, Dataset.ofGrid? settings name userId grid = some d → ∀ edits,
      (d.edited edits).Faithful ∧
        ∀ id provenance sourceId, (Entry.preview id (d.edited edits) provenance sourceId).Faithful) ∧
    (∀ bytes d, (Json.ofBytes? bytes).bind Dataset.ofJson? = some d → d.Faithful) ∧
    (∀ bytes e, (Json.ofBytes? bytes).bind Entry.ofJson? = some e → e.Faithful) := by
  refine ⟨fun d h text htext => d.read_iff h htext, fun e h text htext => e.read_iff h htext,
    fun settings name userId grid d h edits => ?_, fun bytes d h => ?_, fun bytes e h => ?_⟩
  · have faithful := (Dataset.faithful_ofGrid? h).edited edits
    exact ⟨faithful, faithful.preview⟩
  · obtain ⟨v, hv, hd⟩ := Option.bind_eq_some_iff.mp h
    exact Dataset.faithful_of_ofJson? (Json.Finite.of_bytes hv) hd
  · obtain ⟨v, hv, he⟩ := Option.bind_eq_some_iff.mp h
    exact Entry.faithful_of_ofJson? (Json.Finite.of_bytes hv) he

open Json in
theorem numberReadsBack_five_halves : NumberReadsBack 2.5 := by
  have quotient : divideByTenTo (Float.ofNat 25) 1 = 2.5 := by
    rw [divideByTenTo, if_pos (by decide)]
    decide +kernel
  have parts : numberParts? ['2', '.', '5'] = some ⟨false, ['2'], some ['5'], none⟩ := by decide +kernel
  have value : NumberParts.value? ⟨false, ['2'], some ['5'], none⟩ = some (.double 2.5) := by
    rw [← quotient]
    rfl
  have word : wordValue? ['2', '.', '5'] = some (ofFloat 2.5) := by
    rw [wordValue?_cons (by decide), parts, Option.map_some, value]
    rfl
  have text : (ofFloat 2.5).toCompactText = String.ofList ['2', '.', '5'] := by decide +kernel
  rw [NumberReadsBack, text, ofText?_word (List.all_eq_true.mp rfl), word]

/-- The gap at the end of a column of texts comes back with its kind. -/
theorem json_round_trip_ragged :
    ∃ d, Dataset.ofGrid? .default "sheet" "me" [["size", "town"], ["1.5", "Rome"], ["2.5"]] = some d ∧
      (d.edited [.page 1 2]).body = [[.numbers [2.5], .texts []]] ∧
      (Json.ofText? (d.edited [.page 1 2]).toJson.toIndentedText).bind Dataset.ofJson? = some (d.edited [.page 1 2]) ∧
      ∀ e, e = Entry.preview "" (d.edited [.page 1 2]) .uploadedFile "towns.csv" →
        (Json.ofText? e.toJson.toCompactText).bind Entry.ofJson? = some e := by
  let header : List Column := [.atPosition "size" 0 .numbers, .atPosition "town" 1 .texts]
  let d : Dataset := .new "sheet" "me" header [[.numbers [1.5], .texts ["Rome"]], [.numbers [2.5], .texts []]]
  have hd : Dataset.ofGrid? .default "sheet" "me" [["size", "town"], ["1.5", "Rome"], ["2.5"]] = some d := by
    decide +kernel
  obtain ⟨datasets, entries, grids, -, -⟩ := json_round_trip
  obtain ⟨faithful, previews⟩ := grids _ _ _ _ _ hd [.page 1 2]
  have page : d.edited [.page 1 2] = .new "sheet" "me" header [[.numbers [2.5], .texts []]] := rfl
  have rows : RowsReadBack header [[.numbers [2.5], .texts []]] := by
    refine ⟨fun c hc => ?_, fun row hrow cell hcell x hx _ => ?_⟩
    · simp only [header, List.mem_cons, List.not_mem_nil, or_false] at hc
      rcases hc with rfl | rfl <;> exact ⟨by decide, by decide⟩
    · obtain rfl := List.mem_singleton.mp hrow
      simp only [List.mem_cons, List.not_mem_nil, or_false] at hcell
      rcases hcell with rfl | rfl
      · obtain rfl := List.mem_singleton.mp hx
        exact numberReadsBack_five_halves
      · cases hx
  refine ⟨d, hd, rfl, ?_⟩
  rw [page] at faithful previews ⊢
  have size : (1 : Nat) < Text.natBound64 := by decide
  have noTime : ∀ t ∈ (none : Option Instant), TimeReadsBack t := fun t ht => by cases ht
  have last {a b : String} : b ∈ [a, b] := List.mem_cons_of_mem _ List.mem_cons_self
  refine ⟨(datasets _ ⟨rows, noTime, noTime⟩ _ last).mpr faithful, fun e he => ?_⟩
  subst he
  exact (entries _ ⟨rows, size, noTime, noTime, noTime, noTime⟩ _ List.mem_cons_self).mpr (previews _ _ _)

end GridCatalog
