import Mathlib.Data.List.Nodup
import GridCatalog.Query

/-! Queries do not depend on the order in which entries are kept.

    Entries are sorted by time and, at the same time, by id. Among entries with distinct ids this is a
    linear order, so there is only one way to sort them (`page_perm`). -/

namespace GridCatalog.Query

/-- A number that orders times; no time has the least. -/
def timeKey : Option Instant → Int
  | none => Instant.firstDay * 86400 * 2000000000 - 1
  | some t => t.key

theorem isEarlier_iff (a b : Option Instant) : isEarlier a b ↔ timeKey a < timeKey b := by
  have least (t : Instant) : Instant.firstDay * 86400 * 2000000000 - 1 < t.key := by
    have := t.first_le
    simp only [Instant.key, Instant.firstDay]
    omega
  rcases a with _ | a <;> rcases b with _ | b <;> simp only [isEarlier, timeKey]
  · simp
  · simp [least b]
  · have := least a
    exact iff_of_false Bool.false_ne_true (by omega)
  · exact decide_eq_true_iff

/-- The number that a query sorts by first. -/
def place (order : EntryOrder) (e : Entry) : Int :=
  match order with
  | .oldestFirst => timeKey e.created
  | .newestFirst => -timeKey e.created

variable {order : EntryOrder} {a b c : Entry}

theorem precedes_iff :
    precedes order a b ↔ place order a < place order b ∨ place order a = place order b ∧ a.id ≤ b.id := by
  have split (x y : Option Instant) : (isEarlier x y || (!isEarlier y x && decide (a.id ≤ b.id))) = true ↔
      timeKey x < timeKey y ∨ timeKey x = timeKey y ∧ a.id ≤ b.id := by
    rw [Bool.or_eq_true, Bool.and_eq_true, Bool.not_eq_true', ← Bool.not_eq_true, isEarlier_iff, isEarlier_iff,
      decide_eq_true_iff]
    constructor
    · rintro (h | ⟨h, hid⟩)
      · exact Or.inl h
      · rcases Int.lt_or_le (timeKey x) (timeKey y) with hlt | hle
        · exact Or.inl hlt
        · exact Or.inr ⟨by omega, hid⟩
    · rintro (h | ⟨h, hid⟩)
      · exact Or.inl h
      · exact Or.inr ⟨by omega, hid⟩
  cases order with
  | oldestFirst => exact split _ _
  | newestFirst =>
    refine (split b.created a.created).trans ?_
    simp only [place]
    constructor <;> rintro (h | ⟨h, hid⟩)
    · exact Or.inl (by omega)
    · exact Or.inr ⟨by omega, hid⟩
    · exact Or.inl (by omega)
    · exact Or.inr ⟨by omega, hid⟩

theorem precedes_trans (hab : precedes order a b) (hbc : precedes order b c) : precedes order a c := by
  rw [precedes_iff] at hab hbc ⊢
  rcases hab with hab | ⟨hab, idab⟩ <;> rcases hbc with hbc | ⟨hbc, idbc⟩
  · exact Or.inl (by omega)
  · exact Or.inl (by omega)
  · exact Or.inl (by omega)
  · exact Or.inr ⟨by omega, String.le_trans idab idbc⟩

theorem precedes_total (order : EntryOrder) (a b : Entry) : precedes order a b || precedes order b a := by
  rw [Bool.or_eq_true, precedes_iff, precedes_iff]
  rcases Int.lt_trichotomy (place order a) (place order b) with h | h | h
  · exact Or.inl (Or.inl h)
  · exact (String.le_total a.id b.id).imp (fun hid => Or.inr ⟨h, hid⟩) fun hid => Or.inr ⟨h.symm, hid⟩
  · exact Or.inr (Or.inl h)

theorem id_eq_of_precedes (hab : precedes order a b) (hba : precedes order b a) : a.id = b.id := by
  rw [precedes_iff] at hab hba
  rcases hab with hab | ⟨hab, idab⟩ <;> rcases hba with hba | ⟨hba, idba⟩
  · omega
  · omega
  · omega
  · exact String.le_antisymm idab idba

theorem matching_perm (q : Query) {es fs : List Entry} (h : es.Perm fs) (distinct : (es.map Entry.id).Nodup) :
    q.matching es = q.matching fs := by
  have sorted (xs : List Entry) : (q.matching xs).Pairwise fun a b => precedes q.order a b = true := by
    refine List.pairwise_mergeSort ?_ (precedes_total q.order) _
    intro a b c hab hbc
    exact precedes_trans hab hbc
  have inside (xs : List Entry) : ∀ e ∈ q.matching xs, e ∈ xs := fun e he =>
    (List.mem_filter.mp (List.mem_mergeSort.mp he)).1
  -- Entries that precede each other have one id, and there is only one entry with it.
  refine List.Perm.eq_of_pairwise (fun a b ha hb hab hba => ?_) (sorted es) (sorted fs) ?_
  · exact List.inj_on_of_nodup_map distinct (inside es a ha) (h.mem_iff.mpr (inside fs b hb)) (id_eq_of_precedes hab hba)
  · exact ((List.mergeSort_perm _ _).trans (h.filter _)).trans (List.mergeSort_perm _ _).symm

/-- Entries with distinct ids give the same page in whatever order they come. -/
theorem page_perm (q : Query) {es fs : List Entry} (h : es.Perm fs) (distinct : (es.map Entry.id).Nodup) :
    q.page es = q.page fs := by
  rw [page, matching_perm q h distinct, page]

end GridCatalog.Query
