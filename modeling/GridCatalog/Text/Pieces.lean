/-! Splitting a list at a separator and joining it again.

    `pieces sep` cuts at every occurrence of `sep`, so a list with `n` separators has `n + 1`
    pieces, none of which holds the separator, and `glue sep` undoes it. -/

namespace GridCatalog.Text

variable {α : Type} [DecidableEq α]

/-- The parts of a list between the occurrences of `sep`; the empty list has one empty part. -/
def pieces (sep : α) : List α → List (List α)
  | [] => [[]]
  | a :: rest =>
    match pieces sep rest with
    | [] => [[a]]
    | part :: parts => if a = sep then [] :: part :: parts else (a :: part) :: parts

/-- Parts written after each other with `sep` between them. -/
def glue (sep : α) : List (List α) → List α
  | [] => []
  | [part] => part
  | part :: next :: parts => part ++ sep :: glue sep (next :: parts)

theorem pieces_nil (sep : α) : pieces sep [] = [[]] := rfl

theorem pieces_cons (sep a : α) (rest : List α) : pieces sep (a :: rest) =
    match pieces sep rest with
    | [] => [[a]]
    | part :: parts => if a = sep then [] :: part :: parts else (a :: part) :: parts := rfl

theorem pieces_ne_nil (sep : α) (s : List α) : pieces sep s ≠ [] := by
  cases s with
  | nil => simp [pieces_nil]
  | cons a rest =>
    simp only [pieces_cons]
    split
    · simp
    · split <;> simp

/-- Cutting and joining gives the text back. -/
theorem glue_pieces (sep : α) (s : List α) : glue sep (pieces sep s) = s := by
  induction s with
  | nil => rfl
  | cons a rest ih =>
    simp only [pieces_cons]
    split
    · rename_i h; exact absurd h (pieces_ne_nil sep rest)
    · rename_i part parts h
      rw [h] at ih
      split
      · rename_i ha; subst ha; simp [glue, ih]
      · cases parts with
        | nil => simp [glue] at ih ⊢; exact ih
        | cons next others => simp only [glue, List.cons_append] at ih ⊢; rw [ih]

/-- A joined text begins with its first part. -/
theorem glue_cons {α : Type} (sep : α) (part : List α) (parts : List (List α)) :
    ∃ rest, glue sep (part :: parts) = part ++ rest := by
  cases parts with
  | nil => exact ⟨[], (List.append_nil _).symm⟩
  | cons next parts => exact ⟨sep :: glue sep (next :: parts), rfl⟩

/-- What stands in a joined text is a separator or stands in a part. -/
theorem mem_glue {α : Type} {sep a : α} {parts : List (List α)} (h : a ∈ glue sep parts) :
    a = sep ∨ ∃ part ∈ parts, a ∈ part := by
  induction parts with
  | nil => cases h
  | cons part parts ih =>
    cases parts with
    | nil => exact Or.inr ⟨part, List.mem_cons_self, h⟩
    | cons next parts =>
      rw [glue, List.mem_append, List.mem_cons] at h
      obtain h | rfl | h := h
      · exact Or.inr ⟨part, List.mem_cons_self, h⟩
      · exact Or.inl rfl
      · obtain heq | ⟨part', hpart, h⟩ := ih h
        · exact Or.inl heq
        · exact Or.inr ⟨part', List.mem_cons_of_mem _ hpart, h⟩

/-- There is one part more than there are separators. -/
theorem length_pieces (sep : α) (s : List α) : (pieces sep s).length = s.count sep + 1 := by
  induction s with
  | nil => rfl
  | cons a rest ih =>
    simp only [pieces_cons]
    split
    · rename_i h; exact absurd h (pieces_ne_nil sep rest)
    · rename_i part parts h
      rw [h] at ih
      split
      · rename_i ha; subst ha; simp at ih ⊢; omega
      · rename_i ha; simp [List.count_cons_of_ne ha] at ih ⊢; exact ih

/-- No part holds the separator. -/
theorem sep_notMem_of_mem_pieces {sep : α} {s part : List α} (h : part ∈ pieces sep s) :
    sep ∉ part := by
  induction s generalizing part with
  | nil => simp [pieces_nil] at h; simp [h]
  | cons a rest ih =>
    simp only [pieces_cons] at h
    split at h
    · rename_i hn; exact absurd hn (pieces_ne_nil sep rest)
    · rename_i p ps hp
      rw [hp] at ih
      split at h
      · rcases List.mem_cons.1 h with rfl | h
        · simp
        · exact ih h
      · rename_i ha
        rcases List.mem_cons.1 h with rfl | h
        · have := @ih p (by simp)
          simp only [List.mem_cons, not_or]
          exact ⟨fun e => ha e.symm, this⟩
        · exact ih (by simp [h])

/-- A list without the separator is its only part. -/
theorem pieces_of_notMem {sep : α} {s : List α} (h : sep ∉ s) : pieces sep s = [s] := by
  induction s with
  | nil => rfl
  | cons a rest ih =>
    have ha : ¬a = sep := fun e => h (e ▸ List.mem_cons_self)
    rw [pieces_cons, ih fun hm => h (List.mem_cons_of_mem _ hm)]
    exact if_neg ha

/-- The parts in front of a separator and behind it are cut independently. -/
theorem pieces_append (sep : α) (s t : List α) :
    pieces sep (s ++ sep :: t) = pieces sep s ++ pieces sep t := by
  induction s with
  | nil =>
    simp only [List.nil_append, pieces_cons]
    split
    · rename_i h; exact absurd h (pieces_ne_nil sep t)
    · rename_i h; simp [pieces_nil, h]
  | cons a rest ih =>
    simp only [List.cons_append, pieces_cons, ih]
    split
    · rename_i h; simp [pieces_ne_nil] at h
    · rename_i part parts h
      cases hp : pieces sep rest with
      | nil => exact absurd hp (pieces_ne_nil sep rest)
      | cons next others =>
        rw [hp, List.cons_append, List.cons.injEq] at h
        obtain ⟨rfl, rfl⟩ := h
        split <;> rfl

/-- The last part is empty if nothing stands behind the last separator. -/
theorem getLast?_pieces {sep : α} {s : List α} :
    (pieces sep s).getLast? = some [] ↔ s = [] ∨ s.getLast? = some sep := by
  by_cases h : sep ∈ s
  · obtain ⟨front, back, rfl, hback⟩ : ∃ front back, s = front ++ sep :: back ∧ sep ∉ back := by
      induction s with
      | nil => cases h
      | cons a rest ih =>
        by_cases hr : sep ∈ rest
        · obtain ⟨front, back, rfl, hb⟩ := ih hr
          exact ⟨a :: front, back, rfl, hb⟩
        · obtain rfl : sep = a := (List.mem_cons.1 h).resolve_right hr
          exact ⟨[], rest, rfl, hr⟩
    rw [pieces_append, pieces_of_notMem hback]
    cases back with
    | nil => simp
    | cons b back =>
      have : (b :: back).getLast? ≠ some sep := fun e => hback (List.mem_of_getLast? e)
      simp_all [List.getLast?_append, List.getLast?_cons_cons]
  · rw [pieces_of_notMem h]
    have : s.getLast? ≠ some sep := fun e => h (List.mem_of_getLast? e)
    simp [this]

end GridCatalog.Text
