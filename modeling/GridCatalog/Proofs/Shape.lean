import Mathlib.Data.List.TakeWhile
import GridCatalog.Inference.Pattern

/-! The shapes of texts, as forms that a text can be written in.

    `isBracketed`, `isNumberList` and `isPlainNumber` decide three of them. A list is taken apart in two steps: what
    is left when the padding is dropped (`Text.Stripped`, which determines it) is cut at its commas. -/

namespace GridCatalog

namespace Text
variable {p : Char → Bool} {s t : List Char}

/-- `t` is what is left of `s` when characters with `p` are dropped at both ends. -/
structure Stripped (p : Char → Bool) (s t : List Char) : Prop where
  around : ∃ front back, s = front ++ t ++ back ∧ (∀ c ∈ front, p c = true) ∧ ∀ c ∈ back, p c = true
  first : ∀ c ∈ t.head?, p c = false
  last : ∀ c ∈ t.getLast?, p c = false

theorem head?_dropWhile (p : Char → Bool) (s : List Char) : ∀ c ∈ (s.dropWhile p).head?, p c = false := by
  intro c hc
  have := List.head?_dropWhile_not p s
  rwa [Option.mem_def.mp hc] at this

theorem getLast?_trimEnd (p : Char → Bool) (s : List Char) : ∀ c ∈ (trimEnd p s).getLast?, p c = false := by
  intro c hc
  rw [trimEnd, List.getLast?_reverse] at hc
  exact head?_dropWhile p s.reverse c hc

theorem exists_trimEnd_append (p : Char → Bool) (s : List Char) :
    ∃ back, s = trimEnd p s ++ back ∧ ∀ c ∈ back, p c = true := by
  refine ⟨(s.reverse.takeWhile p).reverse, ?_, ?_⟩
  · rw [trimEnd, ← List.reverse_append, List.takeWhile_append_dropWhile, List.reverse_reverse]
  · intro c hc
    exact List.mem_takeWhile_imp (List.mem_reverse.mp hc)

theorem stripped_trimEnds (p : Char → Bool) (s : List Char) : Stripped p s (trimEnds p s) where
  around := by
    obtain ⟨back, hs, hback⟩ := exists_trimEnd_append p (s.dropWhile p)
    refine ⟨s.takeWhile p, back, ?_, fun c hc => List.mem_takeWhile_imp hc, hback⟩
    rw [trimEnds, List.append_assoc, ← hs, List.takeWhile_append_dropWhile]
  first := by
    intro c hc
    refine head?_dropWhile p s c ?_
    -- Nothing stands in front of what `trimEnd` leaves.
    obtain ⟨back, hs, -⟩ := exists_trimEnd_append p (s.dropWhile p)
    have hhead : (trimEnd p (s.dropWhile p)).head? = some c := hc
    rw [hs, List.head?_append, hhead]
    rfl
  last := getLast?_trimEnd p _

/-- There is only one way to strip a text. -/
theorem Stripped.eq (h : Stripped p s t) : t = trimEnds p s := by
  obtain ⟨⟨front, back, rfl, hfront, hback⟩, hfirst, hlast⟩ := h
  rw [trimEnds, List.append_assoc, List.dropWhile_append_of_pos hfront]
  cases t with
  | nil =>
    have hnil : back.dropWhile p = [] := List.dropWhile_eq_nil_iff.mpr hback
    rw [List.nil_append, hnil, trimEnd_nil]
  | cons c t =>
    have hkept : (c :: t ++ back).dropWhile p = c :: t ++ back :=
      List.dropWhile_cons_of_neg (by simp [hfirst c rfl])
    rw [hkept, trimEnd, List.reverse_append,
      List.dropWhile_append_of_pos fun c hc => hback c (List.mem_reverse.mp hc)]
    have hend := trimEnds_eq_self hfirst hlast
    rw [trimEnds, List.dropWhile_cons_of_neg (by simp [hfirst c rfl])] at hend
    exact hend.symm

theorem glue_eq_intercalate (sep : Char) (parts : List (List Char)) : glue sep parts = [sep].intercalate parts := by
  induction parts with
  | nil => rfl
  | cons part parts ih =>
    cases parts with
    | nil => simp [glue]
    | cons next parts => rw [glue, ih, List.intercalate_cons_cons, List.append_assoc, List.singleton_append]

theorem pieces_eq_splitOn (sep : Char) (s : List Char) : pieces sep s = s.splitOn sep := by
  have h := List.splitOn_intercalate sep (fun part hpart => sep_notMem_of_mem_pieces hpart) (pieces_ne_nil sep s)
  rw [← glue_eq_intercalate, glue_pieces] at h
  exact h.symm

end Text

namespace Inference
variable {s inner content : List Char}

/-- A text in brackets, without a line feed. -/
def InBrackets (s : List Char) : Prop := ∃ inner, s = '[' :: (inner ++ [']']) ∧ '\n' ∉ inner

/-- A text in brackets, without a line feed and with a digit first. -/
def DigitInBrackets (s : List Char) : Prop :=
  ∃ digit inner, s = '[' :: digit :: (inner ++ [']']) ∧ digit.isDigit = true ∧ '\n' ∉ inner

/-- A text of digits, points, commas and dashes. -/
def OfNumberMarks (s : List Char) : Prop := ∀ c ∈ s, c.isDigit = true ∨ c ∈ ['.', ',', '-']

theorem bracketed?_eq_some : bracketed? s = some inner ↔ s = '[' :: (inner ++ [']']) ∧ '\n' ∉ inner := by
  constructor
  · intro h
    unfold bracketed? at h
    split at h
    · rename_i rest
      split at h
      · rename_i inner' hrest
        split at h
        · cases h
        · cases h
          rename_i hline
          have : rest = inner'.reverse ++ [']'] := by rw [← List.reverse_reverse rest, hrest, List.reverse_cons]
          exact ⟨by rw [this], fun hm => hline (List.mem_reverse.mp hm)⟩
      · cases h
    · cases h
  · rintro ⟨rfl, hline⟩
    have : (inner ++ [']']).reverse = ']' :: inner.reverse := by simp
    simp only [bracketed?, this, List.mem_reverse, if_neg hline, List.reverse_reverse]

theorem isBracketed_iff : isBracketed s = true ↔ InBrackets s := by
  rw [isBracketed, Option.isSome_iff_exists]
  exact exists_congr fun _ => bracketed?_eq_some

theorem lineFeed_notMem_cons {digit : Char} (hdigit : digit.isDigit = true) (hline : '\n' ∉ inner) :
    '\n' ∉ digit :: inner := by
  rw [List.mem_cons, not_or]
  refine ⟨?_, hline⟩
  rintro rfl
  cases hdigit

theorem isNumberList_iff : isNumberList s = true ↔ DigitInBrackets s := by
  rw [isNumberList, Option.any_eq_true]
  constructor
  · rintro ⟨inner, hs, hdigit⟩
    rw [Option.any_eq_true] at hdigit
    obtain ⟨digit, hhead, hdigit⟩ := hdigit
    obtain ⟨inner, rfl⟩ := List.head?_eq_some_iff.mp hhead
    obtain ⟨rfl, hline⟩ := bracketed?_eq_some.mp hs
    exact ⟨digit, inner, rfl, hdigit, fun hm => hline (List.mem_cons_of_mem _ hm)⟩
  · rintro ⟨digit, inner, rfl, hdigit, hline⟩
    exact ⟨digit :: inner, bracketed?_eq_some.mpr ⟨rfl, lineFeed_notMem_cons hdigit hline⟩, hdigit⟩

theorem isPlainNumber_iff : isPlainNumber s = true ↔ OfNumberMarks s := by
  simp [isPlainNumber, OfNumberMarks, or_assoc]

theorem inBrackets_of_digit (h : DigitInBrackets s) : InBrackets s := by
  obtain ⟨digit, inner, rfl, hdigit, hline⟩ := h
  exact ⟨digit :: inner, rfl, lineFeed_notMem_cons hdigit hline⟩

theorem not_ofNumberMarks (h : InBrackets s) : ¬OfNumberMarks s := by
  obtain ⟨inner, rfl, -⟩ := h
  intro h
  have := h '[' List.mem_cons_self
  simp at this

theorem listParts_eq (h : Text.Stripped isListPadding s content) : listParts s = content.splitOn ',' := by
  rw [listParts, Text.pieces_eq_splitOn, h.eq]

/-- No comma is dropped from a list with the padding. -/
theorem length_listParts (s : List Char) : (listParts s).length = s.count ',' + 1 := by
  obtain ⟨front, back, hs, hfront, hback⟩ := (Text.stripped_trimEnds isListPadding s).around
  have none_of {l : List Char} (hl : ∀ c ∈ l, isListPadding c = true) : l.count ',' = 0 := by
    rw [List.count_eq_zero]
    intro hm
    cases hl ',' hm
  have hcount := congrArg (List.count ',') hs
  rw [List.count_append, List.count_append, none_of hfront, none_of hback, Nat.zero_add, Nat.add_zero] at hcount
  rw [listParts, Text.length_pieces, hcount]

end Inference

end GridCatalog
