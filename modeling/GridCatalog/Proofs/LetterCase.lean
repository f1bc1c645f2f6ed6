import GridCatalog.Proofs.RangeText
import GridCatalog.Text.Lower

/-! Words in any case.

    A text is put into lower case by the tables of Unicode, but only letters of ASCII become letters of ASCII, apart from
    the sign for the kelvin, which becomes a k. So a word without a k is found in a text exactly if the text has the
    same letters of ASCII, in either case (`lower_eq_iff`). -/

namespace GridCatalog.Text
variable {c d : Char} {t w before behind : List Char}

/-- Small letters other than k, and digits. -/
def IsWordLetter (c : Char) : Prop := c.isAlphanum ∧ c ≠ 'k'

instance : Decidable (IsWordLetter c) := inferInstanceAs (Decidable (_ ∧ _))

theorem IsWordLetter.ascii (h : IsWordLetter c) : 48 ≤ c.toNat ∧ c.toNat < 128 :=
  CellRange.of_ascii (p := fun c => c.isAlphanum → 48 ≤ c.toNat ∧ c.toNat < 128) (by decide +kernel) h.1 h.1

theorem lowerChar_of_ascii (h : c.toNat < 128) : lowerChar c = c.toLower :=
  CellRange.of_toNat_lt (p := fun c => lowerChar c = c.toLower) (by decide +kernel) h

theorem lowerBetween_of_ascii (h : c.toNat < 128) : lowerBetween before c behind = [c.toLower] := by
  have dotless : c ≠ '\u0130' := by
    rintro rfl
    revert h
    decide
  have other : c ≠ 'Σ' := by
    rintro rfl
    revert h
    decide
  rw [lowerBetween, if_neg dotless, if_neg (by simp [other]), lowerChar_of_ascii h]

/-- Characters beyond ASCII stay there, but for the sign for the kelvin. -/
theorem lowerDistance_beyond {n : Nat} (h : 128 ≤ n) :
    128 ≤ n + lowerDistance n ∨ n + lowerDistance n = 'k'.toNat := by
  have capitals : ∀ r ∈ capitalRuns, r.2.1 < 128 ∨ 128 ≤ r.1 + r.2.2 ∨ r = (0x212A, 0x212A, -8383) := by decide +kernel
  have alternating : ∀ r ∈ alternatingRuns, 128 ≤ r.1 + r.2.2 := by decide +kernel
  unfold lowerDistance
  split
  · rename_i r hr
    have inside := List.find?_some hr
    simp only [Bool.and_eq_true, decide_eq_true_eq] at inside
    rcases capitals r (List.mem_of_find?_eq_some hr) with low | high | rfl
    · omega
    · omega
    · have kelvin : n = 0x212A := Nat.le_antisymm inside.2 inside.1
      rw [kelvin]
      exact .inr rfl
  split
  · rename_i r hr
    have inside := List.find?_some hr
    simp only [Bool.and_eq_true, decide_eq_true_eq] at inside
    have := alternating r (List.mem_of_find?_eq_some hr)
    omega
  · omega

theorem lowerChar_beyond (h : 128 ≤ c.toNat) : ¬IsWordLetter (lowerChar c) := by
  intro letter
  have ascii := letter.ascii
  rcases lowerDistance_beyond h with high | kelvin
  · -- A number without a character becomes the character 0.
    rw [lowerChar] at ascii
    by_cases valid : (c.toNat + lowerDistance c.toNat).toNat.isValidChar
    · rw [Char.ofNat, dif_pos valid] at ascii
      change _ ∧ (c.toNat + lowerDistance c.toNat).toNat < 128 at ascii
      omega
    · rw [Char.ofNat, dif_neg valid] at ascii
      exact absurd ascii.1 (by decide)
  · refine letter.2 ?_
    rw [lowerChar, kelvin]
    rfl

theorem lowerBetween_beyond (h : 128 ≤ c.toNat) : ∃ d ∈ lowerBetween before c behind, ¬IsWordLetter d := by
  unfold lowerBetween
  split
  · exact ⟨'\u0307', by simp, fun letter => absurd letter.ascii (by decide)⟩
  split
  · exact ⟨'ς', by simp, fun letter => absurd letter.ascii (by decide)⟩
  · exact ⟨lowerChar c, by simp, lowerChar_beyond h⟩

theorem lowerFrom_of_ascii (h : ∀ c ∈ t, c.toNat < 128) (before : List Char) :
    lowerFrom before t = t.map Char.toLower := by
  induction t generalizing before with
  | nil => rfl
  | cons c t ih =>
    rw [lowerFrom, lowerBetween_of_ascii (h c List.mem_cons_self), ih fun c hc => h c (List.mem_cons_of_mem _ hc)]
    rfl

theorem ascii_of_lowerFrom (letters : ∀ d ∈ lowerFrom before t, IsWordLetter d) : ∀ c ∈ t, c.toNat < 128 := by
  induction t generalizing before with
  | nil => exact fun c hc => nomatch hc
  | cons c t ih =>
    rw [lowerFrom, List.forall_mem_append] at letters
    refine List.forall_mem_cons.mpr ⟨?_, ih letters.2⟩
    by_contra beyond
    have exotic : ∃ d ∈ lowerBetween before c t, ¬IsWordLetter d := lowerBetween_beyond (Nat.le_of_not_lt beyond)
    obtain ⟨d, hd, none⟩ := exotic
    exact none (letters.1 d hd)

theorem ascii_of_toLower (h : IsWordLetter c.toLower) : c.toNat < 128 := by
  by_cases upper : c.isUpper
  · have letter : c.isAlphanum := CellRange.isAlphanum_of_isAlpha (Bool.or_eq_true_iff.mpr (Or.inl upper))
    exact CellRange.of_ascii (p := fun c => c.toNat < 128) (by decide +kernel) letter
  · have small : c.toLower = c := dif_neg fun capital => upper (decide_eq_true capital)
    rw [small] at h
    exact h.ascii.2

/-- A word is the lower case of a text exactly if the text has its letters, small or capital. -/
theorem lower_eq_iff (letters : ∀ c ∈ w, IsWordLetter c) : lower t = w ↔ t.map Char.toLower = w := by
  constructor
  · rintro rfl
    exact (lowerFrom_of_ascii (ascii_of_lowerFrom letters) []).symm
  · rintro rfl
    refine lowerFrom_of_ascii (fun c hc => ascii_of_toLower ?_) []
    exact letters _ (List.mem_map_of_mem hc)

end GridCatalog.Text
