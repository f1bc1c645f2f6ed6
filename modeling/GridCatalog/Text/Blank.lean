/-! Blank characters and the ends of a text.

    A character is blank when Unicode gives it the property White_Space. `trimEnds p` drops the
    characters with `p` from both ends and keeps what lies between, also when that has `p`. -/

namespace GridCatalog.Text

/-- The code points with the Unicode property White_Space, as ranges with both ends included. -/
def blankRanges : List (Nat × Nat) :=
  [(0x09, 0x0D), (0x20, 0x20), (0x85, 0x85), (0xA0, 0xA0), (0x1680, 0x1680), (0x2000, 0x200A),
   (0x2028, 0x2029), (0x202F, 0x202F), (0x205F, 0x205F), (0x3000, 0x3000)]

/-- Whether a character has the Unicode property White_Space. -/
def isBlank (c : Char) : Bool :=
  blankRanges.any fun r => decide (r.1 ≤ c.toNat) && decide (c.toNat ≤ r.2)

/-- Drops the characters with `p` at the end. -/
def trimEnd (p : Char → Bool) (s : List Char) : List Char := (s.reverse.dropWhile p).reverse

/-- Drops the characters with `p` at both ends. -/
def trimEnds (p : Char → Bool) (s : List Char) : List Char := trimEnd p (s.dropWhile p)

def trim (s : List Char) : List Char := trimEnds isBlank s

theorem trimEnd_nil (p : Char → Bool) : trimEnd p [] = [] := rfl

theorem trimEnds_nil (p : Char → Bool) : trimEnds p [] = [] := rfl

/-- Nothing is dropped from a text none of whose ends has `p`. -/
theorem trimEnds_eq_self {p : Char → Bool} {s : List Char} (first : ∀ c ∈ s.head?, p c = false)
    (last : ∀ c ∈ s.getLast?, p c = false) : trimEnds p s = s := by
  cases s with
  | nil => rfl
  | cons c cs =>
    have hfirst : p c = false := first c (by simp)
    have hlast : ∀ d ∈ (c :: cs).reverse.head?, p d = false := by
      intro d hd; exact last d (by rwa [List.head?_reverse] at hd)
    unfold trimEnds trimEnd
    rw [List.dropWhile_cons_of_neg (by simp [hfirst])]
    cases hr : (c :: cs).reverse with
    | nil => simp at hr
    | cons d ds =>
      rw [hr] at hlast
      have hd : p d = false := hlast d (by simp)
      rw [List.dropWhile_cons_of_neg (by simp [hd]), ← hr, List.reverse_reverse]

/-- A character without `p` is not dropped. -/
theorem mem_trimEnds {p : Char → Bool} {s : List Char} {c : Char} (hc : c ∈ s) (h : p c = false) :
    c ∈ trimEnds p s := by
  have stays : ∀ {s : List Char}, c ∈ s → c ∈ s.dropWhile p := fun {s} hc => by
    induction s with
    | nil => cases hc
    | cons a s ih =>
      rw [List.dropWhile_cons]
      split
      · rename_i ha
        exact ih ((List.mem_cons.mp hc).resolve_left fun heq => by simp [heq ▸ h] at ha)
      · exact hc
  exact List.mem_reverse.mpr (stays (List.mem_reverse.mpr (stays hc)))

end GridCatalog.Text
