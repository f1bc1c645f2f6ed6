import GridCatalog.Proofs.RangeText
import GridCatalog.Text.Numeral

/-! Which texts are whole numbers, and which number a text is.

    The bounded readers accept exactly the runs of digits, behind an optional sign, whose number fits, and the decimal
    text of a number is one of them. -/

namespace GridCatalog.Text
variable {bound n m : Nat} {z : Int} {s : List Char} {c : Char}

/-- A nonempty run of digits and its number. -/
structure IsNumeral (s : List Char) (n : Nat) : Prop where
  nonempty : s ≠ []
  decimal : ∀ c ∈ s, c.isDigit
  value : Nat.ofDigitChars 10 s 0 = n

/-- A numeral, maybe behind a `+`. -/
def IsUnsigned (s : List Char) (n : Nat) : Prop :=
  ∃ numeral, (s = numeral ∨ s = '+' :: numeral) ∧ IsNumeral numeral n

/-- A numeral, maybe behind a sign. -/
def IsSigned (s : List Char) (z : Int) : Prop :=
  (∃ n : Nat, IsUnsigned s n ∧ z = n) ∨ ∃ numeral, ∃ n : Nat, s = '-' :: numeral ∧ IsNumeral numeral n ∧ z = -n

theorem isDigit_of_isNumeral (h : IsNumeral (c :: s) n) : c.isDigit := h.decimal c List.mem_cons_self

theorem IsSigned.ne_nil (h : IsSigned s z) : s ≠ [] := by
  rcases h with ⟨n, ⟨numeral, rfl | rfl, digits⟩, -⟩ | ⟨numeral, n, rfl, -⟩
  · exact digits.nonempty
  · exact List.cons_ne_nil _ _
  · exact List.cons_ne_nil _ _

/-! ### Reading -/

theorem numeral?_eq_some : numeral? s = some n ↔ IsNumeral s n := by
  unfold numeral?
  split
  · rename_i h
    constructor
    · rintro ⟨⟩
    · intro numeral
      rw [Bool.or_eq_true, Bool.not_eq_true', List.isEmpty_iff] at h
      rcases h with none | other
      · exact absurd none numeral.nonempty
      · rw [List.all_eq_true.mpr numeral.decimal] at other
        cases other
  · rename_i h
    rw [Bool.or_eq_true, not_or, List.isEmpty_iff, Bool.not_eq_true', Bool.not_eq_false] at h
    rw [Option.some.injEq]
    exact ⟨fun value => ⟨h.1, List.all_eq_true.mp h.2, value⟩, fun numeral => numeral.value⟩

theorem unsigned?_eq_some : unsigned? bound s = some n ↔ IsUnsigned s n ∧ n < bound := by
  have bounded (numeral : List Char) :
      ((numeral? numeral).bind fun n => if n < bound then some n else none) = some n ↔
        IsNumeral numeral n ∧ n < bound := by
    simp only [Option.bind_eq_some_iff, numeral?_eq_some, Option.ite_none_right_eq_some, Option.some.injEq]
    constructor
    · rintro ⟨m, numeral, fits, rfl⟩
      exact ⟨numeral, fits⟩
    · rintro ⟨numeral, fits⟩
      exact ⟨n, numeral, fits, rfl⟩
  unfold unsigned?
  dsimp only
  split
  · rename_i rest
    rw [bounded]
    constructor
    · rintro ⟨numeral, fits⟩
      exact ⟨⟨rest, .inr rfl, numeral⟩, fits⟩
    · rintro ⟨⟨numeral, rfl | signed, digits⟩, fits⟩
      · cases isDigit_of_isNumeral digits
      · cases signed
        exact ⟨digits, fits⟩
  · rename_i unsigned
    rw [bounded]
    constructor
    · rintro ⟨numeral, fits⟩
      exact ⟨⟨s, .inl rfl, numeral⟩, fits⟩
    · rintro ⟨⟨numeral, rfl | rfl, digits⟩, fits⟩
      · exact ⟨digits, fits⟩
      · exact absurd rfl (unsigned numeral)

theorem isSigned_minus : IsSigned ('-' :: s) z ↔ ∃ n : Nat, IsNumeral s n ∧ z = -n := by
  constructor
  · rintro (⟨n, ⟨numeral, rfl | plus, digits⟩, -⟩ | ⟨numeral, n, minus, digits, rfl⟩)
    · cases isDigit_of_isNumeral digits
    · cases plus
    · cases minus
      exact ⟨n, digits, rfl⟩
  · rintro ⟨n, digits, rfl⟩
    exact .inr ⟨s, n, rfl, digits, rfl⟩

theorem isSigned_of_ne_minus (h : ∀ numeral, s ≠ '-' :: numeral) :
    IsSigned s z ↔ ∃ n : Nat, IsUnsigned s n ∧ z = n := by
  constructor
  · rintro (natural | ⟨numeral, n, minus, -⟩)
    · exact natural
    · exact absurd minus (h numeral)
  · exact .inl

theorem signed?_eq_some (some_fit : 0 < bound) :
    signed? bound s = some z ↔ IsSigned s z ∧ -(bound : Int) ≤ z ∧ z < bound := by
  unfold signed?
  split
  · rename_i rest
    simp only [isSigned_minus, Option.bind_eq_some_iff, numeral?_eq_some, Option.ite_none_right_eq_some,
      Option.some.injEq]
    constructor
    · rintro ⟨n, digits, fits, rfl⟩
      exact ⟨⟨n, digits, rfl⟩, by omega, by omega⟩
    · rintro ⟨⟨n, digits, rfl⟩, low, -⟩
      exact ⟨n, digits, by omega, rfl⟩
  · rename_i natural
    simp only [isSigned_of_ne_minus natural, Option.map_id', Option.bind_eq_bind, Option.pure_def,
      Option.bind_eq_some_iff, unsigned?_eq_some, Option.some.injEq]
    constructor
    · rintro ⟨n, ⟨unsigned, fits⟩, rfl⟩
      exact ⟨⟨n, unsigned, rfl⟩, by omega, by omega⟩
    · rintro ⟨⟨n, unsigned, rfl⟩, -, high⟩
      exact ⟨n, ⟨unsigned, by omega⟩, rfl⟩

/-! ### Writing -/

theorem isDigit_of_mem_digits (h : c ∈ digits n) : c.isDigit := Nat.isDigit_of_mem_toDigits (by decide) (by decide) h

theorem isNumeral_digits (n : Nat) : IsNumeral (digits n) n where
  nonempty := digits_ne_nil n
  decimal _ hc := isDigit_of_mem_digits hc
  value := ofDigitChars_digits n

theorem isUnsigned_digits (n : Nat) : IsUnsigned (digits n) n := ⟨digits n, .inl rfl, isNumeral_digits n⟩

theorem isSigned_intText (z : Int) : IsSigned (intText z).toList z := by
  cases z with
  | ofNat n =>
    rw [intText, natText, String.toList_ofList]
    exact .inl ⟨n, isUnsigned_digits n, rfl⟩
  | negSucc n =>
    rw [intText, String.toList_ofList]
    exact isSigned_minus.mpr ⟨n + 1, isNumeral_digits (n + 1), rfl⟩

theorem mem_intText (h : c ∈ (intText z).toList) : c = '-' ∨ c.isDigit := by
  cases z with
  | ofNat n =>
    rw [intText, natText, String.toList_ofList] at h
    exact .inr (isDigit_of_mem_digits h)
  | negSucc n =>
    rw [intText, String.toList_ofList, List.mem_cons] at h
    exact h.imp_right isDigit_of_mem_digits

end GridCatalog.Text
