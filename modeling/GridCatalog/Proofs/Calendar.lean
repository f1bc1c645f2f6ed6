import Mathlib.Order.Monotone.Basic
import GridCatalog.Calendar.Date

/-! Dates and day numbers.

    Months follow each other without a gap: each starts on the day after the last one of the month before it
    (`monthStart_succ`). A valid date is the start of its month and a number of days below the length of the month, so
    its day number determines it, and each day number is that of a date (`toDay_ofDay`, `ofDay_toDay`). -/

namespace GridCatalog.Date

/-! ### Months -/

/-- The day number of the first day of a month, by the number of the month. -/
def monthStart (k : Int) : Int := daysBeforeYear (k / 12) + daysBeforeMonth (k / 12) ((k % 12).toNat + 1) - epoch

def monthLength (k : Int) : Nat := daysInMonth (k / 12) ((k % 12).toNat + 1)

theorem daysInMonth_bounds (year : Int) (month : Nat) : 28 ≤ daysInMonth year month ∧ daysInMonth year month ≤ 31 := by
  unfold daysInMonth
  split
  · split <;> omega
  all_goals omega

theorem daysBeforeMonth_succ (year : Int) (month : Nat) (h : 1 ≤ month) :
    daysBeforeMonth year (month + 1) = daysBeforeMonth year month + daysInMonth year month := by
  obtain ⟨m, rfl⟩ : ∃ m, month = m + 1 := ⟨month - 1, by omega⟩
  simp only [daysBeforeMonth, Nat.add_sub_cancel, List.range'_1_concat, List.foldl_append, List.foldl_cons,
    List.foldl_nil, Nat.add_comm 1 m]

def daysInYear (year : Int) : Nat := if isLeapYear year then 366 else 365

theorem daysBeforeYear_succ (year : Int) : daysBeforeYear (year + 1) = daysBeforeYear year + daysInYear year := by
  simp only [daysBeforeYear, daysInYear, isLeapYear, Bool.and_eq_true, Bool.or_eq_true, decide_eq_true_eq]
  split <;> omega

theorem daysBeforeMonth_end (year : Int) : daysBeforeMonth year 13 = daysInYear year := by
  unfold daysBeforeMonth daysInYear
  simp only [List.range', List.foldl, daysInMonth]
  split <;> rfl

theorem monthStart_succ (k : Int) : monthStart (k + 1) = monthStart k + monthLength k := by
  unfold monthStart monthLength
  by_cases last : k % 12 = 11
  · -- The month is a December, and a year starts with the next one.
    have year : (k + 1) / 12 = k / 12 + 1 := by omega
    have month : (k + 1) % 12 = 0 := by omega
    have december := daysBeforeMonth_succ (k / 12) 12 (by decide)
    rw [daysBeforeMonth_end] at december
    rw [year, month, last, daysBeforeYear_succ, december]
    change _ + ((0 : Nat) : Int) - epoch = _ + (daysBeforeMonth _ 12 : Int) - epoch + (daysInMonth _ 12 : Nat)
    omega
  · have year : (k + 1) / 12 = k / 12 := by omega
    have month : ((k + 1) % 12).toNat = (k % 12).toNat + 1 := by omega
    rw [year, month, daysBeforeMonth_succ _ _ (by omega)]
    omega

theorem monthLength_bounds (k : Int) : 28 ≤ monthLength k ∧ monthLength k ≤ 31 := daysInMonth_bounds _ _

/-- A month is over when a later one starts. -/
theorem monthEnd_le {k k' : Int} (h : k < k') : monthStart k + monthLength k ≤ monthStart k' := by
  have increasing : StrictMono monthStart := strictMono_int_of_lt_succ fun k => by
    have := (monthLength_bounds k).1
    rw [monthStart_succ]
    omega
  rw [← monthStart_succ]
  exact increasing.monotone h

theorem monthStart_le {k k' : Int} (h : k ≤ k') : monthStart k ≤ monthStart k' := by
  rcases Int.lt_or_eq_of_le h with h | rfl
  · have := monthEnd_le h
    omega
  · exact Int.le_refl _

/-! ### Day numbers of dates -/

variable {d d' : Date}

theorem isValid_iff : d.isValid ↔ (1 ≤ d.month ∧ d.month ≤ 12) ∧ 1 ≤ d.day ∧ d.day ≤ daysInMonth d.year d.month := by
  simp only [isValid, Bool.and_eq_true, decide_eq_true_eq]
  omega

section Valid
variable (valid : d.isValid)
include valid

theorem year_eq : d.monthNumber / 12 = d.year := by
  have := isValid_iff.mp valid
  unfold monthNumber
  omega

theorem month_eq : (d.monthNumber % 12).toNat + 1 = d.month := by
  have := isValid_iff.mp valid
  unfold monthNumber
  omega

theorem monthLength_monthNumber : monthLength d.monthNumber = daysInMonth d.year d.month := by
  rw [monthLength, year_eq valid, month_eq valid]

theorem day_bounds : 1 ≤ d.day ∧ d.day ≤ monthLength d.monthNumber := by
  rw [monthLength_monthNumber valid]
  exact (isValid_iff.mp valid).2

theorem toDay_eq : d.toDay = monthStart d.monthNumber + d.day - 1 := by
  have := (day_bounds valid).1
  rw [monthStart, year_eq valid, month_eq valid, toDay]
  omega

theorem toDay_lt_iff (valid' : d'.isValid) :
    d.toDay < d'.toDay ↔ d.monthNumber < d'.monthNumber ∨ d.monthNumber = d'.monthNumber ∧ d.day < d'.day := by
  have bounds := day_bounds valid
  have bounds' := day_bounds valid'
  rw [toDay_eq valid, toDay_eq valid']
  rcases Int.lt_trichotomy d.monthNumber d'.monthNumber with h | h | h
  · have := monthEnd_le h
    omega
  · rw [h]
    omega
  · have := monthEnd_le h
    omega

theorem eq_of_month_day (valid' : d'.isValid) (months : d.monthNumber = d'.monthNumber) (days : d.day = d'.day) :
    d = d' := by
  have year : d.year = d'.year := by rw [← year_eq valid, months, year_eq valid']
  have month : d.month = d'.month := by rw [← month_eq valid, months, month_eq valid']
  cases d
  cases d'
  simp_all

theorem eq_of_toDay_eq (valid' : d'.isValid) (h : d.toDay = d'.toDay) : d = d' := by
  have hlt := toDay_lt_iff valid valid'
  have hgt := toDay_lt_iff valid' valid
  exact eq_of_month_day valid valid' (by omega) (by omega)

end Valid

/-! ### The date of a day number -/

theorem yearOf_bounds (n : Int) : daysBeforeYear (yearOf n) ≤ n ∧ n < daysBeforeYear (yearOf n + 1) := by
  unfold yearOf daysBeforeYear
  dsimp only
  split
  · omega
  · split <;> omega

theorem monthAndDay_spec (year : Int) (len : Nat) (first k : Nat) (hfirst : 1 ≤ first)
    (hk : daysBeforeMonth year first + k < daysBeforeMonth year (first + len)) :
    ∃ month day, monthAndDay year (List.range' first len) k = (month, day + 1) ∧ first ≤ month ∧ month < first + len ∧
      day < daysInMonth year month ∧ daysBeforeMonth year first + k = daysBeforeMonth year month + day := by
  -- The days before the months that are left and the days left over add up to the same number at each step.
  induction len generalizing first k with
  | zero =>
    rw [Nat.add_zero] at hk
    omega
  | succ len ih =>
    have next := daysBeforeMonth_succ year first hfirst
    rw [List.range'_succ, monthAndDay]
    split
    · exact ⟨first, k, rfl, by omega, by omega, by assumption, rfl⟩
    · obtain ⟨month, day, found, hge, hlt, hday, hsum⟩ := ih (first + 1) (k - daysInMonth year first)
        (by omega) (by rw [Nat.add_right_comm, Nat.add_assoc first]; omega)
      exact ⟨month, day, found, by omega, by omega, hday, by omega⟩

theorem ofDay_spec (n : Int) : (ofDay n).isValid ∧ (ofDay n).toDay = n := by
  obtain ⟨hge, hlt⟩ := yearOf_bounds (n + epoch)
  generalize hy : yearOf (n + epoch) = y at hge hlt
  obtain ⟨k, hk⟩ := Int.le.dest hge
  rw [daysBeforeYear_succ, ← daysBeforeMonth_end] at hlt
  have january : daysBeforeMonth y 1 = 0 := rfl
  obtain ⟨month, day, found, first_le, lt_end, hday, hsum⟩ := monthAndDay_spec y 12 1 k (Nat.le_refl 1)
    (show daysBeforeMonth y 1 + k < daysBeforeMonth y 13 by omega)
  have date : ofDay n = ⟨y, month, day + 1⟩ := by
    have rest : (n + epoch - daysBeforeYear y).toNat = k := by omega
    simp only [ofDay, hy, rest, found]
  rw [date]
  constructor
  · exact isValid_iff.mpr ⟨⟨first_le, Nat.le_of_lt_succ lt_end⟩, Nat.le_add_left 1 day, hday⟩
  · simp only [toDay, Nat.add_sub_cancel]
    omega

theorem isValid_ofDay (n : Int) : (ofDay n).isValid := (ofDay_spec n).1

theorem toDay_ofDay (n : Int) : (ofDay n).toDay = n := (ofDay_spec n).2

theorem ofDay_toDay (valid : d.isValid) : ofDay d.toDay = d :=
  eq_of_toDay_eq (isValid_ofDay _) valid (toDay_ofDay _)

/-! ### Months back -/

variable {n : Nat}

theorem monthNumber_minusMonths (d : Date) (n : Nat) : (d.minusMonths n).monthNumber = d.monthNumber - n := by
  simp only [minusMonths, monthNumber]
  omega

theorem day_minusMonths (d : Date) (n : Nat) : (d.minusMonths n).day = min d.day (monthLength (d.monthNumber - n)) := rfl

theorem isValid_minusMonths (valid : d.isValid) (n : Nat) : (d.minusMonths n).isValid := by
  obtain ⟨hday, -⟩ := day_bounds valid
  have := monthLength_bounds (d.monthNumber - n)
  refine isValid_iff.mpr ⟨?_, ?_⟩
  · simp only [minusMonths]
    omega
  · change 1 ≤ min d.day (monthLength (d.monthNumber - n)) ∧
      min d.day (monthLength (d.monthNumber - n)) ≤ monthLength (d.monthNumber - n)
    omega

theorem minusMonths_zero (valid : d.isValid) : d.minusMonths 0 = d := by
  have same : (d.minusMonths 0).monthNumber = d.monthNumber := by
    rw [monthNumber_minusMonths]
    exact Int.sub_zero _
  refine eq_of_month_day (isValid_minusMonths valid 0) valid same ?_
  rw [day_minusMonths, ← monthNumber_minusMonths, same]
  exact Nat.min_eq_left (day_bounds valid).2

/-- More months back lead to no later day: an earlier month is over when a later one starts. -/
theorem toDay_minusMonths_anti (valid : d.isValid) {m n : Nat} (h : m ≤ n) :
    (d.minusMonths n).toDay ≤ (d.minusMonths m).toDay := by
  rcases Nat.lt_or_eq_of_le h with earlier | rfl
  · have hday := day_bounds (isValid_minusMonths valid n)
    have hday' := day_bounds (isValid_minusMonths valid m)
    rw [toDay_eq (isValid_minusMonths valid n), toDay_eq (isValid_minusMonths valid m)]
    rw [monthNumber_minusMonths] at hday ⊢
    rw [monthNumber_minusMonths]
    have := monthEnd_le (show d.monthNumber - n < d.monthNumber - m by omega)
    omega
  · exact Int.le_refl _

theorem toDay_minusMonths_le (valid : d.isValid) (n : Nat) : (d.minusMonths n).toDay ≤ d.toDay := by
  have := toDay_minusMonths_anti valid (Nat.zero_le n)
  rwa [minusMonths_zero valid] at this

/-- Two days of a month, at or past the end of the month that lies a number of months earlier: going back leads from
    both to the last day of that month. -/
def MeetBack (n : Nat) (a b : Date) : Prop :=
  a.monthNumber = b.monthNumber ∧ a.day < b.day ∧ monthLength (a.monthNumber - n) ≤ a.day

instance (n : Nat) (a b : Date) : Decidable (MeetBack n a b) := inferInstanceAs (Decidable (_ ∧ _ ∧ _))

/-- Of two days in order, the later one lies later months ago too, unless the two meet. -/
theorem minusMonths_lt_or_eq (valid : d.isValid) (valid' : d'.isValid) (h : d.toDay < d'.toDay) (n : Nat) :
    (d.minusMonths n).toDay < (d'.minusMonths n).toDay ∧ ¬MeetBack n d d' ∨
      (d.minusMonths n).toDay = (d'.minusMonths n).toDay ∧ MeetBack n d d' := by
  have back := toDay_eq (isValid_minusMonths valid n)
  have back' := toDay_eq (isValid_minusMonths valid' n)
  rw [monthNumber_minusMonths, day_minusMonths] at back back'
  unfold MeetBack
  -- Earlier months stay earlier; in one month, clamping is all that can bring two days together.
  rcases (toDay_lt_iff valid valid').mp h with earlier | ⟨same, days⟩
  · have := monthEnd_le (show d.monthNumber - n < d'.monthNumber - n by omega)
    have := (day_bounds valid').1
    have := (monthLength_bounds (d'.monthNumber - n)).1
    omega
  · rw [← same] at back' ⊢
    omega

end GridCatalog.Date
