import Mathlib.Data.List.Basic
import GridCatalog.Proofs.Calendar
import GridCatalog.Calendar.Rfc3339
import GridCatalog.Store.Memory

/-! Expiry as time goes on.

    What has expired stays expired if the cutoff of a later time is not an earlier one. For a span of months it can be
    one, when two days of a month lead back to the same day (`Date.MeetBack`), and for a span of minutes, when a leap
    second is left (`Instant.LeapsBack`). Those are the only exceptions (`expiry_monotone`). -/

namespace GridCatalog
namespace Instant
variable {i j c : Instant}

def date (i : Instant) : Date := Date.ofDay i.day

/-- The time of day, as a number that orders times of day. -/
def clock (i : Instant) : Nat := i.second * 2000000000 + i.nano

theorem le_iff : i ≤ j ↔ i.day < j.day ∨ i.day = j.day ∧ i.clock ≤ j.clock := by
  change i.key ≤ j.key ↔ _
  have := i.second_lt
  have := i.nano_lt
  have := j.second_lt
  have := j.nano_lt
  unfold key clock
  omega

theorem ofParts?_eq_some {day : Int} {second nano : Nat} :
    ofParts? day second nano = some c ↔ c.day = day ∧ c.second = second ∧ c.nano = nano := by
  unfold ofParts?
  constructor
  · intro h
    split at h <;> cases h
    exact ⟨rfl, rfl, rfl⟩
  · rintro ⟨rfl, rfl, rfl⟩
    exact dif_pos ⟨⟨c.first_le, c.le_last⟩, c.second_lt, c.nano_lt⟩

/-! ### Months back -/

theorem minusMonths?_eq_some {n : Nat} :
    i.minusMonths? n = some c ↔ c.day = (i.date.minusMonths n).toDay ∧ c.second = i.second ∧ c.nano = i.nano := by
  unfold minusMonths?
  split
  · subst n
    rw [date, Date.minusMonths_zero (Date.isValid_ofDay _), Date.toDay_ofDay, Option.some.injEq]
    constructor
    · rintro rfl
      exact ⟨rfl, rfl, rfl⟩
    · intro h
      cases i
      cases c
      simp_all
  · exact ofParts?_eq_some

theorem minusMonths?_inv {n : Nat} (h : i.minusMonths? n = some c) :
    c.day = (i.date.minusMonths n).toDay ∧ c.clock = i.clock := by
  obtain ⟨day, second, nano⟩ := minusMonths?_eq_some.mp h
  exact ⟨day, by rw [clock, second, nano]; rfl⟩

theorem exists_minusMonths (n : Nat) (h : firstDay ≤ (i.date.minusMonths n).toDay) : ∃ c, i.minusMonths? n = some c := by
  have last := Date.toDay_minusMonths_le (Date.isValid_ofDay i.day) n
  rw [Date.toDay_ofDay] at last
  exact ⟨⟨_, i.second, i.nano, h, Int.le_trans last i.le_last, i.second_lt, i.nano_lt⟩,
    minusMonths?_eq_some.mpr ⟨rfl, rfl, rfl⟩⟩

/-- The day of the month is clamped to the end of the month that lies back, and the time of day is kept. -/
theorem minusMonths?_iff {n : Nat} :
    i.minusMonths? n = some c ↔ c.date.monthNumber = i.date.monthNumber - n ∧
      c.date.day = min i.date.day (Date.daysInMonth c.date.year c.date.month) ∧ c.second = i.second ∧ c.nano = i.nano := by
  have valid : i.date.isValid := Date.isValid_ofDay i.day
  have valid' : c.date.isValid := Date.isValid_ofDay c.day
  rw [minusMonths?_eq_some, ← Date.monthLength_monthNumber valid']
  refine (and_congr_left fun _ => ?_).trans and_assoc
  constructor
  · intro h
    have same : c.date = i.date.minusMonths n := by
      rw [date, h, Date.ofDay_toDay (Date.isValid_minusMonths valid n)]
    rw [same, Date.monthNumber_minusMonths]
    exact ⟨rfl, Date.day_minusMonths ..⟩
  · rintro ⟨months, day⟩
    have same : c.date = i.date.minusMonths n := by
      refine Date.eq_of_month_day valid' (Date.isValid_minusMonths valid n) ?_ ?_
      · rw [months, Date.monthNumber_minusMonths]
      · rw [day, Date.day_minusMonths, months]
    rw [← same]
    exact (Date.toDay_ofDay c.day).symm

theorem minusMonths?_eq_none {n : Nat} : i.minusMonths? n = none ↔ i.date.monthNumber - n < 12 * -262143 := by
  have valid : i.date.isValid := Date.isValid_ofDay i.day
  have first : firstDay = Date.monthStart (12 * -262143) := by decide +kernel
  have day := Date.toDay_eq (Date.isValid_minusMonths valid n)
  have bounds := Date.day_bounds (Date.isValid_minusMonths valid n)
  rw [Date.monthNumber_minusMonths] at day bounds
  constructor
  · intro none
    by_contra later
    have := Date.monthStart_le (Int.not_lt.mp later)
    obtain ⟨c, hc⟩ := exists_minusMonths (i := i) n (by omega)
    rw [none] at hc
    cases hc
  · intro early
    rcases hc : i.minusMonths? n with _ | c
    · rfl
    · have := Date.monthEnd_le early
      have := c.first_le
      have := (minusMonths?_inv hc).1
      unfold firstDay at first
      omega

/-! ### Minutes back -/

/-- The nanoseconds since day 0, where a leap second is counted with the second after it. -/
def elapsed (i : Instant) : Int := (i.day * 86400 + i.second) * 1000000000 + i.nano

/-- A time in a leap second, and one in the second after it with a smaller fraction. -/
def LeapsBack (i j : Instant) : Prop :=
  j.day * 86400 + j.second = i.day * 86400 + i.second + 1 ∧ j.nano + nanosPerSecond < i.nano

instance (i j : Instant) : Decidable (LeapsBack i j) := inferInstanceAs (Decidable (_ ∧ _))

theorem elapsed_lt_iff (h : i ≤ j) : j.elapsed < i.elapsed ↔ LeapsBack i j := by
  rw [le_iff] at h
  have := i.second_lt
  have := i.nano_lt
  have := j.second_lt
  unfold clock at h
  unfold elapsed LeapsBack nanosPerSecond
  omega

theorem le_iff_elapsed (hi : i.nano < nanosPerSecond) (hj : j.nano < nanosPerSecond) : i ≤ j ↔ i.elapsed ≤ j.elapsed := by
  have := i.second_lt
  have := j.second_lt
  rw [le_iff]
  unfold clock elapsed
  unfold nanosPerSecond at hi hj
  omega

theorem exists_of_elapsed {t : Int} (first : firstDay * 86400 * 1000000000 ≤ t)
    (last : t < (lastDay + 1) * 86400 * 1000000000) : ∃ c : Instant, c.elapsed = t ∧ c.nano < nanosPerSecond := by
  unfold firstDay at first
  unfold lastDay at last
  refine ⟨⟨t / 86400000000000, (t / 1000000000 % 86400).toNat, (t % 1000000000).toNat, by omega, by omega, by omega,
    by omega⟩, ?_, ?_⟩
  · simp only [elapsed]
    omega
  · simp only [nanosPerSecond]
    omega

theorem minusMinutes?_eq_some {n : Int} (positive : 0 < n) :
    i.minusMinutes? n = some c ↔ c.elapsed = i.elapsed - n * 60000000000 ∧ c.nano < nanosPerSecond := by
  have := i.nano_lt
  have := c.second_lt
  have back : -(60 * n) < 0 := by omega
  unfold minusMinutes? plusSeconds? elapsed
  rw [if_neg (Int.ne_of_lt back)]
  dsimp only
  rw [ofParts?_eq_some]
  cases leap : i.inLeapSecond with
  | true =>
    have : 1000000000 ≤ i.nano := of_decide_eq_true leap
    rw [if_pos rfl, if_pos (by simpa using back), nanosPerSecond]
    omega
  | false =>
    have : ¬1000000000 ≤ i.nano := of_decide_eq_false leap
    rw [Bool.false_and, if_neg Bool.false_ne_true, if_neg Bool.false_ne_true, nanosPerSecond]
    omega

/-- Minutes back lead to a time unless that lies in front of the first day. -/
theorem minusMinutes?_eq_none {n : Int} (valid : 0 ≤ n) :
    i.minusMinutes? n = none ↔ i.elapsed - n * 60000000000 < firstDay * 86400 * 1000000000 := by
  have := i.first_le
  have := i.le_last
  have := i.second_lt
  have := i.nano_lt
  rcases Int.lt_or_eq_of_le valid with positive | rfl
  · constructor
    · intro none
      by_contra later
      obtain ⟨c, hc⟩ : ∃ c : Instant, c.elapsed = i.elapsed - n * 60000000000 ∧ c.nano < nanosPerSecond := by
        refine exists_of_elapsed (Int.not_lt.mp later) ?_
        unfold elapsed lastDay
        omega
      rw [(minusMinutes?_eq_some positive).mpr hc] at none
      cases none
    · intro early
      rcases hc : i.minusMinutes? n with _ | c
      · rfl
      · have := c.first_le
        have := ((minusMinutes?_eq_some positive).mp hc).1
        unfold elapsed firstDay at *
        omega
  · constructor
    · intro none
      cases none
    · intro early
      unfold elapsed firstDay at early
      omega

/-- There is a cutoff for a span that leads back less far than one with a cutoff. -/
theorem exists_minusMinutes {m n : Int} (hm : 0 ≤ m) (hn : 0 ≤ n)
    (h : i.elapsed - n * 60000000000 ≤ j.elapsed - m * 60000000000) (hc : i.minusMinutes? n = some c) :
    ∃ c', j.minusMinutes? m = some c' := by
  rw [← Option.ne_none_iff_exists', ne_eq, minusMinutes?_eq_none hm]
  have := (minusMinutes?_eq_none hn).not.mp (hc ▸ Option.some_ne_none c)
  omega

end Instant

namespace Retention
open Instant

/-- What a first cutoff reaches is also reached by a second one. -/
def Covers (first second : Option Instant) : Prop := ∀ a ∈ first, ∃ b ∈ second, a ≤ b

variable {now later : Instant}

theorem reaches_iff {time cutoff : Option Instant} : reaches time cutoff ↔ ∃ t ∈ time, ∃ c ∈ cutoff, t ≤ c := by
  cases time <;> cases cutoff <;> simp [reaches]

theorem covers_iff {first second : Option Instant} :
    Covers first second ↔ ∀ time, reaches time first → reaches time second := by
  simp only [reaches_iff, Covers]
  constructor
  · rintro h time ⟨t, ht, a, ha, hle⟩
    obtain ⟨b, hb, hab⟩ := h a ha
    exact ⟨t, ht, b, hb, Int.le_trans hle hab⟩
  · intro h a ha
    obtain ⟨t, ⟨⟩, b, hb, hab⟩ := h (some a) ⟨a, rfl, a, ha, Int.le_refl _⟩
    exact ⟨b, hb, hab⟩

theorem covers_minutes {n : Int} (valid : 0 ≤ n) (h : now ≤ later) :
    Covers (now.minusMinutes? n) (later.minusMinutes? n) ↔
      ¬(0 < n ∧ (now.minusMinutes? n).isSome ∧ LeapsBack now later) := by
  -- A positive span is taken from the time that has elapsed, which leads out of a leap second.
  rcases Int.lt_or_eq_of_le valid with positive | rfl
  · rw [← elapsed_lt_iff h]
    constructor
    · rintro covers ⟨-, some, back⟩
      obtain ⟨a, ha⟩ := Option.isSome_iff_exists.mp some
      obtain ⟨b, hb, hab⟩ := covers a ha
      obtain ⟨ha, hna⟩ := (minusMinutes?_eq_some positive).mp ha
      obtain ⟨hb, hnb⟩ := (minusMinutes?_eq_some positive).mp hb
      rw [le_iff_elapsed hna hnb] at hab
      omega
    · intro ahead a ha
      have forward : now.elapsed ≤ later.elapsed := by
        by_contra back
        exact ahead ⟨positive, Option.isSome_of_mem ha, by omega⟩
      obtain ⟨b, hb⟩ := exists_minusMinutes (j := later) valid valid (by omega) ha
      obtain ⟨ha, hna⟩ := (minusMinutes?_eq_some positive).mp ha
      have ⟨helapsed, hnb⟩ := (minusMinutes?_eq_some positive).mp hb
      exact ⟨b, hb, (le_iff_elapsed hna hnb).mpr (by omega)⟩
  · refine ⟨fun _ hn => absurd hn.1 (Int.lt_irrefl 0), ?_⟩
    rintro - a ⟨⟩
    exact ⟨later, rfl, h⟩

theorem covers_months {n : Nat} (h : now ≤ later) :
    Covers (now.minusMonths? n) (later.minusMonths? n) ↔
      ¬((now.minusMonths? n).isSome ∧ Date.MeetBack n now.date later.date ∧ later.clock < now.clock) := by
  have valid : now.date.isValid := Date.isValid_ofDay now.day
  have valid' : later.date.isValid := Date.isValid_ofDay later.day
  have days : now.date.toDay = now.day ∧ later.date.toDay = later.day := ⟨Date.toDay_ofDay _, Date.toDay_ofDay _⟩
  -- The day that lies months back is not an earlier one, and is the same one only in two cases.
  have back : (now.date.minusMonths n).toDay < (later.date.minusMonths n).toDay ∧ ¬Date.MeetBack n now.date later.date ∨
      (now.date.minusMonths n).toDay = (later.date.minusMonths n).toDay ∧
        (Date.MeetBack n now.date later.date ∨ now.clock ≤ later.clock) := by
    rcases le_iff.mp h with hday | ⟨hday, hclock⟩
    · have := Date.minusMonths_lt_or_eq valid valid' (by omega) n
      exact this.imp_right fun ⟨same, meet⟩ => ⟨same, Or.inl meet⟩
    · rw [Date.eq_of_toDay_eq valid valid' (by omega)]
      exact Or.inr ⟨rfl, Or.inr hclock⟩
  constructor
  · rintro covers ⟨some, meet, hclock⟩
    obtain ⟨a, ha⟩ := Option.isSome_iff_exists.mp some
    obtain ⟨b, hb, hab⟩ := covers a ha
    obtain ⟨day, clock⟩ := minusMonths?_inv ha
    obtain ⟨day', clock'⟩ := minusMonths?_inv hb
    rw [le_iff] at hab
    rcases back with ⟨-, apart⟩ | ⟨same, -⟩
    · exact apart meet
    · omega
  · intro ahead a ha
    obtain ⟨day, clock⟩ := minusMonths?_inv ha
    have := a.first_le
    obtain ⟨b, hb⟩ : ∃ b, later.minusMonths? n = some b := by
      refine exists_minusMonths n ?_
      unfold firstDay
      omega
    obtain ⟨day', clock'⟩ := minusMonths?_inv hb
    refine ⟨b, hb, le_iff.mpr ?_⟩
    rcases back with ⟨hlt, -⟩ | ⟨same, meet | hclock⟩
    · omega
    · have forward : now.clock ≤ later.clock := by
        by_contra hclock
        exact ahead ⟨Option.isSome_of_mem ha, meet, by omega⟩
      omega
    · omega

/-- Two days of a month meet and the first of them has the later time of day, or a leap second is left, for a span that
    has a cutoff. -/
def Recedes (r : Retention) (now later : Instant) : Prop :=
  0 < r.temporaryMinutes.toInt ∧ (now.minusMinutes? r.temporaryMinutes.toInt).isSome ∧ LeapsBack now later ∨
    (now.minusMonths? r.archivedMonths.toNat).isSome ∧
      Date.MeetBack r.archivedMonths.toNat now.date later.date ∧ later.clock < now.clock

instance (r : Retention) (now later : Instant) : Decidable (r.Recedes now later) :=
  inferInstanceAs (Decidable (_ ∧ _ ∧ _ ∨ _ ∧ _ ∧ _))

theorem isExpired_iff {r : Retention} {e : Entry} :
    r.isExpired e now ↔
      e.isTemporary ∧ reaches e.created (now.minusMinutes? r.temporaryMinutes.toInt) ∨
        e.isArchived ∧ reaches e.archived (now.minusMonths? r.archivedMonths.toNat) := by
  simp only [isExpired, Bool.or_eq_true, Bool.and_eq_true]

def plainEntry : Entry :=
  ⟨"", "", "", [], [], 0, .training, "", .uploadedFile, "", false, false, none, none, none, none⟩

theorem expired_later_iff {r : Retention} :
    (∀ e, r.isExpired e now → r.isExpired e later) ↔
      Covers (now.minusMinutes? r.temporaryMinutes.toInt) (later.minusMinutes? r.temporaryMinutes.toInt) ∧
        Covers (now.minusMonths? r.archivedMonths.toNat) (later.minusMonths? r.archivedMonths.toNat) := by
  simp only [covers_iff, isExpired_iff]
  constructor
  · -- Entries with one of the marks depend on one of the cutoffs.
    intro h
    constructor
    · intro time hnow
      simpa [plainEntry] using h { plainEntry with isTemporary := true, created := time } (Or.inl ⟨rfl, hnow⟩)
    · intro time hnow
      simpa [plainEntry] using h { plainEntry with isArchived := true, archived := time } (Or.inr ⟨rfl, hnow⟩)
  · rintro ⟨minutes, months⟩ e (⟨flag, hnow⟩ | ⟨flag, hnow⟩)
    · exact Or.inl ⟨flag, minutes _ hnow⟩
    · exact Or.inr ⟨flag, months _ hnow⟩

/-- What has expired stays expired, and a sweep finds it, exactly unless the retention recedes. Months back, the time
    of day is kept and the day of the month clamped, and there is no cutoff in front of the first month. -/
theorem expiry_monotone {r : Retention} (valid : 0 ≤ r.temporaryMinutes) (h : now ≤ later) :
    ((∀ e, r.isExpired e now → r.isExpired e later) ↔ ¬r.Recedes now later) ∧
      (¬r.Recedes now later → ∀ (m : Memory) st st' es es', (m.run (.expiredEntries r now) st).1 = .ok es →
        (m.run (.expiredEntries r later) st').1 = .ok es' → es.Sublist es') ∧
      ∀ (i : Instant) (n : Nat),
        (∀ c, i.minusMonths? n = some c ↔ c.date.monthNumber = i.date.monthNumber - n ∧
          c.date.day = min i.date.day (Date.daysInMonth c.date.year c.date.month) ∧
          c.second = i.second ∧ c.nano = i.nano) ∧
        (i.minusMonths? n = none ↔ i.date.monthNumber - n < 12 * -262143) := by
  have same : (∀ e, r.isExpired e now → r.isExpired e later) ↔ ¬r.Recedes now later := by
    have minutes : 0 ≤ r.temporaryMinutes.toInt := Int64.le_iff_toInt_le.mp valid
    rw [expired_later_iff, covers_minutes minutes h, covers_months h, Recedes, not_or]
  refine ⟨same, fun ahead m st st' es es' hes hes' => ?_, fun i n => ⟨fun c => minusMonths?_iff, minusMonths?_eq_none⟩⟩
  cases hes
  cases hes'
  exact List.monotone_filter_right _ (same.mpr ahead)

/-- The time that a text gives. -/
def utc (text : String) : Instant := (ofText? text).getD epoch

/-- On the last day of a month, what has been archived in the morning of the last day of February expires and stays
    expired. -/
theorem expiry_monotone_march :
    let e := { plainEntry with isArchived := true, archived := some (utc "2023-02-28T09:00:00Z") }
    utc "2023-03-31T10:00:00Z" ≤ utc "2023-03-31T23:00:00Z" ∧ default.isExpired e (utc "2023-03-31T10:00:00Z") ∧
      default.isExpired e (utc "2023-03-31T23:00:00Z") := by
  intro e
  have order : utc "2023-03-31T10:00:00Z" ≤ utc "2023-03-31T23:00:00Z" := by decide +kernel
  have ahead : ¬default.Recedes (utc "2023-03-31T10:00:00Z") (utc "2023-03-31T23:00:00Z") := by decide +kernel
  have expired : default.isExpired e (utc "2023-03-31T10:00:00Z") := by decide +kernel
  exact ⟨order, expired, (expiry_monotone (by decide) order).1.mpr ahead e expired⟩

/-- What was expired late on March 30 is not so early on March 31, and what was expired in a leap second is not so in
    the second after it. -/
theorem expiry_recedes :
    let archived := { plainEntry with isArchived := true, archived := some (utc "2023-02-28T12:00:00Z") }
    let created := { plainEntry with isTemporary := true, created := some (utc "2016-12-31T23:30:00.400Z") }
    0 ≤ default.temporaryMinutes ∧
      (utc "2023-03-30T23:00:00Z" ≤ utc "2023-03-31T10:00:00Z" ∧
        default.isExpired archived (utc "2023-03-30T23:00:00Z") = true ∧
        default.isExpired archived (utc "2023-03-31T10:00:00Z") = false) ∧
      utc "2016-12-31T23:59:60.500Z" ≤ utc "2017-01-01T00:00:00.200Z" ∧
        default.isExpired created (utc "2016-12-31T23:59:60.500Z") = true ∧
        default.isExpired created (utc "2017-01-01T00:00:00.200Z") = false := by
  decide +kernel

end Retention
end GridCatalog
