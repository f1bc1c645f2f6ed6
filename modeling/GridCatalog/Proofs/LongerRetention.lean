import GridCatalog.Proofs.Expiry

/-! Expiry under a longer retention.

    At one time, the cutoff of a longer span is not later than that of a shorter span, and a longer span has no cutoff
    if a shorter one has none (`covers_longer_minutes`, `covers_longer_months`). So whatever a longer retention lets
    expire has expired under a shorter one too (`expiry_antitone`). The spans are machine words, and some of them are
    too large for arithmetic on times; those lead out of the calendar anyway (`minuteCutoff?_eq`, `monthCutoff?_eq`). -/

namespace GridCatalog
namespace Instant
variable {i c : Instant}

theorem minusMinutes?_le {n : Int} (valid : 0 ≤ n) (h : i.minusMinutes? n = some c) : c ≤ i := by
  rcases Int.lt_or_eq_of_le valid with positive | rfl
  · obtain ⟨helapsed, hnano⟩ := (minusMinutes?_eq_some positive).mp h
    change c.key ≤ i.key
    have := i.nano_lt
    unfold elapsed at helapsed
    unfold nanosPerSecond at hnano
    unfold key
    omega
  · cases h
    exact Int.le_refl _

/-! ### Spans as machine words -/

/-- The whole seconds in the longest span, which has 2^63 - 1 milliseconds. -/
def longestSpan : Int := 9223372036854775

/-- A number of minutes in seconds, if there is such a span. -/
def span? (minutes : Int64) : Option Int :=
  if -longestSpan ≤ 60 * minutes.toInt ∧ 60 * minutes.toInt ≤ longestSpan then some (60 * minutes.toInt) else none

/-- The largest number of months that can be subtracted from a date. -/
def mostMonths : Nat := 2147483647

/-- Minutes that are too many for a span lead out of the calendar, whatever the time is. -/
theorem minusMinutes?_of_span?_eq_none {n : Int64} (h : span? n = none) (i : Instant) :
    i.minusMinutes? n.toInt = none := by
  have long : ¬(-longestSpan ≤ 60 * n.toInt ∧ 60 * n.toInt ≤ longestSpan) := fun fits => by
    rw [span?, if_pos fits] at h
    cases h
  rcases hc : i.minusMinutes? n.toInt with _ | c
  · rfl
  · have := i.first_le
    have := i.le_last
    have := i.second_lt
    have := c.first_le
    have := c.le_last
    unfold longestSpan at long
    rw [minusMinutes?, plusSeconds?, if_neg (by omega)] at hc
    have day := (ofParts?_eq_some.mp hc).1
    split at day <;> omega

theorem minusMonths?_of_mostMonths_lt {n : Nat} (h : mostMonths < n) (i : Instant) : i.minusMonths? n = none := by
  have valid : i.date.isValid := Date.isValid_ofDay i.day
  have first : firstDay = Date.monthStart (12 * -262143) := by decide +kernel
  have last : lastDay < Date.monthStart (12 * 262143) := by decide +kernel
  rw [minusMonths?_eq_none]
  by_contra later
  unfold mostMonths at h
  -- The month of a time lies in the calendar, which has far fewer months than the largest number of them.
  have := Date.monthStart_le (show 12 * 262143 ≤ i.date.monthNumber by omega)
  have day := Date.toDay_eq valid
  have := (Date.day_bounds valid).1
  have := i.le_last
  rw [show i.date.toDay = i.day from Date.toDay_ofDay i.day] at day
  unfold lastDay at last
  omega

end Instant

namespace Retention
open Instant

variable {r p q : Retention} {now : Instant}

/-- The latest creation of temporary entries that have expired. -/
def minuteCutoff? (r : Retention) (now : Instant) : Option Instant :=
  (span? r.temporaryMinutes).bind fun seconds => now.plusSeconds? (-seconds)

/-- The latest time of archiving of archived entries that have expired. -/
def monthCutoff? (r : Retention) (now : Instant) : Option Instant :=
  if r.archivedMonths.toNat ≤ mostMonths then now.minusMonths? r.archivedMonths.toNat else none

theorem minuteCutoff?_eq : r.minuteCutoff? now = now.minusMinutes? r.temporaryMinutes.toInt := by
  unfold minuteCutoff?
  cases h : span? r.temporaryMinutes with
  | none => exact (minusMinutes?_of_span?_eq_none h now).symm
  | some seconds =>
    unfold span? at h
    split at h <;> cases h
    rfl

theorem monthCutoff?_eq : r.monthCutoff? now = now.minusMonths? r.archivedMonths.toNat := by
  unfold monthCutoff?
  split
  · rfl
  · rename_i h
    exact (minusMonths?_of_mostMonths_lt (Nat.not_le.mp h) now).symm

theorem isExpired_iff_cutoffs {e : Entry} :
    r.isExpired e now ↔
      e.isTemporary ∧ reaches e.created (r.minuteCutoff? now) ∨ e.isArchived ∧ reaches e.archived (r.monthCutoff? now) := by
  rw [isExpired_iff, minuteCutoff?_eq, monthCutoff?_eq]

/-! ### Longer spans -/

theorem Covers.eq_none {first second : Option Instant} (h : Covers first second) (missing : second = none) :
    first = none := by
  rcases first with _ | a
  · rfl
  · obtain ⟨b, hb, -⟩ := h a rfl
    rw [missing] at hb
    cases hb

theorem covers_longer_minutes {m n : Int} (valid : 0 ≤ m) (h : m ≤ n) :
    Covers (now.minusMinutes? n) (now.minusMinutes? m) := by
  intro a ha
  rcases Int.lt_or_eq_of_le h with longer | rfl
  · obtain ⟨b, hb⟩ := exists_minusMinutes (j := now) valid (by omega) (by omega) ha
    refine ⟨b, hb, ?_⟩
    -- A span of no minutes stays in a leap second, and every other one leads out of it.
    rcases Int.lt_or_eq_of_le valid with positive | rfl
    · obtain ⟨ha, hna⟩ := (minusMinutes?_eq_some (by omega)).mp ha
      obtain ⟨hb, hnb⟩ := (minusMinutes?_eq_some positive).mp hb
      exact (le_iff_elapsed hna hnb).mpr (by omega)
    · cases hb
      exact minusMinutes?_le (by omega) ha
  · exact ⟨a, ha, Int.le_refl _⟩

theorem covers_longer_months {m n : Nat} (h : m ≤ n) : Covers (now.minusMonths? n) (now.minusMonths? m) := by
  intro a ha
  obtain ⟨day, clock⟩ := minusMonths?_inv ha
  have back : (now.date.minusMonths n).toDay ≤ (now.date.minusMonths m).toDay :=
    Date.toDay_minusMonths_anti (Date.isValid_ofDay now.day) h
  obtain ⟨b, hb⟩ : ∃ b, now.minusMonths? m = some b := by
    have := a.first_le
    refine exists_minusMonths m ?_
    unfold firstDay
    omega
  obtain ⟨day', clock'⟩ := minusMonths?_inv hb
  exact ⟨b, hb, le_iff.mpr (by omega)⟩

/-- What has expired under the longer of two retentions has expired under the shorter one. A span without a cutoff lets
    nothing expire, nor does a longer one, and then the other span alone decides. There is no cutoff in front of the
    first day or the first month; months back, the day of the month is clamped and the time of day is kept. -/
theorem expiry_antitone (valid : 0 ≤ p.temporaryMinutes) (minutes : p.temporaryMinutes ≤ q.temporaryMinutes)
    (months : p.archivedMonths ≤ q.archivedMonths) (now : Instant) :
    (∀ e, q.isExpired e now → p.isExpired e now) ∧
      (p.minuteCutoff? now = none → q.minuteCutoff? now = none ∧
        ∀ e, q.isExpired e now ↔ e.isArchived ∧ reaches e.archived (q.monthCutoff? now)) ∧
      (p.monthCutoff? now = none → q.monthCutoff? now = none ∧
        ∀ e, q.isExpired e now ↔ e.isTemporary ∧ reaches e.created (q.minuteCutoff? now)) ∧
      (p.minuteCutoff? now = none ↔
        now.elapsed - p.temporaryMinutes.toInt * 60000000000 < firstDay * 86400 * 1000000000) ∧
      (p.monthCutoff? now = none ↔ now.date.monthNumber - p.archivedMonths.toNat < 12 * -262143) ∧
      ∀ c, p.monthCutoff? now = some c ↔ c.date.monthNumber = now.date.monthNumber - p.archivedMonths.toNat ∧
        c.date.day = min now.date.day (Date.daysInMonth c.date.year c.date.month) ∧
        c.second = now.second ∧ c.nano = now.nano := by
  have minuteSpan : 0 ≤ p.temporaryMinutes.toInt := Int64.le_iff_toInt_le.mp valid
  have byMinutes : Covers (q.minuteCutoff? now) (p.minuteCutoff? now) := by
    rw [minuteCutoff?_eq, minuteCutoff?_eq]
    exact covers_longer_minutes minuteSpan (Int64.le_iff_toInt_le.mp minutes)
  have byMonths : Covers (q.monthCutoff? now) (p.monthCutoff? now) := by
    rw [monthCutoff?_eq, monthCutoff?_eq]
    exact covers_longer_months (UInt32.le_iff_toNat_le.mp months)
  refine ⟨fun e expired => ?_, fun h => ?_, fun h => ?_, ?_, ?_, fun c => ?_⟩
  · rw [isExpired_iff_cutoffs] at expired ⊢
    exact expired.imp (And.imp_right (covers_iff.mp byMinutes _)) (And.imp_right (covers_iff.mp byMonths _))
  · have missing := byMinutes.eq_none h
    exact ⟨missing, fun e => by simp [isExpired_iff_cutoffs, missing, reaches_iff]⟩
  · have missing := byMonths.eq_none h
    exact ⟨missing, fun e => by simp [isExpired_iff_cutoffs, missing, reaches_iff]⟩
  · rw [minuteCutoff?_eq, minusMinutes?_eq_none minuteSpan]
  · rw [monthCutoff?_eq, minusMonths?_eq_none]
  · rw [monthCutoff?_eq, minusMonths?_iff]

/-- On a last day of March, a month leads back to the last day of February; the longest spans lead out of the
    calendar. -/
theorem expiry_antitone_largest :
    let p : Retention := ⟨30, 1⟩
    let q : Retention := ⟨45, 13⟩
    let most : Retention := ⟨9223372036854775807, 4294967295⟩
    let now := utc "2024-03-31T12:00:00Z"
    let e := { plainEntry with isArchived := true, archived := some (utc "2023-02-28T12:00:00Z") }
    (0 ≤ p.temporaryMinutes ∧ p.temporaryMinutes ≤ q.temporaryMinutes ∧ p.archivedMonths ≤ q.archivedMonths ∧
        q.isExpired e now ∧ p.isExpired e now) ∧
      q.temporaryMinutes ≤ most.temporaryMinutes ∧ q.archivedMonths ≤ most.archivedMonths ∧
        most.monthCutoff? now = none ∧ ¬most.isExpired e now := by
  intro p q most now e
  have expired : q.isExpired e now := by decide +kernel
  have missing : most.monthCutoff? now = none := by decide +kernel
  have alone := ((expiry_antitone (p := most) (by decide) Int64.le_rfl UInt32.le_rfl now).2.2.1 missing).2 e
  refine ⟨⟨by decide, by decide, by decide, expired, ?_⟩, by decide, by decide, missing, fun h => ?_⟩
  · exact (expiry_antitone (by decide) (by decide) (by decide) now).1 e expired
  · exact absurd (alone.mp h).1 (by decide)

end Retention
end GridCatalog
