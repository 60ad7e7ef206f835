/-
  Auditarr/Ordinal.lean
  =====================
  **The number of a day in the calendar.**

  Days are counted here from the first of January of the year 1, a Monday, as the
  ordinals of `datetime` are.  The number of a date is a sum over its years, its months and
  its days; it is one more on the next day, so the dates of the calendar and their numbers
  determine each other (`dayDate_eq_iff`).
-/
import Auditarr.Calendar
import Mathlib.Order.Nat

namespace Ordinal

open Calendar

/-- The first date of the calendar. -/
def firstDate : Date := ⟨1, 1, 1⟩

/-- The date of a day, counted from the first. -/
def dayDate (n : Nat) : Date := Date.next^[n] firstDate

/-- The weekday of a day, where Monday is 0.  The first day was a Monday. -/
def dayOfWeek (n : Nat) : Nat := n % 7

theorem dayDate_succ (n : Nat) : dayDate (n + 1) = (dayDate n).next :=
  Function.iterate_succ_apply' ..

theorem dayDate_strictMono : StrictMono dayDate := by
  apply strictMono_nat_of_lt_succ
  intro n
  rw [dayDate_succ]
  exact (dayDate n).lt_next

theorem dayDate_valid (n : Nat) : (dayDate n).Valid := by
  induction n with
  | zero => exact ⟨by decide, by decide, by decide, by decide⟩
  | succ n ih =>
    rw [dayDate_succ]
    exact ih.next

theorem one_le_year (n : Nat) : 1 ≤ (dayDate n).year :=
  year_le_of_le (dayDate_strictMono.monotone (Nat.zero_le n))

/-! ### Numbers of dates -/

/-- The days of the years before. -/
def daysBeforeYear (year : Nat) : Nat :=
  365 * (year - 1) + (year - 1) / 4 - (year - 1) / 100 + (year - 1) / 400

/-- The days of the months before, in a year. -/
def daysBeforeMonth (year : Nat) : Nat → Nat
  | 0 => 0
  | 1 => 0
  | m + 2 => daysBeforeMonth year (m + 1) + daysInMonth year (m + 1)

/-- The number of a date. -/
def number (d : Date) : Nat := daysBeforeYear d.year + daysBeforeMonth d.year d.month + (d.day - 1)

def daysInYear (year : Nat) : Nat := if isLeap year then 366 else 365

theorem daysBeforeMonth_succ (year : Nat) {month : Nat} (h : 1 ≤ month) :
    daysBeforeMonth year (month + 1) = daysBeforeMonth year month + daysInMonth year month := by
  rcases month with _ | month
  · omega
  · rfl

theorem isLeap_iff (year : Nat) :
    isLeap year = true ↔ 4 ∣ year ∧ (¬100 ∣ year ∨ 400 ∣ year) := by
  simp [isLeap, Nat.dvd_iff_mod_eq_zero]

theorem daysBeforeYear_succ {year : Nat} (h : 1 ≤ year) :
    daysBeforeYear (year + 1) = daysBeforeYear year + daysInYear year := by
  obtain ⟨k, rfl⟩ : ∃ k, year = k + 1 := ⟨year - 1, by omega⟩
  have hcenturies : k / 100 ≤ k / 4 := Nat.div_le_div_left (by decide) (by decide)
  have hcentury : 100 ∣ k + 1 → 4 ∣ k + 1 := Nat.dvd_trans (by decide)
  have hcycle : 400 ∣ k + 1 → 100 ∣ k + 1 := Nat.dvd_trans (by decide)
  simp only [daysBeforeYear, daysInYear, isLeap_iff, Nat.add_sub_cancel, Nat.succ_div]
  -- a year begins an Olympiad, a century or a cycle of the calendar, or none of them
  by_cases hleap : 4 ∣ k + 1
  · by_cases hhundred : 100 ∣ k + 1
    · by_cases hfour : 400 ∣ k + 1 <;> simp [hleap, hhundred, hfour] <;> omega
    · simp [hleap, hhundred, mt hcycle hhundred]
      omega
  · simp [hleap, mt hcentury hleap, mt hcycle (mt hcentury hleap)]
    omega

theorem daysBeforeMonth_december (year : Nat) :
    daysBeforeMonth year 12 + daysInMonth year 12 = daysInYear year := by
  simp only [daysBeforeMonth, daysInMonth, daysInYear]
  cases isLeap year <;> rfl

theorem number_next {d : Date} (hvalid : d.Valid) (hyear : 1 ≤ d.year) :
    number d.next = number d + 1 := by
  obtain ⟨hmonth, hmonth', hday, hday'⟩ := hvalid
  unfold Date.next
  split_ifs with hlast hdecember
  · simp only [number]
    omega
  · have hmonths := daysBeforeMonth_succ d.year hmonth
    simp only [number]
    omega
  · have hyears := daysBeforeYear_succ hyear
    have hmonths := daysBeforeMonth_december d.year
    have hfirst : daysBeforeMonth (d.year + 1) 1 = 0 := rfl
    have hlastMonth : d.month = 12 := by omega
    rw [hlastMonth] at hlast hday'
    simp only [number, hlastMonth, hyears, hfirst]
    omega

@[simp] theorem number_dayDate (n : Nat) : number (dayDate n) = n := by
  induction n with
  | zero => rfl
  | succ n ih => rw [dayDate_succ, number_next (dayDate_valid n) (one_le_year n), ih]

theorem next_le_of_lt {a b : Date} (hvalid : b.Valid) (h : a < b) : a.next ≤ b := by
  obtain ⟨hmonth, hmonth', hday, hday'⟩ := hvalid
  rw [← not_lt, Date.lt_iff]
  rw [Date.lt_iff] at h
  unfold Date.next
  split_ifs with hlast hdecember
  · simp only
    omega
  · simp only
    rcases h with hyear | ⟨hyear, hlater | ⟨hsame, hlater⟩⟩
    · omega
    · omega
    · rw [← hyear, ← hsame] at hday'
      omega
  · simp only
    rcases h with hyear | ⟨hyear, hlater | ⟨hsame, hlater⟩⟩
    · omega
    · omega
    · rw [← hyear, ← hsame] at hday'
      omega

theorem firstDate_le {d : Date} (hvalid : d.Valid) (hyear : 1 ≤ d.year) : firstDate ≤ d := by
  obtain ⟨hmonth, -, hday, -⟩ := hvalid
  rw [← not_lt, Date.lt_iff]
  simp only [firstDate]
  omega

theorem daysInMonth_le (year month : Nat) : daysInMonth year month ≤ 31 := by
  unfold daysInMonth
  split_ifs <;> decide

theorem daysBeforeMonth_le (year month : Nat) : daysBeforeMonth year month ≤ 31 * month := by
  induction month with
  | zero => exact le_rfl
  | succ month ih =>
    rcases month.eq_zero_or_pos with rfl | hmonth
    · exact Nat.zero_le _
    · have hdays := daysInMonth_le year month
      rw [daysBeforeMonth_succ year hmonth]
      omega

theorem number_le {d : Date} (h : d.Valid) : number d ≤ 366 * d.year + 403 := by
  obtain ⟨-, hmonth, -, hday⟩ := h
  have hmonths := daysBeforeMonth_le d.year d.month
  have hdays := daysInMonth_le d.year d.month
  have hcenturies : (d.year - 1) / 100 ≤ (d.year - 1) / 4 :=
    Nat.div_le_div_left (by decide) (by decide)
  simp only [number, daysBeforeYear]
  omega

theorem exists_le_dayDate (d : Date) : ∃ n, d ≤ dayDate n := by
  refine ⟨366 * d.year + 404, not_lt.mp ?_⟩
  intro hlt
  have hyear := year_le_of_le hlt.le
  have hnumber := number_le (dayDate_valid (366 * d.year + 404))
  rw [number_dayDate] at hnumber
  omega

theorem dayDate_number {d : Date} (hvalid : d.Valid) (hyear : 1 ≤ d.year) :
    dayDate (number d) = d := by
  have hreached : ∃ n, d ≤ dayDate n := exists_le_dayDate d
  classical
  have hfound := Nat.find_spec hreached
  have hleast : dayDate (Nat.find hreached) = d := by
    apply le_antisymm _ hfound
    rcases hn : Nat.find hreached with _ | n
    · exact firstDate_le hvalid hyear
    · have hbefore : dayDate n < d := not_le.mp (Nat.find_min hreached (by omega))
      rw [dayDate_succ]
      exact next_le_of_lt hvalid hbefore
  rw [← hleast, number_dayDate]

theorem dayDate_eq_iff {n : Nat} {d : Date} :
    dayDate n = d ↔ d.Valid ∧ 1 ≤ d.year ∧ number d = n := by
  constructor
  · rintro rfl
    exact ⟨dayDate_valid n, one_le_year n, number_dayDate n⟩
  · rintro ⟨hvalid, hyear, rfl⟩
    exact dayDate_number hvalid hyear

end Ordinal
