/-
  Auditarr/Calendar.lean
  ======================
  **The Gregorian calendar, day after day.**

  Days are counted from 1970-01-01.  A date is the epoch's after so many steps to the
  next day, so what is said of the calendar is said of one step: the date grows, the
  month grows or stays, and the date is a date.
-/
import Mathlib.Data.Prod.Lex
import Mathlib.Logic.Function.Iterate
import Mathlib.Order.Monotone.Basic

namespace Calendar

@[ext]
structure Date where
  year : Nat
  month : Nat
  day : Nat
deriving DecidableEq, Repr

def isLeap (year : Nat) : Bool := year % 4 = 0 ∧ (year % 100 ≠ 0 ∨ year % 400 = 0)

def daysInMonth (year month : Nat) : Nat :=
  if month = 2 then if isLeap year then 29 else 28
  else if month = 4 ∨ month = 6 ∨ month = 9 ∨ month = 11 then 30
  else 31

/-- The day after. -/
def Date.next (d : Date) : Date :=
  if d.day < daysInMonth d.year d.month then { d with day := d.day + 1 }
  else if d.month < 12 then ⟨d.year, d.month + 1, 1⟩
  else ⟨d.year + 1, 1, 1⟩

def epoch : Date := ⟨1970, 1, 1⟩

/-- The date of a day. -/
def dateOf : Nat → Date
  | 0 => epoch
  | n + 1 => (dateOf n).next

/-- The weekday of a day, where Monday is 0.  The epoch was a Thursday. -/
def weekdayOf (n : Nat) : Nat := (n + 3) % 7

/-! ### Dates grow -/

/-- A date as it is compared. -/
def Date.key (d : Date) : Nat ×ₗ (Nat ×ₗ Nat) := toLex (d.year, toLex (d.month, d.day))

theorem Date.key_injective : Function.Injective Date.key := by
  rintro ⟨y, m, d⟩ ⟨y', m', d'⟩ h
  simp only [Date.key, toLex_inj, Prod.mk.injEq] at h
  obtain ⟨rfl, rfl, rfl⟩ := h
  rfl

instance : LinearOrder Date := LinearOrder.lift' Date.key Date.key_injective

/-- The month of a date, with its year. -/
def Date.yearMonth (d : Date) : Nat ×ₗ Nat := toLex (d.year, d.month)

theorem Date.lt_iff {a b : Date} : a < b ↔ a.year < b.year ∨ a.year = b.year ∧
    (a.month < b.month ∨ a.month = b.month ∧ a.day < b.day) := by
  change a.key < b.key ↔ _
  simp [Date.key, Prod.Lex.toLex_lt_toLex]

theorem Date.lt_next (d : Date) : d < d.next := by
  rw [Date.lt_iff]
  unfold Date.next
  split
  · simp
  · split <;> simp

theorem dateOf_strictMono : StrictMono dateOf :=
  strictMono_nat_of_lt_succ fun n => (dateOf n).lt_next

theorem Date.yearMonth_mono : Monotone Date.yearMonth := by
  intro a b hab
  rcases hab.lt_or_eq with hlt | rfl
  · rw [Date.lt_iff] at hlt
    simp only [Date.yearMonth, Prod.Lex.toLex_le_toLex]
    omega
  · exact le_rfl

/-! ### Dates are dates -/

def Date.Valid (d : Date) : Prop :=
  1 ≤ d.month ∧ d.month ≤ 12 ∧ 1 ≤ d.day ∧ d.day ≤ daysInMonth d.year d.month

theorem one_le_daysInMonth (year month : Nat) : 1 ≤ daysInMonth year month := by
  unfold daysInMonth
  split_ifs <;> omega

theorem Date.Valid.next {d : Date} (h : d.Valid) : d.next.Valid := by
  obtain ⟨hmonth, hmonth', hday, hday'⟩ := h
  have hfirst := one_le_daysInMonth
  unfold Date.next
  split
  · rename_i hlast
    exact ⟨hmonth, hmonth', Nat.le_add_left 1 d.day, hlast⟩
  · split
    · rename_i hyear
      exact ⟨Nat.le_add_left 1 d.month, hyear, le_rfl, hfirst ..⟩
    · exact ⟨le_rfl, Nat.le_add_left 1 11, le_rfl, hfirst ..⟩

theorem dateOf_valid (n : Nat) : (dateOf n).Valid := by
  induction n with
  | zero => exact ⟨by decide, by decide, by decide, by decide⟩
  | succ n ih => exact ih.next

theorem isLeap_of_leapDay {n : Nat} (hmonth : (dateOf n).month = 2) (hday : (dateOf n).day = 29) :
    isLeap (dateOf n).year = true := by
  obtain ⟨-, -, -, hlast⟩ := dateOf_valid n
  by_contra hleap
  rw [hmonth, hday, daysInMonth, if_pos rfl, if_neg hleap] at hlast
  omega

/-! ### Four years -/

theorem isLeap_eq {year : Nat} (hfirst : 1900 < year) (hlast : year < 2100) :
    isLeap year = decide (year % 4 = 0) := by
  unfold isLeap
  congr 1
  rw [eq_iff_iff, and_iff_left_iff_imp]
  omega

def Date.addYears (k : Nat) (d : Date) : Date := { d with year := d.year + k }

theorem Date.next_addYears_four {d : Date} (hfirst : 1900 < d.year) (hlast : d.year + 4 < 2100) :
    (d.addYears 4).next = d.next.addYears 4 := by
  have hdays : daysInMonth (d.year + 4) d.month = daysInMonth d.year d.month := by
    unfold daysInMonth
    rw [isLeap_eq (by omega) hlast, isLeap_eq hfirst (by omega), Nat.add_mod_right]
  by_cases hday : d.day < daysInMonth d.year d.month
  · simp [Date.next, Date.addYears, hdays, hday]
  · by_cases hmonth : d.month < 12
    · simp [Date.next, Date.addYears, hdays, hday, hmonth]
    · simp [Date.next, Date.addYears, hdays, hday, hmonth, Nat.add_right_comm]

theorem dateOf_add (n k : Nat) : dateOf (n + k) = Date.next^[k] (dateOf n) := by
  induction k with
  | zero => rfl
  | succ k ih => rw [Function.iterate_succ_apply', ← ih]; rfl

theorem dateOf_730 : dateOf 730 = ⟨1972, 1, 1⟩ := by
  have hsecond : dateOf 365 = ⟨1971, 1, 1⟩ := by decide +kernel
  rw [show 730 = 365 + 365 from rfl, dateOf_add, hsecond]
  decide +kernel

theorem dateOf_1461 : dateOf 1461 = ⟨1974, 1, 1⟩ := by
  have hfourth : dateOf 1096 = ⟨1973, 1, 1⟩ := by
    rw [show 1096 = 730 + 366 from rfl, dateOf_add, dateOf_730]
    decide +kernel
  rw [show 1461 = 1096 + 365 from rfl, dateOf_add, hfourth]
  decide +kernel

theorem epoch_le_dateOf (n : Nat) : epoch ≤ dateOf n :=
  dateOf_strictMono.monotone (Nat.zero_le n)

theorem year_le_of_le {a b : Date} (h : a ≤ b) : a.year ≤ b.year := by
  rcases h.lt_or_eq with hlt | rfl
  · rw [Date.lt_iff] at hlt
    omega
  · exact le_rfl

theorem dateOf_add_four_years {n : Nat} (h : (dateOf n).year + 4 < 2100) :
    dateOf (n + 1461) = (dateOf n).addYears 4 := by
  induction n with
  | zero => exact dateOf_1461
  | succ n ih =>
    have hearlier : (dateOf n).year ≤ (dateOf (n + 1)).year :=
      year_le_of_le (dateOf_strictMono.monotone (Nat.le_succ n))
    have hepoch : 1970 ≤ (dateOf n).year := year_le_of_le (epoch_le_dateOf n)
    rw [Nat.add_right_comm, dateOf, ih (by omega), dateOf,
      Date.next_addYears_four (by omega) (by omega)]

theorem dateOf_add_years {n k : Nat} (h : (dateOf n).year + 4 * k < 2100) :
    dateOf (n + 1461 * k) = (dateOf n).addYears (4 * k) := by
  induction k with
  | zero => rfl
  | succ k ih =>
    have hbefore := ih (by omega)
    have hyear : (dateOf (n + 1461 * k)).year + 4 < 2100 := by
      rw [hbefore, Date.addYears]
      omega
    rw [Nat.mul_succ, ← Nat.add_assoc, dateOf_add_four_years hyear, hbefore]
    rfl

end Calendar
