/-
  Auditarr/WallCron.lean
  ======================
  **The next run on a wall clock** (`app/automation/cron.py`).

  `next_run` reads and moves the wall clock of the time it is given, whatever its zone, from
  the year 1 to the year 9999.  What it returns is always the first later minute that the
  document names (`nextRun_ok_iff`).  It gives up after four years of 366 days, though, and a
  date on a weekday may be longer in coming: the promise to raise only where there is no
  later minute is kept where one comes within those years, or none at all
  (`exact_iff_recurs`).  A date of every common year, on any weekday, does
  (`recurs_of_everyWeekday`).
-/
import Auditarr.Cron
import Auditarr.Ordinal

namespace WallCron

open Calendar Ordinal PyValues
open Cron (CronError Fields fieldsOf MINUTE HORIZON)

/-! ### Moments -/

/-- The microseconds of the calendar; the last is `datetime.max`. -/
def END : Nat := 3652059 * 1440 * MINUTE

/-- A `datetime`: what its wall clock shows, and its time zone if it has one. -/
structure DateTime (Zone : Type) where
  micros : Nat
  tzinfo : Option Zone
  bounded : micros < END

variable {Zone : Type}

/-- The five fields of a minute of the wall clock are all named. -/
def Matches (f : Fields) (minute : Nat) : Prop :=
  (↑(minute % 60) : Int) ∈ f.minutes ∧ (↑(minute / 60 % 24) : Int) ∈ f.hours ∧
    (↑(dayDate (minute / 1440)).day : Int) ∈ f.days ∧
      (↑(dayDate (minute / 1440)).month : Int) ∈ f.months ∧
        (↑(dayOfWeek (minute / 1440)) : Int) ∈ f.weekdays

instance (f : Fields) (minute : Nat) : Decidable (Matches f minute) :=
  inferInstanceAs (Decidable (_ ∧ _ ∧ _ ∧ _ ∧ _))

/-- `d.replace(second=0, microsecond=0)`. -/
def DateTime.wholeMinute (d : DateTime Zone) : DateTime Zone :=
  ⟨d.micros / MINUTE * MINUTE, d.tzinfo, (Nat.div_mul_le_self ..).trans_lt d.bounded⟩

/-- `d + timedelta(minutes=1)`, which overflows beyond the calendar. -/
def DateTime.addMinute (d : DateTime Zone) : Except CronError (DateTime Zone) :=
  if h : END - MINUTE ≤ d.micros then .error (.raised .overflowError)
  else .ok ⟨d.micros + MINUTE, d.tzinfo, Nat.add_lt_of_lt_sub (not_le.mp h)⟩

/-! ### The search -/

/-- The loop over the candidates. -/
def search (spec : List (String × PyValue)) (f : Fields) :
    Nat → DateTime Zone → Except CronError (DateTime Zone)
  | 0, _ => .error (.noMatch (.dict spec))
  | rounds + 1, candidate =>
      if Matches f (candidate.micros / MINUTE) then .ok candidate
      else match candidate.addMinute with
        | .error e => .error e
        | .ok next => search spec f rounds next

/-- `next_run`. -/
def nextRun (spec : List (String × PyValue)) (after : DateTime Zone) :
    Except CronError (DateTime Zone) :=
  if after.tzinfo.isNone then .error (.value "``after`` must be timezone-aware")
  else match fieldsOf spec with
    | .error e => .error e
    | .ok f => match after.wholeMinute.addMinute with
      | .error e => .error e
      | .ok candidate => search spec f HORIZON candidate

/-- A moment is a minute of the wall clock, in a zone. -/
def DateTime.At (d : DateTime Zone) (zone : Option Zone) (minute : Nat) : Prop :=
  d.tzinfo = zone ∧ d.micros = minute * MINUTE

theorem DateTime.At.div {d : DateTime Zone} {zone : Option Zone} {minute : Nat}
    (h : d.At zone minute) : d.micros / MINUTE = minute := by
  rw [h.2]
  exact Nat.mul_div_cancel _ (by decide)

theorem DateTime.At.unique {d e : DateTime Zone} {zone : Option Zone} {minute : Nat}
    (hd : d.At zone minute) (he : e.At zone minute) : d = e := by
  obtain ⟨micros, tzinfo, bounded⟩ := d
  obtain ⟨micros', tzinfo', bounded'⟩ := e
  obtain ⟨rfl, rfl⟩ := hd
  obtain ⟨rfl, rfl⟩ := he
  rfl

theorem DateTime.At.addMinute {d next : DateTime Zone} {zone : Option Zone} {minute : Nat}
    (hd : d.At zone minute) (h : d.addMinute = .ok next) : next.At zone (minute + 1) := by
  unfold DateTime.addMinute at h
  split at h
  · cases h
  · cases h
    exact ⟨hd.1, by rw [Nat.succ_mul, ← hd.2]⟩

theorem DateTime.At.addMinute_ok {d e : DateTime Zone} {zone : Option Zone} {minute later : Nat}
    (hd : d.At zone minute) (he : e.At zone later) (hlater : minute < later) :
    ∃ next, d.addMinute = .ok next := by
  have hstep : d.micros + MINUTE ≤ e.micros := by
    rw [hd.2, he.2, ← Nat.succ_mul]
    exact Nat.mul_le_mul_right _ hlater
  have hbound : ¬END - MINUTE ≤ d.micros := by
    have hend := e.bounded
    omega
  unfold DateTime.addMinute
  rw [dif_neg hbound]
  exact ⟨_, rfl⟩

theorem search_ok_iff {spec : List (String × PyValue)} {f : Fields} {rounds first : Nat}
    {candidate d : DateTime Zone} {zone : Option Zone} (hat : candidate.At zone first) :
    search spec f rounds candidate = .ok d ↔ ∃ minute, d.At zone minute ∧
      (first ≤ minute ∧ minute < first + rounds ∧ Matches f minute) ∧
        ∀ earlier, first ≤ earlier → earlier < minute → ¬Matches f earlier := by
  induction rounds generalizing candidate first with
  | zero =>
    simp only [search, reduceCtorEq, false_iff]
    rintro ⟨minute, -, ⟨hlow, hhigh, -⟩, -⟩
    omega
  | succ rounds ih =>
    rw [search, hat.div]
    by_cases hmatch : Matches f first
    · rw [if_pos hmatch, Except.ok.injEq]
      constructor
      · rintro rfl
        refine ⟨first, hat, ⟨le_rfl, by omega, hmatch⟩, ?_⟩
        intro earlier hlow hlt
        omega
      · rintro ⟨minute, hd, ⟨hlow, -⟩, hleast⟩
        rcases hlow.eq_or_lt with rfl | hlater
        · exact hat.unique hd
        · exact absurd hmatch (hleast first le_rfl hlater)
    · rw [if_neg hmatch]
      constructor
      · intro h
        cases hnext : candidate.addMinute with
        | error e =>
          rw [hnext] at h
          cases h
        | ok next =>
          rw [hnext] at h
          obtain ⟨minute, hd, ⟨hlow, hhigh, hfound⟩, hleast⟩ := (ih (hat.addMinute hnext)).mp h
          refine ⟨minute, hd, ⟨by omega, by omega, hfound⟩, ?_⟩
          intro earlier hearlier hlt
          rcases hearlier.eq_or_lt with rfl | hlater
          · exact hmatch
          · exact hleast earlier hlater hlt
      · rintro ⟨minute, hd, ⟨hlow, hhigh, hfound⟩, hleast⟩
        have hlater : first < minute := by
          apply lt_of_le_of_ne hlow
          rintro rfl
          exact hmatch hfound
        obtain ⟨next, hnext⟩ := hat.addMinute_ok hd hlater
        rw [hnext]
        apply (ih (hat.addMinute hnext)).mpr
        refine ⟨minute, hd, ⟨hlater, by omega, hfound⟩, ?_⟩
        intro earlier hearlier
        exact hleast earlier (by omega)

/-! ### What the next run is -/

/-- A later whole minute, on the same clock, that the fields name. -/
structure Later (f : Fields) (after d : DateTime Zone) : Prop where
  zone : d.tzinfo = after.tzinfo
  whole : MINUTE ∣ d.micros
  later : after.micros < d.micros
  named : Matches f (d.micros / MINUTE)

/-- The moment is within the years that the search walks. -/
def InReach (after d : DateTime Zone) : Prop :=
  d.micros / MINUTE ≤ after.micros / MINUTE + HORIZON

theorem DateTime.wholeMinute_at (d : DateTime Zone) :
    d.wholeMinute.At d.tzinfo (d.micros / MINUTE) := ⟨rfl, rfl⟩

theorem later_iff {f : Fields} {after d : DateTime Zone} :
    Later f after d ↔ ∃ minute, d.At after.tzinfo minute ∧ after.micros / MINUTE < minute ∧
      Matches f minute := by
  constructor
  · rintro ⟨hzone, ⟨minute, hminute⟩, hlater, hnamed⟩
    have hat : d.At after.tzinfo minute := ⟨hzone, by rw [hminute, Nat.mul_comm]⟩
    rw [hat.div] at hnamed
    refine ⟨minute, hat, ?_, hnamed⟩
    rw [Nat.div_lt_iff_lt_mul (by decide), ← hat.2]
    exact hlater
  · rintro ⟨minute, hat, hlater, hnamed⟩
    refine ⟨hat.1, ⟨minute, by rw [hat.2, Nat.mul_comm]⟩, ?_, by rwa [hat.div]⟩
    rw [hat.2, ← Nat.div_lt_iff_lt_mul (by decide)]
    exact hlater

theorem nextRun_ok_iff {spec : List (String × PyValue)} {f : Fields} {after d : DateTime Zone}
    (hfields : fieldsOf spec = .ok f) (haware : after.tzinfo.isSome) :
    nextRun spec after = .ok d ↔
      (Later f after d ∧ InReach after d) ∧ ∀ e, Later f after e → d.micros ≤ e.micros := by
  have hnaive : after.tzinfo.isNone = false := by simpa using haware
  have hstart := after.wholeMinute_at
  rw [nextRun, hnaive, hfields]
  constructor
  · intro h
    cases hfirst : after.wholeMinute.addMinute with
    | error e =>
      rw [hfirst] at h
      cases h
    | ok candidate =>
      rw [hfirst] at h
      obtain ⟨minute, hat, ⟨hlow, hhigh, hnamed⟩, hleast⟩ :=
        (search_ok_iff (hstart.addMinute hfirst)).mp h
      refine ⟨⟨later_iff.mpr ⟨minute, hat, hlow, hnamed⟩, ?_⟩, ?_⟩
      · rw [InReach, hat.div]
        omega
      · intro e he
        obtain ⟨other, hother, hlater, hmatch⟩ := later_iff.mp he
        rw [hat.2, hother.2]
        apply Nat.mul_le_mul_right
        by_contra hlt
        exact hleast other hlater (by omega) hmatch
  · rintro ⟨⟨hd, hreach⟩, hleast⟩
    obtain ⟨minute, hat, hlater, hnamed⟩ := later_iff.mp hd
    obtain ⟨candidate, hfirst⟩ := hstart.addMinute_ok hat hlater
    rw [InReach, hat.div] at hreach
    rw [hfirst]
    apply (search_ok_iff (hstart.addMinute hfirst)).mpr
    refine ⟨minute, hat, ⟨hlater, by omega, hnamed⟩, ?_⟩
    intro earlier hlow hlt hmatch
    have hbound : earlier * MINUTE < END := by
      apply lt_trans _ d.bounded
      rw [hat.2]
      exact Nat.mul_lt_mul_of_pos_right hlt (by decide)
    have hle := hleast ⟨earlier * MINUTE, after.tzinfo, hbound⟩
      (later_iff.mpr ⟨earlier, ⟨rfl, rfl⟩, hlow, hmatch⟩)
    rw [hat.2] at hle
    exact absurd (Nat.le_of_mul_le_mul_right hle (by decide)) (by omega)

theorem nextRun_isOk_iff {spec : List (String × PyValue)} {f : Fields} {after : DateTime Zone}
    (hfields : fieldsOf spec = .ok f) (haware : after.tzinfo.isSome) :
    (∃ d, nextRun spec after = .ok d) ↔ ∃ d, Later f after d ∧ InReach after d := by
  classical
  constructor
  · rintro ⟨d, hd⟩
    exact ⟨d, ((nextRun_ok_iff hfields haware).mp hd).1⟩
  · rintro ⟨d, hd, hreach⟩
    have hsome : ∃ micros, ∃ e, Later f after e ∧ e.micros = micros := ⟨_, d, hd, rfl⟩
    obtain ⟨e, he, hmicros⟩ := Nat.find_spec hsome
    have hleast : ∀ e', Later f after e' → e.micros ≤ e'.micros := by
      intro e' he'
      rw [hmicros]
      exact Nat.find_min' hsome ⟨e', he', rfl⟩
    refine ⟨e, (nextRun_ok_iff hfields haware).mpr ⟨⟨he, ?_⟩, hleast⟩⟩
    exact (Nat.div_le_div_right (hleast d hd)).trans hreach

/-! ### What is promised -/

/-- The promise: the first later minute that the document names is returned, and an error is
    raised where there is none. -/
structure Exact (spec : List (String × PyValue)) (f : Fields) (after : DateTime Zone) : Prop where
  least : ∀ d, nextRun spec after = .ok d ↔
    Later f after d ∧ ∀ e, Later f after e → d.micros ≤ e.micros
  raises : (∃ e, nextRun spec after = .error e) ↔ ∀ d, ¬Later f after d

/-- A later minute comes in reach, if any does. -/
def Recurs (f : Fields) (after : DateTime Zone) : Prop :=
  ∀ d, Later f after d → ∃ e, Later f after e ∧ InReach after e

theorem Exact.recurs {spec : List (String × PyValue)} {f : Fields} {after : DateTime Zone}
    (hfields : fieldsOf spec = .ok f) (haware : after.tzinfo.isSome) (h : Exact spec f after) :
    Recurs f after := by
  intro d hd
  rw [← nextRun_isOk_iff hfields haware]
  cases hrun : nextRun spec after with
  | error e => exact absurd hd (h.raises.mp ⟨e, hrun⟩ d)
  | ok e => exact ⟨e, rfl⟩

/-! ### Dates that recur -/

theorem number_nextYear {today month day : Nat}
    (hvalid : (⟨(dayDate today).year + 1, month, day⟩ : Date).Valid) :
    today < number ⟨(dayDate today).year + 1, month, day⟩ ∧
      number ⟨(dayDate today).year + 1, month, day⟩ ≤ today + 800 := by
  obtain ⟨hmonth, hmonth', hday, hday'⟩ := hvalid
  constructor
  · rw [← dayDate_strictMono.lt_iff_lt, dayDate_number ⟨hmonth, hmonth', hday, hday'⟩ (by simp),
      Date.lt_iff]
    exact Or.inl (Nat.lt_succ_self _)
  · have hyears := daysBeforeYear_succ (one_le_year today)
    have hyear : daysInYear (dayDate today).year ≤ 366 := by
      unfold daysInYear
      split_ifs <;> decide
    have hmonths := daysBeforeMonth_le ((dayDate today).year + 1) month
    have hdays := daysInMonth_le ((dayDate today).year + 1) month
    have htoday := number_dayDate today
    simp only [number] at htoday hmonth' hday' ⊢
    omega

theorem recurs_of_everyWeekday {f : Fields} {month day : Nat}
    (hweekdays : ∀ weekday : Nat, weekday < 7 → (weekday : Int) ∈ f.weekdays)
    (hmonth : (month : Int) ∈ f.months) (hday : (day : Int) ∈ f.days)
    (hdate : ∀ year, (⟨year, month, day⟩ : Date).Valid)
    (after : DateTime Zone) : Recurs f after := by
  intro d hd
  by_cases hreach : InReach after d
  · exact ⟨d, hd, hreach⟩
  · obtain ⟨minute, hat, hlater, hminute, hhour, -⟩ := later_iff.mp hd
    rw [InReach, hat.div, HORIZON] at hreach
    have hvalid := hdate ((dayDate (after.micros / MINUTE / 1440)).year + 1)
    obtain ⟨hlow, hhigh⟩ := number_nextYear hvalid
    have hnumber := dayDate_number hvalid (by simp)
    generalize number _ = n at hlow hhigh hnumber
    -- the same time of the day, on that date of the next year
    have hsame : (n * 1440 + minute % 1440) / 1440 = n := by omega
    have hbound : (n * 1440 + minute % 1440) * MINUTE < END := by
      apply lt_of_le_of_lt _ d.bounded
      rw [hat.2]
      apply Nat.mul_le_mul_right
      omega
    refine ⟨⟨(n * 1440 + minute % 1440) * MINUTE, after.tzinfo, hbound⟩, later_iff.mpr
      ⟨n * 1440 + minute % 1440, ⟨rfl, rfl⟩, by omega, ?_⟩, ?_⟩
    · refine ⟨?_, ?_, ?_⟩
      · rwa [show (n * 1440 + minute % 1440) % 60 = minute % 60 by omega]
      · rwa [show (n * 1440 + minute % 1440) / 60 % 24 = minute / 60 % 24 by omega]
      · rw [hsame, hnumber]
        exact ⟨hday, hmonth, hweekdays _ (Nat.mod_lt n (by decide : 0 < 7))⟩
    · rw [InReach, DateTime.At.div ⟨rfl, rfl⟩, HORIZON]
      omega

/-! ### Exactness -/

/-- The next run is exact iff a later minute, if there is any, comes within four years of 366
    days. -/
theorem exact_iff_recurs {spec : List (String × PyValue)} {f : Fields} (after : DateTime Zone)
    (hfields : fieldsOf spec = .ok f) (haware : after.tzinfo.isSome) :
    Exact spec f after ↔ Recurs f after := by
  constructor
  · exact Exact.recurs hfields haware
  · intro hrecurs
    constructor
    · intro d
      rw [nextRun_ok_iff hfields haware]
      constructor
      · rintro ⟨⟨hd, -⟩, hleast⟩
        exact ⟨hd, hleast⟩
      · rintro ⟨hd, hleast⟩
        obtain ⟨e, he, hreach⟩ := hrecurs d hd
        exact ⟨⟨hd, (Nat.div_le_div_right (hleast e he)).trans hreach⟩, hleast⟩
    · constructor
      · rintro ⟨e, hrun⟩ d hd
        obtain ⟨d', hok⟩ := (nextRun_isOk_iff hfields haware).mpr (hrecurs d hd)
        rw [hrun] at hok
        cases hok
      · intro hnone
        cases hrun : nextRun spec after with
        | error e => exact ⟨e, rfl⟩
        | ok d => exact absurd ((nextRun_ok_iff hfields haware).mp hrun).1.1 (hnone d)

/-- A document that names any day. -/
def nightly : List (String × PyValue) := [("minute", .int 0), ("hour", .int 0)]

theorem fieldsOf_nightly : fieldsOf nightly = .ok ⟨[0], [0],
    (List.range' 1 31).map (↑), (List.range' 1 12).map (↑), (List.range' 0 7).map (↑)⟩ := by rfl

theorem newYear_bounded : 738885 * 1440 * MINUTE < END := by decide

/-- Midnight of 2024-01-01, a Monday. -/
def newYear : DateTime String := ⟨738885 * 1440 * MINUTE, some "UTC", newYear_bounded⟩

/-- A document that names any day is exact, from the first of January of 2024 on. -/
theorem exact_nightly : Exact nightly ⟨[0], [0], (List.range' 1 31).map (↑),
    (List.range' 1 12).map (↑), (List.range' 0 7).map (↑)⟩ newYear := by
  apply (exact_iff_recurs newYear fieldsOf_nightly rfl).mpr
  have hweekdays : ∀ weekday : Nat, weekday < 7 →
      (weekday : Int) ∈ (List.range' 0 7).map fun n => (n : Int) := by decide
  have hfirst : ((1 : Nat) : Int) ∈ (List.range' 1 31).map fun n => (n : Int) := by decide
  have hjanuary : ((1 : Nat) : Int) ∈ (List.range' 1 12).map fun n => (n : Int) := by decide
  refine recurs_of_everyWeekday hweekdays hjanuary hfirst ?_ newYear
  intro year
  exact ⟨le_rfl, by simp, le_rfl, one_le_daysInMonth year 1⟩

/-- Midnight of the first of January, where it is a Monday. -/
def newYearMonday : List (String × PyValue) :=
  [("minute", .int 0), ("hour", .int 0), ("day", .int 1), ("month", .int 1), ("weekday", .int 0)]

theorem fieldsOf_newYearMonday : fieldsOf newYearMonday = .ok ⟨[0], [0], [1], [1], [0]⟩ := by rfl

theorem newYear_later_bounded : 740712 * 1440 * MINUTE < END := by decide

/-- Midnight of 2029-01-01, the next that is a Monday. -/
def newYearLater : DateTime String := ⟨740712 * 1440 * MINUTE, some "UTC", newYear_later_bounded⟩

theorem dayDate_740712 : dayDate 740712 = ⟨2029, 1, 1⟩ :=
  dayDate_eq_iff.mpr ⟨⟨by decide, by decide, by decide, by decide⟩, by decide, by decide⟩

theorem later_newYear : Later ⟨[0], [0], [1], [1], [0]⟩ newYear newYearLater := by
  rw [later_iff]
  refine ⟨740712 * 1440, ⟨rfl, rfl⟩, by decide, ?_⟩
  have hdate : dayDate (740712 * 1440 / 1440) = ⟨2029, 1, 1⟩ := dayDate_740712
  simp only [Matches, hdate]
  decide

theorem not_inReach_newYear (d : DateTime String)
    (h : Later ⟨[0], [0], [1], [1], [0]⟩ newYear d) : ¬InReach newYear d := by
  intro hreach
  have hstart : newYear.micros / MINUTE = 738885 * 1440 := Nat.mul_div_cancel _ (by decide)
  obtain ⟨minute, hat, hlater, hminute, hhour, hday, hmonth, hweekday⟩ := later_iff.mp h
  rw [InReach, hat.div, hstart, HORIZON] at hreach
  rw [hstart] at hlater
  simp only [List.mem_singleton] at hminute hhour hday hmonth hweekday
  have hdate : dayDate (minute / 1440) = ⟨(dayDate (minute / 1440)).year, 1, 1⟩ :=
    Date.ext rfl (show _ = 1 by omega) (show _ = 1 by omega)
  obtain ⟨-, -, hnumber⟩ := dayDate_eq_iff.mp hdate
  generalize (dayDate (minute / 1440)).year = year at hnumber
  have hyear : number ⟨year, 1, 1⟩ = daysBeforeYear year := rfl
  rw [hyear, daysBeforeYear] at hnumber
  rw [dayOfWeek] at hweekday
  have hyears : year = 2025 ∨ year = 2026 ∨ year = 2027 ∨ year = 2028 := by omega
  rcases hyears with rfl | rfl | rfl | rfl <;> omega

/-- After the first of January of 2024 the next that is a Monday is in 2029, and the search is
    over before. -/
theorem newYearMonday_not_exact : fieldsOf newYearMonday = .ok ⟨[0], [0], [1], [1], [0]⟩ ∧
    ¬Exact newYearMonday ⟨[0], [0], [1], [1], [0]⟩ newYear := by
  refine ⟨fieldsOf_newYearMonday, ?_⟩
  intro hexact
  obtain ⟨d, hd, hreach⟩ := hexact.recurs fieldsOf_newYearMonday rfl newYearLater later_newYear
  exact not_inReach_newYear d hd hreach

/-! ### In UTC, since 1970 -/

/-- The day of the epoch. -/
@[irreducible] def EPOCH : Nat := 719162

/-- Its first minute. -/
@[irreducible] def EPOCH_MINUTE : Nat := EPOCH * 1440

theorem dateOf_eq_dayDate (n : Nat) : dateOf n = dayDate (n + EPOCH) := by
  induction n with
  | zero =>
    unfold EPOCH
    symm
    exact dayDate_eq_iff.mpr ⟨⟨by decide, by decide, by decide, by decide⟩, by decide, by decide⟩
  | succ n ih => rw [Nat.succ_add, dayDate_succ, ← ih, dateOf]

theorem weekdayOf_eq_dayOfWeek (n : Nat) : weekdayOf n = dayOfWeek (n + EPOCH) := by
  simp only [weekdayOf, dayOfWeek, EPOCH]
  omega

theorem matches_epoch (f : Fields) (minute : Nat) :
    Matches f (minute + EPOCH_MINUTE) ↔ Cron.Matches f minute := by
  have hday : ∀ k, (minute + k * 1440) / 1440 = minute / 1440 + k := by omega
  have hminute : ∀ k, (minute + k * 1440) % 60 = minute % 60 := by omega
  have hhour : ∀ k, (minute + k * 1440) / 60 % 24 = minute / 60 % 24 := by omega
  unfold EPOCH_MINUTE
  rw [Matches, Cron.Matches, hday, hminute, hhour, dateOf_eq_dayDate,
    weekdayOf_eq_dayOfWeek]

/-- A moment, so many microseconds after the epoch. -/
def DateTime.SinceEpoch (d : DateTime Zone) (micros : Nat) : Prop :=
  d.micros = micros + EPOCH_MINUTE * MINUTE

theorem DateTime.SinceEpoch.div {d : DateTime Zone} {micros : Nat} (h : d.SinceEpoch micros) :
    d.micros / MINUTE = micros / MINUTE + EPOCH_MINUTE := by
  rw [h]
  exact Nat.add_mul_div_right _ _ (by decide)

theorem minute_bounded_iff (minute : Nat) :
    (minute + EPOCH_MINUTE) * MINUTE < END ↔ minute ≤ Cron.LAST_MINUTE := by
  have hpos : 0 < MINUTE := by decide
  rw [END, Nat.mul_lt_mul_right hpos]
  unfold EPOCH_MINUTE
  simp only [EPOCH, Cron.LAST_MINUTE]
  omega

theorem named_iff {spec : List (String × PyValue)} {f : Fields} {after : DateTime Zone}
    {micros minute : Nat} (hfields : fieldsOf spec = .ok f) (hafter : after.SinceEpoch micros) :
    Cron.Named spec micros minute ↔ ∃ d : DateTime Zone,
      d.At after.tzinfo (minute + EPOCH_MINUTE) ∧ Later f after d ∧ InReach after d := by
  have hnamed := matches_epoch f minute
  have hbounded := minute_bounded_iff minute
  simp only [Cron.Named, hfields, Except.ok.injEq, exists_eq_left', InReach, later_iff, hafter.div]
  generalize EPOCH_MINUTE = shift at hnamed hbounded ⊢
  generalize micros / MINUTE = start
  constructor
  · rintro ⟨hlow, hhigh, hlast, hmatch⟩
    have hat : DateTime.At ⟨(minute + shift) * MINUTE, after.tzinfo, hbounded.mpr hlast⟩
        after.tzinfo (minute + shift) := ⟨rfl, rfl⟩
    refine ⟨_, hat, ⟨_, hat, by omega, hnamed.mpr hmatch⟩, ?_⟩
    rw [hat.div]
    omega
  · rintro ⟨d, hat, ⟨minute', hat', hlow, hmatch⟩, hreach⟩
    obtain rfl : minute + shift = minute' := by rw [← hat.div, hat'.div]
    have hend := d.bounded
    rw [hat.2] at hend
    rw [hat.div] at hreach
    exact ⟨by omega, by omega, hbounded.mp hend, hnamed.mp hmatch⟩

theorem Later.since {f : Fields} {after d : DateTime Zone} {micros : Nat} (h : Later f after d)
    (hafter : after.SinceEpoch micros) : ∃ minute, d.At after.tzinfo (minute + EPOCH_MINUTE) := by
  obtain ⟨minute, hat, hlater, -⟩ := later_iff.mp h
  rw [hafter.div] at hlater
  exact ⟨minute - EPOCH_MINUTE, by rwa [Nat.sub_add_cancel (le_of_add_le_right hlater.le)]⟩

theorem nextRun_sinceEpoch {spec : List (String × PyValue)} {f : Fields} {after : DateTime Zone}
    {micros : Nat} (hfields : fieldsOf spec = .ok f) (haware : after.tzinfo.isSome)
    (hafter : after.SinceEpoch micros) (time : Nat) :
    Cron.nextRun spec micros = .ok time ↔
      ∃ d : DateTime Zone, nextRun spec after = .ok d ∧ d.SinceEpoch time := by
  rw [Cron.nextRun_ok_iff]
  constructor
  · rintro ⟨minute, rfl, hnamed, hleast⟩
    obtain ⟨d, hat, hlater, hreach⟩ := (named_iff hfields hafter).mp hnamed
    refine ⟨d, (nextRun_ok_iff hfields haware).mpr ⟨⟨hlater, hreach⟩, ?_⟩, ?_⟩
    · intro e he
      by_contra hlt
      obtain ⟨other, hother⟩ := he.since hafter
      rw [not_le] at hlt
      have hearlier := hlt
      rw [hat.2, hother.2] at hearlier
      apply hleast other (Nat.lt_of_add_lt_add_right (Nat.lt_of_mul_lt_mul_right hearlier))
      exact (named_iff hfields hafter).mpr
        ⟨e, hother, he, (Nat.div_le_div_right hlt.le).trans hreach⟩
    · rw [DateTime.SinceEpoch, hat.2, Nat.add_mul]
  · rintro ⟨d, hrun, hsince⟩
    obtain ⟨⟨hlater, hreach⟩, hleast⟩ := (nextRun_ok_iff hfields haware).mp hrun
    obtain ⟨minute, hat⟩ := hlater.since hafter
    refine ⟨minute, ?_, (named_iff hfields hafter).mpr ⟨d, hat, hlater, hreach⟩, ?_⟩
    · rw [DateTime.SinceEpoch, hat.2, Nat.add_mul] at hsince
      exact (Nat.add_right_cancel hsince).symm
    · intro earlier hlt hnamed
      obtain ⟨e, hother, he, -⟩ := (named_iff hfields hafter).mp hnamed
      have hle := hleast e he
      rw [hat.2, hother.2] at hle
      have hminutes := Nat.le_of_mul_le_mul_right hle (by decide)
      omega

end WallCron
