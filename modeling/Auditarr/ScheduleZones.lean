/-
  Auditarr/ScheduleZones.lean
  ===========================
  **Schedule windows in their time zones** (`app/optimization/profile_schema.py`,
  `schedule_window_is_open`, and its place in `app/optimization/worker.py`).

  The name of a zone is any text.  `ZoneInfo` looks names up that are relative, normalized paths
  and refuses the others with `ValueError`; the fallback to UTC is there for names that are not
  found alone.  The claim of an item reads no profile, and `run_one` turns what a run raises into
  a failed item.
-/
import Auditarr.OptimizationQueue
import Auditarr.WallCron

namespace ScheduleZones

open PosixPath KeyedTable ProfileSchema Database OptimizationWorker OptimizationQueue Effects
open Cron (MINUTE)
open WallCron (DateTime END)

/-! ### Zones -/

/-- What tells one zone object from another. -/
inductive ZoneName where
  | utc
  | key (key : String)
  | other
deriving DecidableEq

/-- A zone: its offset from UTC, in microseconds, at a moment of UTC. -/
structure Zone where
  name : ZoneName
  offsetAt : Int → Int

/-- The `tzinfo` of a time: the zone, and the offset that it has there. -/
structure TzInfo where
  name : ZoneName
  utcoffset : Int
deriving DecidableEq

def utc : Zone := ⟨.utc, fun _ => 0⟩

/-- What raises while a window is looked at. -/
inductive ZoneError where
  | notFound (key : String)
  | value (key : String)
  | overflow
deriving DecidableEq

/-- What the world knows: the zones by their keys, the moment, and how errors are put. -/
structure World where
  /-- The zone data, for well-formed keys. -/
  find : String → Option (Int → Int)
  utcNow : DateTime TzInfo
  utcNow_aware : utcNow.tzinfo = some ⟨.utc, 0⟩
  /-- `str(exc)`. -/
  text : ZoneError → String

/-- A relative path in normal form. -/
def wellFormed (key : String) : Bool :=
  (splitSlash key.toList).all fun
    | [] | ['.'] | ['.', '.'] => false
    | _ => true

/-- `ZoneInfo(key)`. -/
def zoneInfo (w : World) (key : String) : Except ZoneError Zone :=
  if wellFormed key then match w.find key with
    | some offsetAt => .ok ⟨.key key, offsetAt⟩
    | none => .error (.notFound key)
  else .error (.value key)

/-- A moment of the calendar, or `OverflowError`. -/
def inCalendar (micros : Int) : Except ZoneError Int :=
  if 0 ≤ micros ∧ micros < END then .ok micros else .error .overflow

/-- What the clock shows after `now.astimezone(zone)`; a time of the zone itself stays. -/
def astimezone (now : DateTime TzInfo) (tz : TzInfo) (zone : Zone) : Except ZoneError Int :=
  if tz.name = zone.name then .ok now.micros
  else do
    let moment ← inCalendar (now.micros - tz.utcoffset)
    inCalendar (moment + zone.offsetAt moment)

/-- The hour that a clock shows. -/
def hourOf (micros : Int) : Nat := (micros / (60 * MINUTE) % 24).toNat

/-! ### Windows -/

/-- `_default_schedule_timezone`, from `TZ` and the names of the local zone. -/
def defaultScheduleTimezone (tz : Option String) (tzname : List String) : String :=
  match tz.filter (· ≠ "") with
  | some name => name
  | none => match tzname with
    | name :: _ => if name ≠ "" then name else "UTC"
    | [] => "UTC"

theorem defaultScheduleTimezone_ne_empty (tz : Option String) (tzname : List String) :
    defaultScheduleTimezone tz tzname ≠ "" := by
  simp only [defaultScheduleTimezone]
  cases htz : tz.filter (· ≠ "") with
  | some name => simpa using (Option.filter_eq_some_iff.mp htz).2
  | none =>
    cases tzname with
    | nil => decide
    | cons name rest => by_cases hname : name = "" <;> simp [hname]

/-- The zone of a window: UTC stands in for a zone that is not found. -/
def resolve (w : World) (key : String) : Except ZoneError Zone :=
  match zoneInfo w key with
  | .error (.notFound _) => .ok utc
  | outcome => outcome

/-- The time that is looked at, with its `tzinfo`; a naive one is in UTC. -/
def timeOf (w : World) : Option (DateTime TzInfo) → DateTime TzInfo × TzInfo
  | none => (w.utcNow, ⟨.utc, 0⟩)
  | some now => (now, now.tzinfo.getD ⟨.utc, 0⟩)

/-- `schedule_window_is_open`. -/
def scheduleWindowIsOpen (w : World) (window : Option ScheduleWindow) (now : Option (DateTime TzInfo)) :
    Except ZoneError Bool :=
  match window with
  | none => .ok true
  | some window =>
      if window.startHour = window.endHour then .ok true
      else do
        let (now, tz) := timeOf w now
        let zone ← resolve w window.timezone
        let micros ← astimezone now tz zone
        let h := hourOf micros
        if window.startHour < window.endHour then .ok (window.startHour ≤ h && h < window.endHour)
        else .ok (window.startHour ≤ h || h < window.endHour)

theorem scheduleWindowIsOpen_eq (w : World) (window : ScheduleWindow) (now : Option (DateTime TzInfo))
    {zone : Zone} {micros : Int} (hzone : resolve w window.timezone = .ok zone)
    (hmicros : astimezone (timeOf w now).1 (timeOf w now).2 zone = .ok micros) :
    scheduleWindowIsOpen w (some window) now =
      .ok (ProfileSchema.scheduleWindowIsOpen (fun _ => hourOf micros) (some window)) := by
  simp only [scheduleWindowIsOpen, ProfileSchema.scheduleWindowIsOpen]
  by_cases hsame : window.startHour = window.endHour
  · simp [hsame]
  · simp only [if_neg hsame, hzone, hmicros, bind, Except.bind]
    split <;> rfl

/-! ### The promise -/

/-- The zone that the name stands for: UTC if there is no such zone. -/
def zoneOf (w : World) (key : String) : Zone :=
  match if wellFormed key then w.find key else none with
  | some offsetAt => ⟨.key key, offsetAt⟩
  | none => utc

/-- The moment in UTC. -/
def moment (w : World) (now : Option (DateTime TzInfo)) : Int :=
  (timeOf w now).1.micros - (timeOf w now).2.utcoffset

/-- What a clock of the zone shows, in the calendar or out of it. -/
def clockIn (w : World) (zone : Zone) (now : Option (DateTime TzInfo)) : Int :=
  if (timeOf w now).2.name = zone.name then (timeOf w now).1.micros
  else moment w now + zone.offsetAt (moment w now)

/-- The hours from the start on, around the clock, to the end. -/
def Within (window : ScheduleWindow) (hour : Nat) : Prop :=
  (hour + 24 - window.startHour) % 24 < (window.endHour + 24 - window.startHour) % 24

instance (window : ScheduleWindow) (hour : Nat) : Decidable (Within window hour) :=
  inferInstanceAs (Decidable (_ < _))

/-- The window is always open, or the hour in its zone is within it. -/
def OpenAt (w : World) (window : ScheduleWindow) (now : Option (DateTime TzInfo)) : Prop :=
  window.startHour = window.endHour ∨
    Within window (hourOf (clockIn w (zoneOf w window.timezone) now))

instance (w : World) (window : ScheduleWindow) (now : Option (DateTime TzInfo)) :
    Decidable (OpenAt w window now) := inferInstanceAs (Decidable (_ ∨ _))

/-- The moment has a place in the calendar, in UTC and in the zone. -/
def Representable (w : World) (zone : Zone) (now : Option (DateTime TzInfo)) : Prop :=
  (timeOf w now).2.name = zone.name ∨
    (0 ≤ moment w now ∧ moment w now < END) ∧ 0 ≤ clockIn w zone now ∧ clockIn w zone now < END

theorem hourOf_lt (micros : Int) : hourOf micros < 24 := by
  rw [hourOf]
  omega

theorem within_iff (window : ScheduleWindow) {hour : Nat} (hhour : hour < 24)
    (hne : window.startHour ≠ window.endHour) :
    ProfileSchema.scheduleWindowIsOpen (fun _ => hour) (some window) = true ↔ Within window hour := by
  obtain ⟨startHour, endHour, timezone, hstart, hend⟩ := window
  simp only [ProfileSchema.scheduleWindowIsOpen, Within, if_neg hne]
  split
  · simp only [Bool.and_eq_true, decide_eq_true_eq]
    omega
  · simp only [Bool.or_eq_true, decide_eq_true_eq]
    simp only [ne_eq] at hne
    omega

/-! ### Outcomes -/

section Outcomes

variable {w : World} {window : ScheduleWindow} {now : Option (DateTime TzInfo)}

theorem resolve_eq_ok {key : String} {zone : Zone} :
    resolve w key = .ok zone ↔ wellFormed key = true ∧ zone = zoneOf w key := by
  rw [resolve, zoneInfo, zoneOf]
  cases hform : wellFormed key with
  | false => simp
  | true => cases hfind : w.find key <;> simp [eq_comm]

theorem inCalendar_eq_ok {micros micros' : Int} :
    inCalendar micros = .ok micros' ↔ (0 ≤ micros ∧ micros < END) ∧ micros' = micros := by
  rw [inCalendar]
  split
  · simp_all [eq_comm]
  · simp_all

theorem astimezone_eq_ok {zone : Zone} {micros : Int} :
    astimezone (timeOf w now).1 (timeOf w now).2 zone = .ok micros ↔
      Representable w zone now ∧ micros = clockIn w zone now := by
  rw [astimezone, Representable, clockIn]
  by_cases hname : (timeOf w now).2.name = zone.name
  · simp [hname, eq_comm]
  · rw [if_neg hname, if_neg hname, PyValues.bind_eq_ok]
    simp only [inCalendar_eq_ok, hname, false_or]
    constructor
    · rintro ⟨_, ⟨hmoment, rfl⟩, hclock, rfl⟩
      exact ⟨⟨hmoment, hclock⟩, rfl⟩
    · rintro ⟨⟨hmoment, hclock⟩, rfl⟩
      exact ⟨_, ⟨hmoment, rfl⟩, hclock, rfl⟩

/-- The window is evaluated, and right, iff it is always open, or its name is well formed and the
    moment has a place in the calendar. -/
theorem evaluated_iff : scheduleWindowIsOpen w (some window) now = .ok (decide (OpenAt w window now)) ↔
    window.startHour = window.endHour ∨
      wellFormed window.timezone = true ∧ Representable w (zoneOf w window.timezone) now := by
  by_cases hsame : window.startHour = window.endHour
  · have hopen : OpenAt w window now := .inl hsame
    simp [scheduleWindowIsOpen, hsame, hopen]
  · constructor
    · intro hok
      right
      rw [scheduleWindowIsOpen, if_neg hsame] at hok
      obtain ⟨zone, hzone, hok⟩ := PyValues.bind_eq_ok.mp hok
      obtain ⟨micros, hmicros, -⟩ := PyValues.bind_eq_ok.mp hok
      obtain ⟨hform, rfl⟩ := resolve_eq_ok.mp hzone
      exact ⟨hform, (astimezone_eq_ok.mp hmicros).1⟩
    · rintro (heq | ⟨hform, hplace⟩)
      · exact absurd heq hsame
      rw [scheduleWindowIsOpen_eq w window now (resolve_eq_ok.mpr ⟨hform, rfl⟩)
        (astimezone_eq_ok.mpr ⟨hplace, rfl⟩), Except.ok.injEq, Bool.eq_iff_iff,
        within_iff window (hourOf_lt _) hsame, decide_eq_true_eq, OpenAt]
      simp [hsame]

end Outcomes

/-! ### The worker -/

section Worker

variable (w : World) (env : OptimizationWorker.Env)

/-- The gate of `_run_claimed`; what raises there ends the run. -/
def gate (window : Option ScheduleWindow) : Worker Bool :=
  match scheduleWindowIsOpen w window none with
  | .ok isOpen => .ret isOpen
  | .error e => .raise (.other (w.text e))

/-- `_run_claimed`, with the zones as the world knows them. -/
def runClaimedIn : Worker WorkerReport := do
  let item ← Call.read Host.item
  let t ← Call.read Host.tables
  match t.media.find? item.mediaFileId with
  | none => fail env "media file no longer exists"
  | some media => match t.profiles.find? item.profile with
    | none => fail env ("profile " ++ env.repr item.profile ++ " not found")
    | some row =>
        if !row.enabled then skip env "profile is disabled"
        else match row.settings with
          | none => fail env ("profile " ++ env.repr item.profile ++ " has invalid settings: " ++
              env.invalidSettings row.name)
          | some profile => do
              let isOpen ← gate w profile.scheduleWindow
              if !isOpen then releaseForSchedule profile.scheduleWindow
              else if profile.routingTarget ≠ .inProcess then
                routeToProvider env media row profile
              else if !env.inProcessRunnerEnabled then
                fail env ("in-process runner disabled; reconfigure the " ++
                  "profile to route to plex/jellyfin/tdarr")
              else runInProcess env media row profile

/-- Where every window is evaluated to what the hours of the zones say, the run is the one of the
    worker with these hours. -/
theorem runClaimedIn_eq (h : ∀ window, scheduleWindowIsOpen w window none =
    .ok (ProfileSchema.scheduleWindowIsOpen env.hourIn window)) :
    runClaimedIn w env = runClaimed env := by
  have hgate : ∀ window, gate w window = .ret (ProfileSchema.scheduleWindowIsOpen env.hourIn window) := by
    intro window
    rw [gate, h]
  conv_lhs => simp only [runClaimedIn, hgate, Call.bind_ret_left]
  rfl

/-- `run_one` and `run_item` once the item is claimed. -/
def executeIn : Worker WorkerReport :=
  Call.attempt (runClaimedIn w env) fun exc => do
    let _ ← fail env (String.ofList (("worker crashed: " ++ exc.text).toList.take 2000))
    Call.read fun h => ⟨h.item.id, .failed, exc.text⟩

/-- `run_one`. -/
def runOneIn (s : Store) : Option (OptimizationItem × Except Failure WorkerReport) × Store :=
  match claimNext env s.tables 16 with
  | none => (none, s)
  | some (item, t) =>
      let (outcome, h) := executeIn w env ⟨t, item, s.disk, [], 0⟩
      (some (item, outcome), ⟨h.tables, h.disk⟩)

theorem runOneIn_eq (h : ∀ window, scheduleWindowIsOpen w window none =
    .ok (ProfileSchema.scheduleWindowIsOpen env.hourIn window)) :
    runOneIn w env = runOne env := by
  funext s
  rw [runOneIn, executeIn, runClaimedIn_eq w env h]
  rfl

theorem executeIn_returns (h : Host) : ∃ report, (executeIn w env h).1 = .ok report := by
  rw [executeIn, Call.run_attempt]
  rcases runClaimedIn w env h with ⟨e | report, h'⟩
  · exact ⟨_, rfl⟩
  · exact ⟨report, rfl⟩

theorem runOneIn_returns (s : Store) {item : OptimizationItem} {outcome : Except Failure WorkerReport}
    (h : (runOneIn w env s).1 = some (item, outcome)) : ∃ report, outcome = .ok report := by
  rw [runOneIn] at h
  cases hclaim : claimNext env s.tables 16 with
  | none => simp [hclaim] at h
  | some claimed =>
    simp only [hclaim, Option.some.injEq, Prod.mk.injEq] at h
    obtain ⟨-, rfl⟩ := h
    exact executeIn_returns w env _

/-- The tables with other profiles. -/
def withProfiles (t : Tables) (profiles : Table OptimizationProfile.name) : Tables :=
  { t with profiles := profiles }

theorem claimNext_withProfiles (profiles : Table OptimizationProfile.name) (t : Tables)
    (attempts : Nat) : claimNext env (withProfiles t profiles) attempts =
      (claimNext env t attempts).map fun won => (won.1, withProfiles won.2 profiles) := by
  induction attempts with
  | zero => rfl
  | succ attempts ih =>
    have hqueue : queue (withProfiles t profiles) = queue t := rfl
    have hclaim : ∀ candidate, claim env candidate (withProfiles t profiles) =
        (claim env candidate t).map fun won => (won.1, withProfiles won.2 profiles) := by
      intro candidate
      have hfind : (withProfiles t profiles).items.find? (keyOf candidate) =
          t.items.find? (keyOf candidate) := rfl
      rw [claim, claim, hfind]
      cases t.items.find? (keyOf candidate) with
      | none => rfl
      | some row =>
        by_cases hqueued : row.status = .queued
        · simp only [if_pos hqueued, Option.map_some]
          rfl
        · simp only [if_neg hqueued, Option.map_none]
    rw [claimNext, claimNext, hqueue]
    cases (queue t).head? with
    | none => rfl
    | some candidate =>
      simp only [hclaim]
      cases claim env candidate t with
      | none => exact ih
      | some won => rfl

end Worker

/-! ### The law -/

/-- A window is evaluated, and right, iff it is always open, or its name is well formed and the
    moment has a place in the calendar; and no profile makes a claim or a claimed run raise. -/
theorem window_law (w : World) :
    (∀ (window : ScheduleWindow) (now : Option (DateTime TzInfo)),
      scheduleWindowIsOpen w (some window) now = .ok (decide (OpenAt w window now)) ↔
        window.startHour = window.endHour ∨
          wellFormed window.timezone = true ∧ Representable w (zoneOf w window.timezone) now) ∧
    (∀ env profiles t attempts, claimNext env (withProfiles t profiles) attempts =
      (claimNext env t attempts).map fun won => (won.1, withProfiles won.2 profiles)) ∧
    ∀ env s item outcome, (runOneIn w env s).1 = some (item, outcome) →
      ∃ report, outcome = .ok report :=
  ⟨fun _ _ => evaluated_iff, claimNext_withProfiles, fun env s _ _ => runOneIn_returns w env s⟩

/-! ### A server whose zone is a file -/

theorem noon_bounded : 738885 * 1440 * MINUTE + 720 * MINUTE < END := by decide

def noon : DateTime TzInfo := ⟨738885 * 1440 * MINUTE + 720 * MINUTE, some ⟨.utc, 0⟩, noon_bounded⟩

/-- It is noon, and the only zone is UTC. -/
def noonWorld : World :=
  ⟨fun key => if key = "UTC" then some fun _ => 0 else none, noon, rfl, fun _ => "ZoneInfo"⟩

/-- From nine to five, with the zone that `TZ` names by its file. -/
def officeHours : ScheduleWindow :=
  ⟨9, 17, defaultScheduleTimezone (some "/usr/share/zoneinfo/UTC") ["UTC"], by decide, by decide⟩

/-- The window is neither open nor closed: looking at it raises. -/
theorem file_zone_raises : ¬scheduleWindowIsOpen noonWorld (some officeHours) none =
    .ok (decide (OpenAt noonWorld officeHours none)) := by
  have hraises : scheduleWindowIsOpen noonWorld (some officeHours) none =
      .error (.value "/usr/share/zoneinfo/UTC") := by
    rfl
  rw [hraises]
  intro h
  cases h

end ScheduleZones
