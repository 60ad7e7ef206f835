/-
  Auditarr/Cron.lean
  ==================
  **The next minute of a cron document** (`app/automation/cron.py`).

  A document names minutes, hours, days, months and weekdays, and a missing key is any of
  them.  The next run is the first minute after a moment whose five fields are all named,
  searched minute by minute for four years of 366 days.  It is found iff there is one within
  them and within the calendar of the language (`nextRun_isOk_iff`).

  Times are microseconds since the epoch, in UTC.
-/
import Auditarr.Calendar
import Auditarr.PyValues

namespace Cron

open Calendar PyValues

/-! ### The document -/

/-- The exceptions of this module: a `ValueError` with its text, the one that names the whole
    document, and those of `int` and of the calendar. -/
inductive CronError where
  | value (message : String)
  | noMatch (spec : PyValue)
  | raised (e : PyError)

/-- `type(v).__name__`. -/
def typeName : PyValue → String
  | .none => "NoneType"
  | .bool _ => "bool"
  | .int _ => "int"
  | .float _ => "float"
  | .str _ => "str"
  | .list _ => "list"
  | .dict _ => "dict"

/-- `[int(v) for v in value]`. -/
def toInts : List PyValue → Except CronError (List Int)
  | [] => .ok []
  | v :: rest => match v.toInt with
    | .error e => .error (.raised e)
    | .ok n => match toInts rest with
      | .error e => .error e
      | .ok ns => .ok (n :: ns)

/-- The check of the values against `range(low, stop)`. -/
def inRange (low stop : Nat) (items : List Int) : Except CronError (List Int) :=
  match items.find? fun v => ¬((low : Int) ≤ v ∧ v < stop) with
  | some v => .error (.value ("cron value " ++ toString v ++ " out of range " ++ toString low ++
      ".." ++ toString (stop - 1)))
  | none => if items = [] then .error (.value "cron field cannot be an empty list") else .ok items

/-- `_as_set`, where the range is `range(low, stop)`. -/
def asSet (value : PyValue) (low stop : Nat) : Except CronError (List Int) :=
  match value with
  | .none => .ok ((List.range' low (stop - low)).map fun n => (n : Int))
  | .bool b => inRange low stop [if b then 1 else 0]
  | .int n => inRange low stop [n]
  | .list items => match toInts items with
    | .error e => .error e
    | .ok ns => inRange low stop ns
  | v => .error (.value ("cron field must be int or list, got " ++ typeName v))

structure Fields where
  minutes : List Int
  hours : List Int
  days : List Int
  months : List Int
  weekdays : List Int

/-- `spec.get(key)` of a document. -/
def field (spec : List (String × PyValue)) (key : String) : PyValue := (spec.lookup key).getD .none

def fieldsOf (spec : List (String × PyValue)) : Except CronError Fields := do
  let minutes ← asSet (field spec "minute") 0 60
  let hours ← asSet (field spec "hour") 0 24
  let days ← asSet (field spec "day") 1 32
  let months ← asSet (field spec "month") 1 13
  let weekdays ← asSet (field spec "weekday") 0 7
  return ⟨minutes, hours, days, months, weekdays⟩

/-- `validate_cron`. -/
def validateCron (spec : List (String × PyValue)) : Except CronError Unit := do
  let _ ← fieldsOf spec

/-! ### The search -/

def MINUTE : Nat := 60 * 1000000

/-- The last minute of `datetime.max`. -/
def LAST_MINUTE : Nat := 2932897 * 1440 - 1

def HORIZON : Nat := 60 * 24 * 366 * 4

/-- The five fields of a minute since the epoch are all named. -/
def Matches (f : Fields) (minute : Nat) : Prop :=
  (↑(minute % 60) : Int) ∈ f.minutes ∧ (↑(minute / 60 % 24) : Int) ∈ f.hours ∧
    (↑(dateOf (minute / 1440)).day : Int) ∈ f.days ∧ (↑(dateOf (minute / 1440)).month : Int) ∈ f.months ∧
      (↑(weekdayOf (minute / 1440)) : Int) ∈ f.weekdays

instance (f : Fields) (minute : Nat) : Decidable (Matches f minute) :=
  inferInstanceAs (Decidable (_ ∧ _ ∧ _ ∧ _ ∧ _))

/-- The loop over the candidates; a candidate beyond the calendar is an `OverflowError`. -/
def search (spec : List (String × PyValue)) (f : Fields) : Nat → Nat → Except CronError Nat
  | 0, candidate =>
      if LAST_MINUTE < candidate then .error (.raised .overflowError)
      else .error (.noMatch (.dict spec))
  | rounds + 1, candidate =>
      if LAST_MINUTE < candidate then .error (.raised .overflowError)
      else if Matches f candidate then .ok candidate
      else search spec f rounds (candidate + 1)

/-- `next_run`, after a moment with a time zone. -/
def nextRun (spec : List (String × PyValue)) (after : Nat) : Except CronError Nat :=
  match fieldsOf spec with
  | .error e => .error e
  | .ok f => match search spec f HORIZON (after / MINUTE + 1) with
    | .error e => .error e
    | .ok minute => .ok (minute * MINUTE)

theorem search_ok_iff {spec : List (String × PyValue)} {f : Fields} {rounds candidate minute : Nat} :
    search spec f rounds candidate = .ok minute ↔
      (candidate ≤ minute ∧ minute < candidate + rounds ∧ minute ≤ LAST_MINUTE ∧ Matches f minute) ∧
        ∀ earlier, candidate ≤ earlier → earlier < minute → ¬Matches f earlier := by
  induction rounds generalizing candidate with
  | zero =>
    apply iff_of_false
    · unfold search
      split <;> exact nofun
    · rintro ⟨⟨hfirst, hlast, -⟩, -⟩
      omega
  | succ rounds ih =>
    rw [search]
    by_cases hend : LAST_MINUTE < candidate
    · rw [if_pos hend]
      simp only [reduceCtorEq, false_iff]
      rintro ⟨⟨hfirst, -, hlast, -⟩, -⟩
      omega
    · rw [if_neg hend]
      by_cases hmatch : Matches f candidate
      · rw [if_pos hmatch, Except.ok.injEq]
        constructor
        · rintro rfl
          exact ⟨⟨le_rfl, by omega, by omega, hmatch⟩, fun earlier _ _ => by omega⟩
        · rintro ⟨⟨hfirst, -⟩, hleast⟩
          by_contra hne
          exact hleast candidate le_rfl (by omega) hmatch
      · rw [if_neg hmatch, ih]
        constructor
        · rintro ⟨⟨hfirst, hlast, hend', hfound⟩, hleast⟩
          refine ⟨⟨by omega, by omega, hend', hfound⟩, ?_⟩
          intro earlier hearlier hlt
          rcases hearlier.eq_or_lt with rfl | hlater
          · exact hmatch
          · exact hleast earlier hlater hlt
        · rintro ⟨⟨hfirst, hlast, hend', hfound⟩, hleast⟩
          have hne : candidate ≠ minute := by
            rintro rfl
            exact hmatch hfound
          exact ⟨⟨by omega, by omega, hend', hfound⟩, fun earlier hearlier =>
            hleast earlier (by omega)⟩

/-- A minute that a document names, within four years of a moment and within the calendar. -/
def Named (spec : List (String × PyValue)) (after minute : Nat) : Prop :=
  ∃ f, fieldsOf spec = .ok f ∧ after / MINUTE < minute ∧ minute ≤ after / MINUTE + HORIZON ∧
    minute ≤ LAST_MINUTE ∧ Matches f minute

theorem nextRun_ok_iff {spec : List (String × PyValue)} {after time : Nat} :
    nextRun spec after = .ok time ↔ ∃ minute, time = minute * MINUTE ∧ Named spec after minute ∧
      ∀ earlier < minute, ¬Named spec after earlier := by
  unfold nextRun Named
  cases hfields : fieldsOf spec with
  | error e => simp
  | ok f =>
    have hfirst : ∀ minute, after / MINUTE < minute ↔ after / MINUTE + 1 ≤ minute := fun _ => Iff.rfl
    simp only [Except.ok.injEq, exists_eq_left', hfirst]
    constructor
    · intro h
      cases hsearch : search spec f HORIZON (after / MINUTE + 1) with
      | error e =>
        rw [hsearch] at h
        cases h
      | ok minute =>
        rw [hsearch] at h
        cases h
        obtain ⟨⟨hlow, hhigh, hlast, hmatch⟩, hleast⟩ := search_ok_iff.mp hsearch
        refine ⟨minute, rfl, ⟨hlow, by omega, hlast, hmatch⟩, ?_⟩
        rintro earlier hlt ⟨hlow', -, -, hmatch'⟩
        exact hleast earlier hlow' hlt hmatch'
    · rintro ⟨minute, rfl, ⟨hlow, hhigh, hlast, hmatch⟩, hleast⟩
      have hsearch : search spec f HORIZON (after / MINUTE + 1) = .ok minute := by
        rw [search_ok_iff]
        refine ⟨⟨hlow, by omega, hlast, hmatch⟩, ?_⟩
        intro earlier hlow' hlt hmatch'
        exact hleast earlier hlt ⟨hlow', by omega, by omega, hmatch'⟩
      rw [hsearch]

theorem nextRun_isOk_iff {spec : List (String × PyValue)} {after : Nat} :
    (∃ time, nextRun spec after = .ok time) ↔ ∃ minute, Named spec after minute := by
  classical
  constructor
  · rintro ⟨time, htime⟩
    obtain ⟨minute, -, hnamed, -⟩ := nextRun_ok_iff.mp htime
    exact ⟨minute, hnamed⟩
  · intro hnamed
    refine ⟨Nat.find hnamed * MINUTE, nextRun_ok_iff.mpr ⟨Nat.find hnamed, rfl, ?_, ?_⟩⟩
    · exact Nat.find_spec hnamed
    · exact fun _ => Nat.find_min hnamed

theorem lt_of_nextRun {spec : List (String × PyValue)} {after time : Nat}
    (h : nextRun spec after = .ok time) : after < time := by
  obtain ⟨minute, rfl, ⟨f, -, hlow, -⟩, -⟩ := nextRun_ok_iff.mp h
  exact (Nat.div_lt_iff_lt_mul (by decide)).mp hlow

theorem validateCron_ok_iff {spec : List (String × PyValue)} :
    validateCron spec = .ok () ↔ ∃ f, fieldsOf spec = .ok f := by
  unfold validateCron
  cases fieldsOf spec <;> simp [bind, Except.bind, pure, Except.pure]

end Cron
