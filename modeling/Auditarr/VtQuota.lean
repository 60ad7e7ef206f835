/-
  Auditarr/VtQuota.lean
  =====================
  **The quota of VirusTotal lookups** (`plugins/virustotal/backend.py`).

  Three counters bound the lookups: of the minute, the UTC day and the UTC month.  A call
  first restarts the windows that are over, then asks the three in turn, and is refused by
  the first that is exhausted.  The day and the month are windows of the calendar, and
  their bounds hold of every day and every month.  The minute begins with a call, so that
  its bound holds of the windows, but not of every interval of sixty seconds.

  Times are microseconds since the epoch, in UTC.
-/
import Auditarr.Calendar
import Auditarr.RollingWindow
import Auditarr.WindowCounter

namespace VtQuota

open Calendar WindowCounter RollingWindow

/-! ### The state -/

inductive Window where
  | minute | day | month
deriving DecidableEq, Repr

/-- `VT_MINUTE_CEILING`. -/
def vtMinuteCeiling : Nat := 4

/-- `timedelta(seconds=60)`. -/
def sixtySeconds : Nat := 60 * 1000000

/-- `now.date()`. -/
def utcDate (now : Nat) : Date := dateOf (now / (86400 * 1000000))

/-- `(now.year, now.month)`. -/
def utcMonth (now : Nat) : Nat ×ₗ Nat := (utcDate now).yearMonth

/-- `_QuotaState`. -/
structure QuotaState where
  minuteCounter : Nat := 0
  minuteWindowStarted : Nat
  dayCounter : Nat := 0
  dayWindow : Date
  monthCounter : Nat := 0
  monthWindow : Nat ×ₗ Nat
  lastCheckAt : Option Nat := none
  minuteQuotaAlerted : Bool := false
  dayQuotaAlerted : Bool := false
  monthQuotaAlerted : Bool := false
deriving DecidableEq

/-- The state of a new process, which reads the clock once for each window. -/
def QuotaState.initial (atMinute atDay atMonth : Nat) : QuotaState where
  minuteWindowStarted := atMinute
  dayWindow := utcDate atDay
  monthWindow := utcMonth atMonth

def QuotaState.counter (s : QuotaState) : Window → Nat
  | .minute => s.minuteCounter
  | .day => s.dayCounter
  | .month => s.monthCounter

theorem QuotaState.counter_minute (s : QuotaState) : s.counter .minute = s.minuteCounter := rfl

def QuotaState.alerted (s : QuotaState) : Window → Bool
  | .minute => s.minuteQuotaAlerted
  | .day => s.dayQuotaAlerted
  | .month => s.monthQuotaAlerted

def QuotaState.alert (s : QuotaState) : Window → QuotaState
  | .minute => { s with minuteQuotaAlerted := true }
  | .day => { s with dayQuotaAlerted := true }
  | .month => { s with monthQuotaAlerted := true }

/-! ### A call -/

/-- The arguments of a call, and the clock that it reads. -/
structure Call where
  minuteCap : Nat
  dailyCap : Nat
  monthlyCap : Nat
  /-- There is an event bus. -/
  eventBus : Bool
  now : Nat

def Call.cap (c : Call) : Window → Nat
  | .minute => c.minuteCap
  | .day => c.dailyCap
  | .month => c.monthlyCap

def rotateMinute (state : QuotaState) (now : Nat) : QuotaState :=
  if sixtySeconds ≤ now - state.minuteWindowStarted then
    { state with minuteWindowStarted := now, minuteCounter := 0, minuteQuotaAlerted := false }
  else state

def rotateDay (state : QuotaState) (now : Nat) : QuotaState :=
  if state.dayWindow ≠ utcDate now then
    { state with dayWindow := utcDate now, dayCounter := 0, dayQuotaAlerted := false }
  else state

def rotateMonth (state : QuotaState) (now : Nat) : QuotaState :=
  if state.monthWindow ≠ utcMonth now then
    { state with monthWindow := utcMonth now, monthCounter := 0, monthQuotaAlerted := false }
  else state

/-- `_rotate_windows`. -/
def rotateWindows (state : QuotaState) (now : Nat) : QuotaState :=
  rotateMonth (rotateDay (rotateMinute state now) now) now

/-- The first window that is exhausted. -/
def exhaustedWindow (c : Call) (s : QuotaState) : Option Window :=
  if c.minuteCap ≤ s.minuteCounter then some .minute
  else if c.dailyCap ≤ s.dayCounter then some .day
  else if c.monthlyCap ≤ s.monthCounter then some .month
  else none

/-- What a call answers, publishes and leaves behind. -/
structure Verdict where
  /-- The window that refuses the call, if one does. -/
  refusedBy : Option Window
  /-- The payload of `virustotal.quota_exhausted`. -/
  published : Option (Window × Nat)
  state : QuotaState

/-- A refusal; a window publishes the first one only. -/
def refuse (c : Call) (s : QuotaState) (w : Window) : Verdict :=
  ⟨some w, if s.alerted w = false ∧ c.eventBus then some (w, c.cap w) else none, s.alert w⟩

def allow (c : Call) (s : QuotaState) : Verdict :=
  ⟨none, none, { s with
    minuteCounter := s.minuteCounter + 1
    dayCounter := s.dayCounter + 1
    monthCounter := s.monthCounter + 1
    lastCheckAt := some c.now }⟩

/-- `_check_and_increment_quota`. -/
def checkAndIncrementQuota (c : Call) (state : QuotaState) : Verdict :=
  let s := rotateWindows state c.now
  match exhaustedWindow c s with
  | some w => refuse c s w
  | none => allow c s

/-! ### Histories -/

/-- A call with the state it found. -/
structure Entry where
  before : QuotaState
  call : Call

def Entry.verdict (e : Entry) : Verdict := checkAndIncrementQuota e.call e.before

/-- The state with the windows that the call counts in. -/
def Entry.rotated (e : Entry) : QuotaState := rotateWindows e.before e.call.now

def Entry.allowed (e : Entry) : Bool := e.verdict.refusedBy.isNone

/-- The call publishes that a window is exhausted. -/
def Entry.alerts (e : Entry) (w : Window) : Bool := (e.verdict.published.map (·.1)) = some w

/-- A sequence of calls, from a state on. -/
def history (state : QuotaState) : List Call → List Entry
  | [] => []
  | c :: rest => ⟨state, c⟩ :: history (Entry.verdict ⟨state, c⟩).state rest

/-- An instance of a window. -/
inductive Instance where
  | minute (startedAt : Nat)
  | day (date : Date)
  | month (yearMonth : Nat ×ₗ Nat)
deriving DecidableEq

/-- The instance of a window that a state counts in. -/
def QuotaState.instanceOf (s : QuotaState) : Window → Instance
  | .minute => .minute s.minuteWindowStarted
  | .day => .day s.dayWindow
  | .month => .month s.monthWindow

/-- The window that a call counts in. -/
def Entry.instanceOf (e : Entry) (w : Window) : Instance := e.rotated.instanceOf w

def Instance.before : Instance → Instance → Prop
  | .minute a, .minute b => a ≤ b
  | .day a, .day b => a ≤ b
  | .month a, .month b => a ≤ b
  | _, _ => False

theorem Instance.before_antisymm (i j : Instance) (h : i.before j) (h' : j.before i) : i = j := by
  cases i <;> cases j <;> simp only [Instance.before] at h h' <;> rw [le_antisymm h h']

/-! ### One call -/

section Rotation

variable {s s' s'' : QuotaState} {w : Window}

/-- A step leaves a window alone. -/
structure Untouched (w : Window) (s s' : QuotaState) : Prop where
  counter : s'.counter w = s.counter w
  alerted : s'.alerted w = s.alerted w
  instanceOf : s'.instanceOf w = s.instanceOf w

/-- A step finds a window as it was, or restarts it with nothing counted or alerted. -/
structure Rolled (w : Window) (s s' : QuotaState) : Prop where
  counter : s'.counter w = countIn (s.instanceOf w) (s.counter w) (s'.instanceOf w)
  alerted : (s'.alerted w).toNat =
    countIn (s.instanceOf w) (s.alerted w).toNat (s'.instanceOf w)

theorem Untouched.refl (w : Window) (s : QuotaState) : Untouched w s s := ⟨rfl, rfl, rfl⟩

theorem Untouched.trans (h : Untouched w s s') (h' : Untouched w s' s'') : Untouched w s s'' :=
  ⟨h'.counter.trans h.counter, h'.alerted.trans h.alerted, h'.instanceOf.trans h.instanceOf⟩

theorem Rolled.refl (w : Window) (s : QuotaState) : Rolled w s s :=
  ⟨(countIn_self ..).symm, (countIn_self ..).symm⟩

theorem Rolled.restart (hne : s.instanceOf w ≠ s'.instanceOf w) (hcount : s'.counter w = 0)
    (halerted : s'.alerted w = false) : Rolled w s s' :=
  ⟨by rw [hcount, countIn, if_neg hne], by rw [halerted, countIn, if_neg hne]; rfl⟩

theorem Rolled.after (h : Rolled w s' s'') (h' : Untouched w s s') : Rolled w s s'' := by
  obtain ⟨hcounter, halerted⟩ := h
  rw [h'.counter, h'.instanceOf] at hcounter
  rw [h'.alerted, h'.instanceOf] at halerted
  exact ⟨hcounter, halerted⟩

theorem Rolled.then (h : Rolled w s s') (h' : Untouched w s' s'') : Rolled w s s'' := by
  obtain ⟨hcounter, halerted⟩ := h
  rw [← h'.counter, ← h'.instanceOf] at hcounter
  rw [← h'.alerted, ← h'.instanceOf] at halerted
  exact ⟨hcounter, halerted⟩

variable (s) (now : Nat)

theorem rotateMinute_other (hw : w ≠ .minute) : Untouched w s (rotateMinute s now) := by
  unfold rotateMinute
  split
  · cases w with
    | minute => exact absurd rfl hw
    | day => exact ⟨rfl, rfl, rfl⟩
    | month => exact ⟨rfl, rfl, rfl⟩
  · exact .refl w s

theorem rotateDay_other (hw : w ≠ .day) : Untouched w s (rotateDay s now) := by
  unfold rotateDay
  split
  · cases w with
    | minute => exact ⟨rfl, rfl, rfl⟩
    | day => exact absurd rfl hw
    | month => exact ⟨rfl, rfl, rfl⟩
  · exact .refl w s

theorem rotateMonth_other (hw : w ≠ .month) : Untouched w s (rotateMonth s now) := by
  unfold rotateMonth
  split
  · cases w with
    | minute => exact ⟨rfl, rfl, rfl⟩
    | day => exact ⟨rfl, rfl, rfl⟩
    | month => exact absurd rfl hw
  · exact .refl w s

theorem rotateMinute_rolled : Rolled .minute s (rotateMinute s now) := by
  unfold rotateMinute
  split
  · rename_i hover
    refine .restart ?_ (rfl) (rfl)
    simp only [QuotaState.instanceOf, ne_eq, Instance.minute.injEq]
    unfold sixtySeconds at hover
    omega
  · exact .refl _ s

theorem rotateDay_rolled : Rolled .day s (rotateDay s now) := by
  unfold rotateDay
  split
  · rename_i hover
    refine .restart ?_ (rfl) (rfl)
    simpa only [QuotaState.instanceOf, ne_eq, Instance.day.injEq] using hover
  · exact .refl _ s

theorem rotateMonth_rolled : Rolled .month s (rotateMonth s now) := by
  unfold rotateMonth
  split
  · rename_i hover
    refine .restart ?_ (rfl) (rfl)
    simpa only [QuotaState.instanceOf, ne_eq, Instance.month.injEq] using hover
  · exact .refl _ s

theorem rotateWindows_rolled (w : Window) : Rolled w s (rotateWindows s now) := by
  unfold rotateWindows
  cases w with
  | minute =>
    exact ((rotateMinute_rolled s now).then (rotateDay_other _ now (by decide))).then
      (rotateMonth_other _ now (by decide))
  | day =>
    exact ((rotateDay_rolled _ now).after (rotateMinute_other s now (by decide))).then
      (rotateMonth_other _ now (by decide))
  | month =>
    exact (rotateMonth_rolled _ now).after
      ((rotateMinute_other s now (by decide)).trans (rotateDay_other _ now (by decide)))

theorem instanceOf_rotateWindows_minute : (rotateWindows s now).instanceOf .minute =
    (rotateMinute s now).instanceOf .minute := by
  unfold rotateWindows
  exact ((rotateDay_other _ now (by decide)).trans (rotateMonth_other _ now (by decide))).instanceOf

theorem instanceOf_rotateWindows_day :
    (rotateWindows s now).instanceOf .day = .day (utcDate now) := by
  unfold rotateWindows
  refine (rotateMonth_other _ now (by decide)).instanceOf.trans ?_
  unfold rotateDay
  split
  · exact rfl
  · rename_i hsame
    exact congrArg Instance.day (not_not.mp hsame)

theorem instanceOf_rotateWindows_month :
    (rotateWindows s now).instanceOf .month = .month (utcMonth now) := by
  unfold rotateWindows rotateMonth
  split
  · exact rfl
  · rename_i hsame
    exact congrArg Instance.month (not_not.mp hsame)

end Rotation

section Answer

variable (e : Entry) (w : Window)

theorem forall_window_iff {c : Call} {s : QuotaState} : (∀ w, s.counter w < c.cap w) ↔
    s.minuteCounter < c.minuteCap ∧ s.dayCounter < c.dailyCap ∧ s.monthCounter < c.monthlyCap := by
  constructor
  · intro h
    exact ⟨h .minute, h .day, h .month⟩
  · rintro ⟨hminute, hday, hmonth⟩ w
    cases w with
    | minute => exact hminute
    | day => exact hday
    | month => exact hmonth

theorem exhaustedWindow_eq_none {c : Call} {s : QuotaState} :
    exhaustedWindow c s = none ↔ ∀ w, s.counter w < c.cap w := by
  rw [forall_window_iff]
  unfold exhaustedWindow
  split_ifs <;> simp <;> omega

theorem Entry.verdict_of_none (h : exhaustedWindow e.call e.rotated = none) :
    e.verdict = allow e.call e.rotated := by
  unfold Entry.rotated at h
  simp only [Entry.verdict, checkAndIncrementQuota, h, Entry.rotated]

theorem Entry.verdict_of_some {w : Window} (h : exhaustedWindow e.call e.rotated = some w) :
    e.verdict = refuse e.call e.rotated w := by
  unfold Entry.rotated at h
  simp only [Entry.verdict, checkAndIncrementQuota, h, Entry.rotated]

theorem Entry.allowed_iff : e.allowed = true ↔ ∀ w, e.rotated.counter w < e.call.cap w := by
  rw [← exhaustedWindow_eq_none]
  unfold Entry.allowed
  cases h : exhaustedWindow e.call e.rotated with
  | none => simp [e.verdict_of_none h, allow]
  | some w' => simp [e.verdict_of_some h, refuse]

theorem Entry.verdict_allowed (h : e.allowed = true) : e.verdict = allow e.call e.rotated :=
  e.verdict_of_none (exhaustedWindow_eq_none.mpr (e.allowed_iff.mp h))

theorem Entry.verdict_refused (h : e.allowed = false) :
    ∃ w, e.verdict = refuse e.call e.rotated w := by
  cases hw : exhaustedWindow e.call e.rotated with
  | none =>
    rw [e.allowed_iff.mpr (exhaustedWindow_eq_none.mp hw)] at h
    cases h
  | some w => exact ⟨w, e.verdict_of_some hw⟩

/-- A window refuses for the first time since it was restarted. -/
def Entry.refusesFirst : Bool := e.verdict.refusedBy = some w ∧ e.rotated.alerted w = false

theorem instanceOf_allow (c : Call) (s : QuotaState) :
    (allow c s).state.instanceOf w = s.instanceOf w := by
  cases w <;> rfl

theorem counter_allow (c : Call) (s : QuotaState) :
    (allow c s).state.counter w = s.counter w + 1 := by
  cases w <;> rfl

theorem alerted_allow (c : Call) (s : QuotaState) :
    (allow c s).state.alerted w = s.alerted w := by
  cases w <;> rfl

theorem instanceOf_alert (s : QuotaState) (w' : Window) :
    (s.alert w').instanceOf w = s.instanceOf w := by
  cases w' <;> cases w <;> rfl

theorem counter_alert (s : QuotaState) (w' : Window) : (s.alert w').counter w = s.counter w := by
  cases w' <;> cases w <;> rfl

theorem alerted_alert (s : QuotaState) (w' : Window) :
    (s.alert w').alerted w = (s.alerted w || decide (w' = w)) := by
  cases w' <;> cases w <;> simp [QuotaState.alert, QuotaState.alerted]

theorem Entry.instanceOf_after : e.verdict.state.instanceOf w = e.instanceOf w := by
  cases h : e.allowed with
  | true =>
    rw [e.verdict_allowed h]
    exact instanceOf_allow w _ _
  | false =>
    obtain ⟨w', hrefuse⟩ := e.verdict_refused h
    rw [hrefuse]
    exact instanceOf_alert w _ w'

theorem Entry.counter_after :
    e.verdict.state.counter w = e.rotated.counter w + e.allowed.toNat := by
  cases h : e.allowed with
  | true =>
    rw [e.verdict_allowed h]
    exact counter_allow w _ _
  | false =>
    obtain ⟨w', hrefuse⟩ := e.verdict_refused h
    rw [hrefuse]
    exact counter_alert w _ w'

theorem Entry.alerted_after : (e.verdict.state.alerted w).toNat =
    (e.rotated.alerted w).toNat + (e.refusesFirst w).toNat := by
  unfold Entry.refusesFirst
  cases h : e.allowed with
  | true =>
    rw [e.verdict_allowed h, alerted_allow]
    simp [allow]
  | false =>
    obtain ⟨w', hrefuse⟩ := e.verdict_refused h
    simp only [hrefuse, refuse, alerted_alert]
    cases e.rotated.alerted w <;> by_cases hw : w' = w <;> simp [hw]

theorem Entry.refusesFirst_of_alerts (h : e.alerts w = true) : e.refusesFirst w = true := by
  unfold Entry.alerts at h
  unfold Entry.refusesFirst
  cases hallowed : e.allowed with
  | true =>
    rw [e.verdict_allowed hallowed] at h
    simp [allow] at h
  | false =>
    obtain ⟨w', hrefuse⟩ := e.verdict_refused hallowed
    rw [hrefuse] at h ⊢
    simp only [refuse] at h ⊢
    split_ifs at h with hfirst
    · simp only [Option.map_some, decide_eq_true_eq, Option.some.injEq] at h
      subst h
      simp [hfirst.1]
    · simp at h

end Answer

/-! ### Histories -/

section History

variable (w : Window)

theorem map_call_history (s : QuotaState) (calls : List Call) :
    (history s calls).map Entry.call = calls := by
  induction calls generalizing s with
  | nil => rfl
  | cons c rest ih => rw [history, List.map_cons, ih]

theorem counted_history {cap : Nat} (count : QuotaState → Nat) (hit : Entry → Bool)
    (hrolled : ∀ e : Entry, count e.rotated =
      countIn (e.before.instanceOf w) (count e.before) (e.instanceOf w))
    (hafter : ∀ e : Entry, count e.verdict.state = count e.rotated + (hit e).toNat)
    {calls : List Call}
    (hroom : ∀ e : Entry, e.call ∈ calls → hit e = true → count e.rotated < cap) (s : QuotaState) :
    Counted cap (s.instanceOf w) (count s)
      ((history s calls).map fun e => (e.instanceOf w, hit e)) := by
  induction calls generalizing s with
  | nil => exact .nil ..
  | cons c rest ih =>
    refine .cons ?_ ?_
    · rw [← hrolled ⟨s, c⟩]
      exact hroom ⟨s, c⟩ (List.mem_cons_self ..)
    · rw [← hrolled ⟨s, c⟩, ← hafter ⟨s, c⟩, ← Entry.instanceOf_after]
      exact ih (fun e he => hroom e (List.mem_cons_of_mem _ he)) _

theorem counted_allowed {cap : Nat} {calls : List Call} (hcap : ∀ c ∈ calls, c.cap w = cap)
    (s : QuotaState) : Counted cap (s.instanceOf w) (s.counter w)
      ((history s calls).map fun e => (e.instanceOf w, e.allowed)) := by
  refine counted_history w (fun s => s.counter w) Entry.allowed
    (fun e => (rotateWindows_rolled ..).counter) (fun e => e.counter_after w) ?_ s
  intro e he hallowed
  rw [← hcap e.call he]
  exact e.allowed_iff.mp hallowed w

theorem counted_refusesFirst (calls : List Call) (s : QuotaState) :
    Counted 1 (s.instanceOf w) (s.alerted w).toNat
      ((history s calls).map fun e => (e.instanceOf w, e.refusesFirst w)) := by
  refine counted_history w (fun s => (s.alerted w).toNat) (fun e => e.refusesFirst w)
    (fun e => (rotateWindows_rolled ..).alerted) (fun e => e.alerted_after w) ?_ s
  intro e _ hfirst
  have hquiet := (of_decide_eq_true hfirst).2
  rw [hquiet]
  exact Nat.one_pos

/-! ### The windows follow one another -/

theorem minuteWindowStarted_rotate (s : QuotaState) (now : Nat) :
    s.minuteWindowStarted ≤ (rotateWindows s now).minuteWindowStarted ∧
      ((rotateWindows s now).minuteWindowStarted = s.minuteWindowStarted ∨
        s.minuteWindowStarted < (rotateWindows s now).minuteWindowStarted) := by
  have hsame := instanceOf_rotateWindows_minute s now
  simp only [QuotaState.instanceOf, Instance.minute.injEq] at hsame
  rw [hsame]
  unfold rotateMinute
  split
  · rename_i hover
    simp only
    unfold sixtySeconds at hover
    omega
  · exact ⟨le_rfl, .inl rfl⟩

theorem minute_le_history {s : QuotaState} {calls : List Call} {e : Entry}
    (he : e ∈ history s calls) : s.minuteWindowStarted ≤ e.rotated.minuteWindowStarted := by
  induction calls generalizing s with
  | nil => cases he
  | cons c rest ih =>
    have hfirst := (minuteWindowStarted_rotate s c.now).1
    rcases List.mem_cons.mp he with rfl | hrest
    · exact hfirst
    · have hafter := Entry.instanceOf_after ⟨s, c⟩ .minute
      simp only [Entry.instanceOf, QuotaState.instanceOf, Instance.minute.injEq] at hafter
      exact (hfirst.trans hafter.ge).trans (ih hrest)

theorem Entry.instanceOf_day (e : Entry) : e.instanceOf .day = .day (utcDate e.call.now) :=
  instanceOf_rotateWindows_day ..

theorem Entry.instanceOf_month (e : Entry) : e.instanceOf .month = .month (utcMonth e.call.now) :=
  instanceOf_rotateWindows_month ..

theorem utcDate_mono : Monotone utcDate := fun _ _ h =>
  dateOf_strictMono.monotone (Nat.div_le_div_right h)

theorem utcMonth_mono : Monotone utcMonth := fun _ _ h => Date.yearMonth_mono (utcDate_mono h)

theorem pairwise_of_clock {f : Nat → Instance} (hmono : ∀ a b, a ≤ b → (f a).before (f b))
    (hf : ∀ e : Entry, e.instanceOf w = f e.call.now) {calls : List Call}
    (hsorted : (calls.map Call.now).Pairwise (· ≤ ·)) (s : QuotaState) :
    ((history s calls).map fun e => e.instanceOf w).Pairwise Instance.before := by
  have hmap : (history s calls).map (fun e => e.instanceOf w) = (calls.map Call.now).map f := by
    rw [← map_call_history s calls, List.map_map, List.map_map, map_call_history]
    exact List.map_congr_left fun e _ => hf e
  rw [hmap, List.pairwise_map]
  exact hsorted.imp fun {a b} hab => hmono a b hab

theorem pairwise_history {calls : List Call} (hsorted : (calls.map Call.now).Pairwise (· ≤ ·))
    (s : QuotaState) : ((history s calls).map fun e => e.instanceOf w).Pairwise Instance.before := by
  cases w with
  | minute =>
    induction calls generalizing s with
    | nil => exact .nil
    | cons c rest ih =>
      rw [List.map_cons, List.pairwise_cons] at hsorted
      rw [history, List.map_cons, List.pairwise_cons, List.forall_mem_map]
      refine ⟨fun e he => ?_, ih hsorted.2 _⟩
      have hafter := Entry.instanceOf_after ⟨s, c⟩ .minute
      simp only [Entry.instanceOf, QuotaState.instanceOf, Instance.minute.injEq] at hafter
      exact hafter.ge.trans (minute_le_history he)
  | day =>
    exact pairwise_of_clock .day (f := fun now => .day (utcDate now))
      (fun _ _ hab => utcDate_mono hab) Entry.instanceOf_day hsorted s
  | month =>
    exact pairwise_of_clock .month (f := fun now => .month (utcMonth now))
      (fun _ _ hab => utcMonth_mono hab) Entry.instanceOf_month hsorted s

theorem countP_allowed_le {cap : Nat} {calls : List Call} (hcap : ∀ c ∈ calls, c.cap w = cap)
    (hsorted : (calls.map Call.now).Pairwise (· ≤ ·)) (s : QuotaState) (i : Instance) :
    (history s calls).countP (fun e => e.instanceOf w = i ∧ e.allowed = true) ≤ cap := by
  have hsorted' : (((history s calls).map fun e => (e.instanceOf w, e.allowed)).map
      (·.1)).Pairwise Instance.before := by
    rw [List.map_map]
    exact pairwise_history w hsorted s
  have hle := hits_le_cap Instance.before_antisymm (counted_allowed w hcap s) hsorted' i
  rwa [hits, List.countP_map] at hle

theorem countP_alerts_le {calls : List Call} (hsorted : (calls.map Call.now).Pairwise (· ≤ ·))
    (s : QuotaState) (i : Instance) :
    (history s calls).countP (fun e => e.instanceOf w = i ∧ e.alerts w = true) ≤ 1 := by
  have hsorted' : (((history s calls).map fun e => (e.instanceOf w, e.refusesFirst w)).map
      (·.1)).Pairwise Instance.before := by
    rw [List.map_map]
    exact pairwise_history w hsorted s
  have hle := hits_le_cap Instance.before_antisymm (counted_refusesFirst w calls s) hsorted' i
  rw [hits, List.countP_map] at hle
  refine (List.countP_mono_left fun e _ halerts => ?_).trans hle
  simp only [decide_eq_true_eq, Function.comp] at halerts ⊢
  exact ⟨halerts.1, e.refusesFirst_of_alerts w halerts.2⟩

end History

/-! ### Days, months and alerts -/

/-- From any state on, calls in order of time with fixed caps: every UTC day and every UTC
    month allows at most its cap, what is refused is counted in no window, and every instance
    of a window is published at most once. -/
theorem calendar_caps_hold (s : QuotaState) (dailyCap monthlyCap : Nat) (calls : List Call)
    (hcaps : ∀ c ∈ calls, c.dailyCap = dailyCap ∧ c.monthlyCap = monthlyCap)
    (hsorted : (calls.map Call.now).Pairwise (· ≤ ·)) :
    (∀ date, (history s calls).countP
      (fun e => utcDate e.call.now = date ∧ e.allowed = true) ≤ dailyCap) ∧
    (∀ yearMonth, (history s calls).countP
      (fun e => utcMonth e.call.now = yearMonth ∧ e.allowed = true) ≤ monthlyCap) ∧
    (∀ e ∈ history s calls, e.allowed = false →
      ∀ w, e.verdict.state.counter w = e.rotated.counter w) ∧
    ∀ w i, (history s calls).countP (fun e => e.instanceOf w = i ∧ e.alerts w = true) ≤ 1 := by
  refine ⟨fun date => ?_, fun yearMonth => ?_, fun e _ hrefused w => ?_, fun w i => ?_⟩
  · have hle := countP_allowed_le .day (fun c hc => (hcaps c hc).1) hsorted s (.day date)
    simpa only [Entry.instanceOf_day, Instance.day.injEq] using hle
  · have hle := countP_allowed_le .month (fun c hc => (hcaps c hc).2) hsorted s (.month yearMonth)
    simpa only [Entry.instanceOf_month, Instance.month.injEq] using hle
  · rw [e.counter_after, hrefused]
    rfl
  · exact countP_alerts_le w hsorted s i

/-! ### The minute -/

/-- A call finds room in its day and its month. -/
def Entry.hasRoom (e : Entry) : Bool :=
  e.rotated.dayCounter < e.call.dailyCap ∧ e.rotated.monthCounter < e.call.monthlyCap

/-- The start of the minute window of a call, and when it is made. -/
def Entry.arrival (e : Entry) : Nat × Nat := (e.rotated.minuteWindowStarted, e.call.now)

theorem Entry.arrival_fst (e : Entry) : e.arrival.1 = e.rotated.minuteWindowStarted := rfl

/-- The calls that are allowed, with their minute windows. -/
def allowedCalls (s : QuotaState) (calls : List Call) : List (Nat × Nat) :=
  ((history s calls).filter Entry.allowed).map Entry.arrival

/-- When calls are allowed. -/
def allowedAt (s : QuotaState) (calls : List Call) : List Nat :=
  (allowedCalls s calls).map (·.2)

theorem Entry.allowed_eq (e : Entry) :
    e.allowed = (e.hasRoom && decide (e.rotated.minuteCounter < e.call.minuteCap)) := by
  rw [Bool.eq_iff_iff, e.allowed_iff, forall_window_iff]
  simp only [Entry.hasRoom, Bool.and_eq_true, decide_eq_true_eq]
  exact and_comm

/-- The minute counter is the number of arrivals of its window, up to the cap. -/
structure MinuteCounts (cap : Nat) (seen : List Nat) (s : QuotaState) : Prop where
  count : s.minuteCounter = min cap (seen.count s.minuteWindowStarted)
  latest : ∀ l ∈ seen, l ≤ s.minuteWindowStarted

theorem MinuteCounts.of_rolled {cap : Nat} {seen : List Nat} {s s' : QuotaState}
    (h : MinuteCounts cap seen s) (hrolled : Rolled .minute s s')
    (hlater : s'.minuteWindowStarted = s.minuteWindowStarted ∨
      s.minuteWindowStarted < s'.minuteWindowStarted) : MinuteCounts cap seen s' := by
  have hcount : s'.minuteCounter =
      countIn (Instance.minute s.minuteWindowStarted) s.minuteCounter (.minute s'.minuteWindowStarted) :=
    hrolled.counter
  rcases hlater with hsame | hnew
  · rw [hsame, countIn_self] at hcount
    refine ⟨hcount.trans ?_, ?_⟩
    · rw [hsame]
      exact h.count
    · rw [hsame]
      exact h.latest
  · have hfresh : seen.count s'.minuteWindowStarted = 0 := by
      rw [List.count_eq_zero]
      intro hmem
      exact absurd (h.latest _ hmem) (not_le.mpr hnew)
    have hne : Instance.minute s.minuteWindowStarted ≠ .minute s'.minuteWindowStarted := by
      simp only [ne_eq, Instance.minute.injEq]
      exact hnew.ne
    rw [countIn, if_neg hne] at hcount
    refine ⟨hcount.trans ?_, fun l hl => (h.latest l hl).trans hnew.le⟩
    rw [hfresh, Nat.min_zero]

theorem MinuteCounts.rotate {cap : Nat} {seen : List Nat} {s : QuotaState}
    (h : MinuteCounts cap seen s) (now : Nat) : MinuteCounts cap seen (rotateWindows s now) :=
  h.of_rolled (rotateWindows_rolled s now .minute) (minuteWindowStarted_rotate s now).2

theorem MinuteCounts.counted {cap : Nat} {seen : List Nat} {s s' : QuotaState}
    (h : MinuteCounts cap seen s) (hwindow : s'.minuteWindowStarted = s.minuteWindowStarted)
    {room hit : Bool} (hhit : hit = (room && decide (seen.count s.minuteWindowStarted < cap)))
    (hcounter : s'.minuteCounter = s.minuteCounter + hit.toNat) :
    MinuteCounts cap (if room then seen ++ [s.minuteWindowStarted] else seen) s' := by
  have hcount := h.count
  cases room with
  | true =>
    rw [Bool.true_and] at hhit
    refine ⟨?_, ?_⟩
    · rw [if_pos rfl, hwindow, List.count_append, List.count_singleton_self]
      by_cases hlt : seen.count s.minuteWindowStarted < cap
      · rw [decide_eq_true hlt] at hhit
        rw [hhit, Bool.toNat_true] at hcounter
        omega
      · rw [decide_eq_false hlt] at hhit
        rw [hhit, Bool.toNat_false] at hcounter
        omega
    · rw [if_pos rfl, hwindow]
      intro l hl
      rcases List.mem_append.mp hl with hl | hl
      · exact h.latest l hl
      · exact (List.mem_singleton.mp hl).le
  | false =>
    rw [hhit] at hcounter
    refine ⟨?_, ?_⟩
    · rw [if_neg Bool.false_ne_true, hwindow]
      exact hcounter.trans hcount
    · rw [if_neg Bool.false_ne_true, hwindow]
      exact h.latest

section Arrival

variable {e : Entry} {cap : Nat} {seen : List Nat} (h : MinuteCounts cap seen e.before)
  (hcap : e.call.minuteCap = cap)

include h hcap

theorem MinuteCounts.allowed_eq :
    e.allowed = (e.hasRoom && decide (seen.count e.arrival.1 < cap)) := by
  have hrotated : MinuteCounts cap seen e.rotated := h.rotate e.call.now
  rw [e.allowed_eq, hcap, hrotated.count, e.arrival_fst]
  refine congrArg (e.hasRoom && ·) (decide_eq_decide.mpr ?_)
  omega

theorem MinuteCounts.next : MinuteCounts cap
    (if e.hasRoom then seen ++ [e.arrival.1] else seen) e.verdict.state := by
  have hwindow := e.instanceOf_after .minute
  simp only [Entry.instanceOf, QuotaState.instanceOf, Instance.minute.injEq] at hwindow
  have hcounter := e.counter_after .minute
  rw [QuotaState.counter_minute, QuotaState.counter_minute] at hcounter
  have hallowed := h.allowed_eq hcap
  rw [e.arrival_fst] at hallowed ⊢
  have hrotated : MinuteCounts cap seen e.rotated := h.rotate e.call.now
  exact hrotated.counted hwindow hallowed hcounter

end Arrival

theorem allowedCalls_cons (s : QuotaState) (c : Call) (rest : List Call) :
    allowedCalls s (c :: rest) = (if Entry.allowed ⟨s, c⟩ then [Entry.arrival ⟨s, c⟩] else []) ++
      allowedCalls (Entry.verdict ⟨s, c⟩).state rest := by
  rw [allowedCalls, history, List.filter_cons]
  split
  · rw [List.map_cons, allowedCalls, List.singleton_append]
  · rw [allowedCalls, List.nil_append]

theorem count_allowedCalls_le {cap : Nat} {calls : List Call}
    (hcap : ∀ c ∈ calls, c.minuteCap = cap) (hsorted : (calls.map Call.now).Pairwise (· ≤ ·))
    (s : QuotaState) (startedAt : Nat) :
    ((allowedCalls s calls).map (·.1)).count startedAt ≤ cap := by
  refine le_trans (le_of_eq ?_) (countP_allowed_le .minute hcap hsorted s (.minute startedAt))
  rw [allowedCalls, List.count, List.countP_map, List.countP_map, List.countP_filter]
  apply List.countP_congr
  intro e _
  simp only [Function.comp, Entry.arrival_fst, Entry.instanceOf, QuotaState.instanceOf, beq_iff_eq,
    Bool.and_eq_true, Instance.minute.injEq, decide_eq_true_eq]

/-! ### The calls that may be allowed -/

/-- The minute window of a call, by the times of the calls alone: that of the call before
    it, or its own when sixty seconds have passed. -/
def minuteOf (startedAt now : Nat) : Nat :=
  if sixtySeconds ≤ now - startedAt then now else startedAt

/-- The day and the month of a call have room even if every earlier call is counted. -/
def Call.surelyHasRoom (c : Call) (earlier : List Call) : Bool :=
  earlier.countP (fun c' => utcDate c'.now = utcDate c.now) < c.dailyCap ∧
    earlier.countP (fun c' => utcMonth c'.now = utcMonth c.now) < c.monthlyCap

/-- The calls that come, in their minute window, before four others that surely have room
    in the day and the month; `sure` are the windows of those so far. -/
def candidates (startedAt : Nat) (earlier : List Call) (sure : List Nat) :
    List Call → List (Nat × Nat)
  | [] => []
  | c :: rest =>
      (if sure.count (minuteOf startedAt c.now) < vtMinuteCeiling then
        [(minuteOf startedAt c.now, c.now)] else []) ++
      candidates (minuteOf startedAt c.now) (earlier ++ [c])
        (if c.surelyHasRoom earlier then sure ++ [minuteOf startedAt c.now] else sure) rest

/-- No sixty seconds hold more than four candidates, where those of one window count as
    four at most. -/
def Sparse (atMinute : Nat) (calls : List Call) : Prop :=
  ∀ t, capped vtMinuteCeiling (((candidates atMinute [] [] calls).filter
    fun x => t ≤ x.2 ∧ x.2 < t + sixtySeconds).map (·.1)) ≤ vtMinuteCeiling

/-- Every call surely has room in its day and its month. -/
def withinQuotas (earlier : List Call) : List Call → Bool
  | [] => true
  | c :: rest => c.surelyHasRoom earlier && withinQuotas (earlier ++ [c]) rest

/-- A window of the calendar counts no more than the earlier calls of it. -/
def CountedAmong (w : Window) (calendar : Nat → Instance) (earlier : List Call)
    (s : QuotaState) : Prop :=
  s.counter w ≤ earlier.countP fun c => calendar c.now = s.instanceOf w

section Calendar

variable {w : Window} {calendar : Nat → Instance} {earlier : List Call} {e : Entry}
  (hcalendar : e.instanceOf w = calendar e.call.now)
  (h : CountedAmong w calendar earlier e.before)

include hcalendar h

theorem CountedAmong.rotated :
    e.rotated.counter w ≤ earlier.countP fun c => calendar c.now = calendar e.call.now := by
  have hrolled := (rotateWindows_rolled e.before e.call.now w).counter
  rw [show (rotateWindows e.before e.call.now).instanceOf w = calendar e.call.now from
    hcalendar] at hrolled
  unfold Entry.rotated
  rw [hrolled, countIn]
  split
  · rename_i hsame
    rw [← hsame]
    exact h
  · exact Nat.zero_le _

theorem CountedAmong.next : CountedAmong w calendar (earlier ++ [e.call]) e.verdict.state := by
  have hrotated := h.rotated hcalendar
  have hone := Bool.toNat_le e.allowed
  unfold CountedAmong
  rw [e.counter_after, e.instanceOf_after, hcalendar, List.countP_append]
  simp only [List.countP_cons, List.countP_nil, decide_true, if_true]
  omega

end Calendar

/-- What is known of the counters from the calls so far: `sure` are the windows of those
    that surely had room, `seen` of those that had it. -/
structure Tracks (startedAt : Nat) (earlier : List Call) (sure seen : List Nat)
    (s : QuotaState) : Prop where
  window : s.minuteWindowStarted = startedAt
  minute : MinuteCounts vtMinuteCeiling seen s
  sure : sure.Sublist seen
  day : CountedAmong .day (fun now => .day (utcDate now)) earlier s
  month : CountedAmong .month (fun now => .month (utcMonth now)) earlier s

section Tracks

variable {startedAt : Nat} {earlier : List Call} {sure seen : List Nat} {e : Entry}
  (h : Tracks startedAt earlier sure seen e.before)

include h

theorem Tracks.arrival : e.arrival = (minuteOf startedAt e.call.now, e.call.now) := by
  have hsame := instanceOf_rotateWindows_minute e.before e.call.now
  simp only [QuotaState.instanceOf, Instance.minute.injEq] at hsame
  rw [Entry.arrival, Entry.rotated, hsame, rotateMinute, minuteOf, h.window]
  split
  · rfl
  · rw [h.window]

theorem Tracks.hasRoom (hsure : e.call.surelyHasRoom earlier = true) : e.hasRoom = true := by
  simp only [Call.surelyHasRoom, decide_eq_true_eq] at hsure
  have hday := h.day.rotated e.instanceOf_day
  have hmonth := h.month.rotated e.instanceOf_month
  simp only [Instance.day.injEq, Instance.month.injEq] at hday hmonth
  simp only [Entry.hasRoom, decide_eq_true_eq]
  exact ⟨hday.trans_lt hsure.1, hmonth.trans_lt hsure.2⟩

theorem Tracks.candidate (hcap : e.call.minuteCap = vtMinuteCeiling) (hallowed : e.allowed = true) :
    sure.count (minuteOf startedAt e.call.now) < vtMinuteCeiling := by
  rw [h.minute.allowed_eq hcap, h.arrival, Bool.and_eq_true, decide_eq_true_eq] at hallowed
  exact (h.sure.count_le _).trans_lt hallowed.2

theorem Tracks.next (hcap : e.call.minuteCap = vtMinuteCeiling) :
    Tracks (minuteOf startedAt e.call.now) (earlier ++ [e.call])
      (if e.call.surelyHasRoom earlier then sure ++ [minuteOf startedAt e.call.now] else sure)
      (if e.hasRoom then seen ++ [minuteOf startedAt e.call.now] else seen) e.verdict.state := by
  have harrival : e.arrival.1 = minuteOf startedAt e.call.now := by rw [h.arrival]
  have hminute := h.minute.next hcap
  rw [harrival] at hminute
  refine ⟨?_, hminute, ?_, h.day.next e.instanceOf_day, h.month.next e.instanceOf_month⟩
  · have hafter := e.instanceOf_after .minute
    simp only [Entry.instanceOf, QuotaState.instanceOf, Instance.minute.injEq] at hafter
    rw [hafter, ← e.arrival_fst, harrival]
  · cases hsure : e.call.surelyHasRoom earlier with
    | true =>
      rw [if_pos rfl, if_pos (h.hasRoom hsure)]
      exact h.sure.append_right _
    | false =>
      rw [if_neg Bool.false_ne_true]
      split
      · exact h.sure.trans (List.sublist_append_left _ _)
      · exact h.sure

end Tracks

section Candidates

variable {calls : List Call} (hcap : ∀ c ∈ calls, c.minuteCap = vtMinuteCeiling)
  {startedAt : Nat} {earlier : List Call} {s : QuotaState}

include hcap

theorem allowedCalls_sublist {sure seen : List Nat} (h : Tracks startedAt earlier sure seen s) :
    (allowedCalls s calls).Sublist (candidates startedAt earlier sure calls) := by
  induction calls generalizing startedAt earlier sure seen s with
  | nil => exact .slnil
  | cons c rest ih =>
    have hminute := hcap c (List.mem_cons_self ..)
    have hrest := ih (fun c' hc' => hcap c' (List.mem_cons_of_mem _ hc'))
      (Tracks.next (e := ⟨s, c⟩) h hminute)
    rw [allowedCalls_cons, candidates]
    refine List.Sublist.append ?_ hrest
    cases hallowed : Entry.allowed ⟨s, c⟩ with
    | true =>
      rw [if_pos rfl, if_pos (Tracks.candidate (e := ⟨s, c⟩) h hminute hallowed),
        Tracks.arrival (e := ⟨s, c⟩) h]
    | false =>
      rw [if_neg Bool.false_ne_true]
      exact List.nil_sublist _

theorem allowedCalls_eq {seen : List Nat} (h : Tracks startedAt earlier seen seen s)
    (hquotas : withinQuotas earlier calls = true) :
    allowedCalls s calls = candidates startedAt earlier seen calls := by
  induction calls generalizing startedAt earlier seen s with
  | nil => rfl
  | cons c rest ih =>
    have hminute := hcap c (List.mem_cons_self ..)
    rw [withinQuotas, Bool.and_eq_true] at hquotas
    have hroom := Tracks.hasRoom (e := ⟨s, c⟩) h hquotas.1
    have hallowed := h.minute.allowed_eq (e := ⟨s, c⟩) hminute
    have hnext := Tracks.next (e := ⟨s, c⟩) h hminute
    rw [if_pos hquotas.1, if_pos hroom] at hnext
    have hrest := ih (fun c' hc' => hcap c' (List.mem_cons_of_mem _ hc')) hnext hquotas.2
    rw [allowedCalls_cons, candidates, if_pos hquotas.1, ← hrest, hallowed, hroom, Bool.true_and,
      Tracks.arrival (e := ⟨s, c⟩) h]
    simp only [decide_eq_true_eq]

end Candidates

theorem tracks_initial (atMinute atDay atMonth : Nat) :
    Tracks atMinute [] [] [] (.initial atMinute atDay atMonth) :=
  ⟨rfl, ⟨rfl, nofun⟩, .slnil, Nat.zero_le _, Nat.zero_le _⟩

theorem countP_interval_eq_length (xs : List (Nat × Nat)) (t : Nat) :
    (xs.map (·.2)).countP (fun now => t ≤ now ∧ now < t + sixtySeconds) =
      ((xs.filter fun x => t ≤ x.2 ∧ x.2 < t + sixtySeconds).map (·.1)).length := by
  rw [List.countP_map, List.length_map, List.countP_eq_length_filter]
  rfl

/-- Calls in order of time in a new process, with the ceiling of the minute: where they are
    sparse, no interval of sixty seconds allows more than the ceiling, and as long as they
    stay within the quotas of the day and the month it is so only where they are sparse. -/
theorem minute_bound_of_sparse (atMinute atDay atMonth : Nat) (calls : List Call)
    (hcap : ∀ c ∈ calls, c.minuteCap = vtMinuteCeiling)
    (hsorted : (calls.map Call.now).Pairwise (· ≤ ·)) :
    (Sparse atMinute calls → RollingBound sixtySeconds vtMinuteCeiling
      (allowedAt (.initial atMinute atDay atMonth) calls)) ∧
    (withinQuotas [] calls = true → (RollingBound sixtySeconds vtMinuteCeiling
      (allowedAt (.initial atMinute atDay atMonth) calls) ↔ Sparse atMinute calls)) := by
  have htracks := tracks_initial atMinute atDay atMonth
  have henough : Sparse atMinute calls → RollingBound sixtySeconds vtMinuteCeiling
      (allowedAt (.initial atMinute atDay atMonth) calls) := by
    intro hsparse t
    rw [allowedAt, countP_interval_eq_length]
    refine (length_le_capped ?_ fun startedAt => ?_).trans (hsparse t)
    · exact ((allowedCalls_sublist hcap htracks).filter _).map _
    · exact ((List.filter_sublist.map _).count_le _).trans
        (count_allowedCalls_le hcap hsorted _ startedAt)
  refine ⟨henough, fun hquotas => ⟨fun hbound t => ?_, henough⟩⟩
  have hle := hbound t
  rw [allowedAt, countP_interval_eq_length, allowedCalls_eq hcap htracks hquotas] at hle
  exact (capped_le_length _ _).trans hle

/-! ### A burst on both sides of a restart -/

/-- A call at so many seconds, with the quotas of a free account. -/
def callAt (s : Nat) : Call := ⟨vtMinuteCeiling, 500, 15500, true, s * 1000000⟩

/-- Four calls at the end of a minute window, and four at the start of the next. -/
def burst : List Call := [59, 59, 59, 59, 60, 60, 60, 60].map callAt

theorem calendar_caps_hold_burst :
    (∀ date, (history (.initial 0 0 0) burst).countP
      (fun e => utcDate e.call.now = date ∧ e.allowed = true) ≤ 500) ∧
    (∀ yearMonth, (history (.initial 0 0 0) burst).countP
      (fun e => utcMonth e.call.now = yearMonth ∧ e.allowed = true) ≤ 15500) ∧
    (∀ e ∈ history (.initial 0 0 0) burst, e.allowed = false →
      ∀ w, e.verdict.state.counter w = e.rotated.counter w) ∧
    ∀ w i, (history (.initial 0 0 0) burst).countP
      (fun e => e.instanceOf w = i ∧ e.alerts w = true) ≤ 1 :=
  calendar_caps_hold (.initial 0 0 0) 500 15500 burst (by simp [burst, callAt]) (by decide)

theorem minute_bound_of_sparse_burst :
    (Sparse 0 burst → RollingBound sixtySeconds vtMinuteCeiling
      (allowedAt (.initial 0 0 0) burst)) ∧
    (RollingBound sixtySeconds vtMinuteCeiling (allowedAt (.initial 0 0 0) burst) ↔
      Sparse 0 burst) :=
  (minute_bound_of_sparse 0 0 0 burst (by simp [burst, callAt]) (by decide)).imp_right
    fun hiff => hiff (by decide)

/-- All eight calls are allowed, within one second. -/
theorem burst_allows_eight : allowedAt (.initial 0 0 0) burst =
      [59000000, 59000000, 59000000, 59000000, 60000000, 60000000, 60000000, 60000000] ∧
    ¬RollingBound sixtySeconds vtMinuteCeiling (allowedAt (.initial 0 0 0) burst) := by
  have hallowed : allowedAt (.initial 0 0 0) burst =
      [59000000, 59000000, 59000000, 59000000, 60000000, 60000000, 60000000, 60000000] := by
    decide
  refine ⟨hallowed, fun hbound => ?_⟩
  have hle := hbound 59000000
  rw [hallowed] at hle
  exact absurd hle (by decide)

end VtQuota
