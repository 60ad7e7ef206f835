/-
  Auditarr/SchedulerTicks.lean
  ============================
  **Ticks that overlap** (`app/automation/scheduler.py`, `automation_tick` in
  `app/worker.py`, `app/api/v1/automation.py`).

  A tick awaits its jobs, and the next one begins after a minute.  Each has its own session
  and goes its own way: it reads what is due, shows the run row of a schedule, waits for the
  job, moves the schedule in memory, and commits the move with the run row of the next
  schedule or at its end.  Between two of these steps any other tick, and any request that
  writes a schedule, may take one.

  A schedule whose row has not moved on is found again.  `dispatched_once_of_fresh` says that
  an occurrence is dispatched at most once if no tick finds one that a tick has dispatched,
  or that a running tick has ahead of it.
-/
import Auditarr.Runs
import Auditarr.Scheduler

namespace SchedulerTicks

open KeyedTable PyValues Calendar Cron Scheduler Runs

universe u

/-! ### Ticks as parties -/

/-- A tick that runs: its time, the schedules it found and has not come to, the schedule
    whose job it waits for, and what it has assigned since its last commit. -/
structure Tick where
  now : Nat
  ahead : List Schedule
  waiting : Option (Schedule × JobRun)
  edits : List Edit
  report : TickReport

/-- An occurrence: a schedule and the time it was planned for. -/
abbrev Occurrence : Type := String × Option Nat

def occurrenceOf (s : Schedule) : Occurrence := (s.id, s.nextRunAt)

def Tick.occurrences (t : Tick) : List Occurrence := t.ahead.map occurrenceOf

/-- What is committed, the ticks that run, named by `ι`, and the occurrences whose run row
    was committed by some tick, in this order. -/
structure State (ι : Type u) where
  db : Db
  ticks : ι → Option Tick
  dispatched : List Occurrence

/-- The columns that `update_schedule` may write. -/
structure ScheduleUpdate where
  enabled : Option Bool
  jobArgs : Option (List (String × PyValue))
  cron : Option (List (String × PyValue))

/-- `update_schedule`; a request that raises writes nothing. -/
def updateSchedule (catalogue : Catalogue) (id : String) (now : Nat) (body : ScheduleUpdate) (db : Db) :
    Except ApiError Db :=
  match db.schedules.find? id with
  | none => .error (.notFound id)
  | some row =>
      let enabled := body.enabled.getD row.enabled
      match body.cron.map validateCron with
      | some (.error e) => .error (.cron e)
      | _ => match body.jobArgs.map (validateArgs catalogue row.jobKind) with
        | some (.error e) => .error (.args e)
        | _ =>
            let jobArgs := body.jobArgs.getD row.jobArgs
            match body.cron.map fun cron => (cron, nextRun cron now) with
            | some (_, .error e) => .error (.noNextRun e)
            | some (cron, .ok time) =>
                let s := { row with enabled := enabled, jobArgs := jobArgs, cron := cron,
                                    nextRunAt := some time }
                .ok { db with schedules := db.schedules.upsert s }
            | none =>
                let s := { row with enabled := enabled, jobArgs := jobArgs }
                .ok { db with schedules := db.schedules.upsert s }

/-- `delete_schedule`. -/
def deleteSchedule (id : String) (db : Db) : Db :=
  { db with schedules := db.schedules.erase fun s => s.id = id }

/-! ### Steps -/

/-- What may happen: a tick reads what is due, comes to its next schedule, learns of the end
    of a job, makes its last commit, or is lost; or a request writes a schedule. -/
inductive Step (ι : Type u) where
  | read (i : ι) (now : Nat)
  | begin (i : ι) (runId : String)
  | finish (i : ι) (o : JobOutcome)
  | close (i : ι)
  | lose (i : ι)
  | create (id : String) (now : Nat) (body : ScheduleCreate)
  | update (id : String) (now : Nat) (body : ScheduleUpdate)
  | delete (id : String)

section Next

variable {ι : Type u} [DecidableEq ι] (catalogue : Catalogue)

def State.put (s : State ι) (i : ι) (t : Option Tick) (db : Db) : State ι :=
  { s with ticks := Function.update s.ticks i t, db := db }

/-- The run row of an occurrence is committed. -/
def State.record (s : State ι) (x : Occurrence) : State ι :=
  { s with dispatched := s.dispatched ++ [x] }

/-- `list_due`. -/
def State.read (s : State ι) (i : ι) (now : Nat) : State ι :=
  s.put i (some ⟨now, listDue s.db now, none, [], ⟨[], []⟩⟩) s.db

/-- The next schedule: its job is refused, or its run row is committed with the edits. -/
def State.begin (s : State ι) (i : ι) (t : Tick) (runId : String) : State ι :=
  match t.waiting, t.ahead with
  | none, next :: rest => match checkJob catalogue next with
    | .error _ =>
        let e := editOf t.now next none "failed"
        s.put i (some ⟨t.now, rest, none, t.edits ++ [e], t.report.note [] e⟩) s.db
    | .ok _ => match s.db.commit t.edits with
      | none => s.put i none s.db
      | some db =>
          let run := newRun next t.now runId
          (s.put i (some ⟨t.now, rest, some (next, run), [], t.report⟩) (db.putRun run)).record
            (occurrenceOf next)
  | _, _ => s

/-- The end of a job. -/
def State.finish (s : State ι) (i : ι) (t : Tick) (o : JobOutcome) : State ι :=
  match t.waiting with
  | none => s
  | some (current, run) => match runJob run o s.db with
    | .ran done db =>
        let e := editOf t.now current (some t.now) done.status
        s.put i (some ⟨t.now, t.ahead, none, t.edits ++ [e], t.report.note [done.id] e⟩) db
    | .lost db => s.put i none db
    | .refused _ => s

/-- The last commit. -/
def State.close (s : State ι) (i : ι) (t : Tick) : State ι :=
  match t.waiting, t.ahead with
  | none, [] => s.put i none ((s.db.commit t.edits).getD s.db)
  | _, _ => s

/-- What a request leaves. -/
def State.answered (s : State ι) : Except ApiError Db → State ι
  | .ok db => { s with db := db }
  | .error _ => s

def next (s : State ι) : Step ι → State ι
  | .read i now => if (s.ticks i).isSome then s else s.read i now
  | .begin i runId => match s.ticks i with
    | some t => s.begin catalogue i t runId
    | none => s
  | .finish i o => match s.ticks i with
    | some t => s.finish i t o
    | none => s
  | .close i => match s.ticks i with
    | some t => s.close i t
    | none => s
  | .lose i => s.put i none s.db
  | .create id now body => s.answered (createSchedule catalogue id now body s.db)
  | .update id now body => s.answered (updateSchedule catalogue id now body s.db)
  | .delete id => { s with db := deleteSchedule id s.db }

end Next

/-! ### What keeps occurrences apart -/

section Once

variable {ι : Type u}

/-- A tick has dispatched the occurrence, or a running one has it ahead. -/
def Claimed (s : State ι) (x : Occurrence) : Prop :=
  x ∈ s.dispatched ∨ ∃ i t, s.ticks i = some t ∧ x ∈ t.occurrences

/-- A tick that reads finds no occurrence that is claimed. -/
def Fresh (s : State ι) : Step ι → Prop
  | .read i now => s.ticks i = none → ∀ x ∈ (listDue s.db now).map occurrenceOf, ¬Claimed s x
  | _ => True

/-- The occurrences that are dispatched differ, and so do those that are dispatched or
    ahead of a running tick. -/
structure Once (s : State ι) : Prop where
  dispatched : s.dispatched.Nodup
  ahead : ∀ i t, s.ticks i = some t → t.occurrences.Nodup
  apart : ∀ i t, s.ticks i = some t → ∀ x ∈ t.occurrences, x ∉ s.dispatched
  disjoint : ∀ i j t t', i ≠ j → s.ticks i = some t → s.ticks j = some t' →
    ∀ x ∈ t.occurrences, x ∉ t'.occurrences

variable {s : State ι}

theorem once_of_same {s' : State ι} (h : Once s) (hticks : s'.ticks = s.ticks)
    (hdispatched : s'.dispatched = s.dispatched) : Once s' where
  dispatched := hdispatched ▸ h.dispatched
  ahead := hticks ▸ h.ahead
  apart := hticks ▸ hdispatched ▸ h.apart
  disjoint := hticks ▸ h.disjoint

/-- Nothing has been dispatched and no tick runs. -/
structure Idle (s : State ι) : Prop where
  ticks : ∀ i, s.ticks i = none
  dispatched : s.dispatched = []

theorem Idle.once (h : Idle s) : Once s where
  dispatched := h.dispatched ▸ List.nodup_nil
  ahead i _ ht := absurd ((h.ticks i).symm.trans ht) nofun
  apart i _ ht := absurd ((h.ticks i).symm.trans ht) nofun
  disjoint i _ _ _ _ ht := absurd ((h.ticks i).symm.trans ht) nofun

variable [DecidableEq ι] {catalogue : Catalogue} {i : ι}

theorem once_put (h : Once s) (t : Option Tick) (db : Db)
    (hless : ∀ t', t = some t' → ∃ old, s.ticks i = some old ∧ t'.ahead.Sublist old.ahead) :
    Once (s.put i t db) := by
  have hold : ∀ j t', (s.put i t db).ticks j = some t' →
      ∃ old, s.ticks j = some old ∧ t'.occurrences.Sublist old.occurrences := by
    intro j t' ht'
    by_cases hj : j = i
    · subst hj
      obtain ⟨old, hold, hsub⟩ := hless t' (by simpa [State.put] using ht')
      exact ⟨old, hold, hsub.map occurrenceOf⟩
    · exact ⟨t', by simpa [State.put, Function.update_of_ne hj] using ht', List.Sublist.refl _⟩
  constructor
  · exact h.dispatched
  · intro j t' ht'
    obtain ⟨old, hold, hsub⟩ := hold j t' ht'
    exact (h.ahead j old hold).sublist hsub
  · intro j t' ht' x hx
    obtain ⟨old, hold, hsub⟩ := hold j t' ht'
    exact h.apart j old hold x (hsub.subset hx)
  · intro j k t' t'' hne ht' ht'' x hx hx'
    obtain ⟨old, hold₁, hsub⟩ := hold j t' ht'
    obtain ⟨old', hold₂, hsub'⟩ := hold k t'' ht''
    exact h.disjoint j k old old' hne hold₁ hold₂ x (hsub.subset hx) (hsub'.subset hx')

theorem once_put_none (h : Once s) (i : ι) (db : Db) : Once (s.put i none db) :=
  once_put h none db fun t hnone => absurd hnone.symm (Option.some_ne_none t)

theorem once_dispatch (h : Once s) {t t' : Tick} (ht : s.ticks i = some t) {first : Schedule}
    (hahead : t.ahead = first :: t'.ahead) (db : Db) :
    Once ((s.put i (some t') db).record (occurrenceOf first)) := by
  have hless : Once (s.put i (some t') db) := by
    apply once_put h
    rintro t'' ⟨⟩
    exact ⟨t, ht, hahead ▸ List.sublist_cons_self ..⟩
  have hall : t.occurrences = occurrenceOf first :: t'.occurrences := by
    rw [Tick.occurrences, hahead, List.map_cons, Tick.occurrences]
  have hx : occurrenceOf first ∈ t.occurrences := hall ▸ List.mem_cons_self ..
  obtain ⟨hnot, -⟩ := List.nodup_cons.mp (hall ▸ h.ahead i t ht)
  constructor
  · refine List.nodup_append.mpr ⟨h.dispatched, List.nodup_singleton _, ?_⟩
    rintro y hy z hz rfl
    exact h.apart i t ht _ hx (List.mem_singleton.mp hz ▸ hy)
  · exact hless.ahead
  · intro j u hu y hy hmem
    rcases List.mem_append.mp hmem with hearlier | hnow
    · exact hless.apart j u hu y hy hearlier
    · rw [List.mem_singleton] at hnow
      rw [hnow] at hy
      by_cases hj : j = i
      · subst hj
        simp only [State.record, State.put, Function.update_self, Option.some.injEq] at hu
        exact hnot (hu ▸ hy)
      · simp only [State.record, State.put, Function.update_of_ne hj] at hu
        exact h.disjoint j i u t hj hu ht _ hy hx
  · exact hless.disjoint

theorem occurrences_nodup (db : Db) (now : Nat) : ((listDue db now).map occurrenceOf).Nodup := by
  have hids : (((listDue db now).map occurrenceOf).map Prod.fst).Nodup := by
    rw [List.map_map]
    exact (loop_listDue db now).unique
  exact List.Nodup.of_map _ hids

theorem once_read_iff (h : Once s) (hfree : s.ticks i = none) (now : Nat) :
    Once (s.read i now) ↔ ∀ x ∈ (listDue s.db now).map occurrenceOf, ¬Claimed s x := by
  have hself : (s.read i now).ticks i = some ⟨now, listDue s.db now, none, [], ⟨[], []⟩⟩ :=
    Function.update_self ..
  have hother : ∀ j, j ≠ i → (s.read i now).ticks j = s.ticks j := fun j hj => Function.update_of_ne hj ..
  constructor
  · rintro hnext x hx (hdispatched | ⟨j, t, ht, hahead⟩)
    · exact hnext.apart i _ hself x hx hdispatched
    · have hj : j ≠ i := by
        rintro rfl
        rw [hfree] at ht
        cases ht
      exact hnext.disjoint i j _ t hj.symm hself ((hother j hj).trans ht) x hx hahead
  · intro hfresh
    constructor
    · exact h.dispatched
    · intro j t ht
      by_cases hj : j = i
      · subst hj
        cases hself.symm.trans ht
        exact occurrences_nodup s.db now
      · exact h.ahead j t ((hother j hj).symm.trans ht)
    · intro j t ht x hx hmem
      by_cases hj : j = i
      · subst hj
        cases hself.symm.trans ht
        exact hfresh x hx (.inl hmem)
      · exact h.apart j t ((hother j hj).symm.trans ht) x hx hmem
    · intro j k t t' hne ht ht' x hx hx'
      by_cases hj : j = i
      · subst hj
        cases hself.symm.trans ht
        exact hfresh x hx (.inr ⟨k, t', (hother k hne.symm).symm.trans ht', hx'⟩)
      · have hold := (hother j hj).symm.trans ht
        by_cases hk : k = i
        · subst hk
          cases hself.symm.trans ht'
          exact hfresh x hx' (.inr ⟨j, t, hold, hx⟩)
        · exact h.disjoint j k t t' hne hold ((hother k hk).symm.trans ht') x hx hx'

theorem once_begin (h : Once s) {t : Tick} (ht : s.ticks i = some t) (runId : String) :
    Once (s.begin catalogue i t runId) := by
  obtain ⟨now, ahead, waiting, edits, report⟩ := t
  unfold State.begin
  split
  · rename_i next rest hwaiting hahead
    simp only at hwaiting hahead
    subst hwaiting hahead
    split
    · apply once_put h
      rintro t' ⟨⟩
      exact ⟨_, ht, List.sublist_cons_self ..⟩
    · split
      · exact once_put_none h _ _
      · exact once_dispatch h ht rfl _
  · exact h

theorem once_finish (h : Once s) {t : Tick} (ht : s.ticks i = some t) (o : JobOutcome) :
    Once (s.finish i t o) := by
  unfold State.finish
  split
  · exact h
  · split
    · apply once_put h
      rintro t' ⟨⟩
      exact ⟨t, ht, List.Sublist.refl _⟩
    · exact once_put_none h _ _
    · exact h

theorem once_next_iff (s : State ι) (step : Step ι) (h : Once s) :
    Once (next catalogue s step) ↔ Fresh s step := by
  cases step with
  | read i now =>
    cases hi : s.ticks i with
    | some t => simpa [next, Fresh, hi] using h
    | none => simpa only [next, Fresh, hi, Option.isSome_none, Bool.false_eq_true, if_false,
        forall_const] using once_read_iff h hi now
  | begin i runId =>
    refine iff_of_true ?_ trivial
    simp only [next]
    split
    · rename_i t ht
      exact once_begin h ht runId
    · exact h
  | finish i o =>
    refine iff_of_true ?_ trivial
    simp only [next]
    split
    · rename_i t ht
      exact once_finish h ht o
    · exact h
  | close i =>
    refine iff_of_true ?_ trivial
    simp only [next]
    split
    · unfold State.close
      split
      · exact once_put_none h _ _
      · exact h
    · exact h
  | lose i => exact iff_of_true (once_put_none h i s.db) trivial
  | create id now body =>
    refine iff_of_true ?_ trivial
    simp only [next, State.answered]
    split <;> exact once_of_same h rfl rfl
  | update id now body =>
    refine iff_of_true ?_ trivial
    simp only [next, State.answered]
    split <;> exact once_of_same h rfl rfl
  | delete id => exact iff_of_true (once_of_same h rfl rfl) trivial

/-- In every run from idleness: if no tick finds an occurrence that a tick has dispatched or
    that a running one has ahead, no occurrence is dispatched twice. -/
theorem dispatched_once_of_fresh (catalogue : Catalogue) (s : State ι) (hidle : Idle s)
    (run : List (Step ι)) (hfresh : Throughout (next catalogue) Fresh s run) :
    ∀ s' ∈ states (next catalogue) s run, s'.dispatched.Nodup := by
  intro s' hs'
  exact ((forall_states_iff (next catalogue) once_next_iff hidle.once run).mpr hfresh s' hs').dispatched

end Once

/-! ### A tick alone -/

section Alone

variable {ι : Type u} [DecidableEq ι] {catalogue : Catalogue} {i : ι}

/-- The steps of a tick that has some schedules ahead. -/
def alone (i : ι) (jobs : Schedule → JobOutcome) (ahead : List Schedule) : List (Step ι) :=
  ahead.flatMap (fun s => [.begin i (jobs s).runId, .finish i (jobs s)]) ++ [.close i]

theorem final_alone_of_none {s : State ι} (hnone : s.ticks i = none) (jobs : Schedule → JobOutcome)
    (ahead : List Schedule) : final (next catalogue) s (alone i jobs ahead) = s := by
  have hclose : next catalogue s (.close i) = s := by simp only [next, hnone]
  induction ahead with
  | nil => exact hclose
  | cons first rest ih =>
    have hbegin : next catalogue s (.begin i (jobs first).runId) = s := by simp only [next, hnone]
    have hfinish : next catalogue s (.finish i (jobs first)) = s := by simp only [next, hnone]
    change final (next catalogue) (next catalogue (next catalogue s (.begin i (jobs first).runId))
      (.finish i (jobs first))) (alone i jobs rest) = s
    rw [hbegin, hfinish, ih]

theorem final_alone_db (jobs : Schedule → JobOutcome) (ahead : List Schedule) (now : Nat)
    (edits : List Edit) (report : TickReport) (s : State ι)
    (htick : s.ticks i = some ⟨now, ahead, none, edits, report⟩) :
    (final (next catalogue) s (alone i jobs ahead)).db =
      (tickLoop catalogue now jobs ahead edits report s.db).db := by
  induction ahead generalizing edits report s with
  | nil =>
    change (next catalogue s (.close i)).db = _
    simp only [next, htick, State.close, State.put, tickLoop]
    cases s.db.commit edits <;> rfl
  | cons first rest ih =>
    change (final (next catalogue) (next catalogue (next catalogue s (.begin i (jobs first).runId))
      (.finish i (jobs first))) (alone i jobs rest)).db = _
    simp only [tickLoop, dispatch]
    cases hcheck : checkJob catalogue first with
    | error exc =>
      have hbegin : next catalogue s (.begin i (jobs first).runId) =
          s.put i (some ⟨now, rest, none, edits ++ [editOf now first none "failed"],
            report.note [] (editOf now first none "failed")⟩) s.db := by
        simp only [next, htick, State.begin, hcheck]
      have hticks := Function.update_self i (some (Tick.mk now rest none
        (edits ++ [editOf now first none "failed"])
        (report.note [] (editOf now first none "failed")))) s.ticks
      have hfinish : ∀ o, next catalogue (next catalogue s (.begin i (jobs first).runId)) (.finish i o) =
          next catalogue s (.begin i (jobs first).runId) := by
        intro o
        rw [hbegin]
        simp only [next, State.put, hticks, State.finish]
      rw [hfinish, hbegin]
      exact ih _ _ _ hticks
    | ok u =>
      cases hcommit : s.db.commit edits with
      | none =>
        have hbegin : next catalogue s (.begin i (jobs first).runId) = s.put i none s.db := by
          simp only [next, htick, State.begin, hcheck, hcommit]
        have hgone : (s.put i none s.db).ticks i = none := Function.update_self ..
        have hfinish : next catalogue (s.put i none s.db) (.finish i (jobs first)) = s.put i none s.db := by
          simp only [next, hgone]
        rw [hbegin, hfinish, final_alone_of_none hgone]
        rfl
      | some db =>
        let shown : State ι :=
          (s.put i (some ⟨now, rest, some (first, newRun first now (jobs first).runId), [], report⟩)
            (db.putRun (newRun first now (jobs first).runId))).record (occurrenceOf first)
        have hbegin : next catalogue s (.begin i (jobs first).runId) = shown := by
          simp only [next, htick, State.begin, hcheck, hcommit]
          rfl
        have hshown : shown.ticks i =
            some ⟨now, rest, some (first, newRun first now (jobs first).runId), [], report⟩ :=
          Function.update_self ..
        have hdb : shown.db = db.putRun (newRun first now (jobs first).runId) := rfl
        rw [hbegin]
        rcases runJob_cases (newRun first now (jobs first).runId) (jobs first)
            (db.putRun (newRun first now (jobs first).runId)) with
          ⟨-, done, db', hrun, -⟩ | ⟨-, db', hrun, -⟩
        · let e := editOf now first (some now) done.status
          have hfinish : next catalogue shown (.finish i (jobs first)) =
              shown.put i (some ⟨now, rest, none, [e], report.note [done.id] e⟩) db' := by
            simp only [next, hshown, State.finish, hdb, hrun]
            rfl
          rw [hfinish, ih _ _ _ (Function.update_self ..)]
          simp only [hrun]
          rfl
        · have hfinish : next catalogue shown (.finish i (jobs first)) = shown.put i none db' := by
            simp only [next, hshown, State.finish, hdb, hrun]
          rw [hfinish, final_alone_of_none (Function.update_self ..)]
          simp only [hrun]
          rfl

theorem final_read_alone_db (jobs : Schedule → JobOutcome) (now : Nat) (s : State ι)
    (hfree : s.ticks i = none) :
    (final (next catalogue) s (.read i now :: alone i jobs (listDue s.db now))).db =
      (tick catalogue now jobs s.db).db := by
  have hread : next catalogue s (.read i now) = s.read i now := by
    simp [next, hfree]
  change (final (next catalogue) (next catalogue s (.read i now)) _).db = _
  rw [hread]
  exact final_alone_db jobs (listDue s.db now) now [] ⟨[], []⟩ _ (Function.update_self ..)

end Alone

/-! ### A job that takes longer than a minute -/

def nightlyBody : ScheduleCreate :=
  ⟨"nightly", true, "drain_vt_queue", [], [("minute", .int 0), ("hour", .int 0)]⟩

/-- 2027-06-02, midnight. -/
def midnight : Nat := 20971 * 1440 * MINUTE

def nextMidnight : Nat := 20972 * 1440 * MINUTE

def nightly : Schedule :=
  ⟨"s1", "nightly", true, "drain_vt_queue", [], nightlyBody.cron, some midnight, none, none⟩

def nightlyDb : Db := ⟨Table.empty.upsert nightly, .empty⟩

def everyMidnight : Fields :=
  ⟨[0], [0], (List.range' 1 31).map (↑), (List.range' 1 12).map (↑), (List.range' 0 7).map (↑)⟩

theorem nextRun_nightly {day : Nat} (hmatches : Matches everyMidnight ((day + 1) * 1440))
    (hlast : (day + 1) * 1440 ≤ LAST_MINUTE) :
    nextRun nightlyBody.cron (day * 1440 * MINUTE) = .ok ((day + 1) * 1440 * MINUTE) := by
  have hfields : fieldsOf nightlyBody.cron = .ok everyMidnight := by rfl
  have hstart : day * 1440 * MINUTE / MINUTE = day * 1440 := Nat.mul_div_cancel _ (by decide)
  have hhorizon : 1440 ≤ HORIZON := by decide
  rw [nextRun_ok_iff]
  refine ⟨(day + 1) * 1440, rfl, ⟨_, hfields, ?_, ?_, hlast, hmatches⟩, ?_⟩
  · rw [hstart]
    omega
  · rw [hstart]
    omega
  · rintro earlier hlt ⟨f, hf, hlow, -, -, hminute, hhour, -⟩
    rw [hfields, Except.ok.injEq] at hf
    subst hf
    simp only [everyMidnight, List.mem_singleton] at hminute hhour
    rw [hstart] at hlow
    omega

theorem dateOf_20971 : dateOf 20971 = ⟨2027, 6, 2⟩ := by
  rw [dateOf, dateOf_20970]
  decide

theorem matches_midnight : Matches everyMidnight (20971 * 1440) := by
  simp only [Matches, show 20971 * 1440 / 1440 = 20971 from rfl, dateOf_20971]
  decide

theorem matches_nextMidnight : Matches everyMidnight (20972 * 1440) := by
  have hdate : dateOf 20972 = ⟨2027, 6, 3⟩ := by
    rw [dateOf, dateOf_20971]
    decide
  simp only [Matches, show 20972 * 1440 / 1440 = 20972 from rfl, hdate]
  decide

def nightlyState : State Nat := ⟨nightlyDb, fun _ => none, []⟩

/-- One tick, whose job is done before the next. -/
def quickJob : List (Step Nat) :=
  [.read 0 midnight, .begin 0 "r1", .finish 0 drained, .close 0]

/-- What it assigns to the schedule. -/
def nightlyEdit : Edit := editOf midnight nightly (some midnight) "completed"

theorem nightlyEdit_eq : nightlyEdit = ⟨"s1", some nextMidnight, some midnight, "completed"⟩ := by
  rw [nightlyEdit, editOf, show nightly.cron = nightlyBody.cron from rfl, midnight,
    nextRun_nightly matches_nextMidnight (by decide)]
  rfl

theorem listDue_quickJob :
    (listDue (final (next builtinJobs) nightlyState quickJob).db nextMidnight).map occurrenceOf =
      [("s1", some nextMidnight)] := by
  have hdb : (final (next builtinJobs) nightlyState quickJob).db =
      ((final (next builtinJobs) nightlyState (quickJob.take 3)).close 0
        ⟨midnight, [], none, [nightlyEdit], TickReport.note ⟨[], []⟩ ["r1"] nightlyEdit⟩).db := by
    rfl
  rw [hdb, nightlyEdit_eq]
  decide +kernel

/-- The tick of the next minute reads while the job of the first still runs. -/
def slowJob : List (Step Nat) :=
  [.read 0 midnight, .begin 0 "r1", .read 1 (midnight + MINUTE), .begin 1 "r2"]

theorem ticks_quickJob (i : Nat) :
    (final (next builtinJobs) nightlyState quickJob).ticks i = none := by
  obtain ⟨t, t', t'', h⟩ : ∃ t t' t'', (final (next builtinJobs) nightlyState quickJob).ticks =
      Function.update (Function.update (Function.update (Function.update nightlyState.ticks
        0 t) 0 t') 0 t'') 0 none := ⟨_, _, _, rfl⟩
  rw [h]
  by_cases hi : i = 0
  · subst hi
    exact Function.update_self ..
  · simp [hi, nightlyState]

/-- The tick of the next night reads once the first is through. -/
def twoNights : List (Step Nat) := quickJob ++ [.read 1 nextMidnight, .begin 1 "r2"]

theorem dispatched_once_of_fresh_twoNights :
    (final (next builtinJobs) nightlyState twoNights).dispatched.Nodup := by
  refine dispatched_once_of_fresh builtinJobs nightlyState ⟨fun _ => rfl, rfl⟩ twoNights
    ⟨fun _ x _ hclaimed => ?_, trivial, trivial, trivial, fun _ x hx hclaimed => ?_, trivial,
      trivial⟩ _
    ((mem_states _).mpr ⟨twoNights, [], rfl, rfl⟩)
  · rcases hclaimed with hdispatched | ⟨i, t, ht, -⟩
    · cases hdispatched
    · cases ht
  · have hdue : x ∈ (listDue (final (next builtinJobs) nightlyState quickJob).db
        nextMidnight).map occurrenceOf := hx
    rw [listDue_quickJob, List.mem_singleton] at hdue
    subst hdue
    rcases hclaimed with hdispatched | ⟨i, t, ht, -⟩
    · exact absurd (List.mem_singleton.mp hdispatched) (by decide)
    · cases (ticks_quickJob i).symm.trans ht

/-- The schedule is created and primed, and its one occurrence is dispatched by two ticks. -/
theorem overlapping_ticks_dispatch_twice :
    createSchedule builtinJobs "s1" createdAt nightlyBody emptyDb = .ok nightlyDb ∧
    (final (next builtinJobs) nightlyState slowJob).dispatched =
      [("s1", some midnight), ("s1", some midnight)] ∧
    ¬(final (next builtinJobs) nightlyState slowJob).dispatched.Nodup := by
  have htwice : (final (next builtinJobs) nightlyState slowJob).dispatched =
      [("s1", some midnight), ("s1", some midnight)] := by rfl
  refine ⟨?_, htwice, ?_⟩
  · have hcron : validateCron nightlyBody.cron = .ok () := by rfl
    have hnext : nextRun nightlyBody.cron createdAt = .ok midnight :=
      nextRun_nightly matches_midnight (by decide)
    simp only [createSchedule, hcron, hnext]
    rfl
  · rw [htwice]
    simp

end SchedulerTicks
