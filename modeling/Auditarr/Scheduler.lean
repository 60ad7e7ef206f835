/-
  Auditarr/Scheduler.lean
  =======================
  **One tick of the scheduler** (`app/automation/scheduler.py`,
  `app/services/repositories/automation.py`, `app/api/v1/automation.py`).

  A tick reads the schedules that are due, dispatches the job of each, and then moves the
  schedule to its next run.  The move is made on the object in memory; the next commit
  writes it, which is the one that shows the run row of the following job, or the one at
  the end of the tick.  `tick_advances_iff` says when every schedule that a tick found due
  has moved on.

  Times are microseconds since the epoch, in UTC.
-/
import Auditarr.Cron
import Auditarr.KeyedTable

namespace Scheduler

open KeyedTable PyValues Calendar Cron

/-! ### The tables -/

/-- `Schedule`, as far as the scheduler reads it. -/
structure Schedule where
  id : String
  name : String
  enabled : Bool
  jobKind : String
  jobArgs : List (String × PyValue)
  cron : List (String × PyValue)
  nextRunAt : Option Nat
  lastRunAt : Option Nat
  lastStatus : Option String

/-- `JobRun`. -/
structure JobRun where
  id : String
  scheduleId : String
  jobKind : String
  jobArgs : List (String × PyValue)
  status : String
  startedAt : Nat
  trigger : String
  finishedAt : Option Nat
  durationMs : Option Int
  result : Option PyValue
  error : Option String

/-- What is committed. -/
structure Db where
  schedules : Table Schedule.id
  runs : Table JobRun.id

/-- `ScheduleRepository.list_due`. -/
def listDue (db : Db) (now : Nat) : List Schedule :=
  db.schedules.rows.filter fun s => s.enabled ∧ ∃ time ∈ s.nextRunAt, time ≤ now

/-! ### Jobs -/

/-- The required arguments of the registered jobs. -/
abbrev Catalogue : Type := String → Option (List String)

/-- The jobs that `register_builtin_jobs` registers. -/
def builtinJobs : Catalogue
  | "scan_library" => some ["library_id"]
  | "healthcheck_integration" => some ["integration_id"]
  | "sync_integration_tags" => some ["integration_id"]
  | "evaluate_library" => some ["library_id"]
  | "drain_vt_queue" => some []
  | _ => none

/-- `JobCatalogue.validate_args`. -/
def validateArgs (catalogue : Catalogue) (kind : String) (args : List (String × PyValue)) :
    Except PyError Unit :=
  match catalogue kind with
  | none => .error (.other "KeyError")
  | some required =>
      if required.all fun key => (args.lookup key).isSome then .ok () else .error .valueError

/-- What `_dispatch` checks before it writes. -/
def checkJob (catalogue : Catalogue) (s : Schedule) : Except PyError Unit :=
  if s.jobKind = "" then .error .valueError else validateArgs catalogue s.jobKind s.jobArgs

/-- How a runner ends: with a result, with one that JSON cannot hold, with an exception, or
    cancelled, as by the timeout of the worker. -/
inductive Ending where
  | returned (result : PyValue)
  | unstorable
  | raised (error : String)
  | cancelled

/-- What a runner does to the tick: its end, whether it left the session of the tick with
    its objects expired (by a rollback, or by a flush that failed), and the clock after it. -/
structure JobOutcome where
  runId : String
  ending : Ending
  sessionLost : Bool
  finishedAt : Nat

/-- A runner that ends in a result or an exception and leaves the session as it was. -/
def JobOutcome.Settles (o : JobOutcome) : Prop :=
  o.sessionLost = false ∧
    match o.ending with
    | .returned _ | .raised _ => True
    | .unstorable | .cancelled => False

/-- `int((finished - started).total_seconds() * 1000)`. -/
def elapsedMs (started finished : Nat) : Int :=
  match PyFloat.scale (.ofExact (((finished : ℚ) - started) / 1000000)) 1000 with
  | .finite q => if q < 0 then -⌊-q⌋ else ⌊q⌋
  | _ => 0

/-- The result as it is stored. -/
def storedResult : PyValue → PyValue
  | .dict entries => .dict entries
  | v => .dict [("value", v)]

/-! ### The session -/

/-- What a tick assigned to a schedule since the last commit; a time that was not assigned
    is `none`. -/
structure Edit where
  id : String
  nextRunAt : Option Nat
  lastRunAt : Option Nat
  lastStatus : String

def Edit.apply (e : Edit) (s : Schedule) : Schedule :=
  { s with
    nextRunAt := e.nextRunAt.or s.nextRunAt
    lastRunAt := e.lastRunAt.or s.lastRunAt
    lastStatus := some e.lastStatus }

theorem Edit.apply_id (e : Edit) (s : Schedule) : (e.apply s).id = s.id := rfl

/-- `UPDATE schedules SET … WHERE id = …`. -/
def Edit.write (schedules : Table Schedule.id) (e : Edit) : Table Schedule.id :=
  schedules.update (fun s => s.id = e.id) e.apply e.apply_id

/-- `session.commit()`: every edit is written; one whose row is gone is a `StaleDataError`. -/
def Db.commit (db : Db) (edits : List Edit) : Option Db :=
  if edits.all fun e => (db.schedules.find? e.id).isSome then
    some { db with schedules := edits.foldl Edit.write db.schedules }
  else none

def Db.putRun (db : Db) (run : JobRun) : Db := { db with runs := db.runs.upsert run }

/-! ### Dispatch -/

/-- How `_dispatch` ends: before it wrote, with a run, or with an exception that the tick
    does not survive. -/
inductive Dispatched where
  | refused (exc : PyError)
  | ran (run : JobRun) (db : Db)
  | lost (db : Db)

def newRun (s : Schedule) (now : Nat) (runId : String) : JobRun :=
  ⟨runId, s.id, s.jobKind, s.jobArgs, "running", now, "schedule", none, none, none, none⟩

def JobRun.finish (run : JobRun) (o : JobOutcome) (status : String) (result : Option PyValue)
    (error : Option String) : JobRun :=
  { run with status := status, finishedAt := some o.finishedAt,
             durationMs := some (elapsedMs run.startedAt o.finishedAt), result := result, error := error }

/-- The job and what follows it, up to the commit of its end.  An object that is expired
    cannot be read again: the exception for it ends the tick. -/
def runJob (run : JobRun) (o : JobOutcome) (db : Db) : Dispatched :=
  if o.sessionLost then .lost db
  else match o.ending with
    | .returned result =>
        let done := run.finish o "completed" (some (storedResult result)) none
        .ran done (db.putRun done)
    | .raised error =>
        let done := run.finish o "failed" none (some (String.ofList (error.toList.take 2000)))
        .ran done (db.putRun done)
    -- the commit fails, and with it the session
    | .unstorable => .lost db
    -- the commit is made, and the cancellation goes on
    | .cancelled => .lost (db.putRun (run.finish o "running" none none))

/-- `_dispatch` of a schedule. -/
def dispatch (catalogue : Catalogue) (now : Nat) (s : Schedule) (o : JobOutcome) (edits : List Edit)
    (db : Db) : Dispatched :=
  match checkJob catalogue s with
  | .error exc => .refused exc
  | .ok _ => match db.commit edits with
    | none => .lost db
    | some db =>
        let run := newRun s now o.runId
        runJob run o (db.putRun run)

/-! ### The tick -/

/-- `TickReport`. -/
structure TickReport where
  enqueued : List String
  rescheduled : List String

/-- What is committed at the end of a tick, and its report; `none` if it raised. -/
structure TickEnd where
  db : Db
  report : Option TickReport

/-- The end of a round: the status, and `prime_next_run`, whose exception is logged. -/
def editOf (now : Nat) (s : Schedule) (lastRunAt : Option Nat) (lastStatus : String) : Edit :=
  ⟨s.id, (nextRun s.cron now).toOption, lastRunAt, lastStatus⟩

def TickReport.note (report : TickReport) (runs : List String) (e : Edit) : TickReport :=
  ⟨report.enqueued ++ runs,
    if e.nextRunAt.isSome then report.rescheduled ++ [e.id] else report.rescheduled⟩

section Tick

variable (catalogue : Catalogue) (now : Nat) (jobs : Schedule → JobOutcome)

/-- The loop over the schedules that are due, and the commit after it. -/
def tickLoop : List Schedule → List Edit → TickReport → Db → TickEnd
  | [], edits, report, db => match db.commit edits with
    | none => ⟨db, none⟩
    | some db => ⟨db, some report⟩
  | s :: rest, edits, report, db => match dispatch catalogue now s (jobs s) edits db with
    | .refused _ =>
        let e := editOf now s none "failed"
        tickLoop rest (edits ++ [e]) (report.note [] e) db
    | .ran run db =>
        let e := editOf now s (some now) run.status
        tickLoop rest [e] (report.note [run.id] e) db
    | .lost db => ⟨db, none⟩

/-- `Scheduler.tick`. -/
def tick (db : Db) : TickEnd := tickLoop catalogue now jobs (listDue db now) [] ⟨[], []⟩ db

end Tick

/-! ### Creation -/

/-- `ScheduleCreate`. -/
structure ScheduleCreate where
  name : String
  enabled : Bool
  jobKind : String
  jobArgs : List (String × PyValue)
  cron : List (String × PyValue)

/-- The answers to a request that is refused, and the exception of `prime_next_run`. -/
inductive ApiError where
  | unknownJob (kind : String)
  | args (e : PyError)
  | cron (e : CronError)
  | conflict (name : String)
  | notFound (id : String)
  | noNextRun (e : CronError)

/-- `create_schedule`. -/
def createSchedule (catalogue : Catalogue) (id : String) (now : Nat) (body : ScheduleCreate) (db : Db) :
    Except ApiError Db :=
  if (catalogue body.jobKind).isNone then .error (.unknownJob body.jobKind)
  else match validateArgs catalogue body.jobKind body.jobArgs with
    | .error e => .error (.args e)
    | .ok _ => match validateCron body.cron with
      | .error e => .error (.cron e)
      | .ok _ =>
          if db.schedules.rows.any fun s => s.name = body.name then .error (.conflict body.name)
          else match nextRun body.cron now with
            | .error e => .error (.noNextRun e)
            | .ok time =>
                let s : Schedule := ⟨id, body.name, body.enabled, body.jobKind, body.jobArgs, body.cron,
                  some time, none, none⟩
                .ok { db with schedules := db.schedules.upsert s }

/-! ### What a commit writes -/

def applyEdits (edits : List Edit) (s : Schedule) : Schedule :=
  edits.foldl (fun s e => if s.id = e.id then e.apply s else s) s

theorem applyEdits_of_ne {edits : List Edit} {s : Schedule} (h : ∀ e ∈ edits, s.id ≠ e.id) :
    applyEdits edits s = s := by
  induction edits with
  | nil => rfl
  | cons e rest ih =>
    rw [applyEdits, List.foldl_cons, if_neg (h e (List.mem_cons_self ..))]
    exact ih fun e' he' => h e' (List.mem_cons_of_mem _ he')

theorem applyEdits_append (edits : List Edit) (e : Edit) (s : Schedule) :
    applyEdits (edits ++ [e]) s =
      if (applyEdits edits s).id = e.id then e.apply (applyEdits edits s) else applyEdits edits s :=
  List.foldl_append

theorem applyEdits_id (edits : List Edit) (s : Schedule) : (applyEdits edits s).id = s.id := by
  induction edits using List.reverseRecOn with
  | nil => rfl
  | append_singleton rest e ih =>
    rw [applyEdits_append]
    split
    · rw [Edit.apply_id, ih]
    · exact ih

theorem find?_foldl_write (edits : List Edit) (schedules : Table Schedule.id) (id : String) :
    (edits.foldl Edit.write schedules).find? id = (schedules.find? id).map (applyEdits edits) := by
  induction edits generalizing schedules with
  | nil => exact Option.map_id'.symm
  | cons e rest ih =>
    rw [List.foldl_cons, ih, Edit.write, Table.find?_update, Option.map_map]
    cases schedules.find? id with
    | none => rfl
    | some s => simp [applyEdits]

theorem commit_eq {db : Db} {edits : List Edit}
    (h : ∀ e ∈ edits, (db.schedules.find? e.id).isSome = true) :
    db.commit edits = some { db with schedules := edits.foldl Edit.write db.schedules } :=
  if_pos (List.all_eq_true.mpr h)

/-! ### What a dispatch does -/

section Dispatch

variable {catalogue : Catalogue} {now : Nat} {s : Schedule} {o : JobOutcome} {edits : List Edit} {db : Db}

theorem runJob_cases (run : JobRun) (o : JobOutcome) (db : Db) :
    (o.Settles ∧ ∃ done db', runJob run o db = .ran done db' ∧ db'.schedules = db.schedules) ∨
      (¬o.Settles ∧ ∃ db', runJob run o db = .lost db' ∧ db'.schedules = db.schedules) := by
  obtain ⟨runId, ending, sessionLost, finishedAt⟩ := o
  cases sessionLost with
  | true => exact .inr ⟨fun h => absurd h.1 nofun, db, rfl, rfl⟩
  | false =>
    cases ending with
    | returned result => exact .inl ⟨⟨rfl, trivial⟩, _, _, rfl, rfl⟩
    | raised error => exact .inl ⟨⟨rfl, trivial⟩, _, _, rfl, rfl⟩
    | unstorable => exact .inr ⟨fun h => h.2, _, rfl, rfl⟩
    | cancelled => exact .inr ⟨fun h => h.2, _, rfl, rfl⟩

/-- A dispatch is refused and writes nothing, or it commits the edits made before it, and
    the tick survives it iff the runner settles. -/
theorem dispatch_cases (catalogue : Catalogue) (now : Nat) (s : Schedule) (o : JobOutcome)
    (hedits : ∀ e ∈ edits, (db.schedules.find? e.id).isSome = true) :
    (∃ exc, checkJob catalogue s = .error exc ∧ dispatch catalogue now s o edits db = .refused exc) ∨
    (checkJob catalogue s = .ok () ∧ o.Settles ∧ ∃ run db',
      dispatch catalogue now s o edits db = .ran run db' ∧
        db'.schedules = edits.foldl Edit.write db.schedules) ∨
    (checkJob catalogue s = .ok () ∧ ¬o.Settles ∧ ∃ db',
      dispatch catalogue now s o edits db = .lost db' ∧
        db'.schedules = edits.foldl Edit.write db.schedules) := by
  unfold dispatch
  cases hcheck : checkJob catalogue s with
  | error exc => exact .inl ⟨exc, rfl, rfl⟩
  | ok u =>
    right
    rw [commit_eq hedits]
    rcases runJob_cases (newRun s now o.runId) o
      (Db.putRun { db with schedules := edits.foldl Edit.write db.schedules } (newRun s now o.runId))
      with ⟨hsettles, done, db', hrun, hsame⟩ | ⟨hsettles, db', hrun, hsame⟩
    · exact .inl ⟨rfl, hsettles, done, db', hrun, hsame⟩
    · exact .inr ⟨rfl, hsettles, db', hrun, hsame⟩

end Dispatch

/-! ### What a tick moves -/

/-- The committed next run of a schedule lies ahead. -/
def Advanced (now : Nat) (db : Db) (id : String) : Prop :=
  ∃ row time, db.schedules.find? id = some row ∧ row.nextRunAt = some time ∧ now < time

/-- A tick moves a schedule: its document names a minute in reach, and its runner, if the
    job is accepted, settles. -/
def Moves (catalogue : Catalogue) (now : Nat) (jobs : Schedule → JobOutcome) (s : Schedule) : Prop :=
  (∃ minute, Named s.cron now minute) ∧ (checkJob catalogue s = .ok () → (jobs s).Settles)

section Tick

variable {catalogue : Catalogue} {now : Nat} {jobs : Schedule → JobOutcome}

/-- The state of the loop: the schedules that are left are the rows of the table, they are
    due and differ, and the edits are of rows that are not among them. -/
structure Loop (now : Nat) (rest : List Schedule) (edits : List Edit) (db : Db) : Prop where
  found : ∀ s ∈ rest, db.schedules.find? s.id = some s
  due : ∀ s ∈ rest, ∀ time ∈ s.nextRunAt, time ≤ now
  unique : (rest.map (·.id)).Nodup
  stored : ∀ e ∈ edits, (db.schedules.find? e.id).isSome = true
  others : ∀ e ∈ edits, ∀ s ∈ rest, s.id ≠ e.id

variable {rest : List Schedule} {edits : List Edit} {db : Db} {s : Schedule}

theorem Loop.head_not_mem (h : Loop now (s :: rest) edits db) : ∀ s' ∈ rest, s'.id ≠ s.id := by
  intro s' hs' heq
  exact (List.nodup_cons.mp h.unique).1 (List.mem_map.mpr ⟨s', hs', heq⟩)

theorem Loop.refused (h : Loop now (s :: rest) edits db) (e : Edit) (he : e.id = s.id) :
    Loop now rest (edits ++ [e]) db where
  found s' hs' := h.found s' (List.mem_cons_of_mem _ hs')
  due s' hs' := h.due s' (List.mem_cons_of_mem _ hs')
  unique := (List.nodup_cons.mp h.unique).2
  stored := by
    intro e' he'
    rcases List.mem_append.mp he' with hold | hnew
    · exact h.stored e' hold
    · rw [List.mem_singleton.mp hnew, he, h.found s (List.mem_cons_self ..)]
      rfl
  others := by
    intro e' he' s' hs'
    rcases List.mem_append.mp he' with hold | hnew
    · exact h.others e' hold s' (List.mem_cons_of_mem _ hs')
    · rw [List.mem_singleton.mp hnew, he]
      exact h.head_not_mem s' hs'

theorem Loop.ran (h : Loop now (s :: rest) edits db) {db' : Db}
    (hsame : db'.schedules = edits.foldl Edit.write db.schedules) (e : Edit) (he : e.id = s.id) :
    Loop now rest [e] db' where
  found := by
    intro s' hs'
    have hs'' := List.mem_cons_of_mem s hs'
    rw [hsame, find?_foldl_write, h.found s' hs'', Option.map_some,
      applyEdits_of_ne fun e' he' => h.others e' he' s' hs'']
  due s' hs' := h.due s' (List.mem_cons_of_mem _ hs')
  unique := (List.nodup_cons.mp h.unique).2
  stored := by
    intro e' he'
    rw [List.mem_singleton.mp he', he, hsame, find?_foldl_write, h.found s (List.mem_cons_self ..)]
    rfl
  others := by
    intro e' he' s' hs'
    rw [List.mem_singleton.mp he', he]
    exact h.head_not_mem s' hs'

theorem find?_tickLoop (h : Loop now rest edits db) (report : TickReport) {id : String}
    (hid : ∀ s ∈ rest, s.id ≠ id) :
    (tickLoop catalogue now jobs rest edits report db).db.schedules.find? id =
      (db.schedules.find? id).map (applyEdits edits) := by
  induction rest generalizing edits report db with
  | nil =>
    simp only [tickLoop, commit_eq h.stored]
    exact find?_foldl_write ..
  | cons s rest ih =>
    have hhead : s.id ≠ id := hid s (List.mem_cons_self ..)
    have hrest : ∀ s ∈ rest, s.id ≠ id := fun s' hs' => hid s' (List.mem_cons_of_mem _ hs')
    have hother : ∀ e : Edit, e.id = s.id → ∀ row, db.schedules.find? id = some row → row.id ≠ e.id := by
      intro e he row hrow
      rw [he, (Table.mem_of_find? hrow).2]
      exact hhead.symm
    rcases dispatch_cases catalogue now s (jobs s) h.stored with
      ⟨exc, -, hrefused⟩ | ⟨-, -, run, db', hran, hsame⟩ | ⟨-, -, db', hlost, hsame⟩
    · simp only [tickLoop, hrefused]
      rw [ih (h.refused _ rfl) _ hrest]
      cases hrow : db.schedules.find? id with
      | none => rfl
      | some row =>
        rw [Option.map_some, Option.map_some, applyEdits_append, applyEdits_id,
          if_neg (hother _ rfl row hrow)]
    · simp only [tickLoop, hran]
      rw [ih (h.ran hsame _ rfl) _ hrest, hsame, find?_foldl_write]
      cases hrow : db.schedules.find? id with
      | none => rfl
      | some row =>
        have hsame : applyEdits [editOf now s (some now) run.status] (applyEdits edits row) =
            applyEdits edits row := by
          apply applyEdits_of_ne
          intro e he
          rw [List.mem_singleton.mp he, applyEdits_id]
          exact hother _ rfl row hrow
        rw [Option.map_some, Option.map_some, hsame]
    · simp only [tickLoop, hlost]
      rw [hsame, find?_foldl_write]

theorem advanced_edit_iff {db' : Db} (lastRunAt : Option Nat) (lastStatus : String)
    (hdue : ∀ time ∈ s.nextRunAt, time ≤ now)
    (hrow : db'.schedules.find? s.id = some ((editOf now s lastRunAt lastStatus).apply s)) :
    Advanced now db' s.id ↔ ∃ minute, Named s.cron now minute := by
  rw [← nextRun_isOk_iff]
  constructor
  · rintro ⟨row, time, hfind, htime, hlater⟩
    rw [hrow, Option.some.injEq] at hfind
    subst hfind
    cases hnext : nextRun s.cron now with
    | ok next => exact ⟨next, rfl⟩
    | error e =>
      simp only [Edit.apply, editOf, hnext, Except.toOption, Option.none_or] at htime
      exact absurd (hdue time htime) (by omega)
  · rintro ⟨next, hnext⟩
    refine ⟨_, next, hrow, ?_, lt_of_nextRun hnext⟩
    simp [Edit.apply, editOf, hnext, Except.toOption]

theorem tickLoop_advances_iff (h : Loop now rest edits db) (report : TickReport) :
    (∀ s ∈ rest, Advanced now (tickLoop catalogue now jobs rest edits report db).db s.id) ↔
      ∀ s ∈ rest, Moves catalogue now jobs s := by
  induction rest generalizing edits report db with
  | nil => simp
  | cons s rest ih =>
    have hfound := h.found s (List.mem_cons_self ..)
    have hdue := h.due s (List.mem_cons_self ..)
    have hclean : applyEdits edits s = s :=
      applyEdits_of_ne fun e he => h.others e he s (List.mem_cons_self ..)
    rw [List.forall_mem_cons, List.forall_mem_cons]
    rcases dispatch_cases catalogue now s (jobs s) h.stored with
      ⟨exc, hcheck, hrefused⟩ | ⟨hcheck, hsettles, run, db', hran, hsame⟩ |
        ⟨hcheck, hsettles, db', hlost, hsame⟩
    · simp only [tickLoop, hrefused]
      have hnext := h.refused (editOf now s none "failed") rfl
      rw [ih hnext]
      apply and_congr_left'
      rw [advanced_edit_iff none "failed" hdue, Moves]
      · simp [hcheck]
      · rw [find?_tickLoop hnext _ h.head_not_mem, hfound, Option.map_some, applyEdits_append, hclean]
        exact congrArg some (if_pos rfl)
    · simp only [tickLoop, hran]
      have hnext := h.ran hsame (editOf now s (some now) run.status) rfl
      rw [ih hnext]
      apply and_congr_left'
      rw [advanced_edit_iff (some now) run.status hdue, Moves]
      · simp [hsettles]
      · rw [find?_tickLoop hnext _ h.head_not_mem, hsame, find?_foldl_write, hfound, Option.map_some,
          Option.map_some, hclean]
        exact congrArg some (if_pos rfl)
    · -- the schedule whose job the tick does not survive keeps its row
      simp only [tickLoop, hlost]
      refine iff_of_false ?_ fun hmoves => hsettles (hmoves.1.2 hcheck)
      rintro ⟨⟨row, time, hrow, htime, hlater⟩, -⟩
      rw [hsame, find?_foldl_write, hfound, Option.map_some, hclean, Option.some.injEq] at hrow
      subst hrow
      exact absurd (hdue time htime) (by omega)

end Tick

theorem loop_listDue (db : Db) (now : Nat) : Loop now (listDue db now) [] db where
  found s hs := Table.find?_eq_some.mpr ⟨(List.mem_filter.mp hs).1, rfl⟩
  due s hs time htime := by
    obtain ⟨-, time', htime', hle⟩ := of_decide_eq_true (List.mem_filter.mp hs).2
    rw [Option.mem_unique htime htime']
    exact hle
  unique := db.schedules.unique.sublist ((List.filter_sublist ..).map _)
  stored := nofun
  others := nofun

/-- After a tick, every schedule that it found due has its next run ahead of the tick's time,
    iff the document of each names a minute in reach and every runner of theirs settles. -/
theorem tick_advances_iff (catalogue : Catalogue) (now : Nat) (jobs : Schedule → JobOutcome) (db : Db) :
    (∀ s ∈ listDue db now, Advanced now (tick catalogue now jobs db).db s.id) ↔
      ∀ s ∈ listDue db now, Moves catalogue now jobs s :=
  tickLoop_advances_iff (loop_listDue db now) ⟨[], []⟩

/-! ### A leap day that is a Tuesday -/

/-- Midnight of the 29th of February, where it is a Tuesday. -/
def leapTuesday : List (String × PyValue) :=
  [("minute", .int 0), ("hour", .int 0), ("day", .int 29), ("month", .int 2), ("weekday", .int 1)]

theorem fieldsOf_leapTuesday : fieldsOf leapTuesday = .ok ⟨[0], [0], [29], [2], [1]⟩ := by rfl

theorem dateOf_789 : dateOf 789 = ⟨1972, 2, 29⟩ := by
  rw [show 789 = 730 + 59 from rfl, dateOf_add, dateOf_730]
  decide +kernel

theorem dateOf_20970 : dateOf 20970 = ⟨2027, 6, 1⟩ := by
  have hday : dateOf 1977 = ⟨1975, 6, 1⟩ := by
    rw [show 1977 = 1461 + 516 from rfl, dateOf_add, dateOf_1461]
    decide +kernel
  rw [show 20970 = 1977 + 1461 * 13 from rfl, dateOf_add_years (by rw [hday]; decide), hday]
  rfl

theorem dateOf_21243 : dateOf 21243 = ⟨2028, 2, 29⟩ := by
  rw [show 21243 = 789 + 1461 * 14 from rfl, dateOf_add_years (by rw [dateOf_789]; decide), dateOf_789]
  rfl

theorem dateOf_22704 : dateOf 22704 = ⟨2032, 2, 29⟩ := by
  rw [show 22704 = 789 + 1461 * 15 from rfl, dateOf_add_years (by rw [dateOf_789]; decide), dateOf_789]
  rfl

theorem leapTuesday_matches {minute : Nat} (h : Matches ⟨[0], [0], [29], [2], [1]⟩ minute) :
    minute = minute / 1440 * 1440 ∧ (dateOf (minute / 1440)).month = 2 ∧
      (dateOf (minute / 1440)).day = 29 ∧ weekdayOf (minute / 1440) = 1 := by
  obtain ⟨hminute, hhour, hday, hmonth, hweekday⟩ := h
  simp only [List.mem_singleton] at hminute hhour hday hmonth hweekday
  exact ⟨by omega, by omega, by omega, by omega⟩

def createdAt : Nat := 20970 * 1440 * MINUTE

def leapDayAt : Nat := 21243 * 1440 * MINUTE

theorem nextRun_createdAt : nextRun leapTuesday createdAt = .ok leapDayAt := by
  have hstart : createdAt / MINUTE = 20970 * 1440 := Nat.mul_div_cancel _ (by decide)
  rw [nextRun_ok_iff]
  refine ⟨21243 * 1440, rfl, ⟨_, fieldsOf_leapTuesday, ?_, ?_, by decide, ?_⟩, ?_⟩
  · rw [hstart]
    decide
  · rw [hstart]
    decide
  · have hdate : dateOf (21243 * 1440 / 1440) = ⟨2028, 2, 29⟩ := dateOf_21243
    simp only [Matches, hdate]
    decide
  · rintro earlier hlt ⟨f, hf, hlow, -, -, hmatch⟩
    rw [fieldsOf_leapTuesday, Except.ok.injEq] at hf
    subst hf
    rw [hstart] at hlow
    obtain ⟨-, hmonth, hday, -⟩ := leapTuesday_matches hmatch
    have hafter : dateOf 20970 ≤ dateOf (earlier / 1440) := dateOf_strictMono.monotone (by omega)
    have hbefore : dateOf (earlier / 1440) < dateOf 21243 := dateOf_strictMono (by omega)
    have hyear := year_le_of_le hafter
    rw [← not_lt, dateOf_20970, Date.lt_iff] at hafter
    rw [dateOf_21243, Date.lt_iff] at hbefore
    rw [dateOf_20970] at hyear
    simp only at hafter hbefore hyear
    omega

theorem not_named_leapDayAt (minute : Nat) : ¬Named leapTuesday leapDayAt minute := by
  have hstart : leapDayAt / MINUTE = 21243 * 1440 := Nat.mul_div_cancel _ (by decide)
  rintro ⟨f, hf, hlow, hhigh, -, hmatch⟩
  rw [fieldsOf_leapTuesday, Except.ok.injEq] at hf
  subst hf
  rw [hstart] at hlow hhigh
  obtain ⟨hmidnight, hmonth, hday, hweekday⟩ := leapTuesday_matches hmatch
  have hlast : minute / 1440 ≤ 22707 := by
    simp only [HORIZON] at hhigh
    omega
  have hleap := isLeap_of_leapDay hmonth hday
  have hafter : dateOf 21243 ≤ dateOf (minute / 1440) := dateOf_strictMono.monotone (by omega)
  have hbefore : dateOf (minute / 1440) ≤ dateOf 22707 := dateOf_strictMono.monotone hlast
  have hend : dateOf 22707 = ⟨2032, 3, 3⟩ := by
    rw [show 22707 = 22704 + 3 from rfl, dateOf_add, dateOf_22704]
    decide +kernel
  have hyear := year_le_of_le hafter
  have hyear' := year_le_of_le hbefore
  rw [dateOf_21243] at hyear
  rw [hend] at hyear'
  simp only at hyear hyear'
  rw [isLeap_eq (by omega) (by omega), decide_eq_true_eq] at hleap
  have hdate : dateOf (minute / 1440) = ⟨(dateOf (minute / 1440)).year, 2, 29⟩ := Date.ext rfl hmonth hday
  obtain hfirst | hsecond : (dateOf (minute / 1440)).year = 2028 ∨ (dateOf (minute / 1440)).year = 2032 := by
    omega
  · rw [hfirst, ← dateOf_21243] at hdate
    have hsame := dateOf_strictMono.injective hdate
    omega
  · rw [hsecond, ← dateOf_22704] at hdate
    rw [dateOf_strictMono.injective hdate] at hweekday
    exact absurd hweekday (by decide)

def emptyDb : Db := ⟨.empty, .empty⟩

def leapBody : ScheduleCreate := ⟨"leap", true, "drain_vt_queue", [], leapTuesday⟩

def leapSchedule : Schedule :=
  ⟨"s1", "leap", true, "drain_vt_queue", [], leapTuesday, some leapDayAt, none, none⟩

def leapDb : Db := ⟨Table.empty.upsert leapSchedule, .empty⟩

/-- The job is done, without an exception. -/
def drained : JobOutcome := ⟨"r1", .returned (.dict []), false, leapDayAt⟩

/-- The schedule is created and primed, its job is done when it is due, the tick ends, and
    the schedule is due as before. -/
theorem leap_tuesday_stays_due :
    createSchedule builtinJobs "s1" createdAt leapBody emptyDb = .ok leapDb ∧
    listDue leapDb leapDayAt = [leapSchedule] ∧
    (tick builtinJobs leapDayAt (fun _ => drained) leapDb).report.isSome = true ∧
    ¬∀ s ∈ listDue leapDb leapDayAt,
      Advanced leapDayAt (tick builtinJobs leapDayAt (fun _ => drained) leapDb).db s.id := by
  have hdue : listDue leapDb leapDayAt = [leapSchedule] := by rfl
  refine ⟨?_, hdue, ?_, ?_⟩
  · have hcron : validateCron leapBody.cron = .ok () := validateCron_ok_iff.mpr ⟨_, fieldsOf_leapTuesday⟩
    have hnext : nextRun leapBody.cron createdAt = .ok leapDayAt := nextRun_createdAt
    simp only [createSchedule, hcron, hnext]
    rfl
  · rw [tick, hdue]
    rfl
  · rw [tick, tickLoop_advances_iff (loop_listDue leapDb leapDayAt), hdue]
    intro hmoves
    obtain ⟨minute, hminute⟩ := (hmoves leapSchedule (List.mem_singleton.mpr rfl)).1
    exact not_named_leapDayAt minute hminute

end Scheduler
