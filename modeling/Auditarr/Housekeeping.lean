/-
  Auditarr/Housekeeping.lean
  ==========================
  **Housekeeping** (`app/housekeeping/service.py`).

  A run deletes the old rows of four tables, one statement each, stops the playback sessions
  that are stuck, and records what it deleted.  If a statement fails, all of it is rolled
  back, and the record of the failure is committed on its own.  The counts it carries are
  those of the report, which no rollback touches.

  `counts_true_iff` says for which failures the recorded counts are still those of the rows
  that are gone.
-/
import Auditarr.Transactions
import Auditarr.SessionLifecycle

namespace Housekeeping

open Effects Transactions KeyedTable PlaybackPoller
open SessionLifecycle (isStuck sweptRow sweptRow_id)

/-! ### The tables -/

/-- The tables that are trimmed. -/
inductive AuditTable where
  | notificationDeliveries | updateChecks | ruleEvaluations | jobRuns
deriving DecidableEq, Repr

/-- The order in which they are. -/
def AuditTable.all : List AuditTable :=
  [.notificationDeliveries, .updateChecks, .ruleEvaluations, .jobRuns]

/-- A row of one of them, with the column its age is taken from: `attempted_at`,
    `checked_at`, `evaluated_at` or `started_at`. -/
structure AuditRow where
  id : String
  stamp : Timestamp
deriving DecidableEq

/-- A row of `housekeeping_runs`. -/
structure HousekeepingRun where
  trigger : String
  startedAt : Timestamp
  finishedAt : Timestamp
  deleted : AuditTable → Nat
  error : Option String

structure Tables where
  audit : AuditTable → Table AuditRow.id
  sessions : Table PlaybackSession.id
  runs : List HousekeepingRun

/-- `HousekeepingReport`. -/
structure HousekeepingReport where
  deleted : AuditTable → Nat
  stuckSessionsSwept : Nat

def HousekeepingReport.empty : HousekeepingReport := ⟨fun _ => 0, 0⟩

/-! ### A run -/

/-- The retention settings, the clock, and what the database does. -/
structure Env where
  db : Environment String
  retentionDays : AuditTable → Int
  now : Timestamp
  /-- `utcnow()` when the record is written. -/
  finishedAt : Timestamp

abbrev Service (α : Type) := Call (Session Tables HousekeepingReport) String α

/-- `datetime.min`. -/
def datetimeMin : Timestamp := seconds (-62135596800)

/-- `now - timedelta(days=days)`. -/
def daysBefore (now : Timestamp) (days : Int) : Except String Timestamp :=
  if 999999999 < days then .error s!"days={days}; must have magnitude <= 999999999"
  else
    let cutoff := now - seconds (days * 24 * 3600)
    if cutoff < datetimeMin then .error "date value out of range" else .ok cutoff

def isOlder (cutoff : Timestamp) (row : AuditRow) : Bool := row.stamp < cutoff

/-- A table without the rows that are older. -/
def Tables.trim (t : Tables) (table : AuditTable) (cutoff : Timestamp) : Tables :=
  { t with audit := Function.update t.audit table ((t.audit table).erase (isOlder cutoff)) }

/-- How many rows `DELETE … WHERE stamp < cutoff` removes. -/
def Tables.older (t : Tables) (table : AuditTable) (cutoff : Timestamp) : Nat :=
  ((t.audit table).rows.filter (isOlder cutoff)).length

section Run

variable (env : Env)

def raising {α : Type} : Except String α → Service α
  | .ok a => pure a
  | .error e => Call.raise e

/-- `DELETE … WHERE stamp < cutoff`, and its `rowcount`. -/
def deleteOlder (table : AuditTable) (cutoff : Timestamp) : Service Nat := do
  let removed ← select env.db fun t => t.older table cutoff
  edit fun t => t.trim table cutoff
  return removed

/-- One of the four blocks of `run`. -/
def trimTable (table : AuditTable) : Service Unit :=
  if 0 < env.retentionDays table then do
    let cutoff ← raising (daysBefore env.now (env.retentionDays table))
    let removed ← deleteOlder env table cutoff
    outside fun report => { report with deleted := Function.update report.deleted table removed }
  else pure ()

/-- The rows that are stuck are stopped with the next flush. -/
def sweepSessions : Service Unit := do
  let stuck ← select env.db fun t => (t.sessions.rows.filter (isStuck env.now)).length
  edit fun t => { t with
    sessions := t.sessions.update (isStuck env.now) (sweptRow env.finishedAt)
      (sweptRow_id env.finishedAt) }
  outside fun report => { report with stuckSessionsSwept := stuck }

/-- What goes on record. -/
def entry (trigger : String) (report : HousekeepingReport) (error : Option String) :
    HousekeepingRun :=
  ⟨trigger, env.now, env.finishedAt, report.deleted, error⟩

/-- `_record_run`; on the failure path it commits. -/
def recordRun (trigger : String) (error : Option String) : Service Unit := do
  let report ← Call.read fun s => s.world
  edit fun t => { t with runs := t.runs ++ [entry env trigger report error] }
  Call.when error.isSome (commit env.db)

/-- The `try` of `run`. -/
def trimAll : Service Unit := do
  Call.forEach (trimTable env) AuditTable.all
  sweepSessions env

/-- Its `except`. -/
def failRun (trigger : String) (e : String) : Service Unit := do
  rollback
  recordRun env trigger (some (String.ofList (e.toList.take 1024)))
  Call.raise e

/-- `HousekeepingService.run`. -/
def run (trigger : String) : Service HousekeepingReport := do
  Call.attempt (trimAll env) (failRun env trigger)
  recordRun env trigger none
  commit env.db
  Call.read fun s => s.world

end Run

/-! ### Where a run is cut short -/

section Schedule

variable (env : Env)

/-- The rows of a table that are due. -/
def expired (table : AuditTable) (row : AuditRow) : Bool :=
  decide (0 < env.retentionDays table) &&
    match daysBefore env.now (env.retentionDays table) with
    | .ok cutoff => isOlder cutoff row
    | .error _ => false

/-- The tables dealt with before the statement that fails, if one does, and the round trip
    at which the record of the failure is committed.  A retention that overflows the clock
    fails without a round trip. -/
def cutShort (calls : Nat) (done : List AuditTable) : List AuditTable →
    Option (List AuditTable × Nat)
  | [] => if (env.db.faultAt calls).isSome then some (done, calls + 1) else none
  | table :: rest =>
      if 0 < env.retentionDays table then
        match daysBefore env.now (env.retentionDays table) with
        | .error _ => some (done, calls)
        | .ok _ =>
            if (env.db.faultAt calls).isSome then some (done, calls + 1)
            else cutShort (calls + 1) (done ++ [table]) rest
      else cutShort calls (done ++ [table]) rest

theorem cutShort_cons (calls : Nat) (done : List AuditTable) (table : AuditTable)
    (rest : List AuditTable) :
    cutShort env calls done (table :: rest) =
      if 0 < env.retentionDays table then
        match daysBefore env.now (env.retentionDays table) with
        | .error _ => some (done, calls)
        | .ok _ =>
            if (env.db.faultAt calls).isSome then some (done, calls + 1)
            else cutShort env (calls + 1) (done ++ [table]) rest
      else cutShort env calls (done ++ [table]) rest :=
  rfl

/-- How many rows of a table are gone. -/
def removed (before after : Tables) (table : AuditTable) : Nat :=
  ((before.audit table).rows.filter fun row => decide (row ∉ (after.audit table).rows)).length

end Schedule

/-! ### The loop -/

section Loop

variable {env : Env} {t : Tables}

/-- What the tables and the report are once the tables `done` are dealt with. -/
structure Progress (env : Env) (t : Tables) (done : List AuditTable)
    (s : Session Tables HousekeepingReport) : Prop where
  healthy : s.failed = false
  committed : s.committed = t
  runs : s.working.runs = t.runs
  trimmed : ∀ table, s.working.audit table =
    if table ∈ done then (t.audit table).erase (expired env table) else t.audit table
  counted : ∀ table, s.world.deleted table =
    if table ∈ done then ((t.audit table).rows.filter (expired env table)).length else 0

/-- A statement that failed: nothing is committed, and the report is what it was. -/
structure Broken (env : Env) (t : Tables) (done : List AuditTable) (calls : Nat)
    (s : Session Tables HousekeepingReport) : Prop where
  committed : s.committed = t
  calls : s.calls = calls
  counted : ∀ table, s.world.deleted table =
    if table ∈ done then ((t.audit table).rows.filter (expired env table)).length else 0

theorem Progress.start (calls : Nat) :
    Progress env t [] (Session.opened t HousekeepingReport.empty calls) where
  healthy := rfl
  committed := rfl
  runs := rfl
  trimmed _ := by simp [Session.opened]
  counted _ := by simp [Session.opened, HousekeepingReport.empty]

theorem Progress.skip {done : List AuditTable} {s : Session Tables HousekeepingReport}
    {table : AuditTable} (h : Progress env t done s) (hoff : ¬0 < env.retentionDays table) :
    Progress env t (done ++ [table]) s := by
  have hnone : expired env table = fun _ => false := by
    funext row
    simp [expired, hoff]
  refine { h with trimmed := fun other => ?_, counted := fun other => ?_ }
  · rw [h.trimmed other]
    by_cases hother : other = table
    · subst hother
      refine KeyedTable.Table.ext ?_
      by_cases hmem : other ∈ done <;> simp [hmem, hnone, KeyedTable.Table.erase]
    · simp [hother]
  · rw [h.counted other]
    by_cases hother : other = table
    · subst hother
      simp [hnone]
    · simp [hother]

theorem Progress.trim {done : List AuditTable} {s : Session Tables HousekeepingReport}
    {table : AuditTable} {cutoff : Timestamp} (h : Progress env t done s)
    (hon : 0 < env.retentionDays table)
    (hcutoff : daysBefore env.now (env.retentionDays table) = .ok cutoff) (hnew : table ∉ done) :
    Progress env t (done ++ [table])
      { s with
        working := s.working.trim table cutoff
        world := { s.world with
          deleted := Function.update s.world.deleted table (s.working.older table cutoff) }
        calls := s.calls + 1 } := by
  have hexpired : expired env table = isOlder cutoff := by
    funext row
    simp [expired, hon, hcutoff]
  have htable : s.working.audit table = t.audit table := by
    rw [h.trimmed table, if_neg hnew]
  refine ⟨h.healthy, h.committed, h.runs, fun other => ?_, fun other => ?_⟩
  · by_cases hother : other = table
    · subst hother
      simp [Tables.trim, htable, hexpired]
    · simp [Tables.trim, hother, h.trimmed other]
  · by_cases hother : other = table
    · subst hother
      simp [Tables.older, htable, hexpired]
    · simp [hother, h.counted other]

theorem contact_run {ε τ ω : Type} (env : Environment ε) (fatal : Bool) {s : Session τ ω}
    (h : s.failed = false) :
    (env.faultAt s.calls = none ∧
        contact env fatal s = (.ok (), { s with calls := s.calls + 1 })) ∨
      ∃ fault s', env.faultAt s.calls = some fault ∧
        contact env fatal s = (.error fault.error, s') ∧ s'.committed = s.committed ∧
        s'.calls = s.calls + 1 ∧ s'.world = s.world := by
  unfold contact
  rw [h]
  cases hfault : env.faultAt s.calls with
  | none => exact .inl ⟨rfl, rfl⟩
  | some fault =>
    refine .inr ⟨fault, _, rfl, rfl, ?_⟩
    cases fatal || fault.aborts <;> exact ⟨rfl, rfl, rfl⟩

theorem trimTable_run {done : List AuditTable} {s : Session Tables HousekeepingReport}
    (h : Progress env t done s) (table : AuditTable) (rest : List AuditTable)
    (hnew : table ∉ done) :
    (∃ s', trimTable env table s = (.ok (), s') ∧ Progress env t (done ++ [table]) s' ∧
        cutShort env s.calls done (table :: rest) =
          cutShort env s'.calls (done ++ [table]) rest) ∨
      ∃ n e s', trimTable env table s = (.error e, s') ∧ Broken env t done n s' ∧
        cutShort env s.calls done (table :: rest) = some (done, n) := by
  unfold trimTable
  rw [cutShort_cons]
  by_cases hon : 0 < env.retentionDays table
  · rw [if_pos hon, if_pos hon]
    cases hcutoff : daysBefore env.now (env.retentionDays table) with
    | error e => exact .inr ⟨s.calls, e, s, rfl, ⟨h.committed, rfl, h.counted⟩, rfl⟩
    | ok cutoff =>
      simp only [raising, deleteOlder, select, Call.andThen_eq_bind, Call.bind_pure_left,
        Call.bind_assoc]
      rcases contact_run env.db false h.healthy with
        ⟨hfault, hrun⟩ | ⟨fault, s', hfault, hrun, hcommitted, hcalls, hworld⟩
      · refine .inl ⟨_, Call.run_bind_ok hrun, h.trim hon hcutoff hnew, ?_⟩
        rw [hfault]
        rfl
      · refine .inr ⟨s.calls + 1, fault.error, s', Call.run_bind_error hrun, ?_, by simp [hfault]⟩
        exact ⟨hcommitted.trans h.committed, hcalls, by rw [hworld]; exact h.counted⟩
  · rw [if_neg hon, if_neg hon]
    exact .inl ⟨s, rfl, h.skip hon, rfl⟩

theorem sweepSessions_run {done : List AuditTable} {s : Session Tables HousekeepingReport}
    (h : Progress env t done s) :
    (∃ s', sweepSessions env s = (.ok (), s') ∧ Progress env t done s' ∧
        cutShort env s.calls done [] = none) ∨
      ∃ n e s', sweepSessions env s = (.error e, s') ∧ Broken env t done n s' ∧
        cutShort env s.calls done [] = some (done, n) := by
  simp only [sweepSessions, select, Call.andThen_eq_bind, Call.bind_assoc, cutShort]
  rcases contact_run env.db false h.healthy with
    ⟨hfault, hrun⟩ | ⟨fault, s', hfault, hrun, hcommitted, hcalls, hworld⟩
  · refine .inl ⟨_, Call.run_bind_ok hrun, ?_, by simp [hfault]⟩
    exact ⟨h.healthy, h.committed, h.runs, h.trimmed, h.counted⟩
  · refine .inr ⟨s.calls + 1, fault.error, s', Call.run_bind_error hrun, ?_, by simp [hfault]⟩
    exact ⟨hcommitted.trans h.committed, hcalls, by rw [hworld]; exact h.counted⟩

theorem trimAll_run (tables : List AuditTable) {done : List AuditTable}
    {s : Session Tables HousekeepingReport} (h : Progress env t done s)
    (hnodup : (done ++ tables).Nodup) :
    (∃ s', (Call.forEach (trimTable env) tables >>= fun _ => sweepSessions env) s = (.ok (), s') ∧
        Progress env t (done ++ tables) s' ∧ cutShort env s.calls done tables = none) ∨
      ∃ dealt n e s',
        (Call.forEach (trimTable env) tables >>= fun _ => sweepSessions env) s = (.error e, s') ∧
        Broken env t dealt n s' ∧ cutShort env s.calls done tables = some (dealt, n) := by
  induction tables generalizing done s with
  | nil =>
    rw [List.append_nil]
    rcases sweepSessions_run h with ⟨s', hrun, hprogress, hcut⟩ | ⟨n, e, s', hrun, hbroken, hcut⟩
    · exact .inl ⟨s', hrun, hprogress, hcut⟩
    · exact .inr ⟨done, n, e, s', hrun, hbroken, hcut⟩
  | cons table rest ih =>
    have hnew : table ∉ done := fun hmem =>
      (List.nodup_append.mp hnodup).2.2 _ hmem _ List.mem_cons_self rfl
    have hloop : (Call.forEach (trimTable env) (table :: rest) >>= fun _ => sweepSessions env) =
        trimTable env table >>= fun _ =>
          Call.forEach (trimTable env) rest >>= fun _ => sweepSessions env :=
      Call.bind_assoc _ _ _
    rw [hloop]
    rcases trimTable_run h table rest hnew with
      ⟨mid, hrun, hprogress, hcut⟩ | ⟨n, e, s', hrun, hbroken, hcut⟩
    · rw [Call.run_bind_ok hrun, hcut, List.append_cons]
      exact ih hprogress (by simpa using hnodup)
    · exact .inr ⟨done, n, e, s', Call.run_bind_error hrun, hbroken, hcut⟩

end Loop

/-! ### What the record says -/

section Record

variable {env : Env} {t : Tables}

/-- Every row that a run adds to the history counts what is gone for good. -/
def CountsTrue (before after : Tables) : Prop :=
  ∀ row ∈ after.runs.drop before.runs.length, ∀ table,
    row.deleted table = removed before after table

theorem removed_self (t : Tables) (table : AuditTable) : removed t t table = 0 := by
  simp [removed]

theorem countsTrue_self (t : Tables) : CountsTrue t t := by
  intro row hrow
  simp at hrow

theorem countsTrue_append {t after : Tables} {row : HousekeepingRun}
    (h : after.runs = t.runs ++ [row]) :
    CountsTrue t after ↔ ∀ table, row.deleted table = removed t after table := by
  simp [CountsTrue, h]

theorem commit_run (env : Env) {s : Session Tables HousekeepingReport} (h : s.failed = false) :
    ((env.db.faultAt s.calls).isSome = false ∧ commit env.db s =
        (.ok (), { s with committed := s.working, calls := s.calls + 1 })) ∨
      ∃ e s', (env.db.faultAt s.calls).isSome = true ∧ commit env.db s = (.error e, s') ∧
        s'.committed = s.committed := by
  simp only [commit, Call.andThen_eq_bind]
  rcases contact_run env.db true h with
    ⟨hfault, hrun⟩ | ⟨fault, s', hfault, hrun, hcommitted, -, -⟩
  · exact .inl ⟨by simp [hfault], Call.run_bind_ok hrun⟩
  · exact .inr ⟨fault.error, s', by simp [hfault], Call.run_bind_error hrun, hcommitted⟩

theorem counts_true_of_finished {s : Session Tables HousekeepingReport} (trigger : String)
    (h : Progress env t AuditTable.all s) :
    CountsTrue t ((recordRun env trigger none >>= fun _ => commit env.db) s).2.committed := by
  have hall : ∀ table, table ∈ AuditTable.all := by intro table; cases table <;> decide
  set mid : Session Tables HousekeepingReport :=
    { s with working := { s.working with
        runs := s.working.runs ++ [entry env trigger s.world none] } }
  show CountsTrue t (commit env.db mid).2.committed
  rcases commit_run env (s := mid) h.healthy with
    ⟨-, hrun⟩ | ⟨e, s', -, hrun, hcommitted⟩
  · have hruns : mid.working.runs = t.runs ++ [entry env trigger s.world none] := by
      rw [← h.runs]
    rw [hrun, countsTrue_append hruns]
    intro table
    have htable : mid.working.audit table = (t.audit table).erase (expired env table) :=
      (h.trimmed table).trans (if_pos (hall table))
    show s.world.deleted table = removed t mid.working table
    rw [h.counted table, if_pos (hall table), removed, htable]
    refine congrArg List.length (List.filter_congr fun row hmem => ?_)
    simp [KeyedTable.Table.erase, hmem]
  · rw [hrun, hcommitted]
    show CountsTrue t s.committed
    rw [h.committed]
    exact countsTrue_self t

/-- The session in which the record of a failure is committed. -/
def failing (env : Env) (trigger e : String) (s : Session Tables HousekeepingReport) :
    Session Tables HousekeepingReport :=
  { s.reverted with
    failed := false
    working := { s.committed with
      runs := s.committed.runs ++
        [entry env trigger s.world (some (String.ofList (e.toList.take 1024)))] } }

theorem failRun_run (trigger e : String) (s : Session Tables HousekeepingReport) :
    failRun env trigger e s =
      (commit env.db >>= fun _ => (Call.raise e : Service Unit)) (failing env trigger e s) :=
  rfl

/-- The record of a failure is that of the report: it is true if it is not committed, or if
    the report was still empty. -/
theorem counts_true_of_broken {dealt : List AuditTable} {n : Nat}
    {s : Session Tables HousekeepingReport} (trigger e : String) (h : Broken env t dealt n s) :
    (∃ e', (failRun env trigger e s).1 = .error e') ∧
      (CountsTrue t (failRun env trigger e s).2.committed ↔
        (env.db.faultAt n).isSome ∨
          ∀ table ∈ dealt, ∀ row ∈ t.audit table, expired env table row = false) := by
  have hcalls : (failing env trigger e s).calls = n := h.calls
  rw [failRun_run]
  rcases commit_run env (s := failing env trigger e s) rfl with
    ⟨hfault, hrun⟩ | ⟨e', s', hfault, hrun, hcommitted⟩
  · rw [hcalls] at hfault
    rw [Call.run_bind_ok hrun, hfault]
    refine ⟨⟨e, rfl⟩, ?_⟩
    have hruns : (failing env trigger e s).working.runs = t.runs ++
        [entry env trigger s.world (some (String.ofList (e.toList.take 1024)))] := by
      rw [← h.committed]
      rfl
    have hkept : ∀ table, removed t (failing env trigger e s).working table = 0 := by
      intro table
      rw [← removed_self t table, ← h.committed]
      rfl
    rw [Call.run_raise, countsTrue_append hruns]
    simp only [entry, hkept, h.counted, Bool.false_eq_true, false_or]
    refine forall_congr' fun table => ?_
    by_cases hmem : table ∈ dealt
    · simp [hmem, List.filter_eq_nil_iff, KeyedTable.Table.mem_def]
    · simp [hmem]
  · rw [hcalls] at hfault
    rw [Call.run_bind_error hrun, hcommitted]
    refine ⟨⟨e', rfl⟩, iff_of_true ?_ (.inl hfault)⟩
    show CountsTrue t s.committed
    rw [h.committed]
    exact countsTrue_self t

/-- **The counts of a run.**  They are those of the rows that are gone from the committed
    tables, unless a statement failed after one that deleted rows and the record of that
    failure was committed all the same. -/
theorem counts_true_iff (env : Env) (t : Tables) (trigger : String) (calls : Nat) :
    CountsTrue t (run env trigger (Session.opened t .empty calls)).2.committed ↔
      ∀ dealt n, cutShort env calls [] AuditTable.all = some (dealt, n) →
        (env.db.faultAt n).isSome ∨
          ∀ table ∈ dealt, ∀ row ∈ t.audit table, expired env table row = false := by
  have hstart : Progress env t [] (Session.opened t HousekeepingReport.empty calls) :=
    .start calls
  rcases trimAll_run AuditTable.all hstart (by decide) with
    ⟨mid, hrun, hprogress, hcut⟩ | ⟨dealt, n, e, mid, hrun, hbroken, hcut⟩
  · rw [show cutShort env calls [] AuditTable.all = none from hcut]
    refine iff_of_true ?_ (fun dealt n h => by cases h)
    have htry : Call.attempt (trimAll env) (failRun env trigger)
        (Session.opened t .empty calls) = (.ok (), mid) := by
      rw [Call.run_attempt, trimAll, hrun]
    have hfinal : (run env trigger (Session.opened t .empty calls)).2 =
        ((recordRun env trigger none >>= fun _ => commit env.db) mid).2 := by
      rw [run, Call.run_bind_ok htry, ← Call.bind_assoc]
      exact (within_rest (R := Eq) (fun _ => within_read (R := Eq) _) mid).symm
    rw [hfinal]
    exact counts_true_of_finished trigger hprogress
  · rw [show cutShort env calls [] AuditTable.all = some (dealt, n) from hcut]
    obtain ⟨⟨e', hraise⟩, hiff⟩ := counts_true_of_broken trigger e hbroken
    have htry : Call.attempt (trimAll env) (failRun env trigger)
        (Session.opened t .empty calls) = (.error e', (failRun env trigger e mid).2) := by
      rw [Call.run_attempt, trimAll, hrun]
      exact Call.run_of_outcome hraise
    rw [run, Call.run_bind_error htry, hiff]
    constructor
    · rintro hwhen dealt' n' ⟨⟩
      exact hwhen
    · intro hwhen
      exact hwhen dealt n rfl

/-! A rule evaluation is deleted; then the database is gone for one statement. -/

def staleTables : Tables where
  audit
    | .ruleEvaluations => ⟨[⟨"e1", seconds 0⟩], by decide⟩
    | _ => KeyedTable.Table.empty
  sessions := KeyedTable.Table.empty
  runs := []

/-- The fourth delete fails. -/
def flakyEnv : Env where
  db := ⟨fun n => if n = 3 then some ⟨"server closed the connection", false⟩ else none,
    "pending rollback", "missing greenlet"⟩
  retentionDays _ := 30
  now := seconds 8640000
  finishedAt := seconds 8640001

theorem flaky_run_counts_a_kept_row :
    ¬CountsTrue staleTables
      (run flakyEnv "scheduled" (Session.opened staleTables .empty 0)).2.committed := by
  have hruns : (run flakyEnv "scheduled" (Session.opened staleTables .empty 0)).2.committed.runs =
      staleTables.runs ++ [_] := rfl
  rw [countsTrue_append hruns]
  intro htrue
  have hcount := htrue .ruleEvaluations
  revert hcount
  decide +kernel

end Record

end Housekeeping
