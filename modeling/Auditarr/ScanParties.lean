/-
  Auditarr/ScanParties.lean
  =========================
  **Who starts, runs and gives up scans** (`trigger_scan`, `trigger_scan_all` and
  `reset_library_scans` in `app/api/v1/scans.py`, `scan_library` and `reap_stale_scans` in
  `app/worker.py`, `_run_scan_library` in `app/automation/jobs.py`).

  Each party takes one step after the other; a step reads, or commits what the party has
  changed, in the tables as the others have left them.  A scan is cut after each file that it
  indexes and after each file that its rules are evaluated for, whether it commits there or
  not: the scans that are interrupted at their commits alone are among these.  So there are
  more runs here than the code has, and what is shown of all of them holds of its runs; where
  a run is given as an example, the others step in after commits only.

  The parties ask for the status of a run before they decide to write one, and write it
  without asking again.
-/
import Auditarr.ScanIndex
import Auditarr.Runs

namespace ScanParties

open Effects Transactions KeyedTable RuleSchema Database RulesService Scanner Runs

/-! ### Requests and jobs -/

structure ScanTriggerRequest where
  mode : String
  followSymlinks : Bool

def ScanTriggerRequest.options (body : ScanTriggerRequest) : ScanOptions :=
  { ScanOptions.default with mode := body.mode, followSymlinks := body.followSymlinks }

/-- A job `scan_library` for the worker. -/
structure Job where
  jobId : String
  libraryId : String
  body : ScanTriggerRequest
  runId : Option String

/-- Which of the two endpoints asks: `trigger_scan` hands the id of its run to the worker,
    `trigger_scan_all` does not. -/
structure Ask where
  carriesId : Bool
  body : ScanTriggerRequest

def Ask.job (ask : Ask) (run : ScanRun) : Job where
  jobId := "scan_library:" ++ run.id
  libraryId := run.libraryId
  body := ask.body
  runId := if ask.carriesId then some run.id else none

/-- How far a scan has come after its first commit. -/
inductive Phase where
  | opened
  | indexing (context : ScanContext) (counts : ScanCounts) (files : List Found)
  /-- All files are indexed. -/
  | sweeping (counts : ScanCounts)
  /-- An exception is to be recorded. -/
  | failing (e : ServiceError)
  /-- The scan is recorded as completed, and its rules have not been looked at. -/
  | judging
  | judgingEach (rules : List (Rule × RuleDefinition)) (files : List MediaFile)

/-- How far a party has come. -/
inductive Party where
  /-- `trigger_scan_all`, before it lists the libraries. -/
  | listing (body : ScanTriggerRequest)
  /-- An endpoint, before it looks at the libraries that are left; with the runs it will make. -/
  | asking (ask : Ask) (libraries : List String) (created : List ScanRun)
  /-- An endpoint that has committed its runs and enqueues their jobs; with the runs that the
      queue did not take, as they were loaded and as they are to be. -/
  | enqueuing (ask : Ask) (runs : List ScanRun) (refused : List (ScanRun × ScanRun))
  /-- `trigger_scan` without the queue. -/
  | askingNow (libraryId : String) (body : ScanTriggerRequest)
  /-- `_run_scan_library`. -/
  | fetching (libraryId : String) (body : ScanTriggerRequest)
  /-- A job on the queue. -/
  | waiting (job : Job)
  /-- `Scanner.scan` before its first commit. -/
  | starting (job : Option Job) (library : Library) (options : ScanOptions)
      (queued : Option ScanRun)
  | scanning (job : Option Job) (library : Library) (options : ScanOptions) (run : ScanRun)
      (phase : Phase)
  /-- `reset_library_scans`, before it looks for runs. -/
  | resetting (libraryId : String)
  /-- `reap_stale_scans`, before it looks for runs. -/
  | reaping
  /-- One of these two, with the runs it has found. -/
  | freeing (stuck : List (ScanRun × ScanRun))
  | ended

def Party.isEnded : Party → Bool
  | .ended => true
  | _ => false

/-- The job that a party does. -/
def Party.job : Party → Option Job
  | .waiting job => some job
  | .starting job _ _ _ => job
  | .scanning job _ _ _ _ => job
  | _ => none

/-- What is called. -/
inductive Request where
  | triggerScan (libraryId : String) (body : ScanTriggerRequest) (enqueue : Bool)
  | triggerScanAll (body : ScanTriggerRequest)
  | runScanLibrary (libraryId : String) (body : ScanTriggerRequest)
  | resetLibraryScans (libraryId : String)
  | reapStaleScans

def Request.party : Request → Party
  | .triggerScan libraryId body true => .asking ⟨true, body⟩ [libraryId] []
  | .triggerScan libraryId body false => .askingNow libraryId body
  | .triggerScanAll body => .listing body
  | .runScanLibrary libraryId body => .fetching libraryId body
  | .resetLibraryScans libraryId => .resetting libraryId
  | .reapStaleScans => .reaping

/-! ### Rows of runs -/

def statusOf (t : Tables) (runId : String) : Option ScanStatus :=
  (t.scanRuns.find? runId).map ScanRun.status

/-- A queued or a running run. -/
def ScanStatus.active : ScanStatus → Bool
  | .queued | .running => true
  | .completed | .failed => false

def statusText : ScanStatus → String
  | .queued => "queued"
  | .running => "running"
  | .completed => "completed"
  | .failed => "failed"

/-- `find_active_for_library` finds a run. -/
def hasActive (t : Tables) (libraryId : String) : Bool :=
  t.scanRuns.rows.any fun run => run.libraryId = libraryId && ScanStatus.active run.status

/-- A column of a loaded row that was changed is written, whatever the row has become. -/
def column {α : Type} [DecidableEq α] (loaded changed row : α) : α :=
  if changed = loaded then row else changed

/-- The columns that a party changed are written. -/
def writeBack (loaded changed row : ScanRun) : ScanRun :=
  { row with
    status := column loaded.status changed.status row.status
    startedAt := column loaded.startedAt changed.startedAt row.startedAt
    finishedAt := column loaded.finishedAt changed.finishedAt row.finishedAt
    counts :=
      { filesSeen := column loaded.counts.filesSeen changed.counts.filesSeen row.counts.filesSeen
        filesAdded :=
          column loaded.counts.filesAdded changed.counts.filesAdded row.counts.filesAdded
        filesUpdated :=
          column loaded.counts.filesUpdated changed.counts.filesUpdated row.counts.filesUpdated
        filesOrphaned :=
          column loaded.counts.filesOrphaned changed.counts.filesOrphaned row.counts.filesOrphaned
        probeFailures :=
          column loaded.counts.probeFailures changed.counts.probeFailures row.counts.probeFailures }
    error := column loaded.error changed.error row.error }

/-- The commit of a loaded run. -/
def writeRun (loaded changed : ScanRun) (t : Tables) : Tables :=
  match t.scanRuns.find? loaded.id with
  | none => t
  | some row => t.putScanRun (writeBack loaded changed row)

/-- The commit of some. -/
def writeRuns (changes : List (ScanRun × ScanRun)) (t : Tables) : Tables :=
  changes.foldl (fun t change => writeRun change.1 change.2 t) t

/-- The commit of new runs; `none` if there is a run with the id. -/
def insertRuns : List ScanRun → Tables → Option Tables
  | [], t => some t
  | run :: rest, t =>
      if (t.scanRuns.find? run.id).isSome then none else insertRuns rest (t.putScanRun run)

/-! ### The steps -/

/-- What surrounds a party when it is its turn: which libraries are enabled, and what is
    raised when a job is to be put on the queue (`none` if a job with its id is there). -/
structure Moment where
  env : ScanEnv
  world : Outside
  calls : Nat
  enabled : String → Bool
  queueError : Option String

def Moment.now (m : Moment) : Nat := m.env.clock m.calls

def Moment.newId (m : Moment) : String := m.env.newId m.calls

def Moment.session (m : Moment) (t : Tables) : Session Tables Outside :=
  .opened t m.world m.calls

section Steps

variable (m : Moment)

/-- The library is there and enabled and has no active run. -/
def isFree (t : Tables) (libraryId : String) : Bool :=
  (t.libraries.find? libraryId).isSome && m.enabled libraryId && !hasActive t libraryId

/-- The run that an endpoint makes. -/
def queuedRun (libraryId : String) (body : ScanTriggerRequest) : ScanRun where
  id := m.newId
  libraryId := libraryId
  mode := body.mode
  status := .queued
  createdAt := m.now
  startedAt := none
  finishedAt := none
  counts := .zero
  error := none

/-- The run of a job that the queue did not take. -/
def refusedRun (ask : Ask) (run : ScanRun) : ScanRun :=
  { run with
    status := .failed
    finishedAt := some m.now
    error := some (match m.queueError with
      | some text => "queue unavailable: " ++ text
      | none =>
          if ask.carriesId then
            "ARQ refused to enqueue this scan because a job with the same id is already on " ++
              "the queue. This usually means a prior worker crashed without clearing its " ++
              "in-flight jobs. Restart the worker or wait for the stale-scan reaper to clean " ++
              "up the queued row."
          else
            "ARQ refused to enqueue: a job with the same id is already on the queue. Likely a " ++
              "stale job from a prior worker crash. Restart the worker or wait for the reaper.") }

/-- The run that a scan makes for itself. -/
def newRun (library : Library) (options : ScanOptions) : ScanRun where
  id := m.newId
  libraryId := library.id
  mode := options.mode
  status := .running
  createdAt := m.now
  startedAt := some m.now
  finishedAt := none
  counts := .zero
  error := none

/-- The queued run turned to running. -/
def startedRun (queued : ScanRun) : ScanRun :=
  { queued with status := .running, startedAt := some m.now }

def completedRun (run : ScanRun) (counts : ScanCounts) : ScanRun :=
  { run with status := .completed, finishedAt := some m.now, counts := counts }

def failedRun (run : ScanRun) (e : ServiceError) : ScanRun :=
  { run with
    status := .failed, finishedAt := some m.now,
    error := some (String.ofList ((m.env.errorText e).toList.take 2000)) }

/-- A run that an operator has given up. -/
def resetRun (run : ScanRun) : ScanRun :=
  { run with
    status := .failed
    finishedAt := some m.now
    error := some (s!"Manually reset by operator (was '{statusText run.status}'). Use this when " ++
      "a scan is stuck because the worker died mid-run; the library is now free for new scans.") }

def STALE_THRESHOLD_SECONDS : Nat := 3600

/-- The time since when a run is stuck. -/
def stuckSince (run : ScanRun) : Nat := run.startedAt.getD run.createdAt

def isStale (run : ScanRun) : Bool :=
  ScanStatus.active run.status && decide (stuckSince run + STALE_THRESHOLD_SECONDS < m.now)

/-- A run that the reaper has given up. -/
def reapedRun (run : ScanRun) : ScanRun :=
  { run with
    status := .failed
    finishedAt := some m.now
    error := some (s!"Reaped by stale-scan watchdog: row was stuck at '{statusText run.status}' " ++
      s!"for {m.now - stuckSince run}s (threshold {STALE_THRESHOLD_SECONDS}s). The worker " ++
      "likely crashed mid-scan; check journalctl for OOM-killer or SIGKILL events around that " ++
      "time. The library is now unblocked for new scans.") }

/-- A scan that goes on in its session, or is over because that was rolled back.  The tables
    after the step hold what the session has flushed, also where it has not committed yet:
    unless the next step is the scan's own, this is an order of steps that the code lacks. -/
def proceed {α : Type} (onward : Except ServiceError α → Phase)
    (outcome : Except ServiceError α × Session Tables Outside) : Option Phase × Tables :=
  if outcome.2.failed || outcome.2.expired then (none, outcome.2.committed)
  else (some (onward outcome.1), outcome.2.working)

theorem proceed_eq_some {α : Type} {onward : Except ServiceError α → Phase}
    {outcome : Except ServiceError α × Session Tables Outside} {phase' : Phase} {t' : Tables}
    (h : proceed onward outcome = (some phase', t')) :
    phase' = onward outcome.1 ∧ t' = outcome.2.working := by
  unfold proceed at h
  split at h
  · cases h
  · cases h
    exact ⟨rfl, rfl⟩

/-- The loop after a file; what is raised over the file ends it. -/
def onward (context : ScanContext) (rest : List Found) : Except ServiceError ScanCounts → Phase
  | .ok counts => .indexing context counts rest
  | .error e => .failing e

/-- One file of the loop. -/
def indexTurn (options : ScanOptions) (context : ScanContext) (counts : ScanCounts) (file : Found)
    (rest : List Found) (t : Tables) : Option Phase × Tables :=
  let counts := { counts with filesSeen := counts.filesSeen + 1 }
  if exceeds options.maxFiles counts.filesSeen then (some (.sweeping counts), t)
  else match context.dispositions (file.extension m.env.rt) with
    | some .ignore => (some (.indexing context counts rest), t)
    | disposition => proceed (onward context rest)
        (indexFile m.env context disposition counts file (m.session t))

/-- The rules of one file; what is raised ends the pass, and the scan with it. -/
def judgeTurn (rules : List (Rule × RuleDefinition)) (file : MediaFile) (rest : List MediaFile)
    (t : Tables) : Option Phase × Tables :=
  match evaluateFile m.env.toEnv file rules true (m.session t) with
  | (.ok _, s) =>
      if s.failed || s.expired then (none, s.committed)
      else (some (.judgingEach rules rest), s.working)
  | (.error _, s) => (none, s.committed)

/-- The counts of the rules, and the commit of the pass. -/
def trackRules : Service Unit := do
  let rules ← select m.env.db enabledRules
  let now ← utcnow m.env.toEnv
  Call.forEach (fun rule : Rule => trackRule m.env.toEnv now rule.id fun t =>
    min PAGE_LIMIT (t.evaluations.rows.filter fun e => e.ruleId = rule.id).length) rules
  commit m.env.db

/-- One step of a scan: the phase after it, if the scan goes on. -/
def scanTurn (library : Library) (options : ScanOptions) (run : ScanRun) (t : Tables) :
    Phase → Option Phase × Tables
  | .opened => match enumerate m.env library.rootPath options.followSymlinks with
    | .error e => (some (.failing e), t)
    | .ok files => (some (.indexing ⟨library.id, run.id, vtOptions t, dispositionMap t, files.length⟩
        .zero files), t)
  | .indexing context counts (file :: rest) => indexTurn m options context counts file rest t
  | .indexing _ counts [] => (some (.sweeping counts), t)
  | .sweeping counts =>
      let orphaned := (t.media.rows.filter (untouched library.id run.id)).length
      (some .judging, writeRun run (completedRun m run { counts with filesOrphaned := orphaned })
        (markedOrphans library.id run.id t))
  | .failing e => (none, writeRun run (failedRun m run e) t)
  | .judging =>
      if options.runRules then (some (.judgingEach (loadEnabled t) (listMedia t library.id [])), t)
      else (none, t)
  | .judgingEach rules (file :: rest) => judgeTurn m rules file rest t
  | .judgingEach _ [] => (none, (trackRules m (m.session t)).2.committed)

/-- One step of a party: where it is then, and the tables.  A job that an endpoint has next is
    refused. -/
def advance (t : Tables) : Party → Party × Tables
  | .listing body => (.asking ⟨false, body⟩ (t.libraries.rows.map (·.id)) [], t)
  | .asking ask (libraryId :: rest) created =>
      if isFree m t libraryId then
        (.asking ask rest (created ++ [queuedRun m libraryId ask.body]), t)
      else (.asking ask rest created, t)
  | .asking ask [] created => match insertRuns created t with
    | none => (.ended, t)
    | some t' => (.enqueuing ask created [], t')
  | .enqueuing ask (run :: rest) refused =>
      (.enqueuing ask rest (refused ++ [(run, refusedRun m ask run)]), t)
  | .enqueuing _ [] refused => (.ended, writeRuns refused t)
  | .askingNow libraryId body => match t.libraries.find? libraryId with
    | none => (.ended, t)
    | some library =>
        if isFree m t libraryId then (.starting none library body.options none, t) else (.ended, t)
  | .fetching libraryId body => match t.libraries.find? libraryId with
    | none => (.ended, t)
    | some library => (.starting none library body.options none, t)
  | .waiting job => match t.libraries.find? job.libraryId with
    | none => (.ended, t)
    | some library => match job.runId.bind t.scanRuns.find? with
      | none => (.starting (some job) library job.body.options none, t)
      | some run =>
          if run.status = .queued then (.starting (some job) library job.body.options (some run), t)
          else (.ended, t)
  | .starting job library options none => match insertRuns [newRun m library options] t with
    | none => (.ended, t)
    | some t' => (.scanning job library options (newRun m library options) .opened, t')
  | .starting job library options (some queued) =>
      (.scanning job library options (startedRun m queued) .opened,
        writeRun queued (startedRun m queued) t)
  | .scanning job library options run phase => match scanTurn m library options run t phase with
    | (none, t') => (.ended, t')
    | (some phase', t') => (.scanning job library options run phase', t')
  | .resetting libraryId => (.freeing ((t.scanRuns.rows.filter fun run =>
      run.libraryId = libraryId && ScanStatus.active run.status).map fun run =>
        (run, resetRun m run)), t)
  | .reaping => (.freeing ((t.scanRuns.rows.filter (isStale m)).map fun run =>
      (run, reapedRun m run)), t)
  | .freeing stuck => (.ended, writeRuns stuck t)
  | .ended => (.ended, t)

end Steps

structure System where
  tables : Tables
  parties : Nat → Party

/-- A call, the next step of a party, its death, or its next job on the queue, where it waits
    as a party of its own. -/
inductive Step where
  | call (p : Nat) (request : Request)
  | turn (p : Nat) (m : Moment)
  | enqueue (p slot : Nat)
  | die (p : Nat)

/-- The system after a step; a party that has ended may be used again. -/
def next (s : System) : Step → System
  | .call p request =>
      if (s.parties p).isEnded then { s with parties := Function.update s.parties p request.party }
      else s
  | .turn p m =>
      ⟨(advance m s.tables (s.parties p)).2,
        Function.update s.parties p (advance m s.tables (s.parties p)).1⟩
  | .enqueue p slot => match s.parties p with
    | .enqueuing ask (run :: rest) refused =>
        if (s.parties slot).isEnded then
          { s with
            parties := Function.update (Function.update s.parties p (.enqueuing ask rest refused))
              slot (.waiting (ask.job run)) }
        else s
    | _ => s
  | .die p => { s with parties := Function.update s.parties p .ended }

theorem turn_self (s : System) (p : Nat) (m : Moment) :
    (next s (.turn p m)).parties p = (advance m s.tables (s.parties p)).1 :=
  Function.update_self ..

theorem turn_other (s : System) {p q : Nat} (m : Moment) (h : q ≠ p) :
    (next s (.turn p m)).parties q = s.parties q :=
  Function.update_of_ne h ..

/-- The parties that take part in a step. -/
def Step.who : Step → List Nat
  | .call p _ | .turn p _ | .die p => [p]
  | .enqueue p slot => [p, slot]

theorem party_of_not_who {s : System} {step : Step} {q : Nat} (h : q ∉ step.who) :
    (next s step).parties q = s.parties q := by
  cases step with
  | call p request =>
    simp only [next]
    split
    · exact Function.update_of_ne (fun heq => h (List.mem_singleton.mpr heq)) _ _
    · rfl
  | turn p m => exact turn_other s m fun heq => h (List.mem_singleton.mpr heq)
  | enqueue p slot =>
    simp only [Step.who, List.mem_cons, List.not_mem_nil, or_false, not_or] at h
    simp only [next]
    split
    · split
      · simp only [Function.update_of_ne h.2, Function.update_of_ne h.1]
      · rfl
    · rfl
  | die p => exact Function.update_of_ne (fun heq => h (List.mem_singleton.mpr heq)) _ _

theorem enqueue_takes {s : System} {p slot : Nat} {ask : Ask} {run : ScanRun} {rest : List ScanRun}
    {refused : List (ScanRun × ScanRun)} (hparty : s.parties p = .enqueuing ask (run :: rest) refused)
    (hended : (s.parties slot).isEnded = true) :
    (next s (.enqueue p slot)).tables = s.tables ∧
      ∀ q, (next s (.enqueue p slot)).parties q = if q = slot then .waiting (ask.job run)
        else if q = p then .enqueuing ask rest refused else s.parties q := by
  constructor
  · simp only [next, hparty, hended, if_true]
  · intro q
    simp only [next, hparty, hended, if_true, Function.update_apply]

theorem enqueue_cases (s : System) (p slot : Nat) :
    next s (.enqueue p slot) = s ∨ ∃ ask run rest refused,
      s.parties p = .enqueuing ask (run :: rest) refused ∧ (s.parties slot).isEnded = true := by
  cases hparty : s.parties p with
  | enqueuing ask runs refused =>
    cases runs with
    | nil => exact .inl (by simp only [next, hparty])
    | cons run rest =>
      cases hended : (s.parties slot).isEnded with
      | false => exact .inl (by simp only [next, hparty, hended, Bool.false_eq_true, if_false])
      | true => exact .inr ⟨ask, run, rest, refused, rfl, rfl⟩
  | _ => exact .inl (by simp only [next, hparty])

/-! ### Every party comes to its end -/

/-- How far a scan is from its end: its phase, and the files it has before it. -/
def Phase.rank : Phase → Nat × Nat
  | .opened => (6, 0)
  | .indexing _ _ files => (5, files.length)
  | .sweeping _ => (4, 0)
  | .failing _ => (3, 0)
  | .judging => (2, 0)
  | .judgingEach _ files => (1, files.length)

/-- How far a party is from its end. -/
def Party.rank : Party → Nat × Nat
  | .listing _ => (10, 0)
  | .asking _ libraries _ => (9, libraries.length)
  | .enqueuing _ runs _ => (8, runs.length)
  | .askingNow _ _ | .fetching _ _ | .waiting _ => (8, 0)
  | .starting _ _ _ _ => (7, 0)
  | .scanning _ _ _ _ phase => phase.rank
  | .resetting _ | .reaping => (2, 0)
  | .freeing _ => (1, 0)
  | .ended => (0, 0)

/-- The order of the ranks. -/
abbrev Nearer : Nat × Nat → Nat × Nat → Prop := Prod.Lex (· < ·) (· < ·)

theorem rank_indexTurn {m : Moment} {options : ScanOptions} {context : ScanContext}
    {counts : ScanCounts} {file : Found} {rest : List Found} {t t' : Tables} {phase' : Phase}
    (h : indexTurn m options context counts file rest t = (some phase', t')) :
    Nearer phase'.rank (5, rest.length + 1) := by
  have hnext : ∀ counts, Nearer (Phase.indexing context counts rest).rank (5, rest.length + 1) :=
    fun _ => .right _ (Nat.lt_succ_self _)
  have honward : ∀ outcome : Except ServiceError ScanCounts,
      Nearer (onward context rest outcome).rank (5, rest.length + 1) := by
    intro outcome
    cases outcome with
    | error e => exact .left _ _ (by simp)
    | ok counts => exact hnext counts
  unfold indexTurn at h
  simp only at h
  split at h
  · cases h
    exact .left _ _ (by decide)
  · split at h
    · cases h
      exact hnext _
    · obtain ⟨rfl, -⟩ := proceed_eq_some h
      exact honward _

theorem rank_judgeTurn {m : Moment} {rules : List (Rule × RuleDefinition)} {file : MediaFile}
    {rest : List MediaFile} {t t' : Tables} {phase' : Phase}
    (h : judgeTurn m rules file rest t = (some phase', t')) :
    Nearer phase'.rank (1, rest.length + 1) := by
  unfold judgeTurn at h
  split at h
  · split at h
    · cases h
    · cases h
      exact .right _ (Nat.lt_succ_self _)
  · cases h

theorem rank_scanTurn {m : Moment} {library : Library} {options : ScanOptions} {run : ScanRun}
    {t t' : Tables} {phase phase' : Phase}
    (h : scanTurn m library options run t phase = (some phase', t')) :
    Nearer phase'.rank phase.rank := by
  cases phase with
  | opened =>
    simp only [scanTurn] at h
    split at h
    · cases h
      exact .left _ _ (by decide)
    · cases h
      exact .left _ _ (by simp)
  | indexing context counts files =>
    cases files with
    | nil =>
      cases h
      exact .left _ _ (by decide)
    | cons file rest => exact rank_indexTurn h
  | sweeping counts =>
    cases h
    exact .left _ _ (by decide)
  | failing e => cases h
  | judging =>
    simp only [scanTurn] at h
    split at h
    · cases h
      exact .left _ _ (by simp)
    · cases h
  | judgingEach rules files =>
    cases files with
    | nil => cases h
    | cons file rest => exact rank_judgeTurn h

theorem rank_ended (phase : Phase) : Nearer Party.ended.rank phase.rank := by
  cases phase <;> exact .left _ _ (by simp)

theorem rank_advance (m : Moment) (t : Tables) {party : Party} (h : party.isEnded = false) :
    Nearer (advance m t party).1.rank party.rank := by
  cases party with
  | listing body => exact .left _ _ (by decide)
  | asking ask libraries created =>
    cases libraries with
    | nil =>
      simp only [advance]
      split <;> exact .left _ _ (by simp)
    | cons libraryId rest =>
      simp only [advance]
      split <;> exact .right _ (Nat.lt_succ_self _)
  | enqueuing ask runs refused =>
    cases runs with
    | nil => exact .left _ _ (by simp)
    | cons run rest => exact .right _ (Nat.lt_succ_self _)
  | askingNow libraryId body =>
    simp only [advance]
    split
    · exact .left _ _ (by simp)
    · split <;> exact .left _ _ (by simp)
  | fetching libraryId body =>
    simp only [advance]
    split <;> exact .left _ _ (by simp)
  | waiting job =>
    simp only [advance]
    split
    · exact .left _ _ (by simp)
    · split
      · exact .left _ _ (by simp)
      · split <;> exact .left _ _ (by simp)
  | starting job library options queued =>
    cases queued with
    | none =>
      simp only [advance]
      split <;> exact .left _ _ (by simp)
    | some run => exact .left _ _ (by simp)
  | scanning job library options run phase =>
    rcases hturn : scanTurn m library options run t phase with ⟨_ | phase', t'⟩
    · have hstep : advance m t (.scanning job library options run phase) = (.ended, t') := by
        simp only [advance, hturn]
      rw [hstep]
      exact rank_ended phase
    · have hstep : advance m t (.scanning job library options run phase) =
          (.scanning job library options run phase', t') := by
        simp only [advance, hturn]
      rw [hstep]
      exact rank_scanTurn hturn
  | resetting libraryId => exact .left _ _ (by simp)
  | reaping => exact .left _ _ (by simp)
  | freeing stuck => exact .left _ _ (by simp)
  | ended => cases h

/-- So many turns of a party, one after the other. -/
def turns (p : Nat) (m : Nat → Moment) (n : Nat) : List Step :=
  (List.range n).map fun k => .turn p (m k)

theorem turns_succ (p : Nat) (m : Nat → Moment) (n : Nat) :
    turns p m (n + 1) = .turn p (m 0) :: turns p (fun k => m (k + 1)) n := by
  rw [turns, List.range_succ_eq_map, List.map_cons, List.map_map]
  rfl

theorem ends_by_turns (p : Nat) (m : Nat → Moment) (s : System) :
    ∃ n, ((final next s (turns p m n)).parties p).isEnded = true := by
  cases hended : (s.parties p).isEnded with
  | true => exact ⟨0, hended⟩
  | false =>
    have hnearer : Nearer ((next s (.turn p (m 0))).parties p).rank (s.parties p).rank := by
      rw [turn_self]
      exact rank_advance (m 0) s.tables hended
    obtain ⟨n, hn⟩ := ends_by_turns p (fun k => m (k + 1)) (next s (.turn p (m 0)))
    refine ⟨n + 1, ?_⟩
    rw [turns_succ]
    exact hn
termination_by (s.parties p).rank
decreasing_by exact hnearer

/-- Nobody is at work yet. -/
def atRest (t : Tables) : System := ⟨t, fun _ => .ended⟩

end ScanParties
