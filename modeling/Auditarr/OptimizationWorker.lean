/-
  Auditarr/OptimizationWorker.lean
  ================================
  **The optimization worker** (`app/optimization/worker.py`,
  `app/optimization/ffmpeg_runner.py`).

  The worker holds one loaded queue item, which it changes in place and writes back
  with each commit, and it works on the disk, here the contents of the regular
  files.  Every disk the worker or ffmpeg leaves behind is kept, so that what is
  lost halfway is seen.

  The environment decides what the worker does not: which of its file-system calls
  raise `OSError`, what ffmpeg writes to its output file and how it exits, what
  ffprobe finds in a file, and what the integration providers answer.
-/
import Auditarr.Database
import Auditarr.Effects
import Auditarr.PosixPath

namespace OptimizationWorker

open Effects KeyedTable PyValues ProfileSchema Database

abbrev Bytes := List UInt8

/-- The contents of the regular files. -/
abbrev Disk := PosixPath → Option Bytes

def pathOf (text : String) : PosixPath := .parse text.toList

def pathText (p : PosixPath) : String := String.ofList p.render

/-- A call of the file system that changes it. -/
inductive FsCall where
  | replace (src dst : PosixPath)
  | unlink (path : PosixPath)

/-- An exception: an `OSError`, or any other. -/
inductive Failure where
  | osError (text : String)
  | other (text : String)
deriving DecidableEq

/-- `str(exc)`. -/
def Failure.text : Failure → String
  | osError text => text
  | other text => text

inductive ReportStatus where
  | idle | completed | failed | skipped | routed
deriving DecidableEq, Repr

structure WorkerReport where
  itemId : String
  status : ReportStatus
  detail : String
deriving DecidableEq

structure TranscodeRequest where
  inputPath : PosixPath
  outputPath : PosixPath
  profile : ProfileDefinition
  inputDurationSeconds : Option PyFloat

/-- A run of ffmpeg: the contents its output file takes one after the other, and how
    it ends. -/
structure Transcode where
  written : List (Option Bytes)
  returnCode : Int
  stderrTail : String
  lastProgressPct : Nat

structure ProbeResult where
  ok : Bool
  error : Option String
  videoCodec : Option String
  durationSeconds : Option PyFloat

structure TranscodeJobSpec where
  itemId : String
  inputPath : String
  profile : ProfileDefinition

inductive SubmitStatus where
  | accepted | rejected | error
deriving DecidableEq

structure JobSubmitResult where
  status : SubmitStatus
  upstreamJobId : Option String
  detail : Option String

structure Provider where
  /-- `submit_transcode_job`, for a provider that has it; the exception as text. -/
  submitTranscodeJob : Option (TranscodeJobSpec → Except String JobSubmitResult)

structure IntegrationManager where
  providerFor : String → Option Provider
  /-- `build_config`, which raises for secrets that cannot be decrypted. -/
  buildConfig : Integration → Except String Unit

structure Env where
  now : Nat
  hourIn : String → Nat
  /-- `repr` of a string. -/
  repr : String → String
  /-- `f"{x:.3f}"`. -/
  fixed3 : PyFloat → String
  /-- What `model_validate` says of the settings of a profile. -/
  invalidSettings : String → String
  inProcessRunnerEnabled : Bool
  integrationManager : Option IntegrationManager
  /-- The `OSError` that the so-many-th call raises. -/
  fault : Nat → FsCall → Option String
  /-- ffmpeg, after so many calls, on this disk; the exception of a process that
      cannot be started as text. -/
  ffmpeg : Nat → Disk → TranscodeRequest → Except String Transcode
  probe : PosixPath → Bytes → Option ProbeResult

structure Host where
  tables : Tables
  /-- The loaded queue item. -/
  item : OptimizationItem
  disk : Disk
  /-- Every disk since the item was loaded, oldest first. -/
  states : List Disk
  /-- Calls of the file system made so far. -/
  calls : Nat

def Host.withDisk (h : Host) (disk : Disk) : Host :=
  { h with disk := disk, states := h.states ++ [disk] }

abbrev Worker := Call Host Failure

section Worker

variable (env : Env)

/-! ### The item -/

def edit (change : OptimizationItem → OptimizationItem) : Worker Unit :=
  Call.modify fun h => { h with item := change h.item }

def commit : Worker Unit := Call.modify fun h => { h with tables := h.tables.putItem h.item }

/-- The last step of a run: the item takes its new columns, and they are committed. -/
def conclude (status : ReportStatus) (detail : String)
    (change : OptimizationItem → OptimizationItem) : Worker WorkerReport := do
  edit change
  commit
  Call.read fun h => ⟨h.item.id, status, detail⟩

/-- `_complete`. -/
def complete (detail : String) : Worker WorkerReport :=
  conclude .completed detail fun item =>
    { item with status := .completed, finishedAt := some env.now, progressPct := 100 }

/-- `_fail`. -/
def fail (detail : String) : Worker WorkerReport :=
  conclude .failed detail fun item =>
    { item with status := .failed, finishedAt := some env.now, error := some detail }

/-- `_skip`. -/
def skip (detail : String) : Worker WorkerReport :=
  conclude .skipped detail fun item =>
    { item with status := .skipped, finishedAt := some env.now, error := some detail }

/-- Back to the queue: neither a failure nor a result. -/
def requeue (detail : String) : Worker WorkerReport :=
  conclude .skipped detail fun item =>
    { item with status := .queued, startedAt := none, progressPct := 0 }

/-- `f"{hour:02d}:00"`. -/
def hourText (hour : Nat) : String :=
  (if hour < 10 then "0" else "") ++ toString hour ++ ":00"

/-- `_release_for_schedule`. -/
def releaseForSchedule (window : Option ScheduleWindow) : Worker WorkerReport :=
  requeue (match window with
    | some w => "outside schedule window " ++ hourText w.startHour ++ ".." ++
        hourText w.endHour ++ " (" ++ w.timezone ++ ")"
    | none => "outside schedule window")

/-! ### Routing to a provider -/

def editMetadata (change : ItemMetadata → ItemMetadata) : Worker Unit :=
  edit fun item => { item with itemMetadata := change item.itemMetadata }

/-- `x or default` of a text that may be `None`. -/
def orText (text : Option String) (default : String) : String :=
  match text with
  | some s => if s = "" then default else s
  | none => default

/-- A text that may be `None` inside an f-string. -/
def optionText (text : Option String) : String := text.getD "None"

/-- The part of `_route_to_provider` from the provider's answer on. -/
def recordSubmission (integration : Integration) (result : JobSubmitResult) :
    Worker WorkerReport :=
  match result.status with
  | .accepted => do
      editMetadata fun metadata =>
        { metadata with
          upstreamJobId := result.upstreamJobId
          integrationId := some integration.id
          integrationName := some integration.name
          routedDetail := if orText result.detail "" = "" then metadata.routedDetail
            else result.detail }
      conclude .routed ("submitted to " ++ integration.name ++ " as " ++
          optionText result.upstreamJobId)
        fun item => { item with status := .routed }
  | .rejected =>
      fail env (env.repr integration.kind ++ " provider rejected job: " ++
        orText result.detail "(no detail)")
  | .error =>
      requeue ("transient error from " ++ integration.kind ++ " provider: " ++
        orText result.detail "(no detail)" ++ " — re-queued for next tick")

/-- `_route_to_provider`. -/
def routeToProvider (media : MediaFile) (row : OptimizationProfile) (profile : ProfileDefinition) :
    Worker WorkerReport := do
  let target := profile.routingTarget.kind
  editMetadata fun metadata =>
    { metadata with routingTarget := some target, routedAt := some env.now }
  match env.integrationManager with
  | none =>
      conclude .routed ("routed to " ++ target ++
          " (integration manager not provided to worker; provider not called)")
        fun item => { item with status := .routed }
  | some manager => do
      let itemProfile ← Call.read fun h => h.item.profile
      match row.optimizationIntegrationId.filter (· ≠ "") with
      | none =>
          fail env ("profile " ++ env.repr itemProfile ++ " has routing_target=" ++
            env.repr target ++ " but no integration is configured " ++
            "(optimization_integration_id is empty). Pick one in the profile editor.")
      | some integrationId => do
          let found ← Call.read fun h => h.tables.integrations.find? integrationId
          match found with
          | none =>
              fail env ("profile " ++ env.repr itemProfile ++ " references integration id " ++
                env.repr integrationId ++ " which no longer exists")
          | some integration =>
              if integration.kind ≠ target then
                fail env ("profile " ++ env.repr itemProfile ++ " expected routing_target=" ++
                  env.repr target ++ " but the configured integration is kind=" ++
                  env.repr integration.kind)
              else match manager.providerFor integration.kind with
                | none =>
                    fail env ("no provider registered for integration kind " ++
                      env.repr integration.kind)
                | some provider => match provider.submitTranscodeJob with
                  | none =>
                      fail env ("provider " ++ env.repr integration.kind ++
                        " does not support submit_transcode_job (Stage 08 contract); switch " ++
                        "this profile's routing_target to 'in_process' " ++
                        "or to a provider that supports hand-off.")
                  | some submit => match manager.buildConfig integration with
                    | .error text => Call.raise (.other text)
                    | .ok _ => do
                        let itemId ← Call.read fun h => h.item.id
                        match submit ⟨itemId, media.path, profile⟩ with
                        | .error text => requeue ("provider crashed during submit: " ++ text)
                        | .ok result => recordSubmission env integration result

/-! ### The disk -/

/-- `os.replace(src, dst)`. -/
def osReplace (src dst : PosixPath) : Worker Unit := fun h =>
  match h.disk src with
  | none => (.error (.osError ("[Errno 2] No such file or directory: " ++
      env.repr (pathText src) ++ " -> " ++ env.repr (pathText dst))), h)
  | some bytes => match env.fault h.calls (.replace src dst) with
    | some text => (.error (.osError text), { h with calls := h.calls + 1 })
    | none => (.ok (), { h with calls := h.calls + 1 }.withDisk
        (Function.update (Function.update h.disk src none) dst (some bytes)))

/-- `path.unlink(missing_ok=missing_ok)`. -/
def unlink (path : PosixPath) (missingOk : Bool) : Worker Unit := fun h =>
  match h.disk path with
  | none => if missingOk then (.ok (), h)
      else (.error (.osError ("[Errno 2] No such file or directory: " ++
        env.repr (pathText path))), h)
  | some _ => match env.fault h.calls (.unlink path) with
    | some text => (.error (.osError text), { h with calls := h.calls + 1 })
    | none => (.ok (), { h with calls := h.calls + 1 }.withDisk
        (Function.update h.disk path none))

/-- `try: path.unlink(missing_ok=True)` / `except OSError: pass`. -/
def discardOutput (path : PosixPath) : Worker Unit :=
  Call.attempt (unlink env path true) fun
    | .osError _ => pure ()
    | exc => Call.raise exc

/-- The output file takes one content after the other. -/
def writeOutput (path : PosixPath) : List (Option Bytes) → Worker Unit :=
  Call.forEach fun content =>
    Call.modify fun h => h.withDisk (Function.update h.disk path content)

/-! ### ffmpeg and ffprobe -/

/-- `TranscodeResult`, as far as the worker reads it. -/
structure TranscodeResult where
  success : Bool
  returnCode : Int
  stderrTail : String

/-- `run_transcode`, with the progress that the worker's callback puts on the item. -/
def runTranscode (request : TranscodeRequest) : Worker TranscodeResult := do
  let run ← Call.read fun h => env.ffmpeg h.calls h.disk request
  match run with
  | .error text => Call.raise (.other text)
  | .ok run => do
      writeOutput request.outputPath run.written
      let written ← Call.read fun h => (h.disk request.outputPath).isSome
      let success := decide (run.returnCode = 0) && written
      edit fun item => { item with progressPct := if success then 100 else run.lastProgressPct }
      pure ⟨success, run.returnCode, run.stderrTail⟩

/-- `_duration_within_tolerance`: `none` on pass, the message on fail. -/
def durationWithinTolerance (actual expected : PyFloat) : Option String :=
  let delta := (actual.sub expected).abs
  -- 0.02 as a double
  let relTolerance := match roundDouble (2 / 100) with
    | some factor => expected.scale factor
    | none => expected
  if delta.le relTolerance || delta.le (.finite (1 / 2)) then none
  else some ("output duration " ++ env.fixed3 actual ++ "s differs from input " ++
    env.fixed3 expected ++ "s (delta " ++ env.fixed3 delta ++ "s; " ++
    "tolerance: 2% relative or 0.5s absolute, whichever is larger)")

/-- `validate_output`: the reason for which the output is refused. -/
def validateOutput (disk : Disk) (outputPath : PosixPath) (expected : Option PyFloat) :
    Option String :=
  match disk outputPath with
  | none => some "output file missing"
  | some bytes =>
      if bytes.length = 0 then some "output file is empty"
      else match env.probe outputPath bytes with
        | none => some "ffprobe failed"
        | some probe =>
            if !probe.ok then some (orText probe.error "ffprobe failed")
            else if orText probe.videoCodec "" = "" then some "output has no video stream"
            else if PyFloat.truthy? expected && PyFloat.truthy? probe.durationSeconds then
              match probe.durationSeconds, expected with
              | some actual, some expected => durationWithinTolerance env actual expected
              | _, _ => none
            else none

/-! ### The swap -/

def bakSuffix : List Char := ".bak".toList

/-- The suffix of the temporary output. -/
def tmpSuffix (profile : ProfileDefinition) : List Char :=
  (".auditarr.tmp." ++ profile.output.container.extension).toList

/-- The suffix of the file that takes the original's place. -/
def finalSuffix (profile : ProfileDefinition) : List Char :=
  ("." ++ profile.output.container.extension).toList

/-- `path.with_suffix(suffix)`. -/
def withSuffix (path : PosixPath) (suffix : List Char) : Worker PosixPath :=
  match path.withSuffix suffix with
  | some result => pure result
  | none => Call.raise (.other ("PosixPath(" ++ env.repr (pathText path) ++ ") has an empty name"))

/-- The first half of `_swap`: the original leaves its path. -/
def setAside (inputPath : PosixPath) (profile : ProfileDefinition) : Worker Unit :=
  if profile.output.keepBackup then do
    let backupPath ← withSuffix env inputPath (inputPath.suffix ++ bakSuffix)
    osReplace env inputPath backupPath
    edit fun item => { item with backupPath := some (pathText backupPath) }
  else do
    unlink env inputPath false
    edit fun item => { item with backupPath := none }

/-- `_swap`. -/
def swap (inputPath tmpOutput : PosixPath) (profile : ProfileDefinition) : Worker Unit := do
  setAside env inputPath profile
  let finalPath ← withSuffix env inputPath (finalSuffix profile)
  osReplace env tmpOutput finalPath
  editMetadata fun metadata => { metadata with finalPath := some (pathText finalPath) }

/-- `try: await self._swap(…)` / `except OSError as exc`, with `str(exc)`. -/
def trySwap (inputPath tmpOutput : PosixPath) (profile : ProfileDefinition) :
    Worker (Option String) :=
  Call.attempt (do swap env inputPath tmpOutput profile; pure none) fun
    | .osError text => pure (some text)
    | exc => Call.raise exc

/-- The end of `_run_claimed`, on an output that was validated. -/
def replaceInput (inputPath tmpOutput : PosixPath) (inputSize outputSize : Nat)
    (profile : ProfileDefinition) : Worker WorkerReport := do
  edit fun item => { item with optimizedSizeBytes := some outputSize }
  if !profile.output.replaceInput then do
    editMetadata fun metadata => { metadata with outputPath := some (pathText tmpOutput) }
    complete env "transcode succeeded (no swap)"
  else do
    let raised ← trySwap env inputPath tmpOutput profile
    match raised with
    | some text => do
        discardOutput env tmpOutput
        fail env ("swap failed: " ++ text)
    | none =>
        complete env ("transcode succeeded; " ++ toString inputSize ++ " → " ++
          toString outputSize ++ " bytes")

/-- `text[-500:]`. -/
def last500 (text : String) : String := String.ofList (text.toList.drop (text.length - 500))

/-- `_run_claimed` from the construction of the paths on. -/
def transcodeInput (inputPath : PosixPath) (inputSize : Nat) (media : MediaFile)
    (profile : ProfileDefinition) : Worker WorkerReport := do
  let tmpOutput ← withSuffix env inputPath (tmpSuffix profile)
  let result ← runTranscode env ⟨inputPath, tmpOutput, profile, media.durationSeconds⟩
  if !result.success then do
    discardOutput env tmpOutput
    fail env ("ffmpeg failed (rc=" ++ toString result.returnCode ++ "): " ++
      last500 result.stderrTail)
  else do
    let output ← Call.read fun h =>
      (validateOutput env h.disk tmpOutput media.durationSeconds, h.disk tmpOutput)
    match output with
    | (some reason, _) => do
        discardOutput env tmpOutput
        fail env ("output validation failed: " ++ reason)
    | (none, none) => Call.raise (.osError ("[Errno 2] No such file or directory: " ++
        env.repr (pathText tmpOutput)))
    | (none, some bytes) =>
        replaceInput env inputPath tmpOutput inputSize bytes.length profile

/-! ### One item -/

/-- `row.max_input_bytes and size > row.max_input_bytes`. -/
def tooLarge (row : OptimizationProfile) (size : Nat) : Bool :=
  match row.maxInputBytes with
  | some limit => limit ≠ 0 && decide (limit < size)
  | none => false

/-- `skip_if_bitrate_below_kbps and bitrate_kbps and bitrate_kbps < …`. -/
def bitrateBelow (profile : ProfileDefinition) (media : MediaFile) : Bool :=
  match profile.skipIfBitrateBelowKbps, media.bitrateKbps with
  | some limit, some bitrate => limit ≠ 0 && bitrate ≠ 0 && decide (bitrate < limit)
  | _, _ => false

/-- `_run_claimed` from the pre-flight checks on. -/
def runInProcess (media : MediaFile) (row : OptimizationProfile) (profile : ProfileDefinition) :
    Worker WorkerReport := do
  let inputPath := pathOf media.path
  let input ← Call.read fun h => h.disk inputPath
  match input with
  | none => fail env ("input file missing: " ++ pathText inputPath)
  | some bytes => do
      edit fun item => { item with originalSizeBytes := some bytes.length }
      if tooLarge row bytes.length then
        skip env ("input size " ++ toString bytes.length ++ " exceeds profile max_input_bytes (" ++
          toString (row.maxInputBytes.getD 0) ++ ")")
      else if bitrateBelow profile media then
        skip env ("input bitrate " ++ toString (media.bitrateKbps.getD 0) ++ "kbps is below " ++
          "skip_if_bitrate_below_kbps=" ++ toString (profile.skipIfBitrateBelowKbps.getD 0))
      else transcodeInput env inputPath bytes.length media profile

/-- `_run_claimed`. -/
def runClaimed : Worker WorkerReport := do
  let item ← Call.read Host.item
  let t ← Call.read Host.tables
  match t.media.find? item.mediaFileId with
  | none => fail env "media file no longer exists"
  | some media => match t.profiles.find? item.profile with
    | none => fail env ("profile " ++ env.repr item.profile ++ " not found")
    | some row =>
        if !row.enabled then skip env "profile is disabled"
        else match row.settings with
          | none => fail env ("profile " ++ env.repr item.profile ++ " has invalid settings: " ++
              env.invalidSettings row.name)
          | some profile =>
              if !scheduleWindowIsOpen env.hourIn profile.scheduleWindow then
                releaseForSchedule profile.scheduleWindow
              else if profile.routingTarget ≠ .inProcess then
                routeToProvider env media row profile
              else if !env.inProcessRunnerEnabled then
                fail env ("in-process runner disabled; reconfigure the " ++
                  "profile to route to plex/jellyfin/tdarr")
              else runInProcess env media row profile

/-- `run_one` and `run_item` once the item is claimed. -/
def execute : Worker WorkerReport :=
  Call.attempt (runClaimed env) fun exc => do
    let _ ← fail env (String.ofList (("worker crashed: " ++ exc.text).toList.take 2000))
    Call.read fun h => ⟨h.item.id, .failed, exc.text⟩

end Worker

end OptimizationWorker
