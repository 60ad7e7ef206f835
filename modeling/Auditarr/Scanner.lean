/-
  Auditarr/Scanner.lean
  =====================
  **The scanner** (`app/services/media/scanner.py`).

  `scan` walks the directory of a library, classifies and probes every file, writes its
  media row, flags the rows of the library it did not touch as orphans, commits, and
  runs the rules over the library.  The walk, the `stat` calls and ffprobe are the
  environment's; they answer the same throughout a scan.

  A rollback on the way expires the run and the library, and the handler of the scan
  reads both: it raises in its turn, so a scan that returns was never rolled back.
  What a scan writes for display only (the times of rows, inodes, the raw probe, the
  last scan of the library) is left out, and so are the counts of a failed report.
-/
import Auditarr.RulesPass
import Auditarr.Ffprobe
import Auditarr.PosixPath

namespace Scanner

open Effects Transactions KeyedTable PyValues RuleSchema Database RulesService Ffprobe

/-! ### Classification (`app/services/media/classifier.py`) -/

def VIDEO_EXTS : List String :=
  ["mkv", "mp4", "m4v", "mov", "avi", "wmv", "ts", "m2ts", "mts", "vob", "iso", "webm", "ogv",
   "flv", "3gp", "rm", "rmvb", "mpg", "mpeg", "mxf", "asf", "divx", "f4v", "qt"]

def AUDIO_EXTS : List String :=
  ["mp3", "flac", "wav", "aac", "ogg", "oga", "opus", "m4a", "m4b", "wma", "ape", "alac", "aiff",
   "aif", "dsd", "dsf", "wv"]

def SUBTITLE_EXTS : List String :=
  ["srt", "ssa", "ass", "vtt", "sub", "idx", "sup", "smi", "stl"]

def IMAGE_EXTS : List String :=
  ["jpg", "jpeg", "png", "webp", "bmp", "gif", "tif", "tiff", "heic", "avif"]

def METADATA_EXTS : List String := ["nfo", "xml", "json", "yml", "yaml"]

def JUNK_EXTS : List String := ["db", "ini", "tmp", "part", "!ut", "crdownload", "ds_store", "lnk"]

def JUNK_FILENAMES : List String := [".ds_store", "thumbs.db", "desktop.ini", ".directory"]

/-- Apple Double resource forks. -/
def JUNK_PREFIXES : List String := ["._"]

structure ClassifyResult where
  category : String
  isVideo : Bool
  isAudio : Bool
deriving DecidableEq

/-- `_ext`: what follows the last dot. -/
def ext (name : String) : String :=
  match PosixPath.lastDot name.toList with
  | some (_, after) => String.ofList after
  | none => ""

/-- `classify`. -/
def classify (rt : PyRuntime) (filename : String) (hasVideoStream : Option Bool) :
    ClassifyResult :=
  let name := rt.lower (strip filename)
  if name ∈ JUNK_FILENAMES then ⟨"junk", false, false⟩
  else if JUNK_PREFIXES.any fun p => p.toList.isPrefixOf name.toList then ⟨"junk", false, false⟩
  else if ext name ∈ JUNK_EXTS then ⟨"junk", false, false⟩
  else if ext name ∈ SUBTITLE_EXTS then ⟨"subtitle", false, false⟩
  else if ext name ∈ IMAGE_EXTS then ⟨"image", false, false⟩
  else if ext name ∈ METADATA_EXTS then ⟨"metadata", false, false⟩
  else if ext name ∈ VIDEO_EXTS then ⟨"media", true, false⟩
  else if ext name ∈ AUDIO_EXTS then ⟨"media", false, true⟩
  else if hasVideoStream = some true then ⟨"media", true, false⟩
  else ⟨"unknown", false, false⟩

/-- `should_probe`. -/
def shouldProbe (rt : PyRuntime) (filename : String) : Bool :=
  (classify rt filename none).category = "media"

/-! ### The scope of VirusTotal lookups (`plugins/virustotal/backend.py`) -/

/-- `s.lstrip(".")`. -/
def lstripDots (s : String) : String := String.ofList (s.toList.dropWhile (· = '.'))

/-- The strings among some values. -/
def strings (values : List PyValue) : List String :=
  values.filterMap fun
    | .str s => some s
    | _ => none

/-- One list of the scope: an empty one allows everything, another one the values that
    are in it after normalization. -/
def allowedBy (options : PyValue) (key : String) (normalize : String → String) (value : String) :
    Except PyError Bool := do
  let allowed ← options.get key
  if !allowed.truthy then return true
  return decide (normalize value ∈ (strings (← allowed.iterate)).map normalize)

/-- The required tags of the scope are all on the file. -/
def carriesRequired (options : PyValue) (tags : List String) : Except PyError Bool := do
  let required ← options.get "vt_scan_required_tags"
  if !required.truthy then return true
  let fileTags := (tags.filter (· ≠ "")).map strip
  return (strings (← required.iterate)).all fun needed => strip needed ∈ fileTags

/-- `file_passes_vt_scan_scope`. -/
def filePassesVtScanScope (rt : PyRuntime) (extension category : String) (tags : List String)
    (vtOptions : Option PyValue) : Except PyError Bool :=
  match vtOptions with
  | none => .ok true
  | some options =>
      if !options.truthy then .ok true
      else do
        if !(← allowedBy options "vt_scan_extensions"
            (fun s => lstripDots (rt.lower (strip s))) extension) then return false
        if !(← allowedBy options "vt_scan_categories" (fun s => rt.lower (strip s)) category) then
          return false
        carriesRequired options tags

/-! ### The file tree -/

/-- `os.stat_result`. -/
structure Stat where
  mode : Nat
  size : Int
deriving DecidableEq

/-- `_is_regular_file`. -/
def isRegularFile (mode : Nat) : Bool := mode &&& 0o170000 = 0o100000

def isDirectory (mode : Nat) : Bool := mode &&& 0o170000 = 0o040000

/-- One step of `os.walk`: a directory and the names in it that are not directories.  A
    name that is not valid UTF-8 is `none`. -/
structure WalkStep where
  dirpath : Option String
  filenames : List (Option String)

/-- Everything a scan reads besides the database. -/
structure ScanEnv extends Env where
  /-- `os.walk(root, followlinks=…)`. -/
  walk : String → Bool → List WalkStep
  /-- `Path(path).stat()`, which follows links; `none` is an `OSError`. -/
  stat : String → Option Stat
  /-- The JSON document ffprobe prints for a file; `none` if it fails. -/
  ffprobe : String → Option PyValue
  /-- What is stored when a value other than a string is bound to a text column. -/
  bindText : PyValue → Except DatabaseError String
  /-- More than `HEARTBEAT_SECONDS` have passed since the last progress event. -/
  heartbeat : Nat → Bool
  /-- `str(exc)`. -/
  errorText : ServiceError → String

structure ScanOptions where
  mode : String
  followSymlinks : Bool
  maxFiles : Option Int
  runRules : Bool
deriving DecidableEq

def ScanOptions.default : ScanOptions := ⟨"full", false, none, true⟩

/-- An entry of the list `_enumerate` returns. -/
structure Found where
  relative : String
  path : PosixPath
  stat : Stat

def Found.str (file : Found) : String := String.ofList file.path.render

def Found.filename (file : Found) : String := String.ofList file.path.name

/-- `abs_path.suffix.lstrip(".").lower()`. -/
def Found.extension (rt : PyRuntime) (file : Found) : String :=
  rt.lower (lstripDots (String.ofList file.path.suffix))

/-- `str(path.relative_to(root))`. -/
def relativeTo (path root : PosixPath) : Except ServiceError String :=
  if path.root = root.root ∧ root.parts <+: path.parts then
    .ok (String.ofList
      (PosixPath.render ⟨.none, path.parts.drop root.parts.length,
        fun part hpart => path.plain part (List.mem_of_mem_drop hpart)⟩))
  else .error (.python .valueError)

section Enumerate

variable (env : ScanEnv)

/-- One name of the walk: skipped if it cannot be read, is no regular file or cannot be
    stored as text. -/
def enumerateName (root : PosixPath) (dirpath filename : Option String) :
    Except ServiceError (Option Found) :=
  match dirpath, filename with
  | some dir, some name =>
      let path := (PosixPath.parse dir.toList).join name.toList
      match env.stat (String.ofList path.render) with
      | none => .ok none
      | some st =>
          if isRegularFile st.mode then do
            let relative ← relativeTo path root
            return some ⟨relative, path, st⟩
          else .ok none
  | _, _ => .ok none

/-- The names of some directories one after another. -/
def enumerateNames (root : PosixPath) :
    List (Option String × Option String) → Except ServiceError (List Found)
  | [] => .ok []
  | (dirpath, filename) :: rest => do
      let found ← enumerateName env root dirpath filename
      let others ← enumerateNames root rest
      return found.toList ++ others

/-- `_enumerate`. -/
def enumerate (rootPath : String) (followSymlinks : Bool) : Except ServiceError (List Found) :=
  let root := PosixPath.parse rootPath.toList
  let text := String.ofList root.render
  match env.stat text with
  | none => .error (.osError s!"library root does not exist: {text}")
  | some st =>
      if !isDirectory st.mode then .error (.osError s!"library root is not a directory: {text}")
      else enumerateNames env root
        ((env.walk text followSymlinks).flatMap fun step =>
          step.filenames.map fun filename => (step.dirpath, filename))

end Enumerate

/-! ### Media rows -/

/-- The result of a probe that failed. -/
def FAILED_PROBE : FfprobeResult where
  container := none
  durationSeconds := none
  bitrateKbps := none
  width := none
  height := none
  framerate := none
  videoCodec := none
  audioCodec := none
  subtitleCodec := none
  ok := false
  hasSubtitles := false
  subtitleLanguages := []
  audioLanguages := []

/-- `languages or None`. -/
def orNull (languages : List String) : Option (List String) :=
  if languages.isEmpty then none else some languages

section Rows

variable (env : ScanEnv)

/-- `FfprobeService.probe`. -/
def probe (path : String) : Except PyError FfprobeResult :=
  match env.ffprobe path with
  | some payload => parseFfprobe env.rt payload
  | none => .ok FAILED_PROBE

/-- The probe of a file whose category asks for one. -/
def probeFile (file : Found) : Except PyError (Option FfprobeResult) :=
  if (classify env.rt file.filename none).category = "media" ∧
      shouldProbe env.rt file.filename = true then
    (probe env file.str).map some
  else .ok none

/-- A codec as the column stores it. -/
def codecText : Option PyValue → Except DatabaseError (Option String)
  | none => .ok none
  | some (.str s) => .ok (some s)
  | some value => (env.bindText value).map some

/-- The row before the probe.  Its id is drawn when it is inserted. -/
def plainRow (libraryId runId : String) (file : Found) : MediaFile where
  id := ""
  libraryId := libraryId
  path := file.str
  relativePath := file.relative
  filename := file.filename
  extension := file.extension env.rt
  sizeBytes := file.stat.size
  category := (classify env.rt file.filename none).category
  severity := .ok
  severityRank := 10
  container := none
  durationSeconds := none
  bitrateKbps := none
  videoCodec := none
  audioCodec := none
  subtitleCodec := none
  width := none
  height := none
  framerate := none
  hasSubtitles := false
  subtitleLanguages := none
  audioLanguages := none
  probeFailed := false
  lastScanId := some runId
  isOrphaned := false
  hashSha256 := none
  vtStatus := none

/-- The columns a probe fills in. -/
def withProbe (m : MediaFile) : Option FfprobeResult → Except DatabaseError MediaFile
  | none => .ok m
  | some result =>
      if result.ok then do
        let videoCodec ← codecText env result.videoCodec
        let audioCodec ← codecText env result.audioCodec
        let subtitleCodec ← codecText env result.subtitleCodec
        return { m with
          container := result.container
          durationSeconds := result.durationSeconds
          bitrateKbps := result.bitrateKbps
          videoCodec := videoCodec
          audioCodec := audioCodec
          subtitleCodec := subtitleCodec
          width := result.width
          height := result.height
          framerate := result.framerate
          hasSubtitles := result.hasSubtitles
          subtitleLanguages := orNull result.subtitleLanguages
          audioLanguages := orNull result.audioLanguages }
      else .ok { m with probeFailed := true }

/-- The severity and rank of a new file under a disposition. -/
def initialSeverity : Option Disposition → Severity × Nat
  | some .malicious => (.crit, 5)
  | some .accepted => (.ok, 0)
  | some .statsOnly => (.info, 1)
  | some .ignore | none => (.ok, 10)

/-- `_build_media_file` with the severity of the disposition.  An error is that of the
    flush the row is sent with. -/
def buildMediaFile (libraryId runId : String) (disposition : Option Disposition) (file : Found)
    (result : Option FfprobeResult) : Except DatabaseError MediaFile := do
  let m ← withProbe env (plainRow env libraryId runId file) result
  return { m with
    severity := (initialSeverity disposition).1
    severityRank := (initialSeverity disposition).2 }

/-- The columns `upsert_by_path` copies to a row that exists. -/
def refreshed (mf existing : MediaFile) : MediaFile :=
  { mf with
    id := existing.id
    path := existing.path
    severity := existing.severity
    severityRank := existing.severityRank
    hashSha256 := existing.hashSha256
    vtStatus := existing.vtStatus }

end Rows

/-- The changes of `mark_orphans`: a comparison with `NULL` is not true. -/
def untouched (libraryId runId : String) (m : MediaFile) : Bool :=
  m.libraryId = libraryId && m.lastScanId.any (· ≠ runId) && !m.isOrphaned

def markedOrphans (libraryId runId : String) (t : Tables) : Tables :=
  t.updateMedia (untouched libraryId runId) (fun m => { m with isOrphaned := true }) (fun _ => rfl)
    fun _ => rfl

/-- The update of the row with the id. -/
def refreshRow (mf : MediaFile) (id : String) (t : Tables) : Tables :=
  t.updateMedia (fun m => m.id = id) (refreshed mf) (fun _ => rfl) fun _ => rfl

/-! ### The scan -/

/-- `load_disposition_map`. -/
def dispositionMap (t : Tables) (extension : String) : Option Disposition :=
  ((t.extensionRules.find? extension).filter (·.enabled)).map (·.disposition)

/-- The options under `config["options"]`, if that is a dictionary. -/
def optionsOf (config : PyValue) : Option PyValue :=
  match config.orDict with
  | .dict entries => match entries.lookup "options" with
    | some (.dict options) => some (.dict options)
    | _ => none
  | _ => none

/-- The options of the first enabled VirusTotal integration; `none` without one. -/
def vtOptions (t : Tables) : Option (Option PyValue) :=
  (t.integrations.rows.find? fun i => i.kind = "virustotal" && i.enabled).map
    fun i => optionsOf i.config

/-- What stays the same while the files are gone through. -/
structure ScanContext where
  libraryId : String
  runId : String
  vt : Option (Option PyValue)
  dispositions : String → Option Disposition
  filesTotalEstimate : Nat

def PROGRESS_EVERY : Nat := 25

inductive ScanReport where
  | completed (runId : String) (counts : ScanCounts)
  | failed (runId error : String)
deriving DecidableEq

section Scan

variable (env : ScanEnv)

def raising {α : Type} : Except ServiceError α → Service α
  | .ok a => pure a
  | .error e => Call.raise e

/-- The insert of a new row. -/
def insertMedia (m : MediaFile) : Service Unit := do
  let fits ← Call.read fun s => (s.working.addMedia m).isSome
  if fits then do
    edit fun t => (t.addMedia m).getD t
    flush env.db
  else refused env.db (.database .integrity)

/-- `MediaRepository.upsert_by_path`. -/
def upsertByPath (path : String) (row : Except DatabaseError MediaFile) : Service MediaFile := do
  let existing ← select env.db (·.mediaAt path)
  match row, existing with
  | .error e, _ => refused env.db (.database e)
  | .ok mf, none => do
      let id ← Call.read fun s => env.newId s.calls
      insertMedia env { mf with id := id }
      return { mf with id := id }
  | .ok mf, some old => do
      edit (refreshRow mf old.id)
      flush env.db
      return refreshed mf old

/-- The VirusTotal step of the loop.  `MediaTag` has no column `tag`, which is what the
    query for the tags names. -/
def enqueueSaved (vt : Option (Option PyValue)) (saved : MediaFile) : Service Unit :=
  match vt with
  | none => pure ()
  | some options => do
      let _ ← load env.db saved.id
      Call.when (saved.hashSha256.isSome && saved.vtStatus.isNone) do
        let required ← raising
          (((options.getD (.dict [])).get "vt_scan_required_tags").mapError .python)
        Call.when required.truthy (Call.raise (.python (.other "AttributeError")))
        let inScope ← raising
          ((filePassesVtScanScope env.rt saved.extension saved.category [] options).mapError .python)
        Call.when inScope do
          let _ ← enqueueForVtLookup env.toEnv saved.id
          pure ()

def emitProgress (context : ScanContext) (filesSeen : Nat) : Service Unit := do
  let runId ← load env.db context.runId
  let libraryId ← load env.db context.libraryId
  emit (.scanProgress runId libraryId filesSeen context.filesTotalEstimate)

/-- The body of the loop for a file that is not ignored. -/
def indexFile (context : ScanContext) (disposition : Option Disposition) (counts : ScanCounts)
    (file : Found) : Service ScanCounts := do
  let result ← raising ((probeFile env file).mapError .python)
  let runId ← load env.db context.runId
  let libraryId ← load env.db context.libraryId
  let preExisting ← select env.db (·.mediaAt file.str)
  let saved ← upsertByPath env file.str
    (buildMediaFile env libraryId runId disposition file result)
  Call.when preExisting.isNone (emit (.mediaAdded saved.id saved.path))
  enqueueSaved env context.vt saved
  let due ← Call.read fun s => counts.filesSeen % PROGRESS_EVERY = 0 || env.heartbeat s.calls
  Call.when due (emitProgress env context counts.filesSeen)
  return { counts with
    filesAdded := counts.filesAdded + if preExisting.isNone then 1 else 0
    filesUpdated := counts.filesUpdated + if preExisting.isNone then 0 else 1
    probeFailures := counts.probeFailures + if result.any (!·.ok) then 1 else 0 }

/-- `max_files is not None and seen > max_files`. -/
def exceeds (maxFiles : Option Int) (seen : Nat) : Bool :=
  maxFiles.any fun limit => decide (limit < (seen : Int))

/-- The loop over the files found.  A file beyond `max_files` is counted and ends it. -/
def indexFiles (context : ScanContext) (maxFiles : Option Int) :
    ScanCounts → List Found → Service ScanCounts
  | counts, [] => pure counts
  | counts, file :: rest =>
      let counts := { counts with filesSeen := counts.filesSeen + 1 }
      if exceeds maxFiles counts.filesSeen then pure counts
      else match context.dispositions (file.extension env.rt) with
        | some .ignore => indexFiles context maxFiles counts rest
        | disposition => do
            let counts ← indexFile env context disposition counts file
            indexFiles context maxFiles counts rest

def markOrphans (libraryId runId : String) : Service Nat := do
  let marked ← select env.db fun t => (t.media.rows.filter (untouched libraryId runId)).length
  edit (markedOrphans libraryId runId)
  return marked

/-- The rules over the library, if the scan runs them; a failure is rolled back. -/
def runRules (options : ScanOptions) (libraryId : String) : Service Nat :=
  if !options.runRules then pure 0
  else Call.attempt
    (do let libraryId ← load env.db libraryId
        let evaluated ← evaluateLibrary env.toEnv libraryId []
        commit env.db
        return evaluated)
    fun _ => do
      let _ ← load env.db libraryId
      rollback
      return 0

/-- A new run, or the queued one turned to running. -/
def startRun (library : Library) (options : ScanOptions) : Option ScanRun → Service ScanRun
  | none => do
      let id ← Call.read fun s => env.newId s.calls
      let now ← utcnow env.toEnv
      let run : ScanRun :=
        { id := id, libraryId := library.id, mode := options.mode, status := .running,
          createdAt := now, startedAt := some now, finishedAt := none, counts := .zero,
          error := none }
      edit (·.putScanRun run)
      flush env.db
      return run
  | some queued => do
      let now ← utcnow env.toEnv
      let run := { queued with status := .running, startedAt := some now }
      edit (·.putScanRun run)
      return run

/-- The files up to the commit of what was found. -/
def indexLibrary (library : Library) (options : ScanOptions) (run : ScanRun)
    (vt : Option (Option PyValue)) (dispositions : String → Option Disposition) :
    Service ScanCounts := do
  let found ← raising (enumerate env library.rootPath options.followSymlinks)
  let context : ScanContext := ⟨library.id, run.id, vt, dispositions, found.length⟩
  emitProgress env context 0
  let counts ← indexFiles env context options.maxFiles .zero found
  emitProgress env context counts.filesSeen
  let runId ← load env.db run.id
  let libraryId ← load env.db library.id
  let orphaned ← markOrphans env libraryId runId
  let now ← utcnow env.toEnv
  let counts := { counts with filesOrphaned := orphaned }
  edit (·.putScanRun { run with status := .completed, finishedAt := some now, counts := counts })
  commit env.db
  return counts

/-- The `try` of a scan. -/
def scanLibrary (library : Library) (options : ScanOptions) (run : ScanRun)
    (vt : Option (Option PyValue)) (dispositions : String → Option Disposition) :
    Service ScanReport := do
  let counts ← indexLibrary env library options run vt dispositions
  let filesEvaluated ← runRules env options library.id
  let runId ← load env.db run.id
  let libraryId ← load env.db library.id
  emit (.scanCompleted runId libraryId counts filesEvaluated)
  return .completed runId counts

/-- Its `except`. -/
def failScan (library : Library) (run : ScanRun) (e : ServiceError) : Service ScanReport := do
  let libraryId ← load env.db library.id
  let now ← utcnow env.toEnv
  let text := env.errorText e
  edit (·.putScanRun
    { run with status := .failed, finishedAt := some now,
               error := some (String.ofList (text.toList.take 2000)) })
  commit env.db
  emit (.scanFailed run.id libraryId text)
  return .failed run.id text

/-- `Scanner.scan`. -/
def scan (library : Library) (options : ScanOptions) (queued : Option ScanRun) :
    Service ScanReport := do
  let run ← startRun env library options queued
  commit env.db
  emit (.scanStarted run.id library.id options.mode)
  let vt ← select env.db vtOptions
  let dispositions ← select env.db dispositionMap
  Call.attempt (scanLibrary env library options run vt dispositions) (failScan env library run)

end Scan

/-! ### A small instance -/

/-- A directory with one file, which ffprobe cannot read. -/
def oneFileEnv : ScanEnv where
  toEnv := calmEnv
  walk root _ := if root = "/media" then [⟨some "/media", [some "a.avi"]⟩] else []
  stat path :=
    if path = "/media" then some ⟨0o040755, 0⟩
    else if path = "/media/a.avi" then some ⟨0o100644, 700⟩
    else none
  ffprobe _ := none
  bindText _ := .error (.operational "expected str")
  heartbeat _ := false
  errorText _ := "failed"

def mediaLibrary : Library := ⟨"l1", "/media", by decide⟩

/-- The file has a row from an earlier scan, and its extension a disposition. -/
def scannedTables (disposition : Disposition) : Tables :=
  { Tables.empty with
    libraries := ⟨[mediaLibrary], by decide⟩
    media := ⟨[{ MediaFile.unprobed "f1" "l1" "/media/a.avi" "avi" with lastScanId := some "r0" }],
      by decide⟩
    media_path_unique := by decide
    extensionRules := ⟨[⟨"avi", disposition, true⟩], List.nodup_singleton _⟩ }

end Scanner
