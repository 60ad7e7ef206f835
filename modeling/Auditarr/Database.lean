/-
  Auditarr/Database.lean
  ======================
  **The tables** (`app/models`).

  One structure per model class, with the columns the modelled services read or
  write, and `Tables` for the database they make up.  A unique constraint of the
  schema is part of the type of its table.  Timestamps are seconds.

  A stored rule document is kept as what `RuleDefinition.model_validate` makes of
  it, `none` for a document that does not validate; profile settings likewise.
-/
import Auditarr.KeyedTable
import Auditarr.RuleSchema
import Auditarr.ProfileSchema

namespace Database

open KeyedTable PyValues RuleSchema ProfileSchema

structure MediaFile where
  id : String
  libraryId : String
  path : String
  relativePath : String
  filename : String
  extension : String
  sizeBytes : Int
  category : String
  severity : Severity
  severityRank : Nat
  container : Option String
  durationSeconds : Option PyFloat
  bitrateKbps : Option Int
  videoCodec : Option String
  audioCodec : Option String
  subtitleCodec : Option String
  width : Option Int
  height : Option Int
  framerate : Option PyFloat
  hasSubtitles : Bool
  subtitleLanguages : Option (List String)
  audioLanguages : Option (List String)
  probeFailed : Bool
  lastScanId : Option String
  isOrphaned : Bool
  hashSha256 : Option String
  vtStatus : Option String
deriving DecidableEq

/-- A row as first inserted for a file that is not probed. -/
def MediaFile.unprobed (id libraryId path extension : String) : MediaFile where
  id := id
  libraryId := libraryId
  path := path
  relativePath := path
  filename := path
  extension := extension
  sizeBytes := 0
  category := "unknown"
  severity := .ok
  severityRank := 10
  container := none
  durationSeconds := none
  bitrateKbps := none
  videoCodec := none
  audioCodec := none
  subtitleCodec := none
  width := none
  height := none
  framerate := none
  hasSubtitles := false
  subtitleLanguages := none
  audioLanguages := none
  probeFailed := false
  lastScanId := none
  isOrphaned := false
  hashSha256 := none
  vtStatus := none

structure MediaTag where
  mediaFileId : String
  name : String
  source : String
deriving DecidableEq

structure Rule where
  id : String
  name : String
  enabled : Bool
  priority : Int
  definition : Option RuleDefinition
  lastEvaluatedAt : Option Nat
  lastMatchCount : Nat

/-- The `actions_summary` of an evaluation row. -/
structure ActionsSummary where
  addTags : List String
  queueOptimizations : List String
  notifications : List (String × Option String)
deriving DecidableEq

structure RuleEvaluation where
  mediaFileId : String
  ruleId : String
  severity : Severity
  severityRank : Nat
  actionsSummary : ActionsSummary
  evaluatedAt : Nat
deriving DecidableEq

inductive ItemStatus where
  | queued | running | routed | completed | failed | cancelled | skipped
deriving DecidableEq, Repr

/-- The entries of `item_metadata` the worker writes. -/
structure ItemMetadata where
  outputPath : Option String
  finalPath : Option String
  routingTarget : Option String
  routedAt : Option Nat
  upstreamJobId : Option String
  integrationId : Option String
  integrationName : Option String
  routedDetail : Option String
deriving DecidableEq

def ItemMetadata.empty : ItemMetadata := ⟨none, none, none, none, none, none, none, none⟩

structure OptimizationItem where
  id : String
  mediaFileId : String
  profile : String
  status : ItemStatus
  queuedByRuleId : Option String
  queuedAt : Nat
  startedAt : Option Nat
  finishedAt : Option Nat
  progressPct : Nat
  originalSizeBytes : Option Nat
  optimizedSizeBytes : Option Nat
  backupPath : Option String
  itemMetadata : ItemMetadata
  error : Option String
deriving DecidableEq

structure OptimizationProfile where
  name : String
  enabled : Bool
  settings : Option ProfileDefinition
  maxInputBytes : Option Nat
  optimizationIntegrationId : Option String

structure RuleNotificationWindow where
  ruleId : String
  windowStart : Nat
  windowEnd : Nat
  count : Nat
deriving DecidableEq

inductive AuditMetadata where
  | fileDeleted (path reason : String) (trashPath : Option String)
  | ruleThrottled (ruleName : String) (windowStart windowEnd maxPerWindow : Nat)
  | searchUpstream (integrationId mediaFilePath target status : String)
      (upstreamId detail : Option String)
deriving DecidableEq

structure AuditLogEntry where
  action : String
  actorLabel : String
  targetType : String
  targetId : String
  metadata : AuditMetadata
deriving DecidableEq

structure Integration where
  id : String
  kind : String
  name : String
  enabled : Bool
  config : PyValue

structure VtQueueItem where
  mediaFileId : String
  enqueuedAt : Nat
deriving DecidableEq

structure Library where
  id : String
  rootPath : String
  id_nonempty : id ≠ ""
deriving DecidableEq

inductive ScanStatus where
  | queued | running | completed | failed
deriving DecidableEq, Repr

/-- The counts of a scan run. -/
structure ScanCounts where
  filesSeen : Nat
  filesAdded : Nat
  filesUpdated : Nat
  filesOrphaned : Nat
  probeFailures : Nat
deriving DecidableEq

def ScanCounts.zero : ScanCounts := ⟨0, 0, 0, 0, 0⟩

structure ScanRun where
  id : String
  libraryId : String
  mode : String
  status : ScanStatus
  createdAt : Nat
  startedAt : Option Nat
  finishedAt : Option Nat
  counts : ScanCounts
  error : Option String
deriving DecidableEq

inductive Disposition where
  | ignore | statsOnly | malicious | accepted
deriving DecidableEq, Repr

structure MediaExtensionRule where
  extension : String
  disposition : Disposition
  enabled : Bool
deriving DecidableEq

/-- The database. -/
structure Tables where
  libraries : Table Library.id
  media : Table MediaFile.id
  media_path_unique : (media.rows.map MediaFile.path).Nodup
  tags : Table fun tag : MediaTag => (tag.mediaFileId, tag.name, tag.source)
  rules : Table Rule.id
  evaluations : Table fun e : RuleEvaluation => (e.mediaFileId, e.ruleId)
  items : Table fun i : OptimizationItem => (i.mediaFileId, i.profile)
  profiles : Table OptimizationProfile.name
  windows : Table fun w : RuleNotificationWindow => (w.ruleId, w.windowStart)
  integrations : Table Integration.id
  vtQueue : Table VtQueueItem.mediaFileId
  auditLog : List AuditLogEntry
  scanRuns : Table ScanRun.id
  extensionRules : Table MediaExtensionRule.extension

namespace Tables

def empty : Tables where
  libraries := .empty
  media := .empty
  media_path_unique := List.nodup_nil
  tags := .empty
  rules := .empty
  evaluations := .empty
  items := .empty
  profiles := .empty
  windows := .empty
  integrations := .empty
  vtQueue := .empty
  auditLog := []
  scanRuns := .empty
  extensionRules := .empty

/-- `select(MediaTag.name).where(media_file_id == id)`. -/
def tagNames (t : Tables) (mediaFileId : String) : List String :=
  (t.tags.rows.filter fun tag => tag.mediaFileId = mediaFileId).map (·.name)

/-- The row with the path. -/
def mediaAt (t : Tables) (path : String) : Option MediaFile :=
  t.media.rows.find? fun m => m.path = path

/-- The evaluation rows of one file. -/
def evaluationsOf (t : Tables) (mediaFileId : String) : List RuleEvaluation :=
  t.evaluations.rows.filter fun e => e.mediaFileId = mediaFileId

/-! ### Changes -/

def putEvaluation (t : Tables) (row : RuleEvaluation) : Tables :=
  { t with evaluations := t.evaluations.upsert row }

def putItem (t : Tables) (item : OptimizationItem) : Tables :=
  { t with items := t.items.upsert item }

def putTag (t : Tables) (tag : MediaTag) : Tables := { t with tags := t.tags.upsert tag }

def putWindow (t : Tables) (window : RuleNotificationWindow) : Tables :=
  { t with windows := t.windows.upsert window }

def putVtItem (t : Tables) (item : VtQueueItem) : Tables :=
  { t with vtQueue := t.vtQueue.upsert item }

def addAudit (t : Tables) (entry : AuditLogEntry) : Tables :=
  { t with auditLog := t.auditLog ++ [entry] }

def trackRule (t : Tables) (ruleId : String) (now count : Nat) : Tables :=
  { t with
    rules := t.rules.update (fun r => r.id = ruleId)
      (fun r => { r with lastEvaluatedAt := some now, lastMatchCount := count }) (fun _ => rfl) }

/-- Delete the rows of a file for rules that were run and did not match. -/
def dropEvaluations (t : Tables) (mediaFileId : String) (ruleIds matched : List String) : Tables :=
  { t with
    evaluations := t.evaluations.erase fun e =>
      e.mediaFileId = mediaFileId && decide (e.ruleId ∈ ruleIds) && !decide (e.ruleId ∈ matched) }

/-- Assign the two severity columns of a loaded media row. -/
def setSeverity (t : Tables) (mediaFileId : String) (severity : Severity) (rank : Nat) : Tables :=
  { t with
    media := t.media.update (fun m => m.id = mediaFileId)
      (fun m => { m with severity := severity, severityRank := rank }) (fun _ => rfl)
    media_path_unique := by
      have hsame : MediaFile.path ∘ (fun m : MediaFile => if m.id = mediaFileId then
          { m with severity := severity, severityRank := rank } else m) = MediaFile.path := by
        funext m
        by_cases hm : m.id = mediaFileId <;> simp [hm]
      simpa only [Table.update, List.map_map, decide_eq_true_eq, hsame] using t.media_path_unique }

/-- Insert a media row; `none` is a violated constraint. -/
def addMedia (t : Tables) (m : MediaFile) : Option Tables :=
  if h : (∀ r ∈ t.media.rows, r.id ≠ m.id) ∧ ∀ r ∈ t.media.rows, r.path ≠ m.path then
    some { t with
      media := ⟨t.media.rows ++ [m], by
        rw [List.map_append, List.map_singleton]
        refine List.nodup_append.mpr ⟨t.media.unique, List.nodup_singleton _, ?_⟩
        intro id hid id' hid' heq
        obtain ⟨r, hr, rfl⟩ := List.mem_map.mp hid
        exact h.1 r hr (heq.trans (List.mem_singleton.mp hid'))⟩
      media_path_unique := by
        rw [List.map_append, List.map_singleton]
        refine List.nodup_append.mpr ⟨t.media_path_unique, List.nodup_singleton _, ?_⟩
        intro path hpath path' hpath' heq
        obtain ⟨r, hr, rfl⟩ := List.mem_map.mp hpath
        exact h.2 r hr (heq.trans (List.mem_singleton.mp hpath')) }
  else none

/-- Change columns of the media rows that are selected, other than the id and the path. -/
def updateMedia (t : Tables) (p : MediaFile → Bool) (f : MediaFile → MediaFile)
    (hid : ∀ m, (f m).id = m.id) (hpath : ∀ m, (f m).path = m.path) : Tables :=
  { t with
    media := t.media.update p f hid
    media_path_unique := by
      have hsame : MediaFile.path ∘ (fun m : MediaFile => if p m then f m else m) =
          MediaFile.path := by
        funext m
        by_cases hm : p m <;> simp [hm, hpath]
      simpa only [Table.update, List.map_map, hsame] using t.media_path_unique }

def putScanRun (t : Tables) (run : ScanRun) : Tables :=
  { t with scanRuns := t.scanRuns.upsert run }

/-- `session.delete(media_file)`.  The dependent rows go with it where the
    database enforces foreign keys. -/
def deleteMedia (foreignKeys : Bool) (t : Tables) (mediaFileId : String) : Tables :=
  { t with
    media := t.media.erase fun m => m.id = mediaFileId
    media_path_unique := t.media_path_unique.sublist (List.filter_sublist.map _)
    tags := if foreignKeys then t.tags.erase fun tag => tag.mediaFileId = mediaFileId else t.tags
    evaluations := if foreignKeys then t.evaluations.erase fun e => e.mediaFileId = mediaFileId
      else t.evaluations
    items := if foreignKeys then t.items.erase fun i => i.mediaFileId = mediaFileId else t.items
    vtQueue := if foreignKeys then t.vtQueue.erase fun v => v.mediaFileId = mediaFileId
      else t.vtQueue }

/-! ### Media rows by path -/

theorem mediaAt_eq_some {t : Tables} {path : String} {m : MediaFile} :
    t.mediaAt path = some m ↔ m ∈ t.media ∧ m.path = path := by
  constructor
  · intro hfind
    refine ⟨List.mem_of_find?_eq_some hfind, ?_⟩
    simpa using List.find?_some hfind
  · rintro ⟨hmem, rfl⟩
    exact find?_of_mem t.media_path_unique hmem

theorem mediaAt_eq_none {t : Tables} {path : String} :
    t.mediaAt path = none ↔ ∀ m ∈ t.media, m.path ≠ path := by
  simp only [mediaAt, List.find?_eq_none, decide_eq_true_eq, Table.mem_def, ne_eq]

theorem eq_of_path_eq {t : Tables} {m m' : MediaFile} (hm : m ∈ t.media) (hm' : m' ∈ t.media)
    (hpath : m.path = m'.path) : m = m' :=
  List.inj_on_of_nodup_map t.media_path_unique hm hm' hpath

theorem mem_updateMedia {t : Tables} {p : MediaFile → Bool} {f : MediaFile → MediaFile}
    {hid : ∀ m, (f m).id = m.id} {hpath : ∀ m, (f m).path = m.path} {m : MediaFile} :
    m ∈ (t.updateMedia p f hid hpath).media ↔
      ∃ old ∈ t.media, (if p old then f old else old) = m :=
  List.mem_map

theorem path_of_updateMedia {t : Tables} {p : MediaFile → Bool} {f : MediaFile → MediaFile}
    {hid : ∀ m, (f m).id = m.id} {hpath : ∀ m, (f m).path = m.path} {m : MediaFile} {path : String}
    (hm : m ∈ t.media) (hat : m.path = path) :
    ∃ m' ∈ (t.updateMedia p f hid hpath).media, m'.path = path := by
  refine ⟨_, mem_updateMedia.mpr ⟨m, hm, rfl⟩, ?_⟩
  split
  · exact (hpath m).trans hat
  · exact hat

theorem addMedia_eq_some {t t' : Tables} {m : MediaFile} (h : t.addMedia m = some t') :
    (∀ m', m' ∈ t'.media ↔ m' ∈ t.media ∨ m' = m) ∧ t' = { t with
      media := t'.media, media_path_unique := t'.media_path_unique } := by
  unfold addMedia at h
  split at h
  · cases h
    exact ⟨fun m' => by simp [Table.mem_def], rfl⟩
  · cases h

end Tables

end Database
