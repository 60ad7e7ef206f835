/-
  Auditarr/RulesService.lean
  ==========================
  **The rules service** (`app/services/rules_service.py`).

  `evaluateFile` runs a list of rules over one media row and applies what they
  decide: evaluation rows, severity, tags, queue entries, notifications, deletion,
  VirusTotal lookups and upstream searches.  `evaluateFiles`, `evaluateLibrary`
  and `evaluateRule` repeat it.

  A service call runs inside its caller's session.  Whether an effect happens is
  decided by the code; whether a round trip, a file move or a provider call fails
  is decided by the environment.  Handlers of bus events run isolated from the
  emitter, so emitting only records the event.
-/
import Auditarr.Transactions
import Auditarr.Database
import Auditarr.RuleAggregation
import Mathlib.Data.List.Sort

namespace RulesService

open Effects Transactions KeyedTable PyValues RuleSchema RuleEvaluator RuleAggregation
open Database

/-! ### Outside the database -/

inductive DatabaseError where
  | operational (message : String)
  | integrity
deriving DecidableEq

inductive ServiceError where
  | evaluator (e : PyError)
  | database (e : DatabaseError)
  | pendingRollback
  | missingGreenlet
  | secretBox
  | valueError (message : String)
  | python (e : PyError)
  | osError (message : String)
deriving DecidableEq

/-- A file moved below `data_dir/trash`. -/
structure TrashMove where
  mediaFileId : String
  path : String
  trashPath : String
deriving DecidableEq

/-- The arguments of `NotificationDispatcher.dispatch`. -/
structure DispatchRequest where
  severity : Severity
  ruleId : String
  ruleName : String
  mediaFileId : String
  path : String
  filename : String
  channel : String
  autoDelete : Bool
  messageOverride : Option String
deriving DecidableEq

inductive Event where
  | ruleThrottled (ruleId ruleName : String) (windowStart windowEnd maxPerWindow : Nat)
  | mediaDeleted (id path reason : String)
  | searchUpstream (mediaFileId : String) (payload : AuditMetadata)
  | scanStarted (runId libraryId mode : String)
  | scanProgress (runId libraryId : String) (filesSeen filesTotalEstimate : Nat)
  | mediaAdded (id path : String)
  | scanCompleted (runId libraryId : String) (counts : ScanCounts) (filesEvaluated : Nat)
  | scanFailed (runId libraryId error : String)
deriving DecidableEq

/-- What a pass changes besides the database: the files on disk, the trash, the
    messages sent, the searches asked for and the events emitted. -/
structure Outside where
  onDisk : String → Bool
  trash : List TrashMove
  dispatched : List DispatchRequest
  searched : List (String × String)
  events : List Event

abbrev Service (α : Type) := Call (Session Tables Outside) ServiceError α

structure SearchTriggerResult where
  status : String
  upstreamId : Option String
  detail : Option String
deriving DecidableEq

/-- The integration provider registered for a kind; `triggerSearch` is absent
    when the plugin predates it, and an error it raises is kept as text. -/
structure SearchProvider where
  triggerSearch : Option (String → String → Except String SearchTriggerResult)

/-- Everything a pass reads besides the database and the disk. -/
structure Env where
  rt : PyRuntime
  /-- Which round trips to the database fail. -/
  faultAt : Nat → Option (Fault DatabaseError)
  /-- `utcnow()` after so many round trips. -/
  clock : Nat → Nat
  /-- `uuid4()` after so many round trips. -/
  newId : Nat → String
  trashRoot : String
  /-- `Path(path).name`. -/
  baseName : String → String
  /-- The `mkdir` or the move of a delete raises. -/
  trashFails : String → Bool
  /-- Whether the service was built with a registry. -/
  registry : Bool
  searchProvider : String → Option SearchProvider
  /-- The stored secrets of an integration can be decrypted. -/
  decrypts : String → Bool
  vtPlugin : Bool
  foreignKeys : Bool

def Env.db (env : Env) : Environment ServiceError where
  faultAt n := (env.faultAt n).map fun fault => ⟨.database fault.error, fault.aborts⟩
  pendingRollback := .pendingRollback
  missingGreenlet := .missingGreenlet

section Pass

variable (env : Env)

def emit (event : Event) : Service Unit :=
  outside fun o => { o with events := o.events ++ [event] }

def utcnow : Service Nat := Call.read fun s => env.clock s.calls

/-- `AuditService.record`: the entry is added and flushed on its own. -/
def recordAudit (entry : AuditLogEntry) : Service Unit := do
  edit (·.addAudit entry)
  flush env.db

/-! ### The parts of `evaluate_file` -/

/-- `build_input`. -/
def inputOf (t : Tables) (m : MediaFile) : EvaluationInput where
  mediaFileId := m.id
  path := m.path
  filename := m.filename
  extension := m.extension
  category := m.category
  container := m.container
  videoCodec := m.videoCodec
  audioCodec := m.audioCodec
  subtitleCodec := m.subtitleCodec
  width := m.width
  height := m.height
  durationSeconds := m.durationSeconds
  bitrateKbps := m.bitrateKbps
  framerate := m.framerate
  sizeBytes := m.sizeBytes
  hasSubtitles := m.hasSubtitles
  isOrphaned := m.isOrphaned
  subtitleLanguages := m.subtitleLanguages.getD []
  audioLanguages := m.audioLanguages.getD []
  tags := t.tagNames m.id
  probeFailed := m.probeFailed
  vtStatus := m.vtStatus

def buildInput (m : MediaFile) : Service EvaluationInput := select env.db fun t => inputOf t m

/-- `RuleEvaluationRepository.upsert`. -/
def upsertEvaluation (row : RuleEvaluation) : Service Unit := do
  let _ ← select env.db fun t => t.evaluations.find? (row.mediaFileId, row.ruleId)
  edit (·.putEvaluation row)
  flush env.db

def queuedItem (id mediaFileId profile ruleId : String) (queuedAt : Nat) : OptimizationItem where
  id := id
  mediaFileId := mediaFileId
  profile := profile
  status := .queued
  queuedByRuleId := some ruleId
  queuedAt := queuedAt
  startedAt := none
  finishedAt := none
  progressPct := 0
  originalSizeBytes := none
  optimizedSizeBytes := none
  backupPath := none
  itemMetadata := .empty
  error := none

/-- `OptimizationRepository.upsert_queued`: only a queued entry is refreshed. -/
def upsertQueued (mediaFileId profile ruleId : String) (queuedAt : Nat) : Service Unit := do
  let existing ← select env.db fun t => t.items.find? (mediaFileId, profile)
  match existing with
  | none => do
      let id ← Call.read fun s => env.newId s.calls
      edit (·.putItem (queuedItem id mediaFileId profile ruleId queuedAt))
      flush env.db
  | some item =>
      if item.status = .queued then do
        edit (·.putItem { item with queuedByRuleId := some ruleId, queuedAt := queuedAt })
        flush env.db
      else pure ()

/-- The tags a profile asks for and the file does not carry.  An unknown profile
    or one with invalid settings asks for none. -/
def missingTags (profile : Option OptimizationProfile) (tags : List String) : List String :=
  match profile.bind (·.settings) with
  | none => []
  | some settings => settings.tagScope.filter (· ∉ tags)

def queueOptimization (m : MediaFile) (rule : Rule) (tags : List String) (now : Nat)
    (profileName : String) : Service Unit := do
  let profile ← select env.db fun t => t.profiles.find? profileName
  Call.when (missingTags profile tags).isEmpty do
    let mediaFileId ← load env.db m.id
    let ruleId ← load env.db rule.id
    upsertQueued env mediaFileId profileName ruleId now

/-- `_throttle_gate`: whether the notification may be sent. -/
def throttleGate (ruleId ruleName : String) (throttle : NotifyThrottle) (now : Nat) :
    Service Bool := do
  let windowStart := now - now % throttle.windowSeconds
  let windowEnd := windowStart + throttle.windowSeconds
  let existing ← select env.db fun t => t.windows.find? (ruleId, windowStart)
  match existing with
  | none => do
      edit (·.putWindow ⟨ruleId, windowStart, windowEnd, 1⟩)
      flush env.db
      return true
  | some row =>
      if row.count < throttle.maxPerWindow then do
        edit (·.putWindow { row with count := row.count + 1 })
        flush env.db
        return true
      else do
        emit (.ruleThrottled ruleId ruleName windowStart windowEnd throttle.maxPerWindow)
        edit (·.putWindow { row with count := row.count + 1 })
        flush env.db
        -- the first suppression of a window is the one that is logged
        Call.when (row.count ≤ throttle.maxPerWindow) <|
          Call.attempt
            (recordAudit env
              { action := "rule.throttled", actorLabel := "rules", targetType := "rule",
                targetId := ruleId,
                metadata := .ruleThrottled ruleName windowStart windowEnd throttle.maxPerWindow })
            fun _ => pure ()
        return false

/-- `NotificationDispatcher.dispatch`, with the deliveries as one message. -/
def dispatch (request : DispatchRequest) : Service Unit := do
  select env.db fun _ => ()
  outside fun o => { o with dispatched := o.dispatched ++ [request] }
  flush env.db

/-- A notification without a throttle is always sent. -/
def throttleAllows (ruleId ruleName : String) (now : Nat) : Option NotifyThrottle → Service Bool
  | none => pure true
  | some throttle => throttleGate env ruleId ruleName throttle now

def notify (m : MediaFile) (rule : Rule) (definition : RuleDefinition) (severity : Severity)
    (now : Nat) (notification : Notification) : Service Unit := do
  let ruleId ← load env.db rule.id
  let allow ← throttleAllows env ruleId rule.name now notification.throttle
  Call.when allow <|
    Call.attempt
      (do let mediaFileId ← load env.db m.id
          dispatch env
            { severity := severity, ruleId := ruleId, ruleName := rule.name,
              mediaFileId := mediaFileId, path := m.path, filename := m.filename,
              channel := notification.channel,
              autoDelete := definition.actions.any Action.isDelete,
              messageOverride := notification.message })
      fun _ => do
        let _ ← load env.db rule.id
        pure ()

def evaluationRow (m : MediaFile) (rule : Rule) (result : EvaluationResult) (now : Nat) :
    RuleEvaluation where
  mediaFileId := m.id
  ruleId := rule.id
  severity := result.severity.getD .ok
  severityRank := result.severityRank
  actionsSummary :=
    { addTags := result.addTags
      queueOptimizations := result.queueOptimizations
      notifications := result.notifications.map fun n => (n.channel, n.message) }
  evaluatedAt := now

/-- What is written for one matching rule while the pass goes on. -/
def persistMatch (m : MediaFile) (input : EvaluationInput) (now : Nat) (rule : Rule)
    (definition : RuleDefinition) (result aggregate : EvaluationResult) : Service Unit := do
  let _ ← load env.db m.id
  upsertEvaluation env (evaluationRow m rule result now)
  Call.forEach (queueOptimization env m rule input.tags now) result.queueOptimizations
  let severity := (result.severity.orElse fun _ => aggregate.severity).getD .info
  Call.when env.registry <|
    Call.forEach (notify env m rule definition severity now) result.notifications

/-- The aggregate of the rules so far and the ids of those that matched. -/
structure Progress where
  aggregate : EvaluationResult
  matchedRuleIds : List String

def evaluateOne (m : MediaFile) (input : EvaluationInput) (now : Nat) (persist : Bool)
    (progress : Progress) (entry : Rule × RuleDefinition) : Service Progress := do
  let (rule, definition) := entry
  match evaluate env.rt definition input with
  | .error e => Call.raise (.evaluator e)
  | .ok result =>
      if result.matched then do
        let ruleId ← load env.db rule.id
        let aggregate := result.mergeInto progress.aggregate
        Call.when persist (persistMatch env m input now rule definition result aggregate)
        return ⟨aggregate, progress.matchedRuleIds ++ [ruleId]⟩
      else return progress

/-- Delete the rows of rules that were part of the pass and did not match. -/
def dropStale (m : MediaFile) (ruleIds matched : List String) : Service Unit := do
  Call.when (!ruleIds.isEmpty) do
    let mediaFileId ← load env.db m.id
    select env.db fun _ => ()
    edit (·.dropEvaluations mediaFileId ruleIds matched)

/-- `_upsert_tag`. -/
def upsertTag (m : MediaFile) (tag : String) : Service Unit := do
  let mediaFileId ← load env.db m.id
  select env.db fun _ => ()
  edit (·.putTag ⟨mediaFileId, tag, "rule"⟩)

/-- The move of `_hard_delete_media`: the trash path of a file that was there,
    `none` for a missing one; an error raised on the way is caught. -/
def moveToTrash (m : MediaFile) : Service (Except Unit (Option String)) := do
  let mediaFileId ← load env.db m.id
  if env.trashFails mediaFileId then return .error ()
  else do
    let present ← Call.read fun s => s.world.onDisk m.path
    if present then do
      let dst := env.trashRoot ++ "/" ++ mediaFileId ++ "__" ++ env.baseName m.path
      outside fun o =>
        { o with
          onDisk := fun p => if p = dst then true else if p = m.path then false else o.onDisk p
          trash := o.trash ++ [⟨mediaFileId, m.path, dst⟩] }
      return .ok (some dst)
    else return .ok none

/-- `_hard_delete_media`.  A failed move keeps the row, a failed audit entry does
    not. -/
def hardDeleteMedia (m : MediaFile) (reason : String) : Service Unit := do
  match ← moveToTrash env m with
  | .error _ => pure ()
  | .ok dstPath => do
      Call.attempt
        (recordAudit env
          { action := "file.deleted", actorLabel := "rules", targetType := "media_file",
            targetId := m.id, metadata := .fileDeleted m.path reason dstPath })
        fun _ => do
          let _ ← load env.db m.id
          pure ()
      let mediaFileId ← load env.db m.id
      emit (.mediaDeleted mediaFileId m.path reason)
      edit fun t => t.deleteMedia env.foreignKeys mediaFileId

/-- The plain insert of `enqueue_for_vt_lookup`: a row that exists violates the
    key. -/
def insertVt (item : VtQueueItem) : Service Unit := do
  let taken ← select env.db fun t => (t.vtQueue.find? item.mediaFileId).isSome
  if taken then Call.raise (.database .integrity)
  else edit (·.putVtItem item)

/-- `INSERT … ON CONFLICT DO NOTHING`. -/
def insertVtIfAbsent (item : VtQueueItem) : Service Bool := do
  let taken ← select env.db fun t => (t.vtQueue.find? item.mediaFileId).isSome
  if taken then return false
  else do
    edit (·.putVtItem item)
    return true

/-- `enqueue_for_vt_lookup` (`plugins/virustotal/backend.py`).  It commits the
    session it is given, everything pending included, and rolls it back when the
    insert or that commit fails. -/
def enqueueForVtLookup (mediaFileId : String) : Service Bool := do
  let now ← utcnow env
  let item : VtQueueItem := ⟨mediaFileId, now⟩
  Call.attempt
    (do let inserted ← insertVtIfAbsent env item
        commit env.db
        return inserted)
    fun e => do
      rollback
      if e = .database .integrity then return false
      else
        Call.attempt
          (do insertVt env item
              commit env.db
              return true)
          fun e' => do
            if e' = .database .integrity then
              rollback
              return false
            else Call.raise e'

/-- One entry per integration, the first one asked for. -/
def uniqueRequests : List SearchRequest → List SearchRequest
  | [] => []
  | r :: rest => r :: (uniqueRequests rest).filter fun r' => r'.integrationId ≠ r.integrationId

/-- The integration kind a `search_upstream` action names. -/
def targetKind : SearchTarget → String
  | .sonarr => "sonarr"
  | .radarr => "radarr"
  | .bazarr => "bazarr"

/-- `_emit_search_upstream_audit`. -/
def emitSearchUpstreamAudit (m : MediaFile) (integrationId target : String)
    (result : SearchTriggerResult) : Service Unit := do
  let mediaFileId ← load env.db m.id
  let payload := AuditMetadata.searchUpstream integrationId m.path target result.status
    result.upstreamId result.detail
  Call.attempt
    (recordAudit env
      { action := "rule.action.search_upstream", actorLabel := "rules",
        targetType := "media_file", targetId := mediaFileId, metadata := payload })
    fun _ => do
      let _ ← load env.db m.id
      pure ()
  emit (.searchUpstream mediaFileId payload)

def searchError (detail : String) : SearchTriggerResult := ⟨"error", none, some detail⟩

/-- The outcomes of a request that are audited without calling the provider, or
    the call to make. -/
def resolveSearch (target : String) (integration : Integration) :
    Except SearchTriggerResult (String → String → Except String SearchTriggerResult) :=
  match env.searchProvider integration.kind with
  | none => .error (searchError s!"No provider registered for kind '{integration.kind}'")
  | some provider =>
      if target ≠ integration.kind then
        .error (searchError
          s!"Rule target '{target}' doesn't match integration kind '{integration.kind}'")
      else match provider.triggerSearch with
        | none => .error (searchError
            s!"'{integration.kind}' provider does not implement trigger_search")
        | some trigger => .ok trigger

/-- One request of `_trigger_upstream_searches`. -/
def triggerUpstreamSearch (m : MediaFile) (request : SearchRequest) : Service Unit := do
  let target := targetKind request.target
  let audit := emitSearchUpstreamAudit env m request.integrationId target
  let found ← select env.db fun t => t.integrations.find? request.integrationId
  match found with
  | none => audit (searchError "Integration not found")
  | some integration =>
      if !integration.enabled then audit (searchError "Integration disabled")
      else if !env.registry then pure ()
      else match resolveSearch env target integration with
        | .error result => audit result
        | .ok trigger =>
            -- the configuration is built outside the `try` around the call
            if !env.decrypts integration.id then Call.raise .secretBox
            else do
              let path ← load env.db m.path
              outside fun o => { o with searched := o.searched ++ [(integration.id, path)] }
              audit (match trigger integration.id path with
                | .ok result => result
                | .error text => searchError s!"Provider exception: {text}")

/-- `_trigger_upstream_searches`. -/
def triggerUpstreamSearches (m : MediaFile) (requests : List SearchRequest) : Service Unit :=
  Call.forEach (triggerUpstreamSearch env m)
    (uniqueRequests (requests.filter fun r => r.integrationId ≠ ""))

structure FileOutcome where
  mediaFileId : String
  severity : Severity
  severityRank : Nat
  addTags : List String
  matchedRuleIds : List String
deriving DecidableEq

/-- The writes up to the deletion, made from the aggregate after the loop. -/
def applyAggregate (m : MediaFile) (ruleIds : List String) (progress : Progress) :
    Service Unit := do
  let aggregate := progress.aggregate
  dropStale env m ruleIds progress.matchedRuleIds
  edit fun t => t.setSeverity m.id (aggregate.severity.getD .ok) aggregate.severityRank
  Call.forEach (upsertTag env m) aggregate.addTags
  Call.when (!aggregate.deletePaths.isEmpty)
    (hardDeleteMedia env m (aggregate.deleteReasons.headD "Deleted by rule"))

/-- The rest of the writes. -/
def applyLookups (m : MediaFile) (aggregate : EvaluationResult) : Service Unit := do
  Call.when (aggregate.vtLookupRequested && env.vtPlugin) do
    let mediaFileId ← load env.db m.id
    let _ ← enqueueForVtLookup env mediaFileId
    pure ()
  Call.when (!aggregate.searchUpstreamRequests.isEmpty)
    (triggerUpstreamSearches env m aggregate.searchUpstreamRequests)
  flush env.db

/-- `RulesService.evaluate_file`. -/
def evaluateFile (m : MediaFile) (rules : List (Rule × RuleDefinition)) (persist : Bool) :
    Service FileOutcome := do
  let mediaFileId ← load env.db m.id
  let input ← buildInput env m
  let now ← utcnow env
  let progress ← Call.foldEach (evaluateOne env m input now persist) ⟨aggregateStart, []⟩ rules
  Call.when persist do
    applyAggregate env m (rules.map (·.1.id)) progress
    applyLookups env m progress.aggregate
  let _ ← load env.db m.id
  return { mediaFileId := mediaFileId
           severity := progress.aggregate.severity.getD .ok
           severityRank := progress.aggregate.severityRank
           addTags := progress.aggregate.addTags
           matchedRuleIds := progress.matchedRuleIds }

/-! ### Bulk evaluation -/

/-- The order of `RuleRepository.list_all`. -/
def byPriority (a b : Rule) : Prop :=
  a.priority < b.priority ∨ (a.priority = b.priority ∧ a.name ≤ b.name)

instance : DecidableRel byPriority := fun _ _ => inferInstanceAs (Decidable (_ ∨ _))

/-- `RuleRepository.list_all(enabled_only=True)`. -/
def enabledRules (t : Tables) : List Rule :=
  (t.rules.rows.filter (·.enabled)).insertionSort byPriority

/-- `load_enabled`: rules whose stored document does not validate are skipped. -/
def loadEnabled (t : Tables) : List (Rule × RuleDefinition) :=
  (enabledRules t).filterMap fun rule => rule.definition.map fun d => (rule, d)

/-- The `limit` of a pass. -/
def PAGE_LIMIT : Nat := 10000

/-- The default order of `MediaRepository.list`. -/
def bySeverity (a b : MediaFile) : Prop :=
  b.severityRank < a.severityRank ∨ (a.severityRank = b.severityRank ∧ a.path ≤ b.path)

instance : DecidableRel bySeverity := fun _ _ => inferInstanceAs (Decidable (_ ∨ _))

/-- `MediaRepository.list` with a library and a tag filter. -/
def listMedia (t : Tables) (libraryId : String) (tagsAny : List String) : List MediaFile :=
  let wanted := (tagsAny.map strip).filter (· ≠ "")
  let page := t.media.rows.filter fun m =>
    (libraryId = "" || m.libraryId = libraryId) &&
      (wanted.isEmpty || (t.tagNames m.id).any (· ∈ wanted))
  (page.insertionSort bySeverity).take PAGE_LIMIT

/-- `evaluate_files` after its rules are loaded. -/
def evaluateEach (rules : List (Rule × RuleDefinition)) : List MediaFile → Service (List FileOutcome)
  | [] => pure []
  | m :: rest => do
      let outcome ← evaluateFile env m rules true
      let outcomes ← evaluateEach rules rest
      return outcome :: outcomes

def evaluateFiles (files : List MediaFile) : Service (List FileOutcome) := do
  let rules ← select env.db loadEnabled
  evaluateEach env rules files

/-- `last_evaluated_at` and `last_match_count` of one rule. -/
def trackRule (now : Nat) (ruleId : String) (count : Tables → Nat) : Service Unit := do
  let matches_ ← select env.db count
  edit (·.trackRule ruleId now matches_)

def evaluateLibrary (libraryId : String) (tagsAny : List String) : Service Nat := do
  let files ← select env.db fun t => listMedia t libraryId tagsAny
  let _ ← evaluateFiles env files
  let rules ← select env.db enabledRules
  let now ← utcnow env
  Call.forEach (fun rule : Rule => trackRule env now rule.id fun t =>
    min PAGE_LIMIT (t.evaluations.rows.filter fun e => e.ruleId = rule.id).length) rules
  return files.length

/-- `evaluate_all_libraries`: how many libraries and how many files. -/
def evaluateAllLibraries : Service (Nat × Nat) := do
  let libraries ← select env.db fun t => t.libraries.rows
  let filesTotal ← Call.foldEach
    (fun (total : Nat) (library : Library) => do
      let n ← evaluateLibrary env library.id []
      return total + n) 0 libraries
  return (libraries.length, filesTotal)

/-- `evaluate_rule`: one rule over every library. -/
def evaluateRule (ruleId : String) : Service Nat := do
  let found ← select env.db fun t => t.rules.find? ruleId
  match found with
  | none => Call.raise (.valueError s!"Rule '{ruleId}' not found")
  | some rule =>
      if !rule.enabled then
        Call.raise (.valueError
          (s!"Rule '{ruleId}' is disabled. Enable it before " ++
            "running a targeted evaluation."))
      else match rule.definition with
        | none => Call.raise (.valueError s!"Rule '{ruleId}' has an invalid definition")
        | some definition => do
            let libraries ← select env.db fun t => t.libraries.rows
            let now ← utcnow env
            let outcomes ← Call.foldEach
              (fun (acc : List FileOutcome) (library : Library) => do
                let files ← select env.db fun t => listMedia t library.id []
                let more ← evaluateEach env [(rule, definition)] files
                return acc ++ more) [] libraries
            let matched := outcomes.filter fun o => rule.id ∈ o.matchedRuleIds
            edit (·.trackRule rule.id now matched.length)
            flush env.db
            return outcomes.length

end Pass

/-! ### A small instance -/

/-- An environment in which nothing fails, without providers or plugins. -/
def calmEnv : Env where
  rt := ⟨id, fun _ _ => .notFound⟩
  faultAt _ := none
  clock := id
  newId n := toString n
  trashRoot := "/data/trash"
  baseName path := String.ofList (path.toList.reverse.takeWhile (· ≠ '/')).reverse
  trashFails _ := false
  registry := false
  searchProvider _ := none
  decrypts _ := true
  vtPlugin := false
  foreignKeys := true

/-- Nothing outside the database has happened yet; every file is on disk. -/
def Outside.start : Outside := ⟨fun _ => true, [], [], [], []⟩

def freshSession (t : Tables) : Session Tables Outside := .opened t .start 0

theorem freshSession_live (t : Tables) : (freshSession t).Live := ⟨rfl, rfl⟩

def storedRule (id : String) (definition : RuleDefinition) : Rule where
  id := id
  name := id
  enabled := true
  priority := 0
  definition := some definition
  lastEvaluatedAt := none
  lastMatchCount := 0

end RulesService
