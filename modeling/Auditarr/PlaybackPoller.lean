/-
  Auditarr/PlaybackPoller.lean
  ============================
  **The playback poller** (`app/services/playback/poller.py`, `app/models/playback.py`).

  One poll of one integration: the history since the cursor is fetched and inserted,
  each event unless there is a row with its key, the cursor is moved, and what is
  playing right now is recorded too.  A poll is one transaction: an exception of the
  database undoes all of it.

  Times are microseconds since the epoch, in UTC.
-/
import Auditarr.Database
import Auditarr.PathMappings

namespace PlaybackPoller

open KeyedTable PyValues PathMappings

abbrev Timestamp := Int

def seconds (n : Int) : Timestamp := n * 1000000

/-! ### The tables -/

/-- `PlaybackEventDTO`. -/
structure PlaybackEventDto where
  upstreamId : String
  sourcePath : String
  decision : String
  startedAt : Timestamp
  deviceKind : Option String := none
  deviceName : Option String := none
  reasonCode : Option String := none
  sourceCodec : Option String := none
  sourceBitrateKbps : Option Int := none
  sourceWidth : Option Int := none
  sourceHeight : Option Int := none
  sourceContainer : Option String := none
  targetCodec : Option String := none
  targetBitrateKbps : Option Int := none
  completedAt : Option Timestamp := none
  durationS : Option Int := none
  ratingKey : Option String := none
deriving DecidableEq

/-- `LivePlaybackDTO`, as far as the poller reads it. -/
structure LivePlaybackDto where
  upstreamId : String
  sourcePath : String
  decision : String
  startedAt : Timestamp
  progressPct : Option PyFloat
  deviceKind : Option String
  deviceName : Option String
  sourceCodec : Option String
  sourceBitrateKbps : Option Int
  sourceWidth : Option Int
  sourceHeight : Option Int

/-- A row of `playback_events`. -/
structure PlaybackEvent where
  integrationId : String
  upstreamId : String
  mediaFileId : Option String
  sourcePath : String
  deviceKind : Option String
  deviceName : Option String
  decision : String
  reasonCode : Option String := none
  sourceCodec : Option String
  sourceBitrateKbps : Option Int
  sourceWidth : Option Int
  sourceHeight : Option Int
  sourceContainer : Option String := none
  targetCodec : Option String := none
  targetBitrateKbps : Option Int := none
  startedAt : Timestamp
  completedAt : Option Timestamp := none
  durationS : Option Int := none
  reconciledWithSessionId : Option String := none
deriving DecidableEq

/-- `uq_playback_events_integration_upstream`. -/
def PlaybackEvent.key (e : PlaybackEvent) : String × String := (e.integrationId, e.upstreamId)

/-- A row of `integration_polling_cursors`.  The text of a cursor is empty, or the
    instant that `isoformat` wrote and `fromisoformat` reads back. -/
structure PollingCursor where
  integrationId : String
  cursorKind : String
  cursorValue : Option Timestamp
  updatedAt : Timestamp

def PollingCursor.key (c : PollingCursor) : String × String := (c.integrationId, c.cursorKind)

/-- The states of a session (`_KNOWN_STATES` of `session_manager.py`). -/
inductive SessionState where
  | playing | paused | buffering | stopped
deriving DecidableEq, Repr

/-- A row of `playback_sessions`. -/
structure PlaybackSession where
  id : String
  integrationId : String
  mediaFileId : Option String
  sessionKey : String
  ratingKey : Option String
  state : SessionState
  decision : String
  reasonCode : Option String
  sourcePath : Option String
  title : Option String
  grandparentTitle : Option String
  user : Option String
  deviceKind : Option String
  deviceName : Option String
  sourceCodec : Option String
  sourceBitrateKbps : Option Int
  sourceWidth : Option Int
  sourceHeight : Option Int
  sourceContainer : Option String
  targetCodec : Option String
  targetBitrateKbps : Option Int
  viewOffsetMs : Option Int
  durationMs : Option Int
  startedAt : Timestamp
  lastEventAt : Timestamp
  stoppedAt : Option Timestamp
  reconciledWithHistory : Bool
deriving DecidableEq

/-- A row of `playback_devices`. -/
structure PlaybackDevice where
  integrationId : String
  clientKey : String
  name : Option String
  platform : Option String
  firstSeenAt : Timestamp
  lastSeenAt : Timestamp
  playbackCount : Nat
  transcodeCount : Nat
  directPlayCount : Nat
  directStreamCount : Nat

def PlaybackDevice.key (d : PlaybackDevice) : String × String := (d.integrationId, d.clientKey)

structure GlobalPathMapping where
  fromPath : String
  toPath : String
  enabled : Bool
  priority : Int
  createdAt : Timestamp

structure Tables where
  events : Table PlaybackEvent.key
  cursors : Table PollingCursor.key
  sessions : Table PlaybackSession.id
  devices : Table PlaybackDevice.key
  globalMappings : List GlobalPathMapping
  media : List Database.MediaFile

/-- The integration object that is handed to the poller. -/
structure Integration where
  id : String
  kind : String
  /-- `config.get("path_mappings")`. -/
  pathMappings : PyValue
  healthStatus : String
  healthDetail : Option String
  healthCheckedAt : Option Timestamp

/-- `PollOutcome`. -/
structure PollOutcome where
  integrationId : String
  fetched : Nat := 0
  inserted : Nat := 0
  resolved : Nat := 0
  unresolved : Int := 0
  driftSuspected : Bool := false
  error : Option String := none

/-! ### What a poll meets -/

/-- Library functions. -/
structure PollerRuntime where
  /-- `repr` of a string. -/
  repr : String → String
  /-- The first 16 hexadecimal digits of a SHA-1. -/
  sha1Prefix : String → String
  /-- `replace(microsecond=0).isoformat()`. -/
  isoSeconds : Timestamp → String

inductive FetchError where
  | notImplemented
  | raised (text : String)
deriving DecidableEq

/-- The clock and the answers of the integration in one poll. -/
structure Poll where
  now : Timestamp
  /-- `provider_for` found a provider. -/
  registered : Bool
  /-- What `build_config` raises. -/
  configError : Option String
  /-- `fetch_playback_events`. -/
  fetch : Option Timestamp → Except FetchError (List PlaybackEventDto)
  /-- `fetch_live_playbacks`; `none` if there is no such method or it raises. -/
  lives : Option (List LivePlaybackDto)
  /-- The exception of a query, a flush, the commit or the event bus. -/
  fault : Option String

section Poller

variable (lib : PollerRuntime)

/-! ### The cursor -/

/-- `CURSOR_KIND`. -/
def cursorKind : String := "playback_events"

/-- `CURSOR_SAFETY_SKEW`. -/
def cursorSafetySkew : Timestamp := seconds 60

/-- `_get_cursor`. -/
def getCursor (t : Tables) (integrationId : String) : Option PollingCursor :=
  t.cursors.find? (integrationId, cursorKind)

/-- The instant of the cursor, if there is one. -/
def cursorOf (t : Tables) (integrationId : String) : Option Timestamp :=
  (getCursor t integrationId).bind PollingCursor.cursorValue

/-- `_upsert_cursor`. -/
def upsertCursor (now : Timestamp) (integrationId : String) (value : Timestamp) (t : Tables) :
    Tables :=
  { t with cursors := t.cursors.upsert ⟨integrationId, cursorKind, some value, now⟩ }

/-- `_touch_cursor`. -/
def touchCursor (now : Timestamp) (integrationId : String) (t : Tables) : Tables :=
  { t with cursors := t.cursors.upsert ⟨integrationId, cursorKind, cursorOf t integrationId, now⟩ }

/-! ### Devices and sessions -/

/-- `(x or "").strip() or None`. -/
def normalized (x : Option String) : Option String :=
  if strip (x.getD "") = "" then none else some (strip (x.getD ""))

/-- `_derive_client_key`. -/
def deriveClientKey (deviceKind deviceName : Option String) : String :=
  lib.sha1Prefix (strip (deviceKind.getD "") ++ "::" ++ strip (deviceName.getD ""))

/-- One more playback with the decision. -/
def PlaybackDevice.count (d : PlaybackDevice) (decision : String) : PlaybackDevice :=
  { d with
    playbackCount := d.playbackCount + 1
    transcodeCount := d.transcodeCount + if decision = "transcode" then 1 else 0
    directStreamCount := d.directStreamCount + if decision = "direct_stream" then 1 else 0
    directPlayCount := d.directPlayCount + if decision = "direct_play" then 1 else 0 }

/-- `_upsert_device`. -/
def upsertDevice (integrationId : String) (deviceKind deviceName : Option String)
    (decision : String) (seenAt : Timestamp) (t : Tables) : Tables :=
  let kind := normalized deviceKind
  let name := normalized deviceName
  if kind = none ∧ name = none then t
  else
    let clientKey := deriveClientKey lib kind name
    let row : PlaybackDevice := match t.devices.find? (integrationId, clientKey) with
      | some d => { d with
          lastSeenAt := max d.lastSeenAt seenAt, firstSeenAt := min d.firstSeenAt seenAt }
      | none => ⟨integrationId, clientKey, name, kind, seenAt, seenAt, 0, 0, 0, 0⟩
    { t with devices := t.devices.upsert (row.count decision) }

/-- `_RECONCILE_WINDOW_SECONDS`. -/
def reconcileWindow : Timestamp := seconds (5 * 60)

/-- The closer of two candidates, the first of two equally close ones. -/
def closer (startedAt : Timestamp) (best : Option PlaybackSession) (s : PlaybackSession) :
    Option PlaybackSession :=
  match best with
  | none => some s
  | some b => if |s.startedAt - startedAt| < |b.startedAt - startedAt| then some s else some b

/-- `_find_matching_session`. -/
def findMatchingSession (t : Tables) (integrationId : String) (ratingKey : Option String)
    (startedAt : Timestamp) : Option String :=
  match ratingKey with
  | none => none
  | some key =>
      if key = "" then none
      else
        let candidates := t.sessions.rows.filter fun s =>
          s.integrationId = integrationId ∧ s.ratingKey = some key ∧
            startedAt - reconcileWindow ≤ s.startedAt ∧ s.startedAt ≤ startedAt + reconcileWindow
        (candidates.foldl (closer startedAt) none).map PlaybackSession.id

/-- `_mark_session_reconciled_by_id`.  A row that changes gets a new `last_event_at`. -/
def markSessionReconciledById (now : Timestamp) (sessionId : String) (t : Tables) : Tables :=
  { t with
    sessions := t.sessions.update (fun s => s.id = sessionId ∧ s.reconciledWithHistory = false)
      (fun s => { s with reconciledWithHistory := true, lastEventAt := now }) fun _ => rfl }

/-- The session that an event matches is marked. -/
def markMatched (now : Timestamp) (matched : Option String) (t : Tables) : Tables :=
  match matched with
  | some sessionId => markSessionReconciledById now sessionId t
  | none => t

/-! ### Paths -/

/-- The enabled global mappings, by priority and age. -/
def enabledMappings (t : Tables) : List GlobalPathMapping :=
  (t.globalMappings.filter (·.enabled)).mergeSort fun a b =>
    decide (a.priority < b.priority) ||
      (decide (a.priority = b.priority) && decide (a.createdAt ≤ b.createdAt))

/-- Those that are not empty, without trailing slashes. -/
def globalMappings (t : Tables) : List PathMapping :=
  ((enabledMappings t).filter fun r => r.fromPath ≠ "" ∧ r.toPath ≠ "").map fun r =>
    ⟨rstripSlash r.fromPath, rstripSlash r.toPath⟩

/-- `resolve_media_paths`, for one path. -/
def resolvePath (t : Tables) (path : String) : Option String :=
  ((t.media.filter fun m => m.path = path).getLast?).map (·.id)

/-! ### The history -/

/-- The row of an event. -/
def eventRow (integrationId : String) (mediaFileId matchedSessionId : Option String)
    (dto : PlaybackEventDto) : PlaybackEvent where
  integrationId := integrationId
  upstreamId := dto.upstreamId
  mediaFileId := mediaFileId
  sourcePath := dto.sourcePath
  deviceKind := dto.deviceKind
  deviceName := dto.deviceName
  decision := dto.decision
  reasonCode := dto.reasonCode
  sourceCodec := dto.sourceCodec
  sourceBitrateKbps := dto.sourceBitrateKbps
  sourceWidth := dto.sourceWidth
  sourceHeight := dto.sourceHeight
  sourceContainer := dto.sourceContainer
  targetCodec := dto.targetCodec
  targetBitrateKbps := dto.targetBitrateKbps
  startedAt := dto.startedAt
  completedAt := dto.completedAt
  durationS := dto.durationS
  reconciledWithSessionId := matchedSessionId

/-- There is an event row with the key. -/
def Tables.stored (t : Tables) (integrationId upstreamId : String) : Bool :=
  (t.events.find? (integrationId, upstreamId)).isSome

/-- The insertion of a row in a savepoint; `none` is its `IntegrityError`. -/
def insertEvent (row : PlaybackEvent) (t : Tables) : Option Tables :=
  if t.stored row.integrationId row.upstreamId then none
  else some { t with events := t.events.upsert row }

/-- The later of two instants. -/
def later (latest : Option Timestamp) (startedAt : Timestamp) : Option Timestamp :=
  match latest with
  | none => some startedAt
  | some instant => if instant < startedAt then some startedAt else some instant

/-- What the insert loop keeps. -/
structure Batch where
  tables : Tables
  inserted : Nat
  latestStartedAt : Option Timestamp
  latestSeenStartedAt : Option Timestamp

/-- The body of the insert loop. -/
def insertOne (now : Timestamp) (integrationId : String) (batch : Batch)
    (dto : PlaybackEventDto) : Batch :=
  let matched := findMatchingSession batch.tables integrationId dto.ratingKey dto.startedAt
  let row := eventRow integrationId (resolvePath batch.tables dto.sourcePath) matched dto
  match insertEvent row batch.tables with
  | some t =>
      { tables := markMatched now matched (upsertDevice lib integrationId dto.deviceKind dto.deviceName
          dto.decision dto.startedAt t)
        inserted := batch.inserted + 1
        latestStartedAt := later batch.latestStartedAt dto.startedAt
        latestSeenStartedAt := later batch.latestSeenStartedAt dto.startedAt }
  | none =>
      { batch with
        tables := markMatched now matched batch.tables
        latestSeenStartedAt := later batch.latestSeenStartedAt dto.startedAt }

/-- The insert loop. -/
def insertAll (now : Timestamp) (integrationId : String) (t : Tables)
    (dtos : List PlaybackEventDto) : Batch :=
  dtos.foldl (insertOne lib now integrationId) ⟨t, 0, none, none⟩

/-- `latest_started_at or latest_seen_started_at`. -/
def Batch.advanceTo (batch : Batch) : Option Timestamp :=
  batch.latestStartedAt.orElse fun _ => batch.latestSeenStartedAt

def advanceCursor (now : Timestamp) (integrationId : String) (batch : Batch) : Tables :=
  match batch.advanceTo with
  | some instant => upsertCursor now integrationId (instant - cursorSafetySkew) batch.tables
  | none => batch.tables

/-! ### What is playing -/

/-- `_live_session_eligible`. -/
def liveSessionEligible (now : Timestamp) (live : LivePlaybackDto) : Bool :=
  decide (seconds 30 ≤ now - live.startedAt) ||
    live.progressPct.any fun pct => PyFloat.le (.finite 90) pct

/-- The row of a session that is playing. -/
def liveRow (integrationId : String) (mediaFileId : Option String) (live : LivePlaybackDto) :
    PlaybackEvent where
  integrationId := integrationId
  upstreamId := "live:" ++ live.upstreamId
  mediaFileId := mediaFileId
  sourcePath := live.sourcePath
  deviceKind := live.deviceKind
  deviceName := live.deviceName
  decision := live.decision
  sourceCodec := live.sourceCodec
  sourceBitrateKbps := live.sourceBitrateKbps
  sourceWidth := live.sourceWidth
  sourceHeight := live.sourceHeight
  startedAt := live.startedAt

/-- One eligible session, unless there was a row for it before. -/
def mergeOne (integrationId : String) (before : Tables) (acc : Nat × Tables)
    (live : LivePlaybackDto) : Nat × Tables :=
  if before.stored integrationId ("live:" ++ live.upstreamId) then acc
  else match insertEvent (liveRow integrationId (resolvePath acc.2 live.sourcePath) live) acc.2 with
    | some t => (acc.1 + 1, upsertDevice lib integrationId live.deviceKind live.deviceName
        live.decision live.startedAt t)
    | none => acc

/-- `_merge_live_sessions`. -/
def mergeLiveSessions (poll : Poll) (integration : Integration) (t : Tables) : Nat × Tables :=
  match poll.lives with
  | none => (0, t)
  | some lives =>
      let remapped := lives.map fun live => { live with
        sourcePath := remapPathChain live.sourcePath (parseMappings integration.pathMappings)
          (globalMappings t) }
      (remapped.filter (liveSessionEligible poll.now)).foldl (mergeOne lib integration.id t) (0, t)

/-! ### The poll -/

/-- `_format_last_poll_detail`. -/
def formatLastPollDetail (outcome : PollOutcome) (now : Timestamp) : String :=
  let instant := lib.isoSeconds now
  let plural := if outcome.fetched ≠ 1 then "s" else ""
  if outcome.fetched = 0 then "Last poll: no events at " ++ instant
  else
    let counts := "Last poll: " ++ toString outcome.inserted ++ " of " ++
      toString outcome.fetched ++ " event" ++ plural ++ " ingested at " ++ instant
    if outcome.unresolved = 0 then counts
    else counts ++ " (" ++ toString outcome.resolved ++ " resolved, " ++
      toString outcome.unresolved ++ " unresolved — check path mappings)"

/-- The verdict on a batch, written to the integration. -/
def reportHealth (poll : Poll) (mappingsConfigured : Bool) (outcome : PollOutcome)
    (integration : Integration) : PollOutcome × Integration :=
  let drift : DriftReport := ⟨outcome.fetched, outcome.resolved, mappingsConfigured⟩
  if drift.driftSuspected then
    ({ outcome with driftSuspected := true },
      { integration with
        healthStatus := "degraded"
        healthDetail := some drift.detail
        healthCheckedAt := some poll.now })
  else
    (outcome, { integration with
      healthDetail := some (formatLastPollDetail lib outcome poll.now)
      healthCheckedAt := some poll.now })

/-- `poll_one` when the history has no events. -/
def pollQuiet (poll : Poll) (integration : Integration) (t : Tables) :
    (PollOutcome × Integration) × Tables :=
  let (synthesized, t') := mergeLiveSessions lib poll integration
    (touchCursor poll.now integration.id t)
  (({ integrationId := integration.id, fetched := synthesized, inserted := synthesized },
    integration), t')

/-- An event with its path as the library has it. -/
def remapEvent (integration : Integration) (t : Tables) (dto : PlaybackEventDto) :
    PlaybackEventDto :=
  { dto with
    sourcePath := remapPathChain dto.sourcePath (parseMappings integration.pathMappings)
      (globalMappings t) }

/-- `poll_one` when the history has events. -/
def pollHistory (poll : Poll) (integration : Integration) (dtos : List PlaybackEventDto)
    (t : Tables) : (PollOutcome × Integration) × Tables :=
  let igMappings := parseMappings integration.pathMappings
  let remapped := dtos.map (remapEvent integration t)
  let resolved := (remapped.filter fun dto =>
    (resolvePath t dto.sourcePath).any fun id => id ≠ "").length
  let batch := insertAll lib poll.now integration.id t remapped
  let (synthesized, t') := mergeLiveSessions lib poll integration
    (advanceCursor poll.now integration.id batch)
  let outcome : PollOutcome :=
    { integrationId := integration.id
      fetched := dtos.length + synthesized
      inserted := batch.inserted + synthesized
      resolved := resolved
      unresolved := (dtos.length : Int) - resolved }
  (reportHealth lib poll (!igMappings.isEmpty || !(globalMappings t).isEmpty) outcome integration, t')

/-- `poll_one`, with what it commits. -/
def pollOne (poll : Poll) (integration : Integration) (t : Tables) :
    Except String (PollOutcome × Integration) × Tables :=
  let outcome : PollOutcome := { integrationId := integration.id }
  if !poll.registered then
    (.ok ({ outcome with
      error := some ("no provider registered for kind=" ++ lib.repr integration.kind) },
      integration), t)
  else match poll.configError with
    | some text =>
        (.ok ({ outcome with error := some ("build_config failed: " ++ text) }, integration), t)
    | none => match poll.fetch (cursorOf t integration.id) with
      | .error .notImplemented => (.ok (outcome, integration), t)
      | .error (.raised text) => (.ok ({ outcome with error := some text }, integration), t)
      | .ok dtos => match poll.fault with
        | some text => (.error text, t)
        | none =>
            let (result, t') := match dtos with
              | [] => pollQuiet lib poll integration t
              | _ :: _ => pollHistory lib poll integration dtos t
            (.ok result, t')

end Poller

end PlaybackPoller
