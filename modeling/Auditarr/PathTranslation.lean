/-
  Auditarr/PathTranslation.lean
  =============================
  **One upstream path in four places** (`app/services/playback/poller.py`,
  `app/services/playback/session_manager.py`, `app/api/v1/playback.py`,
  `app/services/webhook_dispatcher.py`).

  The poller translates a path by the mappings of the integration, then by the global
  ones without their trailing slashes.  The writer of live sessions takes the global ones
  as they are stored.  The endpoint that lists the live sessions translates what is stored
  once more, and the webhook dispatcher leaves the global ones out.  `paths_agree_iff`
  says for which paths and mappings all four arrive at one place.
-/
import Auditarr.SessionManager

namespace PathTranslation

open KeyedTable PyValues PathMappings PlaybackPoller SessionManager

/-! ### The live endpoint -/

/-- `LivePlaybackDTO`, as the endpoint reads it. -/
structure LiveDto where
  upstreamId : String
  sourcePath : String
  decision : String
  state : String
  startedAt : Timestamp
  progressPct : Option PyFloat
  user : Option String
  deviceKind : Option String
  deviceName : Option String
  sourceCodec : Option String
  sourceBitrateKbps : Option Int
  sourceWidth : Option Int
  sourceHeight : Option Int
  sourceContainer : Option String
  targetCodec : Option String
  targetBitrateKbps : Option Int
  title : Option String

/-- An enabled integration, with what `fetch_live_playbacks` answers; `none` if there is no
    provider or method, or it raises. -/
structure EnabledIntegration where
  id : String
  name : String
  kind : String
  pathMappings : PyValue
  lives : Option (List LiveDto)

/-- `LivePlaybackSession`. -/
structure LivePlaybackSession where
  integrationId : String
  integrationName : String
  integrationKind : String
  upstreamId : String
  sourcePath : String
  decision : String
  state : String
  startedAt : Timestamp
  progressPct : Option PyFloat
  user : Option String
  deviceKind : Option String
  deviceName : Option String
  sourceCodec : Option String
  sourceBitrateKbps : Option Int
  sourceWidth : Option Int
  sourceHeight : Option Int
  sourceContainer : Option String
  targetCodec : Option String
  targetBitrateKbps : Option Int
  title : Option String
  mediaFileId : Option String

/-- `LivePlaybackResponse`, without its clock. -/
structure LivePlaybackResponse where
  sessions : List LivePlaybackSession
  total : Nat
  resolved : Nat
  unresolved : Nat

def stateName : SessionState → String
  | .playing => "playing"
  | .paused => "paused"
  | .buffering => "buffering"
  | .stopped => "stopped"

/-- The progress of a session in per cent, between 0 and 100. -/
def progressPct (viewOffsetMs durationMs : Option Int) : Option PyFloat :=
  match viewOffsetMs, durationMs with
  | some offset, some duration =>
      if duration = 0 then none
      else
        let pct := (PyFloat.scale (.ofExact ((offset : ℚ) / duration)) 100).roundTo 1
        let capped := if pct.lt (.finite 100) then pct else .finite 100
        some (if PyFloat.lt (.finite 0) capped then capped else .finite 0)
  | _, _ => none

/-- The path that the endpoint shows for a stored one. -/
def listedPath (t : Tables) (pathMappings : PyValue) (stored : String) : String :=
  if stored = "" then ""
  else remapPathChain stored (parseMappings pathMappings) (globalMappings t)

/-- A session that is listed from its row. -/
def sessionOfRow (t : Tables) (ig : EnabledIntegration) (row : PlaybackSession) :
    LivePlaybackSession where
  integrationId := row.integrationId
  integrationName := ig.name
  integrationKind := "plex"
  upstreamId := row.sessionKey
  sourcePath := listedPath t ig.pathMappings (row.sourcePath.getD "")
  decision := row.decision
  state := stateName row.state
  startedAt := row.startedAt
  progressPct := progressPct row.viewOffsetMs row.durationMs
  user := row.user
  deviceKind := row.deviceKind
  deviceName := row.deviceName
  sourceCodec := row.sourceCodec
  sourceBitrateKbps := row.sourceBitrateKbps
  sourceWidth := row.sourceWidth
  sourceHeight := row.sourceHeight
  sourceContainer := row.sourceContainer
  targetCodec := row.targetCodec
  targetBitrateKbps := row.targetBitrateKbps
  title := row.title
  mediaFileId := row.mediaFileId

/-- A session that is listed from the answer of its provider. -/
def sessionOfDto (t : Tables) (ig : EnabledIntegration) (dto : LiveDto) : LivePlaybackSession where
  integrationId := ig.id
  integrationName := ig.name
  integrationKind := ig.kind
  upstreamId := dto.upstreamId
  sourcePath := remapPathChain dto.sourcePath (parseMappings ig.pathMappings) (globalMappings t)
  decision := dto.decision
  state := dto.state
  startedAt := dto.startedAt
  progressPct := dto.progressPct
  user := dto.user
  deviceKind := dto.deviceKind
  deviceName := dto.deviceName
  sourceCodec := dto.sourceCodec
  sourceBitrateKbps := dto.sourceBitrateKbps
  sourceWidth := dto.sourceWidth
  sourceHeight := dto.sourceHeight
  sourceContainer := dto.sourceContainer
  targetCodec := dto.targetCodec
  targetBitrateKbps := dto.targetBitrateKbps
  title := dto.title
  mediaFileId := none

/-- The rows of the sessions of enabled Plex integrations that have not stopped. -/
def plexRows (t : Tables) (enabled : List EnabledIntegration) : List PlaybackSession :=
  t.sessions.rows.filter fun row =>
    row.state ≠ .stopped ∧ (enabled.any fun ig => ig.kind = "plex" ∧ ig.id = row.integrationId)

/-- A session listed from its row, looked up by its path if the row is not resolved. -/
def listedSession (t : Tables) (ig : EnabledIntegration) (row : PlaybackSession) :
    LivePlaybackSession :=
  let listed := sessionOfRow t ig row
  if listed.sourcePath ≠ "" ∧ listed.mediaFileId = none then
    { listed with mediaFileId := resolvePath t listed.sourcePath }
  else listed

/-- The sessions listed from the table. -/
def tableSessions (t : Tables) (enabled : List EnabledIntegration) : List LivePlaybackSession :=
  (plexRows t enabled).filterMap fun row =>
    (enabled.find? fun ig => ig.id = row.integrationId).map fun ig => listedSession t ig row

/-- The sessions listed from the providers: not of a Plex integration that the table has
    rows of. -/
def polledSessions (t : Tables) (enabled : List EnabledIntegration) : List LivePlaybackSession :=
  (enabled.filter fun ig => !(ig.kind = "plex" ∧
      ((plexRows t enabled).any fun row => row.integrationId = ig.id))).flatMap fun ig =>
    (ig.lives.getD []).map fun dto =>
      let listed := sessionOfDto t ig dto
      { listed with mediaFileId := resolvePath t listed.sourcePath }

/-- `list_live_playbacks`. -/
def listLivePlaybacks (t : Tables) (enabled : List EnabledIntegration) : LivePlaybackResponse :=
  let sessions := tableSessions t enabled ++ polledSessions t enabled
  let resolved := (sessions.filter fun s => s.mediaFileId.isSome).length
  ⟨sessions, sessions.length, resolved, sessions.length - resolved⟩

/-! ### The webhook dispatcher -/

/-- Library functions on values: `str` of one that is no string, and `repr`. -/
structure WebhookRuntime where
  str : PyValue → String
  repr : String → String

inductive WebhookAction where
  | reprobe | remove | ignored
deriving DecidableEq

/-- `WebhookOutcome`. -/
structure WebhookOutcome where
  kind : String
  event : String
  action : WebhookAction
  paths : List String
  detail : String := ""

section Dispatch

variable (rt : WebhookRuntime)

/-- `str(v)`. -/
def pyStr : PyValue → String
  | .str s => s
  | v => rt.str v

/-- `str(payload.get(key) or "").strip()`. -/
def eventType (payload : PyValue) (key : String) : Except PyError String := do
  let v ← payload.get key
  return strip (if v.truthy then pyStr rt v else "")

/-- The path of a dictionary that has one. -/
def pathIn (v : PyValue) (key : String) : List String :=
  match v with
  | .dict entries =>
      let path := (entries.lookup key).getD .none
      if path.truthy then [pyStr rt path] else []
  | _ => []

/-- `_extract_sonarr`. -/
def extractSonarr (payload : PyValue) : Except PyError (String × List String) := do
  let event ← eventType rt payload "eventType"
  let file ← payload.get "episodeFile"
  let files ← payload.get "episodeFiles"
  let entries ← files.orEmpty.iterate
  return (event, (pathIn rt file "path" ++ entries.flatMap (pathIn rt · "path")).filter (· ≠ ""))

/-- `_extract_radarr`. -/
def extractRadarr (payload : PyValue) : Except PyError (String × List String) := do
  let event ← eventType rt payload "eventType"
  let file ← payload.get "movieFile"
  return (event, (pathIn rt file "path").filter (· ≠ ""))

/-- `_extract_plex`. -/
def extractPlex (payload : PyValue) : Except PyError (String × List String) := do
  let event ← eventType rt payload "event"
  let metadata ← payload.get "Metadata"
  let media ← metadata.orDict.get "Media"
  let entries ← media.orEmpty.iterate
  let parts ← entries.mapM fun entry => do
    let part ← entry.orDict.get "Part"
    part.orEmpty.iterate
  return (event, (parts.flatten.flatMap (pathIn rt · "file")).filter (· ≠ ""))

/-- `_extract_jellyfin`. -/
def extractJellyfin (payload : PyValue) : Except PyError (String × List String) := do
  let event ← eventType rt payload "NotificationType"
  let item ← payload.get "Item"
  return (event, (pathIn rt item.orDict "Path").filter (· ≠ ""))

/-- `_EXTRACTORS`. -/
def extractor : String → Option (PyValue → Except PyError (String × List String))
  | "sonarr" => some (extractSonarr rt)
  | "radarr" => some (extractRadarr rt)
  | "plex" => some (extractPlex rt)
  | "jellyfin" => some (extractJellyfin rt)
  | _ => none

/-- `_ACTIONS`. -/
def actionOf : String → String → WebhookAction
  | "sonarr", "Download" => .reprobe
  | "sonarr", "Rename" => .reprobe
  | "sonarr", "EpisodeFileDelete" => .remove
  | "radarr", "Download" => .reprobe
  | "radarr", "Rename" => .reprobe
  | "radarr", "MovieFileDelete" => .remove
  | "plex", "library.new" => .reprobe
  | "jellyfin", "ItemAdded" => .reprobe
  | "jellyfin", "ItemUpdated" => .reprobe
  | "jellyfin", "ItemRemoved" => .remove
  | _, _ => .ignored

/-- The path that the dispatcher hands on for one of the payload. -/
def dispatchedPath (pathMappings : PyValue) (path : String) : String :=
  remapPath path (parseMappings pathMappings)

/-- `dispatch`, up to the handlers, which get the paths of the outcome one by one. -/
def dispatch (kind : String) (payload pathMappings : PyValue) : Except PyError WebhookOutcome :=
  match extractor rt kind with
  | none => .ok ⟨kind, "", .ignored, [], "unknown kind " ++ rt.repr kind⟩
  | some extract => do
      let (event, upstreamPaths) ← extract payload
      let action := actionOf kind event
      if action = .ignored ∨ upstreamPaths = [] then
        return { kind := kind, event := event, action := .ignored, paths := upstreamPaths }
      else
        return { kind := kind, event := event, action := action,
                 paths := upstreamPaths.map (dispatchedPath pathMappings) }

end Dispatch

/-! ### What a list of mappings leaves alone -/

/-- A path with the prefix exchanged. -/
def exchange (m : PathMapping) (path : String) : String :=
  m.dstPrefix ++ String.ofList (path.toList.drop m.srcPrefix.length)

/-- The first mapping that applies to the path, if any, has its two prefixes equal. -/
def Leaves (mappings : List PathMapping) (path : String) : Prop :=
  ∀ m, mappings.find? (·.applies path) = some m → m.dstPrefix = m.srcPrefix

/-- What the mappings of the integration make of the path, the global ones undo. -/
def ComesBack (integrationMappings globalMappings : List PathMapping) (path : String) : Prop :=
  ∀ m, integrationMappings.find? (·.applies path) = some m → m.dstPrefix = m.srcPrefix ∨
    ∃ g, globalMappings.find? (·.applies (exchange m path)) = some g ∧
      exchange g (exchange m path) = path

theorem eq_append_of_applies {m : PathMapping} {path : String} (h : m.applies path = true) :
    ∃ rest, path.toList = m.srcPrefix.toList ++ rest := by
  simp only [PathMapping.applies, Bool.or_eq_true, decide_eq_true_eq, List.isPrefixOf_iff_prefix] at h
  rcases h with rfl | ⟨rest, hrest⟩
  · exact ⟨[], (List.append_nil _).symm⟩
  · exact ⟨['/'] ++ rest, by rw [← hrest, List.append_assoc]⟩

theorem exchange_eq_self_iff {m : PathMapping} {path : String} (h : m.applies path = true) :
    exchange m path = path ↔ m.dstPrefix = m.srcPrefix := by
  obtain ⟨rest, hrest⟩ := eq_append_of_applies h
  have hdrop : path.toList.drop m.srcPrefix.length = rest := by
    rw [hrest, ← String.length_toList, List.drop_left]
  rw [← String.toList_inj, ← String.toList_inj, exchange, hdrop, String.toList_append,
    String.toList_ofList, hrest]
  exact List.append_left_inj rest

theorem remapPath_some {m : PathMapping} {mappings : List PathMapping} {path : String}
    (h : mappings.find? (·.applies path) = some m) : remapPath path mappings = exchange m path := by
  simp only [remapPath, h, exchange]

theorem remapPath_none {mappings : List PathMapping} {path : String}
    (h : mappings.find? (·.applies path) = none) : remapPath path mappings = path := by
  simp only [remapPath, h]

theorem remapPath_eq_self_iff {mappings : List PathMapping} {path : String} :
    remapPath path mappings = path ↔ Leaves mappings path := by
  cases h : mappings.find? (·.applies path) with
  | none =>
    apply iff_of_true (remapPath_none h)
    intro m hm
    rw [h] at hm
    cases hm
  | some m =>
    have happlies : m.applies path = true := by simpa using List.find?_some h
    rw [remapPath_some h, exchange_eq_self_iff happlies]
    simp [Leaves, h]

/-- The chain leaves a path alone that the global mappings leave alone, iff these undo what
    the mappings of the integration do. -/
theorem remapPathChain_eq_self_iff {integrationMappings globalMappings : List PathMapping}
    {path : String} (hglobal : Leaves globalMappings path) :
    remapPathChain path integrationMappings globalMappings = path ↔
      ComesBack integrationMappings globalMappings path := by
  cases h : integrationMappings.find? (·.applies path) with
  | none =>
    apply iff_of_true
    · rw [remapPathChain, remapPath_none h, remapPath_eq_self_iff]
      exact hglobal
    · intro m hm
      rw [h] at hm
      cases hm
  | some m =>
    have happlies : m.applies path = true := by simpa using List.find?_some h
    rw [remapPathChain, remapPath_some h]
    simp only [ComesBack, h, Option.some.injEq, forall_eq']
    by_cases hsame : m.dstPrefix = m.srcPrefix
    · apply iff_of_true _ (.inl hsame)
      rw [(exchange_eq_self_iff happlies).mpr hsame]
      exact remapPath_eq_self_iff.mpr hglobal
    · have hmoved := mt (exchange_eq_self_iff happlies).mp hsame
      cases hback : globalMappings.find? (·.applies (exchange m path)) with
      | none => simp [remapPath_none hback, hmoved, hsame]
      | some g => simp [remapPath_some hback, hsame]

theorem srcPrefix_ne_of_mem_parseMappings {v : PyValue} {m : PathMapping}
    (hm : m ∈ parseMappings v) : m.srcPrefix ≠ "" := by
  cases v with
  | list entries =>
    simp only [parseMappings, List.mem_mergeSort, List.mem_filterMap] at hm
    obtain ⟨entry, -, hentry⟩ := hm
    unfold parseEntry at hentry
    split at hentry
    · split at hentry
      · split at hentry
        · cases hentry
        · rename_i hprefixes
          cases hentry
          exact fun hempty => hprefixes (.inl hempty)
      · cases hentry
    · cases hentry
  | none => cases hm
  | bool b => cases hm
  | int n => cases hm
  | float x => cases hm
  | str s => cases hm
  | dict entries => cases hm

theorem find?_parseMappings_empty (v : PyValue) :
    (parseMappings v).find? (·.applies "") = none := by
  rw [List.find?_eq_none]
  intro m hm
  have hne := srcPrefix_ne_of_mem_parseMappings hm
  simp [PathMapping.applies, hne.symm]

/-! ### The four places -/

section Places

variable (ig : Integration) (t : Tables)

/-- The writer of the sessions of an integration. -/
def managerOf : SessionStateManager := ⟨ig.id, parseMappings ig.pathMappings⟩

/-- The chain, applied once. -/
def localPath (path : String) : String :=
  remapPathChain path (parseMappings ig.pathMappings) (globalMappings t)

theorem sourcePath_stored {m : SessionStateManager} {o : Occasion} {e : StateEvent} {t' : Tables}
    (h : handleStateEvent m o e t = (.ok (), t')) {enrichment : SessionEnrichment}
    (henriched : e.enrichment = some enrichment) {path : String}
    (hpath : enrichment.sourcePath = some path) :
    (sessionAt t' m.integrationId e.sessionKey).bind (·.sourcePath) = some (mappedPath m t path) := by
  rw [sessionAt_handled m h]
  cases sessionAt t m.integrationId e.sessionKey <;>
    simp [Values.written, Values.refreshed, Values.newRow, Values.column, valuesOf, henriched, hpath]

theorem sourcePath_listed {enabled : List EnabledIntegration} {row : PlaybackSession}
    {listing : EnabledIntegration} (hrow : row ∈ t.sessions) (hstate : row.state ≠ .stopped)
    (hlisting : enabled.find? (fun ig => ig.id = row.integrationId) = some listing)
    (hplex : listing.kind = "plex") : ∃ s ∈ (listLivePlaybacks t enabled).sessions,
      s.integrationId = row.integrationId ∧ s.upstreamId = row.sessionKey ∧
        s.sourcePath = listedPath t listing.pathMappings (row.sourcePath.getD "") := by
  have hid : listing.id = row.integrationId := by simpa using List.find?_some hlisting
  have hmem : row ∈ plexRows t enabled := by
    refine List.mem_filter.mpr ⟨hrow, ?_⟩
    simp only [decide_eq_true_eq, List.any_eq_true]
    exact ⟨hstate, listing, List.mem_of_find?_eq_some hlisting, hplex, hid⟩
  refine ⟨listedSession t listing row,
    List.mem_append_left _ (List.mem_filterMap.mpr ⟨row, hmem, ?_⟩), ?_⟩
  · rw [hlisting, Option.map_some]
  · simp only [listedSession]
    split <;> exact ⟨rfl, rfl, rfl⟩

/-- A webhook that is acted on hands on the paths of its payload, each mapped once by the
    mappings of the integration. -/
theorem paths_dispatched {rt : WebhookRuntime} {kind : String} {payload pathMappings : PyValue}
    {outcome : WebhookOutcome} (h : dispatch rt kind payload pathMappings = .ok outcome)
    (hacted : outcome.action ≠ .ignored) : ∃ extract event paths,
      extractor rt kind = some extract ∧ extract payload = .ok (event, paths) ∧
        outcome.paths = paths.map (dispatchedPath pathMappings) := by
  unfold dispatch at h
  split at h
  · cases h
    exact absurd rfl hacted
  · rename_i extract hextract
    cases hpayload : extract payload with
    | error exc =>
      rw [hpayload] at h
      cases h
    | ok found =>
      obtain ⟨event, paths⟩ := found
      rw [hpayload] at h
      refine ⟨extract, event, paths, hextract, hpayload, ?_⟩
      simp only [bind, Except.bind, pure, Except.pure] at h
      split at h
      · cases h
        exact absurd rfl hacted
      · cases h
        rfl

/-- All four places arrive at the path that the chain gives. -/
structure Agree (path : String) : Prop where
  polled : ∀ dto, dto.sourcePath = path → (remapEvent ig t dto).sourcePath = localPath ig t path
  streamed : mappedPath (managerOf ig) t path = localPath ig t path
  listed : listedPath t ig.pathMappings (mappedPath (managerOf ig) t path) = localPath ig t path
  dispatched : dispatchedPath ig.pathMappings path = localPath ig t path

/-- What the mappings of the integration make of the path is left alone by the global ones,
    with and without their trailing slashes, and by the chain. -/
structure Settled (path : String) : Prop where
  stripped : Leaves (globalMappings t) (remapPath path (parseMappings ig.pathMappings))
  stored : path ≠ "" →
    Leaves (loadGlobalMappings t) (remapPath path (parseMappings ig.pathMappings))
  again : ComesBack (parseMappings ig.pathMappings) (globalMappings t)
    (remapPath path (parseMappings ig.pathMappings))

theorem dispatched_iff (path : String) : dispatchedPath ig.pathMappings path = localPath ig t path ↔
    Leaves (globalMappings t) (remapPath path (parseMappings ig.pathMappings)) := by
  rw [← remapPath_eq_self_iff]
  exact eq_comm

theorem comesBack_empty : ComesBack (parseMappings ig.pathMappings) (globalMappings t) "" := by
  intro m hm
  rw [find?_parseMappings_empty] at hm
  cases hm

/-- The four places agree on a path iff what the integration's own mappings make of it is
    settled. -/
theorem paths_agree_iff (path : String) : Agree ig t path ↔ Settled ig t path := by
  constructor
  · rintro ⟨-, hstreamed, hlisted, hdispatched⟩
    have hstripped := (dispatched_iff ig t path).mp hdispatched
    have hlocal : localPath ig t path = remapPath path (parseMappings ig.pathMappings) :=
      remapPath_eq_self_iff.mpr hstripped
    rw [hstreamed] at hlisted
    refine ⟨hstripped, fun hpath => ?_, ?_⟩
    · rw [mappedPath, if_neg hpath, hlocal] at hstreamed
      exact remapPath_eq_self_iff.mp hstreamed
    · rw [hlocal] at hlisted
      by_cases hempty : remapPath path (parseMappings ig.pathMappings) = ""
      · rw [hempty]
        exact comesBack_empty ig t
      · rw [listedPath, if_neg hempty] at hlisted
        exact (remapPathChain_eq_self_iff hstripped).mp hlisted
  · rintro ⟨hstripped, hstored, hagain⟩
    have hlocal : localPath ig t path = remapPath path (parseMappings ig.pathMappings) :=
      remapPath_eq_self_iff.mpr hstripped
    have hstreamed : mappedPath (managerOf ig) t path = localPath ig t path := by
      rw [hlocal, mappedPath]
      split
      · rename_i hempty
        rw [hempty, remapPath_none (find?_parseMappings_empty _)]
      · rename_i hpath
        exact remapPath_eq_self_iff.mpr (hstored hpath)
    refine ⟨?_, hstreamed, ?_, (dispatched_iff ig t path).mpr hstripped⟩
    · rintro dto rfl
      rfl
    · rw [hstreamed, hlocal, listedPath]
      split
      · rename_i hempty
        exact hempty.symm
      · exact (remapPathChain_eq_self_iff hstripped).mpr hagain

end Places

/-! ### A global mapping into its own directory -/

def plexIntegration : Integration := ⟨"plex", "plex", .none, "ok", none, none⟩

/-- One global mapping, from `/media` to a directory below it. -/
def mediaTables : Tables :=
  { emptyTables with globalMappings := [⟨"/media", "/media/library", true, 0, 0⟩] }

/-- The endpoint enters the directory twice, and the dispatcher does not enter it. -/
theorem places_disagree :
    localPath plexIntegration mediaTables "/media/a.mkv" = "/media/library/a.mkv" ∧
    listedPath mediaTables plexIntegration.pathMappings
      (mappedPath (managerOf plexIntegration) mediaTables "/media/a.mkv") =
        "/media/library/library/a.mkv" ∧
    dispatchedPath plexIntegration.pathMappings "/media/a.mkv" = "/media/a.mkv" ∧
    ¬Agree plexIntegration mediaTables "/media/a.mkv" := by
  have hlocal : localPath plexIntegration mediaTables "/media/a.mkv" = "/media/library/a.mkv" := by
    decide +kernel
  have hdispatched : dispatchedPath plexIntegration.pathMappings "/media/a.mkv" = "/media/a.mkv" := by
    decide +kernel
  refine ⟨hlocal, by decide +kernel, hdispatched, fun hagree => ?_⟩
  have hsame := hagree.dispatched
  rw [hlocal, hdispatched] at hsame
  exact absurd hsame (by decide)

end PathTranslation
