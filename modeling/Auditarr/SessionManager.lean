/-
  Auditarr/SessionManager.lean
  ============================
  **The writer of live sessions** (`app/services/playback/session_manager.py`).

  An event of the stream names a session by its key and tells its state.  The manager of
  an integration inserts a row for a key it has not seen, and updates the row otherwise:
  the state and the offset always, the time of the stop when the event is a stop, and
  what is known of the play where the event brings it.  One event is one transaction.

  The writer is meant to be safe against replays, since the stream repeats events after a
  reconnect.  All columns but the time of the stop are (`replay_iff`).
-/
import Auditarr.PlaybackPoller

namespace SessionManager

open KeyedTable PathMappings PlaybackPoller

/-! ### Events -/

/-- `SessionEnrichment`. -/
structure SessionEnrichment where
  decision : String
  sourcePath : Option String
  title : Option String
  grandparentTitle : Option String
  user : Option String
  deviceKind : Option String
  deviceName : Option String
  sourceCodec : Option String
  sourceBitrateKbps : Option Int
  sourceWidth : Option Int
  sourceHeight : Option Int
  sourceContainer : Option String
  targetCodec : Option String
  targetBitrateKbps : Option Int
  durationMs : Option Int
  reasonCode : Option String := none

/-- The arguments of `handle_state_event`. -/
structure StateEvent where
  sessionKey : String
  state : String
  viewOffsetMs : Option Int
  enrichment : Option SessionEnrichment
  ratingKey : Option String

/-- What the world adds to one call: the clock when it begins and when it flushes, the id
    drawn for a new row, and the exception of a query, the flush or the commit. -/
structure Occasion where
  now : Timestamp
  flushedAt : Timestamp
  newId : String
  fault : Option String

structure SessionStateManager where
  integrationId : String
  integrationMappings : List PathMapping

/-- A state that is not known counts as playing. -/
def knownState : String → SessionState
  | "paused" => .paused
  | "buffering" => .buffering
  | "stopped" => .stopped
  | _ => .playing

/-- `_load_global_mappings`. -/
def loadGlobalMappings (t : Tables) : List PathMapping :=
  (enabledMappings t).map fun r => ⟨r.fromPath, r.toPath⟩

/-- The `values` of an upsert.  A column that is not among them and one that is `None`
    are treated alike. -/
structure Values where
  integrationId : String
  sessionKey : String
  state : SessionState
  viewOffsetMs : Option Int
  lastEventAt : Timestamp
  stoppedAt : Option Timestamp
  ratingKey : Option String
  mediaFileId : Option String
  enrichment : Option SessionEnrichment

/-- A column of the enrichment. -/
def Values.column {α : Type} (v : Values) (field : SessionEnrichment → Option α) : Option α :=
  v.enrichment.bind field

section Manager

variable (m : SessionStateManager)

/-- The path of an event as the library has it; an empty one is left alone. -/
def mappedPath (t : Tables) (path : String) : String :=
  if path = "" then path
  else remapPathChain path m.integrationMappings (loadGlobalMappings t)

/-- The file at the path of an enrichment that has one. -/
def mediaFileOf (t : Tables) (enrichment : SessionEnrichment) : Option String :=
  enrichment.sourcePath.bind fun path =>
    if path = "" then none else resolvePath t (mappedPath m t path)

def valuesOf (o : Occasion) (e : StateEvent) (t : Tables) : Values where
  integrationId := m.integrationId
  sessionKey := e.sessionKey
  state := knownState e.state
  viewOffsetMs := e.viewOffsetMs
  lastEventAt := o.now
  stoppedAt := if knownState e.state = .stopped then some o.now else none
  ratingKey := e.ratingKey.filter (· ≠ "")
  mediaFileId := e.enrichment.bind (mediaFileOf m t)
  enrichment := e.enrichment.map fun enrichment =>
    { enrichment with sourcePath := enrichment.sourcePath.map (mappedPath m t) }

/-- The row of a session, if it has one. -/
def sessionAt (t : Tables) (integrationId sessionKey : String) : Option PlaybackSession :=
  t.sessions.rows.find? fun s => s.integrationId = integrationId ∧ s.sessionKey = sessionKey

/-- The `UPDATE` of `_upsert`. -/
def Values.refreshed (v : Values) (row : PlaybackSession) : PlaybackSession :=
  { row with
    state := v.state
    lastEventAt := v.lastEventAt
    viewOffsetMs := v.viewOffsetMs
    stoppedAt := v.stoppedAt <|> row.stoppedAt
    decision := (v.enrichment.map (·.decision)).getD row.decision
    reasonCode := v.column (·.reasonCode) <|> row.reasonCode
    sourcePath := v.column (·.sourcePath) <|> row.sourcePath
    title := v.column (·.title) <|> row.title
    grandparentTitle := v.column (·.grandparentTitle) <|> row.grandparentTitle
    user := v.column (·.user) <|> row.user
    deviceKind := v.column (·.deviceKind) <|> row.deviceKind
    deviceName := v.column (·.deviceName) <|> row.deviceName
    sourceCodec := v.column (·.sourceCodec) <|> row.sourceCodec
    sourceBitrateKbps := v.column (·.sourceBitrateKbps) <|> row.sourceBitrateKbps
    sourceWidth := v.column (·.sourceWidth) <|> row.sourceWidth
    sourceHeight := v.column (·.sourceHeight) <|> row.sourceHeight
    sourceContainer := v.column (·.sourceContainer) <|> row.sourceContainer
    targetCodec := v.column (·.targetCodec) <|> row.targetCodec
    targetBitrateKbps := v.column (·.targetBitrateKbps) <|> row.targetBitrateKbps
    durationMs := v.column (·.durationMs) <|> row.durationMs
    mediaFileId := v.mediaFileId <|> row.mediaFileId
    ratingKey := v.ratingKey <|> row.ratingKey }

theorem Values.refreshed_id (v : Values) (row : PlaybackSession) : (v.refreshed row).id = row.id :=
  rfl

/-- The `INSERT` of `_upsert`. -/
def Values.newRow (v : Values) (o : Occasion) : PlaybackSession where
  id := o.newId
  integrationId := v.integrationId
  mediaFileId := v.mediaFileId
  sessionKey := v.sessionKey
  ratingKey := v.ratingKey
  state := v.state
  decision := (v.enrichment.map (·.decision)).getD "direct_play"
  reasonCode := v.column (·.reasonCode)
  sourcePath := v.column (·.sourcePath)
  title := v.column (·.title)
  grandparentTitle := v.column (·.grandparentTitle)
  user := v.column (·.user)
  deviceKind := v.column (·.deviceKind)
  deviceName := v.column (·.deviceName)
  sourceCodec := v.column (·.sourceCodec)
  sourceBitrateKbps := v.column (·.sourceBitrateKbps)
  sourceWidth := v.column (·.sourceWidth)
  sourceHeight := v.column (·.sourceHeight)
  sourceContainer := v.column (·.sourceContainer)
  targetCodec := v.column (·.targetCodec)
  targetBitrateKbps := v.column (·.targetBitrateKbps)
  viewOffsetMs := v.viewOffsetMs
  durationMs := v.column (·.durationMs)
  startedAt := o.flushedAt
  lastEventAt := v.lastEventAt
  stoppedAt := v.stoppedAt
  reconciledWithHistory := false

/-- The tables with the row of a session refreshed. -/
def refresh (v : Values) (row : PlaybackSession) (t : Tables) : Tables :=
  { t with sessions := t.sessions.update (fun s => s.id = row.id) v.refreshed v.refreshed_id }

/-- `_upsert`; `none` if the id of the new row is taken. -/
def upsert (v : Values) (o : Occasion) (t : Tables) : Option Tables :=
  match sessionAt t v.integrationId v.sessionKey with
  | some row => some (refresh v row t)
  | none =>
      if (t.sessions.find? o.newId).isSome then none
      else some { t with sessions := t.sessions.upsert (v.newRow o) }

/-- `handle_state_event`, with what it commits. -/
def handleStateEvent (o : Occasion) (e : StateEvent) (t : Tables) : Except String Unit × Tables :=
  match o.fault with
  | some text => (.error text, t)
  | none => match upsert (valuesOf m o e t) o t with
    | some t' => (.ok (), t')
    | none => (.error "UNIQUE constraint failed: playback_sessions.id", t)

/-! ### What one event does -/

theorem handleStateEvent_ok {o : Occasion} {e : StateEvent} {t t' : Tables} :
    handleStateEvent m o e t = (.ok (), t') ↔
      o.fault = none ∧ upsert (valuesOf m o e t) o t = some t' := by
  simp only [handleStateEvent]
  cases o.fault with
  | some text => simp
  | none =>
    cases upsert (valuesOf m o e t) o t with
    | some _ => simp
    | none => simp

theorem handleStateEvent_error {o : Occasion} {e : StateEvent} {t t' : Tables} {text : String}
    (h : handleStateEvent m o e t = (.error text, t')) : t' = t := by
  simp only [handleStateEvent] at h
  split at h
  · exact (congrArg Prod.snd h).symm
  · split at h
    · cases h
    · exact (congrArg Prod.snd h).symm

theorem upsert_known {v : Values} {o : Occasion} {t t' : Tables} {row : PlaybackSession}
    (hrow : sessionAt t v.integrationId v.sessionKey = some row) :
    upsert v o t = some t' ↔ refresh v row t = t' := by
  simp only [upsert, hrow, Option.some.injEq]

theorem upsert_new {v : Values} {o : Occasion} {t t' : Tables}
    (hrow : sessionAt t v.integrationId v.sessionKey = none) :
    upsert v o t = some t' ↔ t.sessions.find? o.newId = none ∧
      { t with sessions := t.sessions.upsert (v.newRow o) } = t' := by
  simp only [upsert, hrow]
  cases t.sessions.find? o.newId with
  | none => simp
  | some _ => simp

theorem mem_of_sessionAt {t : Tables} {integrationId sessionKey : String} {row : PlaybackSession}
    (h : sessionAt t integrationId sessionKey = some row) :
    row ∈ t.sessions ∧ row.integrationId = integrationId ∧ row.sessionKey = sessionKey := by
  refine ⟨List.mem_of_find?_eq_some h, ?_⟩
  simpa using List.find?_some h

/-- The row of the session afterwards: the old one refreshed, or the new one. -/
def Values.written (v : Values) (o : Occasion) (old : Option PlaybackSession) : PlaybackSession :=
  match old with
  | some row => v.refreshed row
  | none => v.newRow o

theorem sessionAt_upsert {v : Values} {o : Occasion} {t t' : Tables}
    (h : upsert v o t = some t') : sessionAt t' v.integrationId v.sessionKey =
      some (v.written o (sessionAt t v.integrationId v.sessionKey)) := by
  cases hrow : sessionAt t v.integrationId v.sessionKey with
  | some row =>
    rw [upsert_known hrow] at h
    subst h
    have hsame : sessionAt (refresh v row t) v.integrationId v.sessionKey =
        (sessionAt t v.integrationId v.sessionKey).map
          fun s => if s.id = row.id then v.refreshed s else s := by
      simp only [sessionAt, refresh, Table.update, List.find?_map, decide_eq_true_eq]
      refine congrArg (Option.map _) (congrArg (List.find? · t.sessions.rows) ?_)
      funext s
      by_cases hid : s.id = row.id <;> simp [hid, Values.refreshed]
    rw [hsame, hrow]
    simp [Values.written]
  | none =>
    rw [upsert_new hrow] at h
    obtain ⟨hfresh, rfl⟩ := h
    have hnew : ¬∃ s ∈ t.sessions.rows, s.id = (v.newRow o).id := by
      rintro ⟨s, hs, hid⟩
      exact Table.find?_eq_none.mp hfresh s hs hid
    simp only [sessionAt] at hrow ⊢
    rw [Table.rows_upsert_new hnew, List.find?_append, hrow]
    simp [Values.newRow, Values.written]

theorem upsert_elsewhere {v : Values} {o : Occasion} {t t' : Tables} (h : upsert v o t = some t') :
    ∃ sessions, t' = { t with sessions := sessions } := by
  cases hrow : sessionAt t v.integrationId v.sessionKey with
  | some row =>
    rw [upsert_known hrow] at h
    exact ⟨_, h.symm⟩
  | none =>
    rw [upsert_new hrow] at h
    exact ⟨_, h.2.symm⟩

/-! ### Replays -/

/-- A row without the time of its last event. -/
def withoutLastEvent (row : PlaybackSession) : PlaybackSession := { row with lastEventAt := 0 }

theorem valuesOf_again (o o' : Occasion) (e : StateEvent) (t : Tables)
    (sessions : Table PlaybackSession.id) :
    valuesOf m o' e { t with sessions := sessions } = { valuesOf m o e t with
      lastEventAt := o'.now
      stoppedAt := if knownState e.state = .stopped then some o'.now else none } := rfl

theorem refreshed_again (v : Values) (o : Occasion) (old : Option PlaybackSession)
    (lastEventAt : Timestamp) (stoppedAt : Option Timestamp) :
    { v with lastEventAt := lastEventAt, stoppedAt := stoppedAt }.refreshed (v.written o old) =
      { v.written o old with
        lastEventAt := lastEventAt
        stoppedAt := stoppedAt <|> (v.written o old).stoppedAt } := by
  have hkeeps : ∀ {α : Type} (x y : Option α), (x <|> (x <|> y)) = (x <|> y) := by
    intro α x y
    cases x <;> rfl
  have hagain : ∀ {α : Type} (x : Option α), (x <|> x) = x := by
    intro α x
    cases x <;> rfl
  have hdecision : ∀ (x : Option String) (y : String), x.getD (x.getD y) = x.getD y := by
    intro x y
    cases x <;> rfl
  cases old with
  | some row =>
    simp only [Values.written, Values.refreshed, Values.column, hkeeps, hdecision]
  | none =>
    simp only [Values.written, Values.refreshed, Values.newRow, Values.column, hagain, hdecision]

theorem withoutLastEvent_stoppedAt {row : PlaybackSession} {lastEventAt : Timestamp}
    {stoppedAt : Option Timestamp} :
    withoutLastEvent { row with lastEventAt := lastEventAt, stoppedAt := stoppedAt } =
      withoutLastEvent row ↔ stoppedAt = row.stoppedAt := by
  constructor
  · intro h
    exact congrArg PlaybackSession.stoppedAt h
  · intro h
    rw [h]
    rfl

theorem stoppedAt_written {o : Occasion} {e : StateEvent} {t : Tables} {old : Option PlaybackSession}
    (hstop : knownState e.state = .stopped) :
    ((valuesOf m o e t).written o old).stoppedAt = some o.now := by
  cases old <;> simp [Values.written, Values.refreshed, Values.newRow, valuesOf, hstop]

theorem replayed_iff (o o' : Occasion) (e : StateEvent) (t : Tables)
    (sessions : Table PlaybackSession.id) (old : Option PlaybackSession) :
    withoutLastEvent ((valuesOf m o' e { t with sessions := sessions }).refreshed
        ((valuesOf m o e t).written o old)) =
      withoutLastEvent ((valuesOf m o e t).written o old) ↔
        knownState e.state ≠ .stopped ∨ o'.now = o.now := by
  rw [valuesOf_again m o o', refreshed_again, withoutLastEvent_stoppedAt]
  by_cases hstop : knownState e.state = .stopped
  · rw [stoppedAt_written m hstop]
    simp [hstop]
  · simp [hstop]

theorem sessionAt_handled {o : Occasion} {e : StateEvent} {t t' : Tables}
    (h : handleStateEvent m o e t = (.ok (), t')) :
    sessionAt t' m.integrationId e.sessionKey = some ((valuesOf m o e t).written o
      (sessionAt t m.integrationId e.sessionKey)) :=
  sessionAt_upsert ((handleStateEvent_ok m).mp h).2

theorem handled_known {o : Occasion} {e : StateEvent} {t : Tables} {row : PlaybackSession}
    (hrow : sessionAt t m.integrationId e.sessionKey = some row) (hfault : o.fault = none) :
    handleStateEvent m o e t = (.ok (), refresh (valuesOf m o e t) row t) :=
  (handleStateEvent_ok m).mpr ⟨hfault, (upsert_known hrow).mpr rfl⟩

/-- An event that is applied again leaves its row as it was, its last event apart, iff it
    is not a stop that is replayed at another instant. -/
theorem replay_iff {o : Occasion} {e : StateEvent} {t t1 : Tables}
    (h : handleStateEvent m o e t = (.ok (), t1)) (o' : Occasion) :
    (sessionAt (handleStateEvent m o' e t1).2 m.integrationId e.sessionKey).map withoutLastEvent =
        (sessionAt t1 m.integrationId e.sessionKey).map withoutLastEvent ↔
      o'.fault ≠ none ∨ knownState e.state ≠ .stopped ∨ o'.now = o.now := by
  have hrow := sessionAt_handled m h
  cases hfault : o'.fault with
  | some text =>
    apply iff_of_true
    · simp only [handleStateEvent, hfault]
    · exact .inl nofun
  | none =>
    have hagain := handled_known m hrow hfault
    obtain ⟨sessions, ht1⟩ := upsert_elsewhere ((handleStateEvent_ok m).mp h).2
    have hrow' := sessionAt_handled m hagain
    rw [hrow] at hrow'
    rw [hagain, hrow', hrow, Option.map_some, Option.map_some, Option.some.injEq, ht1]
    simpa [Values.written] using replayed_iff m o o' e t sessions _

end Manager

/-! ### A stop that is replayed -/

/-- An integration without mappings. -/
def plexManager : SessionStateManager := ⟨"plex", []⟩

def stopEvent : StateEvent := ⟨"12", "stopped", some 900, none, none⟩

/-- A call in which nothing raises. -/
def quietly (now : Timestamp) (newId : String) : Occasion := ⟨now, now, newId, none⟩

/-- Tables in which there is nothing. -/
def emptyTables : Tables := ⟨.empty, .empty, .empty, .empty, [], []⟩

/-- What the stop leaves. -/
def stoppedOnce : Tables := (handleStateEvent plexManager (quietly (seconds 10) "s1") stopEvent
  emptyTables).2

/-- What it leaves when the stream repeats it. -/
def stoppedTwice : Tables := (handleStateEvent plexManager (quietly (seconds 20) "s2") stopEvent
  stoppedOnce).2

theorem replay_iff_stop : (sessionAt stoppedTwice "plex" "12").map withoutLastEvent =
      (sessionAt stoppedOnce "plex" "12").map withoutLastEvent ↔
    (none : Option String) ≠ none ∨ knownState "stopped" ≠ .stopped ∨ seconds 20 = seconds 10 :=
  have hstop : handleStateEvent plexManager (quietly (seconds 10) "s1") stopEvent emptyTables =
    (.ok (), stoppedOnce) := by rfl
  replay_iff plexManager hstop (quietly (seconds 20) "s2")

/-- Replayed ten seconds later, a stop moves the time of the stop by ten seconds. -/
theorem stop_moves_on_replay :
    (handleStateEvent plexManager (quietly (seconds 10) "s1") stopEvent emptyTables).1.isOk ∧
    (handleStateEvent plexManager (quietly (seconds 20) "s2") stopEvent stoppedOnce).1.isOk ∧
    (sessionAt stoppedOnce "plex" "12").bind (·.stoppedAt) = some (seconds 10) ∧
    (sessionAt stoppedTwice "plex" "12").bind (·.stoppedAt) = some (seconds 20) ∧
    (sessionAt stoppedTwice "plex" "12").map withoutLastEvent ≠
      (sessionAt stoppedOnce "plex" "12").map withoutLastEvent := by
  decide

end SessionManager
