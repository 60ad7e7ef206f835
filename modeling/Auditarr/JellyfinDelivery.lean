/-
  Auditarr/JellyfinDelivery.lean
  ==============================
  **Which plays of a Jellyfin server leave a row** (`plugins/jellyfin/backend.py`,
  `services/playback/poller.py`).

  The id of an event has the session and the item and nothing of the time, and an event whose
  id is stored is discarded: a session that plays an item again leaves no event for it.  And a
  session that is found playing long enough gets a live row beside the event, once.

  `one_row_each_iff` says which plays of a sequence of snapshots leave one row: the first of
  their session and item, if no live row is made of the session while it lasts, and of the
  others those during which the live row is made.
-/
import Auditarr.JellyfinSessions
import Auditarr.PlaybackAnalyzer

namespace JellyfinDelivery

open KeyedTable PyValues PlaybackPoller JellyfinSessions Runs
open PlaybackCursor (stored_iff stored_upsert sameEvents_upsertDevice fetchedBy pollOne_none)
open PlaybackCursor (insertEvent_eq_some insertEvent_eq_none)
open PlaybackAnalyzer (afterHistory eligibleLives pollOne_tables)

/-! ### What a poll stores -/

section Poll

variable (lib : PollerRuntime) {poll : Poll} {integration : Integration} {t before : Tables}
  {acc : Nat × Tables}

theorem stored_mergeOne {integrationId : String} (live : LivePlaybackDto)
    (hbefore : ∀ u, before.stored integrationId u = true → acc.2.stored integrationId u = true)
    (u : String) : (mergeOne lib integrationId before acc live).2.stored integrationId u = true ↔
      acc.2.stored integrationId u = true ∨ u = "live:" ++ live.upstreamId := by
  have hskip : acc.2.stored integrationId ("live:" ++ live.upstreamId) = true →
      (acc.2.stored integrationId u = true ↔
        acc.2.stored integrationId u = true ∨ u = "live:" ++ live.upstreamId) := by
    intro hstored
    refine ⟨.inl, ?_⟩
    rintro (h | rfl)
    · exact h
    · exact hstored
  unfold mergeOne
  split
  · next hold => exact hskip (hbefore _ hold)
  · split
    · next t hinsert =>
      obtain ⟨-, rfl⟩ := insertEvent_eq_some.mp hinsert
      rw [(sameEvents_upsertDevice lib ..).stored, stored_upsert, Bool.or_eq_true,
        Bool.and_eq_true, decide_eq_true_iff, decide_eq_true_iff]
      exact or_congr_right ⟨And.right, fun h => ⟨rfl, h⟩⟩
    · next hinsert => exact hskip (insertEvent_eq_none.mp hinsert)

theorem stored_mergeAll {integrationId : String} (acc : Nat × Tables) (lives : List LivePlaybackDto)
    (hbefore : ∀ u, before.stored integrationId u = true → acc.2.stored integrationId u = true)
    (u : String) :
    (final (mergeOne lib integrationId before) acc lives).2.stored integrationId u = true ↔
      acc.2.stored integrationId u = true ∨ ∃ live ∈ lives, u = "live:" ++ live.upstreamId := by
  induction lives generalizing acc with
  | nil => simp [final]
  | cons live rest ih =>
    have hone := stored_mergeOne lib live hbefore
    show (final _ (mergeOne lib integrationId before acc live) rest).2.stored integrationId u =
      true ↔ _
    rw [ih _ fun u hu => (hone u).mpr (.inl (hbefore u hu)), hone]
    simp only [List.mem_cons, exists_eq_or_imp, or_assoc]

theorem stored_afterHistory (dtos : List PlaybackEventDto) (u : String) :
    (afterHistory lib poll integration dtos t).stored integration.id u = true ↔
      t.stored integration.id u = true ∨ ∃ dto ∈ dtos, u = dto.upstreamId := by
  cases dtos with
  | nil =>
    show t.stored integration.id u = true ↔ _
    simp
  | cons dto rest => exact PlaybackCursor.stored_advanceCursor lib poll integration _ t u

theorem stored_pollOne {dtos : List PlaybackEventDto}
    (hfetched : fetchedBy poll integration t = some dtos) (u : String) :
    (pollOne lib poll integration t).2.stored integration.id u = true ↔
      t.stored integration.id u = true ∨ (∃ dto ∈ dtos, u = dto.upstreamId) ∨
        ∃ lives ∈ poll.lives, ∃ live ∈ lives, liveSessionEligible poll.now live = true ∧
          u = "live:" ++ live.upstreamId := by
  rw [pollOne_tables lib hfetched]
  refine (stored_mergeAll lib (0, afterHistory lib poll integration dtos t) _ (fun _ h => h)
    u).trans ?_
  rw [stored_afterHistory, or_assoc]
  refine or_congr_right (or_congr_right ?_)
  unfold eligibleLives
  cases poll.lives with
  | none => simp
  | some lives =>
    simp only [List.mem_filter, List.mem_map, Option.mem_def, Option.some.injEq, exists_eq_left']
    constructor
    · rintro ⟨-, ⟨⟨live, hlive, rfl⟩, heligible⟩, rfl⟩
      exact ⟨live, hlive, heligible, rfl⟩
    · rintro ⟨live, hlive, heligible, rfl⟩
      exact ⟨_, ⟨⟨live, hlive, rfl⟩, heligible⟩, rfl⟩

end Poll

/-! ### Snapshots -/

/-- What the server answers in a poll: the sessions of the last quarter of an hour, and those
    of the last minute. -/
structure Snapshot where
  now : Timestamp
  sessions : List PyValue
  recent : List PyValue

variable (rt : JellyfinRuntime)

/-- The poll of a snapshot. -/
def Snapshot.poll (s : Snapshot) : Poll where
  now := s.now
  registered := true
  configError := none
  fetch since := match fetchPlaybackEvents rt s.now s.sessions since with
    | .ok dtos => .ok dtos
    | .error exc => .error (.raised (rt.errorText exc))
  lives := (fetchLivePlaybacks rt s.now s.recent).toOption
  fault := none

/-- The ids that a poll of the snapshot is to store: those of the events of the history, and
    those of what is to be recorded live; none if the fetch of the history raises. -/
def recordedIds (s : Snapshot) : List String :=
  match fetchPlaybackEvents rt s.now s.sessions none with
  | .error _ => []
  | .ok dtos => dtos.map (·.upstreamId) ++ match fetchLivePlaybacks rt s.now s.recent with
    | .error _ => []
    | .ok lives => (lives.filter (liveSessionEligible s.now)).map ("live:" ++ ·.upstreamId)

/-- The session, the item and the entry of the session that plays it. -/
def PlaysItem (session : PyValue) (sessionId itemId : String) : Prop :=
  ∃ id item value, session.get "Id" = .ok id ∧ session.get "NowPlayingItem" = .ok item ∧
    item.get "Id" = .ok value ∧ rt.str id = sessionId ∧ rt.str value = itemId

/-- The session is seen playing the item. -/
def Seen (s : Snapshot) (sessionId itemId : String) : Prop :=
  ∃ session ∈ s.sessions, PlaysItem rt session sessionId itemId

/-- An uninterrupted play: the snapshots in which the session is seen playing the item, after
    one in which it is not and before another. -/
structure IsPlay (before play after : List Snapshot) (sessionId itemId : String) : Prop where
  seen : ∀ s ∈ play, Seen rt s sessionId itemId
  someSeen : play ≠ []
  notBefore : ∀ s ∈ before.getLast?, ¬Seen rt s sessionId itemId
  notAfter : ∀ s ∈ after.head?, ¬Seen rt s sessionId itemId

variable {rt}

/-! ### The ids of events -/

theorem id_eventOfParts (session item : PyValue) (upstreamId sourcePath : String)
    (cutoff : Timestamp) :
    (eventOfParts rt session item upstreamId sourcePath cutoff).map (·.upstreamId) =
      (eventOfParts rt session item upstreamId sourcePath 0).map fun _ => upstreamId := by
  simp only [eventOfParts, bind, Except.bind, pure, Except.pure]
  repeat' split
  all_goals rfl

/-- The id of the event that an entry is made into. -/
def idOf (outcome : Except PyError (Option PlaybackEventDto)) : Except PyError (Option String) :=
  outcome.map fun event => event.map (·.upstreamId)

theorem idOf_eventOfSession (rt : JellyfinRuntime) (session : PyValue) (cutoff : Timestamp) :
    idOf (eventOfSession rt session cutoff) = idOf (eventOfSession rt session 0) := by
  simp only [eventOfSession, bind, Except.bind, pure, Except.pure]
  repeat' split
  all_goals first | rfl | skip
  -- only the parts of the event look at the cutoff
  all_goals
    rename_i hcut _ _ hzero
    have hparts := (congrArg _ hcut).symm.trans
      ((id_eventOfParts session _ _ _ cutoff).trans
        ((id_eventOfParts session _ _ _ 0).symm.trans (congrArg _ hzero)))
    simp only [Except.map, Except.ok.injEq, Except.error.injEq, reduceCtorEq] at hparts
  · rw [hparts]
  · simp only [idOf, Except.map, Option.map, hparts]

theorem idOf_jellyfinSessionToEvent (session : PyValue) (cutoff : Timestamp) :
    idOf (jellyfinSessionToEvent rt session cutoff) =
      idOf (jellyfinSessionToEvent rt session 0) := by
  have hcut := idOf_eventOfSession rt session cutoff
  unfold jellyfinSessionToEvent
  cases hevent : eventOfSession rt session cutoff <;> cases hzero : eventOfSession rt session 0
  all_goals
    rw [hevent, hzero] at hcut
  · cases hcut
    rfl
  · cases hcut
  · cases hcut
  · exact hcut

theorem ids_of_mapM {f g : PyValue → Except PyError (Option PlaybackEventDto)}
    (h : ∀ session, idOf (f session) = idOf (g session)) (sessions : List PyValue) :
    (sessions.mapM f).map (fun events => (events.filterMap id).map (·.upstreamId)) =
      (sessions.mapM g).map (fun events => (events.filterMap id).map (·.upstreamId)) := by
  induction sessions with
  | nil => rfl
  | cons session rest ih =>
    have hhead := h session
    simp only [List.mapM_cons, bind, Except.bind, pure, Except.pure]
    cases hf : f session <;> cases hg : g session
    all_goals
      rw [hf, hg] at hhead
      simp only [idOf, Except.map, Except.ok.injEq, Except.error.injEq, reduceCtorEq] at hhead
    · rw [hhead]
    · cases hfs : rest.mapM f <;> cases hgs : rest.mapM g
      all_goals
        rw [hfs, hgs] at ih
        simp only [Except.map, Except.ok.injEq, Except.error.injEq, reduceCtorEq] at ih
      · rw [ih]
      · next first second _ _ =>
        cases first <;> cases second <;> simp_all [Except.map]

theorem ids_fetchPlaybackEvents (rt : JellyfinRuntime) (now : Timestamp)
    (sessions : List PyValue) (since : Option Timestamp) :
    (fetchPlaybackEvents rt now sessions since).map (fun dtos => dtos.map (·.upstreamId)) =
      (fetchPlaybackEvents rt now sessions none).map (fun dtos => dtos.map (·.upstreamId)) := by
  have hof : ∀ since, (fetchPlaybackEvents rt now sessions since).map
      (fun dtos => dtos.map (·.upstreamId)) =
        (sessions.mapM fun session => jellyfinSessionToEvent rt session (cutoffOf now since)).map
          (fun events => (events.filterMap id).map (·.upstreamId)) := by
    intro since
    unfold fetchPlaybackEvents
    cases sessions.mapM fun session => jellyfinSessionToEvent rt session (cutoffOf now since)
    all_goals rfl
  rw [hof, hof]
  refine ids_of_mapM (fun session => ?_) sessions
  rw [idOf_jellyfinSessionToEvent, ← idOf_jellyfinSessionToEvent session (cutoffOf now none)]

/-! ### Polls of snapshots -/

section Polls

variable (rt) (lib : PollerRuntime) (integration : Integration)

/-- The tables after the poll of a snapshot. -/
def next (t : Tables) (s : Snapshot) : Tables := (pollOne lib (s.poll rt) integration t).2

/-- The rows of a session and an item: that of its event, and that of its live playback. -/
def rowsOf (t : Tables) (sessionId itemId : String) : Nat :=
  t.events.rows.countP fun e =>
    e.key = (integration.id, upstreamIdOf sessionId itemId) ∨
      e.key = (integration.id, "live:" ++ sessionId)

/-- The row with the id is made while the play lasts: it was not there at the start, no poll
    before the play made it, and one during the play does. -/
def MadeDuring (t : Tables) (before play : List Snapshot) (upstreamId : String) : Prop :=
  t.stored integration.id upstreamId = false ∧ (∀ s ∈ before, upstreamId ∉ recordedIds rt s) ∧
    ∃ s ∈ play, upstreamId ∈ recordedIds rt s

instance (t : Tables) (before play : List Snapshot) (upstreamId : String) :
    Decidable (MadeDuring rt integration t before play upstreamId) :=
  inferInstanceAs (Decidable (_ ∧ _ ∧ _))

theorem stored_next (t : Tables) (s : Snapshot) (u : String) :
    (next rt lib integration t s).stored integration.id u = true ↔
      t.stored integration.id u = true ∨ u ∈ recordedIds rt s := by
  have hids := ids_fetchPlaybackEvents rt s.now s.sessions (cursorOf t integration.id)
  unfold next recordedIds
  cases hzero : fetchPlaybackEvents rt s.now s.sessions none with
  | error err =>
    rw [hzero] at hids
    cases hsince : fetchPlaybackEvents rt s.now s.sessions (cursorOf t integration.id) with
    | ok dtos => rw [hsince] at hids; cases hids
    | error err' =>
      have hnone : fetchedBy (s.poll rt) integration t = none := by
        simp [fetchedBy, Snapshot.poll, hsince]
      rw [pollOne_none lib hnone]
      simp
  | ok dtos =>
    rw [hzero] at hids
    cases hsince : fetchPlaybackEvents rt s.now s.sessions (cursorOf t integration.id) with
    | error err => rw [hsince] at hids; cases hids
    | ok fetched =>
      rw [hsince] at hids
      simp only [Except.map, Except.ok.injEq] at hids
      have hsome : fetchedBy (s.poll rt) integration t = some fetched := by
        simp [fetchedBy, Snapshot.poll, hsince]
      rw [stored_pollOne lib hsome, List.mem_append, ← hids, List.mem_map]
      refine or_congr_right (or_congr ?_ ?_)
      · simp only [eq_comm]
      · show (∃ lives ∈ (fetchLivePlaybacks rt s.now s.recent).toOption, _) ↔ _
        cases fetchLivePlaybacks rt s.now s.recent with
        | error err => simp [Except.toOption]
        | ok lives =>
          show (∃ lives' ∈ some lives, ∃ live ∈ lives', liveSessionEligible s.now live = true ∧
            u = "live:" ++ live.upstreamId) ↔ _
          simp only [Option.mem_some_iff, exists_eq_left', List.mem_map, List.mem_filter, and_assoc,
            eq_comm (a := u)]

theorem stored_final (t : Tables) (run : List Snapshot) (u : String) :
    (final (next rt lib integration) t run).stored integration.id u = true ↔
      t.stored integration.id u = true ∨ ∃ s ∈ run, u ∈ recordedIds rt s := by
  induction run generalizing t with
  | nil => simp [final]
  | cons s rest ih =>
    show (final _ (next rt lib integration t s) rest).stored integration.id u = true ↔ _
    rw [ih, stored_next, or_assoc]
    simp only [List.mem_cons, exists_eq_or_imp]

variable {integration} in
theorem eventKey_ne_liveKey (sessionId itemId : String) :
    ((integration.id, upstreamIdOf sessionId itemId) : String × String) ≠
      (integration.id, "live:" ++ sessionId) := by
  intro heq
  have hchars := congrArg (fun key => key.2.toList.head?) heq
  simp [upstreamIdOf] at hchars

theorem rowsOf_eq (t : Tables) (sessionId itemId : String) :
    rowsOf integration t sessionId itemId =
      (if t.stored integration.id (upstreamIdOf sessionId itemId) then 1 else 0) +
        (if t.stored integration.id ("live:" ++ sessionId) then 1 else 0) :=
  Table.countP_keys t.events (eventKey_ne_liveKey sessionId itemId)

theorem stored_during (t : Tables) (before play : List Snapshot) (u : String) :
    (if (final (next rt lib integration) t (before ++ play)).stored integration.id u
      then 1 else 0) =
    (if (final (next rt lib integration) t before).stored integration.id u then 1 else 0) +
      if MadeDuring rt integration t before play u then 1 else 0 := by
  have hplay := stored_final rt lib integration t (before ++ play) u
  have hbefore := stored_final rt lib integration t before u
  have hmade : MadeDuring rt integration t before play u ↔
      ¬(t.stored integration.id u = true ∨ ∃ s ∈ before, u ∈ recordedIds rt s) ∧
        ∃ s ∈ play, u ∈ recordedIds rt s := by
    unfold MadeDuring
    rw [not_or, Bool.not_eq_true, and_assoc]
    simp only [not_exists, not_and]
  simp only [List.mem_append, or_and_right, exists_or, ← or_assoc, ← hbefore] at hplay
  rw [← hbefore] at hmade
  simp only [hmade, hplay]
  by_cases hold : (final (next rt lib integration) t before).stored integration.id u = true
  · simp [hold]
  · simp [hold]

/-- **One row for each play.** The plays of a sequence of snapshots leave a row each iff the
    event of each, or the live playback of its session, is a row that is made while it lasts,
    and not both are. -/
theorem one_row_each_iff (rt : JellyfinRuntime) (lib : PollerRuntime) (integration : Integration)
    (t : Tables) (history : List Snapshot) :
    (∀ sessionId itemId before play after, history = before ++ play ++ after →
      IsPlay rt before play after sessionId itemId →
        rowsOf integration (final (next rt lib integration) t (before ++ play)) sessionId itemId =
          rowsOf integration (final (next rt lib integration) t before) sessionId itemId + 1) ↔
    ∀ sessionId itemId before play after, history = before ++ play ++ after →
      IsPlay rt before play after sessionId itemId →
        Xor (MadeDuring rt integration t before play (upstreamIdOf sessionId itemId))
          (MadeDuring rt integration t before play ("live:" ++ sessionId)) := by
  refine forall_congr' fun sessionId => forall_congr' fun itemId => forall_congr' fun before =>
    forall_congr' fun play => forall_congr' fun after => forall_congr' fun _ =>
      forall_congr' fun _ => ?_
  have hevent := stored_during rt lib integration t before play (upstreamIdOf sessionId itemId)
  have hlive := stored_during rt lib integration t before play ("live:" ++ sessionId)
  rw [rowsOf_eq, rowsOf_eq, hevent, hlive]
  unfold Xor
  by_cases hfirst : MadeDuring rt integration t before play (upstreamIdOf sessionId itemId) <;>
    by_cases hsecond : MadeDuring rt integration t before play ("live:" ++ sessionId) <;>
      simp only [hfirst, hsecond] <;> simp <;> omega

end Polls

/-! ### An item played again -/

def plainLibrary : JellyfinRuntime where
  lower s := s
  isUpper := Char.isUpper
  str
    | .str s => s
    | _ => ""
  fromIsoFormat _ := none
  errorText _ := ""

def noHash : PollerRuntime where
  repr s := s
  sha1Prefix s := s
  isoSeconds _ := ""

def jellyfin : Integration where
  id := "jf"
  kind := "jellyfin"
  pathMappings := .none
  healthStatus := "ok"
  healthDetail := none
  healthCheckedAt := none

def noTables : Tables where
  events := .empty
  cursors := .empty
  sessions := .empty
  devices := .empty
  globalMappings := []
  media := []

/-- A session plays an item, as both lists have it. -/
def playing (now : Timestamp) : Snapshot :=
  let entry : PyValue := .dict [("Id", .str "tv"),
    ("NowPlayingItem", .dict [("Id", .str "film"), ("Path", .str "/films/film.mkv")])]
  { now := now, sessions := [entry], recent := [entry] }

def idle (now : Timestamp) : Snapshot where
  now := now
  sessions := []
  recent := []

theorem recordedIds_playing (now : Timestamp) :
    recordedIds plainLibrary (playing now) = ["jellyfin:tv:film"] := by
  have hlive : fetchLivePlaybacks plainLibrary now (playing now).recent = .ok [{
      upstreamId := "tv", sourcePath := "/films/film.mkv", decision := "direct_play",
      startedAt := now, progressPct := none, deviceKind := none, deviceName := none,
      sourceCodec := none, sourceBitrateKbps := none, sourceWidth := none,
      sourceHeight := none }] := rfl
  have hids : recordedIds plainLibrary (playing now) = ["jellyfin:tv:film"] ++
      match fetchLivePlaybacks plainLibrary now (playing now).recent with
      | .error _ => []
      | .ok lives => (lives.filter (liveSessionEligible now)).map ("live:" ++ ·.upstreamId) := rfl
  rw [hids, hlive]
  simp [liveSessionEligible]
  -- it has just been started, as far as the entry says
  exact (by decide : (0 : Timestamp) < seconds 30)

/-- A film that is seen playing, then not, then playing again leaves one row. -/
theorem second_play_leaves_no_row :
    ¬∀ (rt : JellyfinRuntime) (lib : PollerRuntime) (integration : Integration) (t : Tables)
      (history : List Snapshot) (sessionId itemId : String) (before play after : List Snapshot),
      history = before ++ play ++ after → IsPlay rt before play after sessionId itemId →
        rowsOf integration (final (next rt lib integration) t (before ++ play)) sessionId itemId =
          rowsOf integration (final (next rt lib integration) t before) sessionId itemId + 1 := by
  intro hclaim
  let before := [playing 0, idle (seconds 900)]
  let play := [playing (seconds 1800)]
  have hplay : IsPlay plainLibrary before play [] "tv" "film" := by
    refine ⟨?_, List.cons_ne_nil _ _, ?_, ?_⟩
    · intro s hs
      rw [List.mem_singleton.mp hs]
      exact ⟨_, List.mem_singleton.mpr rfl, _, _, _, rfl, rfl, rfl, rfl, rfl⟩
    · rintro s hs ⟨session, hsession, -⟩
      cases hs
      cases hsession
    · intro s hs
      cases hs
  have hone := hclaim plainLibrary noHash jellyfin noTables _ "tv" "film" before play [] rfl hplay
  have hevent : ¬MadeDuring plainLibrary jellyfin noTables before play
      (upstreamIdOf "tv" "film") := by
    rintro ⟨-, hfresh, -⟩
    exact hfresh (playing 0) (List.mem_cons_self ..) (by rw [recordedIds_playing]; decide)
  have hlive : ¬MadeDuring plainLibrary jellyfin noTables before play ("live:" ++ "tv") := by
    rintro ⟨-, -, s, hs, hmade⟩
    rw [List.mem_singleton.mp hs, recordedIds_playing] at hmade
    revert hmade
    decide
  rw [rowsOf_eq, rowsOf_eq, stored_during, stored_during, if_neg hevent, if_neg hlive] at hone
  omega

end JellyfinDelivery
