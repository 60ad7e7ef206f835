/-
  Auditarr/PlaybackAnalyzer.lean
  ==============================
  **What the analyzer counts** (`app/services/playback/analyzer.py`).

  A play leaves records: the row of its session, an event of the history, an event that was
  made of it while it was playing.  The analyzer takes the sessions that have stopped and
  the events that are not reconciled with a session, each if its file is known and it
  started in the window.  An event made of a live session is never reconciled, and an event
  that is reconciled counts no more, whether its session counts or not.

  `counted_once_iff` says for which runs of the poller, the writer of sessions and the sweep
  each play counts once: every record but a history event reconciled with its own session
  is the first of its play, and the record that stands for the play counts.
-/
import Auditarr.PlaybackCursor
import Auditarr.SessionLifecycle

namespace PlaybackAnalyzer

open KeyedTable PathMappings PlaybackPoller SessionManager Runs
open PlaybackCursor (fetchedBy pollOne_none pollOne_some upsertDevice_frame insertEvent_eq_some)
open SessionLifecycle (SweepOccasion sweepStuckSessions)

/-! ### The population -/

/-- `ANALYSIS_WINDOW_DAYS`. -/
def analysisWindow : Timestamp := seconds (30 * 24 * 3600)

/-- `MIN_EVENTS_TOTAL`. -/
def minEventsTotal : Nat := 20

/-- `_PlaybackRow`. -/
inductive PlaybackRow where
  | session (s : PlaybackSession)
  | event (e : PlaybackEvent)

/-- The session counts: it has stopped, it started in the window and its file is known. -/
def sessionCounts (cutoff : Timestamp) (s : PlaybackSession) : Bool :=
  decide (s.state = .stopped ∧ cutoff ≤ s.startedAt ∧ s.mediaFileId ≠ none)

/-- The event counts: it started in the window, its file is known, and it is not reconciled. -/
def eventCounts (cutoff : Timestamp) (e : PlaybackEvent) : Bool :=
  decide (cutoff ≤ e.startedAt ∧ e.mediaFileId ≠ none ∧ e.reconciledWithSessionId = none)

/-- The rows that `analyze` combines. -/
def rowsSince (cutoff : Timestamp) (t : Tables) : List PlaybackRow :=
  (t.sessions.rows.filter (sessionCounts cutoff)).map .session ++
    (t.events.rows.filter (eventCounts cutoff)).map .event

/-- `AnalysisOutcome`, up to the heuristics. -/
structure AnalysisOutcome where
  examinedEvents : Nat
  examinedEventsTotal : Nat
  examinedEventsResolved : Nat
  examinedEventsUnresolved : Nat
  skippedTooFewEvents : Bool

/-- `analyze`, up to the heuristics: what it reports, and what it hands to them. -/
def analyze (now : Timestamp) (t : Tables) : AnalysisOutcome × Option (List PlaybackRow) :=
  let cutoff := now - analysisWindow
  let total := (t.events.rows.filter fun e => cutoff ≤ e.startedAt).length +
    (t.sessions.rows.filter fun s => cutoff ≤ s.startedAt ∧ s.state = .stopped).length
  let rows := rowsSince cutoff t
  let skipped := decide (rows.length < minEventsTotal)
  (⟨rows.length, total, rows.length, total - rows.length, skipped⟩, if skipped then none else some rows)

/-! ### Plays -/

/-- The plays that records are of, named by `π`: of a session by its id, of an event by its
    key, with the time at which each play started. -/
structure Plays (π : Type) where
  session : String → π
  event : String × String → π
  startedAt : π → Timestamp

def Plays.row {π : Type} (plays : Plays π) : PlaybackRow → π
  | .session s => plays.session s.id
  | .event e => plays.event e.key

/-- The file of the event is known, and the event is not reconciled. -/
def StandsAlone (e : PlaybackEvent) : Prop :=
  e.mediaFileId ≠ none ∧ e.reconciledWithSessionId = none

theorem eventCounts_iff {cutoff : Timestamp} {e : PlaybackEvent} :
    eventCounts cutoff e = true ↔ cutoff ≤ e.startedAt ∧ StandsAlone e := by
  rw [eventCounts, decide_eq_true_iff, StandsAlone]

/-- There is a session with the id. -/
def HasSession (t : Tables) (id : String) : Prop := (t.sessions.find? id).isSome = true

section Plays

variable {π : Type} (plays : Plays π)

/-- No session is of the play, and no event that stands alone. -/
structure FirstOf (t : Tables) (p : π) : Prop where
  session : ∀ id, HasSession t id → plays.session id ≠ p
  event : ∀ e ∈ t.events, StandsAlone e → plays.event e.key ≠ p

/-- The play started in the window, and its file is known to one of its records. -/
def InScope (cutoff : Timestamp) (t : Tables) (p : π) : Prop :=
  cutoff ≤ plays.startedAt p ∧
    ((∃ s ∈ t.sessions, plays.session s.id = p ∧ s.mediaFileId ≠ none) ∨
      ∃ e ∈ t.events, plays.event e.key = p ∧ e.mediaFileId ≠ none)

/-- The record that stands for the play counts: its session, or an event if it has none. -/
def Represented (cutoff : Timestamp) (t : Tables) (p : π) : Prop :=
  (∃ s ∈ t.sessions, plays.session s.id = p ∧ sessionCounts cutoff s = true) ∨
    ((∀ s ∈ t.sessions, plays.session s.id ≠ p) ∧
      ∃ e ∈ t.events, plays.event e.key = p ∧ cutoff ≤ e.startedAt ∧ e.mediaFileId ≠ none)

/-- How many rows the play contributes. -/
def contributions [DecidableEq π] (cutoff : Timestamp) (t : Tables) (p : π) : Nat :=
  (rowsSince cutoff t).countP fun row => plays.row row = p

/-! ### What keeps plays apart -/

/-- Of every play there is one session at most, or one event that stands alone, and the
    events that are reconciled are of plays that have a session. -/
structure Apart (t : Tables) : Prop where
  sessions : ∀ a b, HasSession t a → HasSession t b → plays.session a = plays.session b → a = b
  events : ∀ e ∈ t.events, ∀ e' ∈ t.events, StandsAlone e → StandsAlone e' →
    plays.event e.key = plays.event e'.key → e = e'
  apart : ∀ id, HasSession t id → ∀ e ∈ t.events, StandsAlone e → plays.session id ≠ plays.event e.key
  linked : ∀ e ∈ t.events, e.reconciledWithSessionId ≠ none →
    ∃ id, HasSession t id ∧ plays.session id = plays.event e.key

/-- The row is of a play whose session it is reconciled with, or it is the first record that
    can count of its play, or it cannot count. -/
def RowApart (t : Tables) (row : PlaybackEvent) : Prop :=
  match row.reconciledWithSessionId with
  | some id => plays.session id = plays.event row.key
  | none => row.mediaFileId ≠ none → FirstOf plays t (plays.event row.key)

variable {plays} {t t' : Tables} {cutoff : Timestamp} {p : π}

theorem hasSession_of_mem {s : PlaybackSession} (hs : s ∈ t.sessions) : HasSession t s.id := by
  rw [HasSession, Table.find?_eq_some.mpr ⟨hs, rfl⟩]
  rfl

theorem HasSession.exists {id : String} (h : HasSession t id) : ∃ s ∈ t.sessions, s.id = id := by
  obtain ⟨s, hs⟩ := Option.isSome_iff_exists.mp h
  exact ⟨s, Table.mem_of_find? hs⟩

theorem countP_eq_one_iff {ρ : Type} {rows : List ρ} {q : ρ → Bool} (hnodup : rows.Nodup)
    (hone : ∀ a ∈ rows, ∀ b ∈ rows, q a = true → q b = true → a = b) :
    rows.countP q = 1 ↔ ∃ a ∈ rows, q a = true := by
  rw [List.countP_eq_length_filter]
  have hfilter : ∀ a ∈ rows.filter q, ∀ b ∈ rows.filter q, a = b := by
    intro a ha b hb
    obtain ⟨ha, hqa⟩ := List.mem_filter.mp ha
    obtain ⟨hb, hqb⟩ := List.mem_filter.mp hb
    exact hone a ha b hb hqa hqb
  have hdiffer : (rows.filter q).Nodup := hnodup.filter _
  have hmem : (∃ a ∈ rows, q a = true) ↔ ∃ a, a ∈ rows.filter q := by
    simp only [List.mem_filter]
  rw [hmem]
  generalize rows.filter q = found at hfilter hdiffer
  cases found with
  | nil => simp
  | cons a rest =>
    cases rest with
    | nil => simp
    | cons b rest =>
      have hab : a = b := hfilter a (by simp) b (by simp)
      simp [hab] at hdiffer

theorem contributions_eq [DecidableEq π] : contributions plays cutoff t p =
    (t.sessions.rows.countP fun s => decide (plays.session s.id = p) && sessionCounts cutoff s) +
      t.events.rows.countP fun e => decide (plays.event e.key = p) && eventCounts cutoff e := by
  rw [contributions, rowsSince, List.countP_append, List.countP_map, List.countP_map,
    List.countP_filter, List.countP_filter]
  rfl

theorem contributions_eq_one_iff [DecidableEq π] (h : Apart plays t) :
    contributions plays cutoff t p = 1 ↔ Represented plays cutoff t p := by
  rw [contributions_eq]
  have hsessions := countP_eq_one_iff (q := fun s => decide (plays.session s.id = p) &&
    sessionCounts cutoff s) (List.Nodup.of_map _ t.sessions.unique) (by
      intro a ha b hb hqa hqb
      simp only [Bool.and_eq_true, decide_eq_true_eq] at hqa hqb
      exact Table.eq_of_key_eq ha hb (h.sessions _ _ (hasSession_of_mem ha) (hasSession_of_mem hb)
        (hqa.1.trans hqb.1.symm)))
  have hevents := countP_eq_one_iff (q := fun e => decide (plays.event e.key = p) &&
    eventCounts cutoff e) (List.Nodup.of_map _ t.events.unique) (by
      intro a ha b hb hqa hqb
      simp only [Bool.and_eq_true, decide_eq_true_eq, eventCounts_iff] at hqa hqb
      exact h.events a ha b hb hqa.2.2 hqb.2.2 (hqa.1.trans hqb.1.symm))
  by_cases hplay : ∃ s ∈ t.sessions, plays.session s.id = p
  · obtain ⟨s, hs, hp⟩ := hplay
    have hnone : (t.events.rows.countP fun e => decide (plays.event e.key = p) &&
        eventCounts cutoff e) = 0 := by
      rw [List.countP_eq_zero]
      intro e he hq
      simp only [Bool.and_eq_true, decide_eq_true_eq, eventCounts_iff] at hq
      exact h.apart s.id (hasSession_of_mem hs) e he hq.2.2 (hp.trans hq.1.symm)
    rw [hnone, Nat.add_zero, hsessions]
    constructor
    · rintro ⟨s', hs', hq⟩
      simp only [Bool.and_eq_true, decide_eq_true_eq] at hq
      exact .inl ⟨s', hs', hq⟩
    · rintro (⟨s', hs', hp', hq⟩ | ⟨hnot, -⟩)
      · exact ⟨s', hs', by simp [hp', hq]⟩
      · exact absurd hp (hnot s hs)
  · have hnot : ∀ s ∈ t.sessions, plays.session s.id ≠ p := fun s hs hp => hplay ⟨s, hs, hp⟩
    have hnone : (t.sessions.rows.countP fun s => decide (plays.session s.id = p) &&
        sessionCounts cutoff s) = 0 := by
      rw [List.countP_eq_zero]
      intro s hs hq
      simp only [Bool.and_eq_true, decide_eq_true_eq] at hq
      exact hnot s hs hq.1
    rw [hnone, Nat.zero_add, hevents]
    constructor
    · rintro ⟨e, he, hq⟩
      simp only [Bool.and_eq_true, decide_eq_true_eq, eventCounts_iff] at hq
      exact .inr ⟨hnot, e, he, hq.1, hq.2.1, hq.2.2.1⟩
    · rintro (⟨s, hs, hp, -⟩ | ⟨-, e, he, hp, hcutoff, hmedia⟩)
      · exact absurd hp (hnot s hs)
      · refine ⟨e, he, ?_⟩
        have halone : e.reconciledWithSessionId = none := by
          by_contra hlinked
          obtain ⟨id, hid, hsame⟩ := h.linked e he hlinked
          obtain ⟨s, hs, rfl⟩ := hid.exists
          exact hnot s hs (hsame.trans hp)
        rw [Bool.and_eq_true, decide_eq_true_eq, eventCounts_iff]
        exact ⟨hp, hcutoff, hmedia, halone⟩

/-! ### What each writer does to them -/

/-- The events are the same, and there are sessions with the same ids. -/
structure SameRecords (t t' : Tables) : Prop where
  events : t'.events = t.events
  sessions : ∀ id, HasSession t' id ↔ HasSession t id

theorem SameRecords.trans {t'' : Tables} (h : SameRecords t t') (h' : SameRecords t' t'') :
    SameRecords t t'' :=
  ⟨h'.events.trans h.events, fun id => (h'.sessions id).trans (h.sessions id)⟩

theorem SameRecords.apart (hsame : SameRecords t t') (h : Apart plays t) : Apart plays t' := by
  constructor
  · intro a b ha hb
    exact h.sessions a b ((hsame.sessions a).mp ha) ((hsame.sessions b).mp hb)
  · rw [hsame.events]
    exact h.events
  · rw [hsame.events]
    intro id hid
    exact h.apart id ((hsame.sessions id).mp hid)
  · rw [hsame.events]
    intro e he hlinked
    obtain ⟨id, hid, hp⟩ := h.linked e he hlinked
    exact ⟨id, (hsame.sessions id).mpr hid, hp⟩

theorem sameRecords_update (q : PlaybackSession → Bool) (f : PlaybackSession → PlaybackSession)
    (hkey : ∀ s, (f s).id = s.id) (t : Tables) :
    SameRecords t { t with sessions := t.sessions.update q f hkey } := by
  refine ⟨rfl, fun id => ?_⟩
  simp only [HasSession, Table.find?_update, Option.isSome_map]

theorem sameRecords_upsertDevice (lib : PollerRuntime) (integrationId : String)
    (kind name : Option String) (decision : String) (seenAt : Timestamp) (t : Tables) :
    SameRecords t (upsertDevice lib integrationId kind name decision seenAt t) := by
  obtain ⟨devices, hframe⟩ :=
    upsertDevice_frame lib integrationId kind name decision seenAt t
  rw [hframe]
  exact ⟨rfl, fun _ => Iff.rfl⟩

theorem sameRecords_markMatched (now : Timestamp) (matched : Option String) (t : Tables) :
    SameRecords t (markMatched now matched t) := by
  cases matched with
  | none => exact ⟨rfl, fun _ => Iff.rfl⟩
  | some id => exact sameRecords_update _ _ _ t

theorem sameRecords_sweep (o : SweepOccasion) (t : Tables) :
    SameRecords t (sweepStuckSessions o t) := by
  unfold sweepStuckSessions
  split
  · exact ⟨rfl, fun _ => Iff.rfl⟩
  · exact sameRecords_update _ _ _ t

theorem apart_insertEvent {row : PlaybackEvent} (h : Apart plays t)
    (hinsert : insertEvent row t = some t')
    (hmatched : ∀ id, row.reconciledWithSessionId = some id → HasSession t id)
    (hrow : RowApart plays t row) : Apart plays t' := by
  obtain ⟨-, rfl⟩ := insertEvent_eq_some.mp hinsert
  have hfirst : StandsAlone row → FirstOf plays t (plays.event row.key) := by
    rintro ⟨hmedia, halone⟩
    simp only [RowApart, halone] at hrow
    exact hrow hmedia
  constructor
  · exact h.sessions
  · intro e he e' he' halone halone' hplay
    rcases Table.mem_upsert.mp he with heq | ⟨hold, -⟩
    · rcases Table.mem_upsert.mp he' with heq' | ⟨hold', -⟩
      · exact heq.trans heq'.symm
      · rw [heq] at halone hplay
        exact absurd hplay.symm ((hfirst halone).event e' hold' halone')
    · rcases Table.mem_upsert.mp he' with heq' | ⟨hold', -⟩
      · rw [heq'] at halone' hplay
        exact absurd hplay ((hfirst halone').event e hold halone)
      · exact h.events e hold e' hold' halone halone' hplay
  · intro id hid e he halone
    rcases Table.mem_upsert.mp he with rfl | ⟨hold, -⟩
    · exact (hfirst halone).session id hid
    · exact h.apart id hid e hold halone
  · intro e he hlinked
    rcases Table.mem_upsert.mp he with rfl | ⟨hold, -⟩
    · obtain ⟨id, hid⟩ := Option.ne_none_iff_exists'.mp hlinked
      simp only [RowApart, hid] at hrow
      exact ⟨id, hmatched id hid, hrow⟩
    · exact h.linked e hold hlinked

theorem apart_newSession {s : PlaybackSession} (h : Apart plays t)
    (hfirst : FirstOf plays t (plays.session s.id)) :
    Apart plays { t with sessions := t.sessions.upsert s } := by
  have hsession : ∀ id, HasSession { t with sessions := t.sessions.upsert s } id ↔
      id = s.id ∨ HasSession t id := by
    intro id
    simp only [HasSession, Table.find?_upsert]
    by_cases hid : id = s.id <;> simp [hid]
  constructor
  · intro a b ha hb hplay
    obtain rfl | ha := (hsession a).mp ha
    · obtain rfl | hb := (hsession b).mp hb
      · rfl
      · exact absurd hplay.symm (hfirst.session b hb)
    · obtain rfl | hb := (hsession b).mp hb
      · exact absurd hplay (hfirst.session a ha)
      · exact h.sessions a b ha hb hplay
  · exact h.events
  · intro id hid e he halone
    obtain rfl | hid := (hsession id).mp hid
    · exact (hfirst.event e he halone).symm
    · exact h.apart id hid e he halone
  · intro e he hlinked
    obtain ⟨id, hid, hplay⟩ := h.linked e he hlinked
    exact ⟨id, (hsession id).mpr (.inr hid), hplay⟩

theorem hasSession_of_match {integrationId id : String} {ratingKey : Option String}
    {startedAt : Timestamp} (h : findMatchingSession t integrationId ratingKey startedAt = some id) :
    HasSession t id := by
  have hfold : ∀ (rows : List PlaybackSession) (best : Option PlaybackSession) (s : PlaybackSession),
      rows.foldl (closer startedAt) best = some s → best = some s ∨ s ∈ rows := by
    intro rows
    induction rows with
    | nil => exact fun best s hs => .inl hs
    | cons first rest ih =>
      intro best s hs
      rcases ih _ s hs with hbest | hrest
      · unfold closer at hbest
        split at hbest
        · cases hbest
          exact .inr (List.mem_cons_self ..)
        · split at hbest
          · cases hbest
            exact .inr (List.mem_cons_self ..)
          · exact .inl hbest
      · exact .inr (List.mem_cons_of_mem _ hrest)
  unfold findMatchingSession at h
  split at h
  · cases h
  · split at h
    · cases h
    · obtain ⟨s, hs, rfl⟩ := Option.map_eq_some_iff.mp h
      rcases hfold _ _ s hs with hnone | hmem
      · cases hnone
      · exact hasSession_of_mem (t := t) (List.mem_of_mem_filter hmem)

end Plays

/-! ### Runs -/

/-- The tables once a poll has recorded the history. -/
def afterHistory (lib : PollerRuntime) (poll : Poll) (integration : Integration)
    (dtos : List PlaybackEventDto) (t : Tables) : Tables :=
  match dtos with
  | [] => touchCursor poll.now integration.id t
  | _ :: _ => advanceCursor poll.now integration.id
      (insertAll lib poll.now integration.id t (dtos.map (remapEvent integration t)))

/-- What is playing and is to be recorded. -/
def eligibleLives (poll : Poll) (integration : Integration) (t : Tables) : List LivePlaybackDto :=
  match poll.lives with
  | none => []
  | some lives => (lives.map fun live => { live with
      sourcePath := remapPathChain live.sourcePath (parseMappings integration.pathMappings)
        (globalMappings t) }).filter (liveSessionEligible poll.now)

/-- What changes the tables: a poll, an event of the stream, the sweep, and what the scanner
    and the settings page write. -/
inductive Step where
  | poll (poll : Poll) (integration : Integration)
  | event (m : SessionStateManager) (o : Occasion) (e : StateEvent)
  | sweep (o : SweepOccasion)
  | elsewhere (media : List Database.MediaFile) (mappings : List GlobalPathMapping)

section Runs

variable (lib : PollerRuntime) {π : Type} (plays : Plays π)

def next (t : Tables) : Step → Tables
  | .poll poll integration => (pollOne lib poll integration t).2
  | .event m o e => (handleStateEvent m o e t).2
  | .sweep o => sweepStuckSessions o t
  | .elsewhere media mappings => { t with media := media, globalMappings := mappings }

/-- An event of the history that has no row yet gets one that stays apart. -/
def HistoryApart (integrationId : String) (batch : Batch) (dto : PlaybackEventDto) : Prop :=
  batch.tables.stored integrationId dto.upstreamId = false →
    RowApart plays batch.tables (eventRow integrationId (resolvePath batch.tables dto.sourcePath)
      (findMatchingSession batch.tables integrationId dto.ratingKey dto.startedAt) dto)

/-- What is playing and has no row yet gets one that stays apart. -/
def LiveApart (integrationId : String) (before : Tables) (acc : Nat × Tables)
    (live : LivePlaybackDto) : Prop :=
  before.stored integrationId ("live:" ++ live.upstreamId) = false →
    RowApart plays acc.2 (liveRow integrationId (resolvePath acc.2 live.sourcePath) live)

/-- What a poll records stays apart. -/
def PollApart (poll : Poll) (integration : Integration) (t : Tables) : Prop :=
  ∀ dtos, fetchedBy poll integration t = some dtos →
    Throughout (insertOne lib poll.now integration.id) (HistoryApart plays integration.id)
        ⟨t, 0, none, none⟩ (dtos.map (remapEvent integration t)) ∧
      Throughout (mergeOne lib integration.id (afterHistory lib poll integration dtos t))
        (LiveApart plays integration.id (afterHistory lib poll integration dtos t))
        (0, afterHistory lib poll integration dtos t)
        (eligibleLives poll integration (afterHistory lib poll integration dtos t))

/-- A session that the event inserts is the first record of its play that can count. -/
def SessionApart (m : SessionStateManager) (o : Occasion) (e : StateEvent) (t : Tables) : Prop :=
  o.fault = none → sessionAt t m.integrationId e.sessionKey = none → t.sessions.find? o.newId = none →
    FirstOf plays t (plays.session o.newId)

/-- What a step records stays apart. -/
def Recorded (t : Tables) : Step → Prop
  | .poll poll integration => PollApart lib plays poll integration t
  | .event m o e => SessionApart plays m o e t
  | .sweep _ => True
  | .elsewhere _ _ => True

variable {plays}

theorem apart_insertOne {now : Timestamp} {integrationId : String} {batch : Batch}
    {dto : PlaybackEventDto} (h : Apart plays batch.tables)
    (hdto : HistoryApart plays integrationId batch dto) :
    Apart plays (insertOne lib now integrationId batch dto).tables := by
  unfold insertOne
  dsimp only
  split
  · rename_i t hinsert
    have hnew : batch.tables.stored integrationId dto.upstreamId = false :=
      (insertEvent_eq_some.mp hinsert).1
    have hrow := apart_insertEvent h hinsert (fun id hid => hasSession_of_match hid) (hdto hnew)
    exact ((sameRecords_upsertDevice ..).trans (sameRecords_markMatched ..)).apart hrow
  · exact (sameRecords_markMatched ..).apart h

theorem apart_mergeOne {integrationId : String} {before : Tables} {acc : Nat × Tables}
    {live : LivePlaybackDto} (h : Apart plays acc.2)
    (hlive : LiveApart plays integrationId before acc live) :
    Apart plays (mergeOne lib integrationId before acc live).2 := by
  unfold mergeOne
  split
  · exact h
  · rename_i hnew
    split
    · rename_i t hinsert
      exact (sameRecords_upsertDevice ..).apart
        (apart_insertEvent h hinsert nofun (hlive (Bool.not_eq_true _ ▸ hnew)))
    · exact h

theorem apart_afterHistory {poll : Poll} {integration : Integration} {dtos : List PlaybackEventDto}
    {t : Tables} (h : Apart plays t) (hdtos : Throughout (insertOne lib poll.now integration.id)
      (HistoryApart plays integration.id) ⟨t, 0, none, none⟩ (dtos.map (remapEvent integration t))) :
    Apart plays (afterHistory lib poll integration dtos t) := by
  have hcursors : ∀ (t' : Tables) (cursors : Table PollingCursor.key), Apart plays t' →
      Apart plays { t' with cursors := cursors } := by
    intro t' cursors
    exact SameRecords.apart ⟨rfl, fun _ => Iff.rfl⟩
  unfold afterHistory
  split
  · exact hcursors _ _ h
  · have hinserted := hdtos.final (I := fun batch : Batch => Apart plays batch.tables) _
      (fun _ _ => apart_insertOne lib) h
    unfold advanceCursor
    split
    · exact hcursors _ _ hinserted
    · exact hinserted

theorem pollOne_tables {poll : Poll} {integration : Integration} {t : Tables}
    {dtos : List PlaybackEventDto} (h : fetchedBy poll integration t = some dtos) :
    (pollOne lib poll integration t).2 =
      (final (mergeOne lib integration.id (afterHistory lib poll integration dtos t))
        (0, afterHistory lib poll integration dtos t)
        (eligibleLives poll integration (afterHistory lib poll integration dtos t))).2 := by
  have hmerge : ∀ t' : Tables, (mergeLiveSessions lib poll integration t').2 =
      (final (mergeOne lib integration.id t') (0, t') (eligibleLives poll integration t')).2 := by
    intro t'
    unfold mergeLiveSessions eligibleLives
    cases poll.lives <;> rfl
  rw [pollOne_some lib h, ← hmerge]
  cases dtos <;> rfl

theorem apart_pollOne {poll : Poll} {integration : Integration} {t : Tables} (h : Apart plays t)
    (hpoll : PollApart lib plays poll integration t) :
    Apart plays (pollOne lib poll integration t).2 := by
  cases hfetched : fetchedBy poll integration t with
  | none =>
    rw [pollOne_none lib hfetched]
    exact h
  | some dtos =>
    obtain ⟨hhistory, hlives⟩ := hpoll dtos hfetched
    rw [pollOne_tables lib hfetched]
    exact hlives.final (I := fun acc : Nat × Tables => Apart plays acc.2) _
      (fun _ _ => apart_mergeOne lib) (apart_afterHistory lib h hhistory)

theorem apart_handleStateEvent {m : SessionStateManager} {o : Occasion} {e : StateEvent} {t : Tables}
    (h : Apart plays t) (hevent : SessionApart plays m o e t) :
    Apart plays (handleStateEvent m o e t).2 := by
  cases hcall : handleStateEvent m o e t with
  | mk result t' =>
    cases result with
    | error text =>
      rw [handleStateEvent_error m hcall]
      exact h
    | ok =>
      obtain ⟨hfault, hupsert⟩ := (handleStateEvent_ok m).mp hcall
      cases hrow : sessionAt t m.integrationId e.sessionKey with
      | some row =>
        rw [← (upsert_known hrow).mp hupsert]
        exact (sameRecords_update _ _ _ t).apart h
      | none =>
        obtain ⟨hfree, rfl⟩ := (upsert_new hrow).mp hupsert
        exact apart_newSession h (hevent hfault hrow hfree)

theorem apart_next {t : Tables} {step : Step} (h : Apart plays t) (hstep : Recorded lib plays t step) :
    Apart plays (next lib t step) := by
  cases step with
  | poll poll integration => exact apart_pollOne lib h hstep
  | event m o e => exact apart_handleStateEvent h hstep
  | sweep o => exact (sameRecords_sweep o t).apart h
  | elsewhere media mappings =>
    have hsame : SameRecords t (next lib t (.elsewhere media mappings)) := ⟨rfl, fun _ => Iff.rfl⟩
    exact hsame.apart h

theorem apart_of_empty {t : Tables} (hsessions : t.sessions = .empty) (hevents : t.events = .empty) :
    Apart plays t := by
  have hnone : ∀ id, ¬HasSession t id := by
    intro id
    simp [HasSession, hsessions, Table.find?, Table.empty]
  have hno : ∀ e, e ∉ t.events := by
    rw [hevents]
    exact Table.not_mem_empty
  constructor
  · exact fun a _ ha => absurd ha (hnone a)
  · exact fun e he => absurd he (hno e)
  · exact fun id hid => absurd hid (hnone id)
  · exact fun e he => absurd he (hno e)

/-- In a run in which what is recorded stays apart, at every analysis each play in scope
    contributes one row iff for each the record that stands for it counts. -/
theorem counted_once_iff [DecidableEq π] (plays : Plays π) (t : Tables)
    (hsessions : t.sessions = .empty) (hevents : t.events = .empty) (run : List Step)
    (hrun : Throughout (next lib) (Recorded lib plays) t run) (t' : Tables)
    (ht' : t' ∈ states (next lib) t run) (now : Timestamp) :
    (∀ p, InScope plays (now - analysisWindow) t' p →
        contributions plays (now - analysisWindow) t' p = 1) ↔
      ∀ p, InScope plays (now - analysisWindow) t' p →
        Represented plays (now - analysisWindow) t' p := by
  obtain ⟨before, after, rfl, rfl⟩ := (mem_states (next lib)).mp ht'
  have hbefore := ((throughout_append (next lib) t before after).mp hrun).1
  have hapart : Apart plays (final (next lib) t before) :=
    hbefore.final _ (fun _ _ => apart_next lib) (apart_of_empty hsessions hevents)
  exact forall_congr' fun p => imp_congr_right fun _ => contributions_eq_one_iff hapart

end Runs

/-! ### One play, recorded twice -/

open PlaybackCursor (plainRuntime pollOf plexIntegration noTables playAt)

/-- Tables in which there is nothing but the file that is played. -/
def libraryTables : Tables :=
  { noTables with media := [.unprobed "m" "movies" "/m.mkv" ".mkv"] }

/-- All records are of one play. -/
def onePlay : Plays Unit := ⟨fun _ => (), fun _ => (), fun _ => seconds 10⟩

/-- What is known of the play. -/
def played : SessionEnrichment :=
  ⟨"direct_play", some "/m.mkv", none, none, none, none, none, none, none, none, none, none, none,
    none, none, none⟩

/-- The play is followed from its start to its stop; then the history has it, and its event is
    reconciled with the session. -/
def followedRun : List Step :=
  [.event plexManager (quietly (seconds 10) "s1")
      ⟨"12", "playing", some 0, some played, some "7"⟩,
    .event plexManager (quietly (seconds 200) "s2") ⟨"12", "stopped", some 900, none, some "7"⟩,
    .poll (pollOf [{ playAt "900" (seconds 10) with ratingKey := some "7" }]) plexIntegration]

/-- The tables at the end of it. -/
def followedTables : Tables := final (next plainRuntime) libraryTables followedRun

theorem counted_once_iff_followedRun :
    (followedTables.events.find? ("plex", "900")).map (·.reconciledWithSessionId) =
        some (some "s1") ∧
      InScope onePlay (seconds 300 - analysisWindow) followedTables () ∧
      contributions onePlay (seconds 300 - analysisWindow) followedTables () = 1 := by
  have hfirst : FirstOf onePlay libraryTables () := by
    constructor
    · intro id hid
      cases hid
    · intro e he
      cases he
  have hrun : Throughout (next plainRuntime) (Recorded plainRuntime onePlay) libraryTables
      followedRun := by
    refine ⟨fun _ _ _ => hfirst, fun _ hnone _ => ?_, fun dtos hdtos => ?_, trivial⟩
    · cases hnone
    · cases hdtos
      exact ⟨⟨fun _ => rfl, trivial⟩, trivial⟩
  have hstopped : (followedTables.sessions.find? "s1").map
      (sessionCounts (seconds 300 - analysisWindow)) = some true := by
    decide +kernel
  obtain ⟨session, hfind, hcounts⟩ := Option.map_eq_some_iff.mp hstopped
  have hmem := (Table.mem_of_find? hfind).1
  have hmedia : session.mediaFileId ≠ none := (of_decide_eq_true hcounts).2.2
  have hscope : InScope onePlay (seconds 300 - analysisWindow) followedTables () :=
    ⟨by decide, .inl ⟨session, hmem, rfl, hmedia⟩⟩
  refine ⟨by decide +kernel, hscope,
    (counted_once_iff plainRuntime onePlay libraryTables rfl rfl followedRun hrun _
      ((mem_states _).mpr ⟨followedRun, [], rfl, rfl⟩) (seconds 300)).mpr ?_ () hscope⟩
  rintro ⟨⟩ -
  exact .inl ⟨session, hmem, rfl, hcounts⟩

/-- What is playing. -/
def liveM : LivePlaybackDto :=
  ⟨"12", "/m.mkv", "direct_play", seconds 10, none, none, none, none, none, none, none⟩

/-- The play is seen while it plays; then the history has it. -/
def liveThenHistory : List Step :=
  [.poll { pollOf [] with now := seconds 100, lives := some [liveM] } plexIntegration,
    .poll (pollOf [playAt "900" (seconds 10)]) plexIntegration]

/-- A play contributes the row of its live event and the row of its history event. -/
theorem live_event_counts_again :
    ¬∀ p, InScope onePlay (seconds 300 - analysisWindow)
        (final (next plainRuntime) libraryTables liveThenHistory) p →
      contributions onePlay (seconds 300 - analysisWindow)
        (final (next plainRuntime) libraryTables liveThenHistory) p = 1 := by
  intro hall
  have htwo : contributions onePlay (seconds 300 - analysisWindow)
      (final (next plainRuntime) libraryTables liveThenHistory) () = 2 := by
    decide +kernel
  have hresolved : ((final (next plainRuntime) libraryTables liveThenHistory).events.find?
      ("plex", "900")).map (·.mediaFileId) = some (some "m") := by
    decide +kernel
  obtain ⟨e, he, hmedia⟩ := Option.map_eq_some_iff.mp hresolved
  have hscope : InScope onePlay (seconds 300 - analysisWindow)
      (final (next plainRuntime) libraryTables liveThenHistory) () := by
    refine ⟨by decide, .inr ⟨e, (Table.mem_of_find? he).1, rfl, ?_⟩⟩
    rw [hmedia]
    exact Option.some_ne_none _
  rw [hall () hscope] at htwo
  exact absurd htwo (by decide)

end PlaybackAnalyzer
