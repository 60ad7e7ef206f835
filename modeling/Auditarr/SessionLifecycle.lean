/-
  Auditarr/SessionLifecycle.lean
  ==============================
  **Live sessions from event to event** (`app/services/playback/session_manager.py`,
  `app/housekeeping/service.py`).

  A session stops by an event, or by the sweep when nothing was heard of it for a day.
  Both set the time of the stop together with the state, but an event that starts the
  session again sets the state alone: a row that plays then keeps the time of its last
  stop.  Nothing else separates the two columns (`stopTold_iff_not_restarted`).
-/
import Auditarr.SessionManager
import Auditarr.Runs

namespace SessionLifecycle

open KeyedTable PlaybackPoller SessionManager Runs

/-! ### The sweep -/

/-- What the world adds to one sweep: the clock when it begins and when it flushes, and the
    exception of a query, a deletion, the flush or the commit. -/
structure SweepOccasion where
  now : Timestamp
  flushedAt : Timestamp
  fault : Option String

/-- `timedelta(hours=24)`. -/
def sessionTtl : Timestamp := seconds (24 * 3600)

/-- A session that has not stopped and was not heard of for a day. -/
def isStuck (now : Timestamp) (s : PlaybackSession) : Bool :=
  decide (s.state ≠ .stopped ∧ s.lastEventAt < now - sessionTtl)

/-- The update of a stuck row.  Its `last_event_at` is not among the columns that are set,
    so the clock of the flush is written there. -/
def sweptRow (flushedAt : Timestamp) (s : PlaybackSession) : PlaybackSession :=
  { s with state := .stopped, stoppedAt := some s.lastEventAt, lastEventAt := flushedAt }

theorem sweptRow_id (flushedAt : Timestamp) (s : PlaybackSession) : (sweptRow flushedAt s).id = s.id :=
  rfl

/-- The sessions after `HousekeepingService.run`. -/
def sweepStuckSessions (o : SweepOccasion) (t : Tables) : Tables :=
  match o.fault with
  | some _ => t
  | none => { t with
      sessions := t.sessions.update (isStuck o.now) (sweptRow o.flushedAt) (sweptRow_id o.flushedAt) }

/-! ### Runs -/

/-- A step: an event that some manager handles, or a sweep. -/
inductive Step where
  | event (m : SessionStateManager) (o : Occasion) (e : StateEvent)
  | sweep (o : SweepOccasion)

def next (t : Tables) : Step → Tables
  | .event m o e => (handleStateEvent m o e t).2
  | .sweep o => sweepStuckSessions o t

/-- A row has stopped iff it has a time at which it did. -/
def RowTold (s : PlaybackSession) : Prop := s.state = .stopped ↔ s.stoppedAt ≠ none

def StopTold (t : Tables) : Prop := ∀ s ∈ t.sessions, RowTold s

/-- An event that is not a stop reaches a session that has stopped. -/
def Restarts (t : Tables) : Step → Prop
  | .event m o e => o.fault = none ∧ knownState e.state ≠ .stopped ∧
      ∃ row, sessionAt t m.integrationId e.sessionKey = some row ∧ row.state = .stopped
  | .sweep _ => False

theorem rowTold_sweptRow (flushedAt : Timestamp) (s : PlaybackSession) :
    RowTold (sweptRow flushedAt s) :=
  iff_of_true rfl nofun

theorem stopTold_sweep (o : SweepOccasion) {t : Tables} (h : StopTold t) :
    StopTold (sweepStuckSessions o t) := by
  simp only [sweepStuckSessions]
  split
  · exact h
  · intro s hs
    simp only [Table.mem_update] at hs
    obtain ⟨old, hold, rfl⟩ := hs
    split
    · exact rowTold_sweptRow ..
    · exact h old hold

section Event

variable (m : SessionStateManager) {o : Occasion} {e : StateEvent} {t : Tables}

theorem rowTold_newRow : RowTold ((valuesOf m o e t).newRow o) := by
  by_cases hstop : knownState e.state = .stopped <;> simp [RowTold, Values.newRow, valuesOf, hstop]

theorem rowTold_refreshed_iff {row : PlaybackSession} (hrow : RowTold row) :
    RowTold ((valuesOf m o e t).refreshed row) ↔
      ¬(knownState e.state ≠ .stopped ∧ row.state = .stopped) := by
  by_cases hstop : knownState e.state = .stopped
  · simp [RowTold, Values.refreshed, valuesOf, hstop]
  · simp [RowTold, Values.refreshed, valuesOf, hstop, hrow.eq]

theorem stopTold_refresh_iff (h : StopTold t) {v : Values} {row : PlaybackSession}
    (hrow : row ∈ t.sessions) : StopTold (refresh v row t) ↔ RowTold (v.refreshed row) := by
  constructor
  · intro htold
    apply htold
    simp only [refresh, Table.mem_update]
    exact ⟨row, hrow, by simp⟩
  · intro htold s hs
    simp only [refresh, Table.mem_update] at hs
    obtain ⟨old, hold, rfl⟩ := hs
    split
    · rename_i hid
      rw [Table.eq_of_key_eq hold hrow (of_decide_eq_true hid)]
      exact htold
    · exact h old hold

theorem stopTold_event_iff (h : StopTold t) :
    StopTold (handleStateEvent m o e t).2 ↔ ¬Restarts t (.event m o e) := by
  cases hfault : o.fault with
  | some text =>
    apply iff_of_true
    · simpa only [handleStateEvent, hfault] using h
    · rintro ⟨hnone, -⟩
      rw [hfault] at hnone
      cases hnone
  | none =>
    cases hrow : sessionAt t m.integrationId e.sessionKey with
    | some row =>
      have hmem := (mem_of_sessionAt hrow).1
      rw [handled_known m hrow hfault, stopTold_refresh_iff h hmem, rowTold_refreshed_iff m (h row hmem)]
      simp [Restarts, hfault, hrow]
    | none =>
      apply iff_of_true
      · cases hcall : handleStateEvent m o e t with
        | mk result t' =>
          cases result with
          | error text =>
            rw [handleStateEvent_error m hcall]
            exact h
          | ok =>
            obtain ⟨-, rfl⟩ := (upsert_new hrow).mp ((handleStateEvent_ok m).mp hcall).2
            intro s hs
            simp only [Table.mem_upsert] at hs
            obtain rfl | ⟨hs, -⟩ := hs
            · exact rowTold_newRow m
            · exact h s hs
      · rintro ⟨-, -, row, hsome, -⟩
        rw [hrow] at hsome
        cases hsome

end Event

theorem stopTold_next_iff (t : Tables) (step : Step) (h : StopTold t) :
    StopTold (next t step) ↔ ¬Restarts t step := by
  cases step with
  | event m o e => exact stopTold_event_iff m h
  | sweep o => exact iff_of_true (stopTold_sweep o h) not_false

/-- From a table without sessions on, every row that a run goes through has stopped iff it
    has a time of the stop, iff no event of the run starts a stopped session again. -/
theorem stopTold_iff_not_restarted (t : Tables) (hempty : t.sessions = .empty) (run : List Step) :
    (∀ t' ∈ states next t run, StopTold t') ↔
      Throughout next (fun t' step => ¬Restarts t' step) t run := by
  apply forall_states_iff next stopTold_next_iff
  intro s hs
  rw [hempty] at hs
  exact absurd hs (Table.not_mem_empty s)

/-! ### A key that is used again -/

def playEvent : StateEvent := ⟨"12", "playing", some 0, none, none⟩

/-- A session plays, stops, and its key plays again. -/
def reusedKey : List Step :=
  [.event plexManager (quietly (seconds 10) "s1") playEvent,
    .event plexManager (quietly (seconds 20) "s2") stopEvent,
    .event plexManager (quietly (seconds 30) "s3") playEvent]

theorem stopTold_iff_not_restarted_reusedKey :
    (∀ t' ∈ states next emptyTables reusedKey, StopTold t') ↔
      Throughout next (fun t' step => ¬Restarts t' step) emptyTables reusedKey :=
  stopTold_iff_not_restarted emptyTables rfl reusedKey

/-- The row plays, and it has a time of its stop. -/
theorem reused_key_plays_with_stop :
    (sessionAt (final next emptyTables reusedKey) "plex" "12").map
      (fun s => (s.state, s.stoppedAt)) = some (.playing, some (seconds 20)) ∧
    ¬StopTold (final next emptyTables reusedKey) := by
  have hrow : (sessionAt (final next emptyTables reusedKey) "plex" "12").map
      (fun s => (s.state, s.stoppedAt)) = some (.playing, some (seconds 20)) := by
    decide
  refine ⟨hrow, fun htold => ?_⟩
  obtain ⟨row, hfound, hcolumns⟩ := Option.map_eq_some_iff.mp hrow
  have hrowTold := htold row (mem_of_sessionAt hfound).1
  simp only [Prod.mk.injEq] at hcolumns
  simp [RowTold, hcolumns] at hrowTold

end SessionLifecycle
