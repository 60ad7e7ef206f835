/-
  Auditarr/DeviceCounters.lean
  ============================
  **What the device rows count** (`app/services/playback/poller.py`).

  Every event that a poll inserts is counted on the row of its device.  In every state that is
  reached, each row has the number of its events, of each decision too, and the first and the
  last of their starts (`counted_states`).  The row is found by a digest of the kind and the
  name with `::` between them.  So two devices share a row iff their events are there and that
  text is the same for both, as it is for `a`, `b::c` and `a::b`, `c` (`faithful_iff`).
-/
import Mathlib.Order.Bounds.Basic
import Auditarr.PlaybackAnalyzer

namespace DeviceCounters

open KeyedTable PlaybackPoller PyValues Runs SessionManager
open PlaybackAnalyzer (Step next afterHistory eligibleLives pollOne_tables)
open PlaybackCursor (fetchedBy pollOne_none markMatched_frame stored_iff insertEvent_eq_some)
open SessionLifecycle (SweepOccasion sweepStuckSessions)

/-! ### Devices and their rows -/

/-- The kind and the name of a device, trimmed. -/
abbrev Device := Option String × Option String

/-- The device of an event, if it has a kind or a name. -/
def deviceOf (e : PlaybackEvent) : Option Device :=
  if normalized e.deviceKind = none ∧ normalized e.deviceName = none then none
  else some (normalized e.deviceKind, normalized e.deviceName)

/-- The text that is digested. -/
def composite (device : Device) : String :=
  strip (device.1.getD "") ++ "::" ++ strip (device.2.getD "")

variable (lib : PollerRuntime)

/-- The key of the row that an event is counted on. -/
def rowKey (e : PlaybackEvent) : Option (String × String) :=
  (deviceOf e).map fun device => (e.integrationId, lib.sha1Prefix (composite device))

/-- The events that are counted on a row. -/
def plays (t : Tables) (k : String × String) : List PlaybackEvent :=
  t.events.rows.filter fun e => rowKey lib e = some k

/-- The times at which the events started. -/
def starts (events : List PlaybackEvent) : Set Timestamp :=
  {instant | ∃ e ∈ events, e.startedAt = instant}

/-- The row has the counts and the times of the events. -/
structure Tally (d : PlaybackDevice) (events : List PlaybackEvent) : Prop where
  playbacks : d.playbackCount = events.length
  transcodes : d.transcodeCount = events.countP fun e => e.decision = "transcode"
  directPlays : d.directPlayCount = events.countP fun e => e.decision = "direct_play"
  directStreams : d.directStreamCount = events.countP fun e => e.decision = "direct_stream"
  enough : d.transcodeCount + d.directPlayCount + d.directStreamCount ≤ d.playbackCount
  first : IsLeast (starts events) d.firstSeenAt
  last : IsGreatest (starts events) d.lastSeenAt

/-- Every row has the counts of its events, and every event with a device has a row. -/
structure Counted (t : Tables) : Prop where
  rows : ∀ d ∈ t.devices, Tally d (plays lib t d.key)
  events : ∀ e ∈ t.events, ∀ k, rowKey lib e = some k → ∃ d ∈ t.devices, d.key = k

/-- No two devices share a row. -/
def Apart (t : Tables) : Prop :=
  ∀ e ∈ t.events, ∀ e' ∈ t.events, ∀ k, rowKey lib e = some k → rowKey lib e' = some k →
    deviceOf e = deviceOf e'

/-- The promise about the device rows. -/
def Faithful (t : Tables) : Prop := Counted lib t ∧ Apart lib t

/-- No two digests of texts of the events are the same by chance. -/
def NoCollision (t : Tables) : Prop :=
  ∀ e ∈ t.events, ∀ e' ∈ t.events, ∀ device ∈ deviceOf e, ∀ device' ∈ deviceOf e',
    lib.sha1Prefix (composite device) = lib.sha1Prefix (composite device') →
      composite device = composite device'

/-- No two devices of one integration that have events have the same text. -/
def Unambiguous (t : Tables) : Prop :=
  ∀ e ∈ t.events, ∀ e' ∈ t.events, e.integrationId = e'.integrationId →
    ∀ device ∈ deviceOf e, ∀ device' ∈ deviceOf e',
      composite device = composite device' → device = device'

/-! ### Counting one more event -/

section Counting

theorem starts_append (events : List PlaybackEvent) (e : PlaybackEvent) :
    starts (events ++ [e]) = insert e.startedAt (starts events) := by
  ext instant
  simp only [starts, Set.mem_ofPred_eq, Set.mem_insert_iff, List.mem_append, List.mem_singleton,
    or_and_right, exists_or, exists_eq_left]
  rw [or_comm, eq_comm (a := instant)]

theorem starts_singleton (e : PlaybackEvent) : starts [e] = {e.startedAt} := by
  ext instant
  simp [starts, eq_comm]

theorem countP_decision (events : List PlaybackEvent) (e : PlaybackEvent) (decision : String) :
    (events ++ [e]).countP (fun e => e.decision = decision) =
      events.countP (fun e => e.decision = decision) + if e.decision = decision then 1 else 0 := by
  rw [List.countP_append, List.countP_singleton]
  simp only [decide_eq_true_eq]

theorem one_decision (decision : String) :
    (if decision = "transcode" then 1 else 0) + (if decision = "direct_play" then 1 else 0) +
      (if decision = "direct_stream" then 1 else 0) ≤ 1 := by
  by_cases htranscode : decision = "transcode"
  · subst htranscode
    decide
  · by_cases hplay : decision = "direct_play"
    · subst hplay
      decide
    · rw [if_neg htranscode, if_neg hplay]
      split <;> decide

theorem Tally.new (integrationId clientKey : String) (name kind : Option String) (e : PlaybackEvent) :
    Tally ((⟨integrationId, clientKey, name, kind, e.startedAt, e.startedAt, 0, 0, 0, 0⟩ :
      PlaybackDevice).count e.decision) [e] := by
  have hone := one_decision e.decision
  constructor
  · rfl
  · simp [PlaybackDevice.count]
  · simp [PlaybackDevice.count]
  · simp [PlaybackDevice.count]
  · simp only [PlaybackDevice.count]
    omega
  · rw [starts_singleton]
    exact isLeast_singleton
  · rw [starts_singleton]
    exact isGreatest_singleton

theorem Tally.next {d : PlaybackDevice} {events : List PlaybackEvent} (h : Tally d events)
    (e : PlaybackEvent) :
    Tally ({ d with
      lastSeenAt := max d.lastSeenAt e.startedAt
      firstSeenAt := min d.firstSeenAt e.startedAt }.count e.decision) (events ++ [e]) := by
  have hone := one_decision e.decision
  have henough := h.enough
  constructor
  · rw [List.length_append, ← h.playbacks]
    rfl
  · rw [countP_decision, ← h.transcodes]
    rfl
  · rw [countP_decision, ← h.directPlays]
    rfl
  · rw [countP_decision, ← h.directStreams]
    rfl
  · simp only [PlaybackDevice.count]
    omega
  · rw [starts_append, min_comm]
    exact h.first.insert _
  · rw [starts_append, max_comm]
    exact h.last.insert _

end Counting

/-! ### What the writers do to the rows -/

/-- There is a row with the counts iff there are events. -/
inductive Summary : Option PlaybackDevice → List PlaybackEvent → Prop where
  | absent : Summary none []
  | present {d : PlaybackDevice} {events : List PlaybackEvent} : Tally d events →
      Summary (some d) events

/-- Each key has the row of its events. -/
def Summed (t : Tables) : Prop := ∀ k, Summary (t.devices.find? k) (plays lib t k)

variable {lib}

theorem Summed.of_same {t t' : Tables} (h : Summed lib t) (hevents : t'.events = t.events)
    (hdevices : t'.devices = t.devices) : Summed lib t' := by
  intro k
  rw [hdevices, plays, hevents]
  exact h k

theorem Summed.counted {t : Tables} (h : Summed lib t) : Counted lib t := by
  constructor
  · intro d hd
    have hrow := h d.key
    rw [Table.find?_eq_some.mpr ⟨hd, rfl⟩] at hrow
    rcases hrow with _ | htally
    exact htally
  · intro e he k hk
    have hplay : e ∈ plays lib t k := List.mem_filter.mpr ⟨he, decide_eq_true hk⟩
    have hrow := h k
    rcases hfind : t.devices.find? k with _ | d
    · rw [hfind] at hrow
      generalize plays lib t k = events at hrow hplay
      rcases hrow with _ | _
      exact absurd hplay List.not_mem_nil
    · exact ⟨d, Table.mem_of_find? hfind⟩

theorem summed_of_empty {t : Tables} (hevents : t.events = .empty) (hdevices : t.devices = .empty) :
    Summed lib t := by
  intro k
  rw [hdevices, plays, hevents]
  exact .absent

theorem clientKey_eq (device : Device) :
    deriveClientKey lib device.1 device.2 = lib.sha1Prefix (composite device) := rfl

theorem rowKey_of_known {e : PlaybackEvent}
    (hknown : ¬(normalized e.deviceKind = none ∧ normalized e.deviceName = none)) :
    rowKey lib e = some (e.integrationId,
      deriveClientKey lib (normalized e.deviceKind) (normalized e.deviceName)) := by
  rw [rowKey, deviceOf, if_neg hknown, Option.map_some, ← clientKey_eq]

theorem upsertDevice_known {e : PlaybackEvent} {k : String × String} (hk : rowKey lib e = some k)
    (t : Tables) :
    ∃ d : PlaybackDevice, upsertDevice lib e.integrationId e.deviceKind e.deviceName e.decision
        e.startedAt t = { t with devices := t.devices.upsert d } ∧ d.key = k ∧
      ∀ events, Summary (t.devices.find? k) events → Tally d (events ++ [e]) := by
  have hknown : ¬(normalized e.deviceKind = none ∧ normalized e.deviceName = none) := by
    intro hunknown
    rw [rowKey, deviceOf, if_pos hunknown] at hk
    cases hk
  obtain rfl := Option.some.inj ((rowKey_of_known hknown).symm.trans hk)
  unfold upsertDevice
  dsimp only
  rw [if_neg hknown]
  refine ⟨_, rfl, ?_, ?_⟩
  · rcases hfind : t.devices.find? (e.integrationId,
      deriveClientKey lib (normalized e.deviceKind) (normalized e.deviceName)) with _ | d
    · rfl
    · exact (Table.mem_of_find? hfind).2
  · intro events hbefore
    generalize t.devices.find? _ = found at hbefore ⊢
    rcases hbefore with _ | htally
    · exact Tally.new ..
    · exact htally.next e

theorem plays_insertEvent {t t' : Tables} {row : PlaybackEvent}
    (hinsert : insertEvent row t = some t') (k : String × String) :
    plays lib t' k = plays lib t k ++ if rowKey lib row = some k then [row] else [] := by
  obtain ⟨hstored, rfl⟩ := insertEvent_eq_some.mp hinsert
  have hnew : ¬∃ r ∈ t.events.rows, r.key = row.key := by
    rintro ⟨r, hr, hkey⟩
    have hthere : t.stored row.integrationId row.upstreamId = true :=
      stored_iff.mpr ⟨r, hr, congrArg Prod.fst hkey, congrArg Prod.snd hkey⟩
    rw [hstored] at hthere
    cases hthere
  rw [plays, Table.rows_upsert_new hnew, List.filter_append, List.filter_singleton]
  rw [Bool.cond_decide]
  rfl

theorem summed_insertEvent {t t' : Tables} {row : PlaybackEvent} (h : Summed lib t)
    (hinsert : insertEvent row t = some t') :
    Summed lib (upsertDevice lib row.integrationId row.deviceKind row.deviceName row.decision
      row.startedAt t') := by
  have hplays : ∀ k, plays lib t' k =
      plays lib t k ++ if rowKey lib row = some k then [row] else [] := plays_insertEvent hinsert
  have ht' := (insertEvent_eq_some.mp hinsert).2
  rcases hkey : rowKey lib row with _ | key
  · have hunknown : normalized row.deviceKind = none ∧ normalized row.deviceName = none := by
      by_contra hknown
      rw [rowKey_of_known hknown] at hkey
      cases hkey
    have hsame : Summed lib t' := by
      intro k
      rw [hplays, hkey, if_neg (by simp), List.append_nil, ht']
      exact h k
    unfold upsertDevice
    rwa [if_pos hunknown]
  · obtain ⟨d, hrow, hd, htally⟩ := upsertDevice_known hkey t'
    rw [hrow]
    intro k
    rw [Table.find?_upsert, hd]
    change Summary _ (plays lib t' k)
    rw [hplays, hkey]
    by_cases hk : k = key
    · subst hk
      rw [if_pos rfl, if_pos rfl]
      apply Summary.present
      apply htally
      rw [ht']
      exact h k
    · have hne : ¬some key = some k := by
        intro hsome
        exact hk (Option.some.inj hsome).symm
      rw [if_neg hk, if_neg hne, List.append_nil, ht']
      exact h k

theorem summed_insertOne {now : Timestamp} {integrationId : String} {batch : Batch}
    {dto : PlaybackEventDto} (h : Summed lib batch.tables) :
    Summed lib (insertOne lib now integrationId batch dto).tables := by
  unfold insertOne
  dsimp only
  split
  · rename_i t hinsert
    have hinserted := summed_insertEvent h hinsert
    obtain ⟨sessions, hframe⟩ := markMatched_frame now _ _
    rw [hframe]
    exact hinserted.of_same rfl rfl
  · obtain ⟨sessions, hframe⟩ := markMatched_frame now _ _
    rw [hframe]
    exact h.of_same rfl rfl

theorem summed_mergeOne {integrationId : String} {before : Tables} {acc : Nat × Tables}
    {live : LivePlaybackDto} (h : Summed lib acc.2) :
    Summed lib (mergeOne lib integrationId before acc live).2 := by
  unfold mergeOne
  split
  · exact h
  · split
    · rename_i t hinsert
      have hinserted := summed_insertEvent h hinsert
      simpa only [liveRow] using hinserted
    · exact h

theorem summed_afterHistory {poll : Poll} {integration : Integration}
    {dtos : List PlaybackEventDto} {t : Tables} (h : Summed lib t) :
    Summed lib (afterHistory lib poll integration dtos t) := by
  have hinserted : Summed lib
      (insertAll lib poll.now integration.id t (dtos.map (remapEvent integration t))).tables := by
    apply final_invariant (I := fun batch : Batch => Summed lib batch.tables)
    · intro dto _ batch hbatch
      exact summed_insertOne hbatch
    · exact h
  rcases dtos with _ | ⟨dto, rest⟩
  · exact h.of_same rfl rfl
  · simp only [afterHistory]
    unfold advanceCursor
    split
    · exact hinserted.of_same rfl rfl
    · exact hinserted

theorem summed_pollOne {poll : Poll} {integration : Integration} {t : Tables} (h : Summed lib t) :
    Summed lib (pollOne lib poll integration t).2 := by
  rcases hfetched : fetchedBy poll integration t with _ | dtos
  · rw [pollOne_none lib hfetched]
    exact h
  · rw [pollOne_tables lib hfetched]
    apply final_invariant (I := fun acc : Nat × Tables => Summed lib acc.2)
    · intro live _ acc hacc
      exact summed_mergeOne hacc
    · exact summed_afterHistory h

theorem handleStateEvent_frame (m : SessionStateManager) (o : Occasion) (e : StateEvent)
    (t : Tables) : ∃ sessions, (handleStateEvent m o e t).2 = { t with sessions := sessions } := by
  rcases hcall : handleStateEvent m o e t with ⟨error | _, t'⟩
  · exact ⟨t.sessions, handleStateEvent_error m hcall⟩
  · obtain ⟨-, hupsert⟩ := (handleStateEvent_ok m).mp hcall
    rcases hrow : sessionAt t m.integrationId e.sessionKey with _ | row
    · obtain ⟨-, rfl⟩ := (upsert_new hrow).mp hupsert
      exact ⟨_, rfl⟩
    · rw [← (upsert_known hrow).mp hupsert]
      exact ⟨_, rfl⟩

theorem sweepStuckSessions_frame (o : SweepOccasion) (t : Tables) :
    ∃ sessions, sweepStuckSessions o t = { t with sessions := sessions } := by
  unfold sweepStuckSessions
  split
  · exact ⟨t.sessions, rfl⟩
  · exact ⟨_, rfl⟩

theorem summed_next {t : Tables} {step : Step} (h : Summed lib t) : Summed lib (next lib t step) := by
  rcases step with ⟨poll, integration⟩ | ⟨m, o, e⟩ | o | ⟨media, mappings⟩
  · exact summed_pollOne h
  · obtain ⟨sessions, hframe⟩ := handleStateEvent_frame m o e t
    rw [next, hframe]
    exact h.of_same rfl rfl
  · obtain ⟨sessions, hframe⟩ := sweepStuckSessions_frame o t
    rw [next, hframe]
    exact h.of_same rfl rfl
  · exact h.of_same rfl rfl

/-! ### Every state that is reached -/

theorem counted_states {t : Tables} (hevents : t.events = .empty) (hdevices : t.devices = .empty)
    {run : List Step} {t' : Tables} (ht' : t' ∈ states (next lib) t run) : Counted lib t' := by
  obtain ⟨before, after, -, rfl⟩ := (mem_states (next lib)).mp ht'
  apply Summed.counted
  apply final_invariant
  · intro step _ s hs
    exact summed_next hs
  · exact summed_of_empty hevents hdevices

theorem apart_iff {t : Tables} (h : NoCollision lib t) : Apart lib t ↔ Unambiguous t := by
  constructor
  · intro hapart e he e' he' hintegration device hdevice device' hdevice' hsame
    have hkey : rowKey lib e = some (e.integrationId, lib.sha1Prefix (composite device)) := by
      rw [rowKey, Option.mem_def.mp hdevice]
      rfl
    have hkey' : rowKey lib e' = some (e.integrationId, lib.sha1Prefix (composite device)) := by
      rw [rowKey, Option.mem_def.mp hdevice', hintegration, hsame]
      rfl
    have hdevices := hapart e he e' he' _ hkey hkey'
    rw [Option.mem_def.mp hdevice, Option.mem_def.mp hdevice'] at hdevices
    exact Option.some.inj hdevices
  · intro hunambiguous e he e' he' k hk hk'
    obtain ⟨device, hdevice, rfl⟩ := Option.map_eq_some_iff.mp hk
    obtain ⟨device', hdevice', hkeys⟩ := Option.map_eq_some_iff.mp hk'
    obtain ⟨hintegration, hdigest⟩ := Prod.mk.inj hkeys
    have htext := h e he e' he' device hdevice device' hdevice' hdigest.symm
    have hsame := hunambiguous e he e' he' hintegration.symm device hdevice device' hdevice' htext
    rw [hdevice, hdevice', hsame]

/-- In every state that is reached the rows count their events, and no two devices share a row
    iff no two that have events have one text. -/
theorem faithful_iff (lib : PollerRuntime) (t : Tables) (hevents : t.events = .empty)
    (hdevices : t.devices = .empty) (run : List Step) (t' : Tables)
    (ht' : t' ∈ states (next lib) t run) (hdigest : NoCollision lib t') :
    Counted lib t' ∧ (Faithful lib t' ↔ Unambiguous t') := by
  have hcounted := counted_states hevents hdevices ht'
  refine ⟨hcounted, ?_⟩
  rw [Faithful, and_iff_right hcounted]
  exact apart_iff hdigest

/-! ### Texts that tell the devices -/

/-- A kind and a name as a row has them. -/
def Normal (x : Option String) : Prop := ∃ y, normalized y = x

theorem normal_inj {x x' : Option String} (h : Normal x) (h' : Normal x')
    (hsame : strip (x.getD "") = strip (x'.getD "")) : x = x' := by
  have hstrip : ∀ y, strip ((normalized y).getD "") = strip (y.getD "") := by
    intro y
    rw [normalized]
    split
    · rename_i hblank
      rw [hblank]
      rfl
    · exact strip_strip _
  obtain ⟨y, rfl⟩ := h
  obtain ⟨y', rfl⟩ := h'
  rw [hstrip, hstrip] at hsame
  rw [normalized, normalized, hsame]

theorem composite_inj {device device' : Device} (hkind : ':' ∉ (strip (device.1.getD "")).toList)
    (hkind' : ':' ∉ (strip (device'.1.getD "")).toList)
    (hsame : composite device = composite device') :
    strip (device.1.getD "") = strip (device'.1.getD "") ∧
      strip (device.2.getD "") = strip (device'.2.getD "") := by
  have hbefore : ∀ kind name : List Char, ':' ∉ kind →
      (kind ++ ':' :: ':' :: name).takeWhile (· ≠ ':') = kind := by
    intro kind name hcolon
    rw [List.takeWhile_append_of_pos]
    · simp
    · intro c hc
      have hne : c ≠ ':' := by
        rintro rfl
        exact hcolon hc
      simpa using hne
  have htext : ∀ d : Device, (composite d).toList =
      (strip (d.1.getD "")).toList ++ ':' :: ':' :: (strip (d.2.getD "")).toList := by
    intro d
    simp [composite]
  have hlists : (composite device).toList = (composite device').toList := by rw [hsame]
  rw [htext, htext] at hlists
  have hkinds := congrArg (List.takeWhile (· ≠ ':')) hlists
  rw [hbefore _ _ hkind, hbefore _ _ hkind'] at hkinds
  rw [hkinds, List.append_cancel_left_eq, List.cons.injEq, List.cons.injEq] at hlists
  exact ⟨String.toList_inj.mp hkinds, String.toList_inj.mp hlists.2.2⟩

theorem unambiguous_of_noColon {t : Tables} (h : ∀ e ∈ t.events, ∀ device ∈ deviceOf e,
    ':' ∉ (strip (device.1.getD "")).toList) : Unambiguous t := by
  have hnormal : ∀ e device, device ∈ deviceOf e → Normal device.1 ∧ Normal device.2 := by
    intro e device hdevice
    rw [deviceOf, Option.mem_def] at hdevice
    split at hdevice
    · cases hdevice
    · obtain rfl := Option.some.inj hdevice
      dsimp only
      exact ⟨⟨e.deviceKind, rfl⟩, ⟨e.deviceName, rfl⟩⟩
  intro e he e' he' _ device hdevice device' hdevice' hsame
  obtain ⟨hkind, hname⟩ := composite_inj (h e he device hdevice) (h e' he' device' hdevice') hsame
  obtain ⟨hnormal₁, hnormal₂⟩ := hnormal e device hdevice
  obtain ⟨hnormal₁', hnormal₂'⟩ := hnormal e' device' hdevice'
  exact Prod.ext (normal_inj hnormal₁ hnormal₁' hkind) (normal_inj hnormal₂ hnormal₂' hname)

/-! ### Two devices with one text -/

open PlaybackCursor (plainRuntime pollOf plexIntegration noTables playAt)

/-- A play on a device. -/
def playOn (upstreamId kind name : String) : PlaybackEventDto :=
  { playAt upstreamId 0 with deviceKind := some kind, deviceName := some name }

/-- One poll that finds the plays. -/
def pollRun (dtos : List PlaybackEventDto) : List Step := [.poll (pollOf dtos) plexIntegration]

theorem noCollision_plainRuntime (t : Tables) : NoCollision plainRuntime t := by
  intro e _ e' _ device _ device' _ hsame
  simpa only [plainRuntime] using hsame

/-- After a poll that finds plays on two devices. -/
def twoDevices : Tables :=
  final (next plainRuntime) noTables (pollRun [playOn "1" "Roku" "TV", playOn "2" "Phone" "Work"])

theorem faithful_iff_twoDevices :
    twoDevices.devices.rows.length = 2 ∧ Faithful plainRuntime twoDevices := by
  have hcolons : ∀ e ∈ twoDevices.events.rows, ∀ device ∈ deviceOf e,
      ':' ∉ (strip (device.1.getD "")).toList := by
    decide +kernel
  have hiff := faithful_iff plainRuntime noTables rfl rfl _ twoDevices
    ((mem_states _).mpr ⟨_, [], (List.append_nil _).symm, rfl⟩) (noCollision_plainRuntime _)
  exact ⟨by decide +kernel, hiff.2.mpr (unambiguous_of_noColon hcolons)⟩

/-- The two devices that share a row. -/
def sharedRun : List Step := pollRun [playOn "1" "a" "b::c", playOn "2" "a::b" "c"]

theorem devices_share_row : NoCollision plainRuntime (final (next plainRuntime) noTables sharedRun) ∧
    ¬Faithful plainRuntime (final (next plainRuntime) noTables sharedRun) := by
  constructor
  · exact noCollision_plainRuntime _
  · rintro ⟨-, hapart⟩
    have hfirst : ((final (next plainRuntime) noTables sharedRun).events.find? ("plex", "1")).map
        (fun e => (deviceOf e, rowKey plainRuntime e)) =
          some (some (some "a", some "b::c"), some ("plex", "a::b::c")) := by
      decide +kernel
    have hsecond : ((final (next plainRuntime) noTables sharedRun).events.find? ("plex", "2")).map
        (fun e => (deviceOf e, rowKey plainRuntime e)) =
          some (some (some "a::b", some "c"), some ("plex", "a::b::c")) := by
      decide +kernel
    obtain ⟨e, he, hcolumns⟩ := Option.map_eq_some_iff.mp hfirst
    obtain ⟨e', he', hcolumns'⟩ := Option.map_eq_some_iff.mp hsecond
    obtain ⟨hdevice, hkey⟩ := Prod.mk.inj hcolumns
    obtain ⟨hdevice', hkey'⟩ := Prod.mk.inj hcolumns'
    have hsame := hapart e (Table.mem_of_find? he).1 e' (Table.mem_of_find? he').1 _ hkey hkey'
    rw [hdevice, hdevice'] at hsame
    revert hsame
    decide

end DeviceCounters
