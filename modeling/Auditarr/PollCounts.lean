/-
  Auditarr/PollCounts.lean
  ========================
  **The counts of a poll** (`app/services/playback/poller.py`,
  `app/integrations/path_mapping.py`).

  What is resolved is counted for the events of the history; then the sessions that are playing
  are added to what is fetched and inserted, and to nothing else.  So the counts of a poll agree
  iff it adds no session (`consistent_iff`), and the drift is judged by a number of paths that
  were never looked at.
-/
import Auditarr.Doubles
import Auditarr.PlaybackAnalyzer

namespace PollCounts

open KeyedTable PathMappings PlaybackPoller PyValues
open PlaybackAnalyzer (afterHistory eligibleLives)
open PlaybackCursor (fetchedBy pollOne_committed allInserted_foldl sameEvents_upsertDevice)
open PlaybackCursor (stored_upsert insertEvent_eq_some insertEvent_eq_none)

/-! ### What is counted -/

/-- The first session of each id that has no row. -/
def newLives (known : String → Bool) : List LivePlaybackDto → List LivePlaybackDto
  | [] => []
  | live :: rest =>
      if known live.upstreamId then newLives known rest
      else live :: newLives (fun id => known id || decide (id = live.upstreamId)) rest

section Counted

variable (lib : PollerRuntime) (poll : Poll) (integration : Integration) (t : Tables)

/-- There is a row for the session. -/
def liveStored (t : Tables) (integrationId : String) (id : String) : Bool :=
  t.stored integrationId ("live:" ++ id)

/-- The sessions that a poll synthesizes events for. -/
def synthesized (dtos : List PlaybackEventDto) : List LivePlaybackDto :=
  newLives (liveStored (afterHistory lib poll integration dtos t) integration.id)
    (eligibleLives poll integration (afterHistory lib poll integration dtos t))

/-- The path resolves to a media file. -/
def resolves (path : String) : Bool := (resolvePath t path).any fun id => id ≠ ""

/-- The paths of the events and of the synthesized sessions, as the library has them. -/
def countedPaths : List String :=
  match fetchedBy poll integration t with
  | none => []
  | some dtos => (dtos.map (remapEvent integration t)).map (·.sourcePath) ++
      (synthesized lib poll integration t dtos).map (·.sourcePath)

/-- The promise about the counts. -/
structure Consistent (outcome : PollOutcome) : Prop where
  split : (outcome.fetched : Int) = outcome.resolved + outcome.unresolved
  inserted : outcome.inserted ≤ outcome.fetched
  drift : outcome.driftSuspected = true → outcome.fetched <
    2 * (countedPaths lib poll integration t).countP fun path => !resolves t path

/-- Every session that is playing long enough has a row, before the poll or from its history. -/
def NothingSynthesized : Prop :=
  ∀ dtos, fetchedBy poll integration t = some dtos → ∀ lives, poll.lives = some lives →
    ∀ live ∈ lives, liveSessionEligible poll.now live = true →
      t.stored integration.id ("live:" ++ live.upstreamId) = true ∨
        ∃ dto ∈ dtos, dto.upstreamId = "live:" ++ live.upstreamId

end Counted

/-! ### The sessions that are added -/

section Sessions

variable {lib : PollerRuntime} {poll : Poll} {integration : Integration} {t : Tables}

theorem newLives_eq_nil_iff (known : String → Bool) (lives : List LivePlaybackDto) :
    newLives known lives = [] ↔ ∀ live ∈ lives, known live.upstreamId = true := by
  induction lives with
  | nil => simp [newLives]
  | cons live rest ih =>
    rw [newLives, List.forall_mem_cons]
    split
    · rename_i hknown
      rw [ih, and_iff_right hknown]
    · rename_i hnew
      apply iff_of_false
      · exact List.cons_ne_nil _ _
      · exact fun hall => hnew hall.1

variable (lib) in
theorem mergeOne_spec (integrationId : String) (before : Tables) (acc : Nat × Tables)
    (live : LivePlaybackDto)
    (hbefore : ∀ id, liveStored before integrationId id = true →
      liveStored acc.2 integrationId id = true) :
    (mergeOne lib integrationId before acc live).1 =
        acc.1 + (if liveStored acc.2 integrationId live.upstreamId then 0 else 1) ∧
      ∀ id, liveStored (mergeOne lib integrationId before acc live).2 integrationId id =
        (liveStored acc.2 integrationId id || decide (id = live.upstreamId)) := by
  have hknown : liveStored acc.2 integrationId live.upstreamId = true →
      (acc.1 = acc.1 + (if liveStored acc.2 integrationId live.upstreamId then 0 else 1)) ∧
        ∀ id, liveStored acc.2 integrationId id =
          (liveStored acc.2 integrationId id || decide (id = live.upstreamId)) := by
    intro hstored
    rw [if_pos hstored]
    refine ⟨rfl, fun id => ?_⟩
    by_cases hid : id = live.upstreamId
    · rw [hid, hstored]
      rfl
    · simp [hid]
  unfold mergeOne
  split
  · rename_i hstored
    exact hknown (hbefore _ hstored)
  · split
    · rename_i t hinsert
      obtain ⟨hrow, rfl⟩ := insertEvent_eq_some.mp hinsert
      have hstored : liveStored acc.2 integrationId live.upstreamId = false := hrow
      rw [hstored]
      refine ⟨rfl, fun id => ?_⟩
      rw [liveStored, (sameEvents_upsertDevice ..).stored, stored_upsert]
      simp [liveStored, liveRow]
    · rename_i hinsert
      exact hknown (insertEvent_eq_none.mp hinsert)

variable (lib) in
theorem foldl_mergeOne (integrationId : String) (before : Tables) (acc : Nat × Tables)
    (lives : List LivePlaybackDto)
    (hbefore : ∀ id, liveStored before integrationId id = true →
      liveStored acc.2 integrationId id = true) :
    (lives.foldl (mergeOne lib integrationId before) acc).1 =
      acc.1 + (newLives (liveStored acc.2 integrationId) lives).length := by
  induction lives generalizing acc with
  | nil => rfl
  | cons live rest ih =>
    obtain ⟨hcount, hstored⟩ := mergeOne_spec lib integrationId before acc live hbefore
    have hkept : ∀ id, liveStored before integrationId id = true →
        liveStored (mergeOne lib integrationId before acc live).2 integrationId id = true := by
      intro id hid
      rw [hstored, hbefore id hid]
      rfl
    rw [List.foldl_cons, ih _ hkept, hcount, newLives]
    by_cases hknown : liveStored acc.2 integrationId live.upstreamId = true
    · have hsame : liveStored (mergeOne lib integrationId before acc live).2 integrationId =
          liveStored acc.2 integrationId := by
        funext id
        rw [hstored]
        by_cases hid : id = live.upstreamId
        · rw [hid, hknown]
          rfl
        · simp [hid]
      rw [if_pos hknown, if_pos hknown, hsame]
      rfl
    · have hnow : liveStored (mergeOne lib integrationId before acc live).2 integrationId =
          fun id => liveStored acc.2 integrationId id || decide (id = live.upstreamId) := by
        funext id
        exact hstored id
      rw [if_neg hknown, if_neg hknown, hnow, List.length_cons]
      omega

variable (lib) in
theorem mergeLiveSessions_count (poll : Poll) (integration : Integration) (t : Tables) :
    (mergeLiveSessions lib poll integration t).1 =
      (newLives (liveStored t integration.id) (eligibleLives poll integration t)).length := by
  unfold mergeLiveSessions eligibleLives
  rcases poll.lives with _ | lives
  · rfl
  · have hcount := foldl_mergeOne lib integration.id t (0, t)
      ((lives.map fun live => { live with
        sourcePath := remapPathChain live.sourcePath (parseMappings integration.pathMappings)
          (globalMappings t) }).filter (liveSessionEligible poll.now)) fun _ hid => hid
    rwa [Nat.zero_add] at hcount

theorem stored_afterHistory (dtos : List PlaybackEventDto) (upstreamId : String) :
    (afterHistory lib poll integration dtos t).stored integration.id upstreamId = true ↔
      t.stored integration.id upstreamId = true ∨ ∃ dto ∈ dtos, dto.upstreamId = upstreamId := by
  rcases dtos with _ | ⟨dto, rest⟩
  · simp only [List.not_mem_nil, false_and, exists_false, or_false]
    rfl
  · have hinserted := (allInserted_foldl lib poll.now integration.id ⟨t, 0, none, none⟩
      ((dto :: rest).map (remapEvent integration t))).stored integration.id upstreamId
    have hcursor : (afterHistory lib poll integration (dto :: rest) t).stored integration.id
        upstreamId = (insertAll lib poll.now integration.id t
          ((dto :: rest).map (remapEvent integration t))).tables.stored integration.id
            upstreamId := by
      simp only [afterHistory]
      unfold advanceCursor
      split
      · rfl
      · rfl
    rw [hcursor, insertAll, hinserted]
    apply or_congr_right
    constructor
    · rintro ⟨-, remapped, hremapped, rfl⟩
      obtain ⟨event, hevent, rfl⟩ := List.mem_map.mp hremapped
      exact ⟨event, hevent, rfl⟩
    · rintro ⟨event, hevent, rfl⟩
      exact ⟨rfl, _, List.mem_map_of_mem hevent, rfl⟩

theorem synthesized_eq_nil_iff (dtos : List PlaybackEventDto) :
    synthesized lib poll integration t dtos = [] ↔ ∀ lives, poll.lives = some lives →
      ∀ live ∈ lives, liveSessionEligible poll.now live = true →
        t.stored integration.id ("live:" ++ live.upstreamId) = true ∨
          ∃ dto ∈ dtos, dto.upstreamId = "live:" ++ live.upstreamId := by
  rw [synthesized, newLives_eq_nil_iff]
  simp only [liveStored, stored_afterHistory]
  unfold eligibleLives
  rcases poll.lives with _ | lives
  · simp
  · simp [liveSessionEligible]

end Sessions

/-! ### The rate below one half -/

theorem majority_of_drift {r : DriftReport} (h : r.driftSuspected = true) :
    2 * r.resolved < r.seenPaths := by
  by_contra hmost
  rw [not_lt] at hmost
  rw [DriftReport.driftSuspected] at h
  split at h
  · cases h
  · rename_i hmany
    have hseen : (0 : ℚ) < r.seenPaths := by exact_mod_cast (by omega : 0 < r.seenPaths)
    have hrate : (2 : ℚ) ^ (-1 : Int) ≤ (r.resolved : ℚ) / r.seenPaths := by
      rw [le_div_iff₀ hseen, zpow_neg_one, inv_mul_le_iff₀ two_pos]
      exact_mod_cast hmost
    rw [DriftReport.resolutionRate, if_neg (by omega), PyFloat.ofExact] at h
    split at h
    · rename_i x hround
      have hx := Doubles.le_of_roundDouble (by norm_num) hrate hround
      rw [PyFloat.lt, decide_eq_true_eq] at h
      norm_num at hx
      linarith
    · have hnonneg : ¬(r.resolved : ℚ) / r.seenPaths < 0 := not_lt.mpr (by positivity)
      simp [PyFloat.lt, hnonneg] at h

/-! ### The outcome -/

section Outcome

variable {lib : PollerRuntime} {poll : Poll} {integration integration' : Integration}
  {t t' : Tables} {outcome : PollOutcome}

variable (lib) in
theorem inserted_foldl (now : Timestamp) (integrationId : String) (batch : Batch)
    (dtos : List PlaybackEventDto) :
    (dtos.foldl (insertOne lib now integrationId) batch).inserted ≤
      batch.inserted + dtos.length := by
  induction dtos generalizing batch with
  | nil => exact le_rfl
  | cons dto rest ih =>
    have hone : (insertOne lib now integrationId batch dto).inserted ≤ batch.inserted + 1 := by
      simp only [insertOne]
      split
      · exact le_rfl
      · exact Nat.le_succ _
    have hrest := ih (insertOne lib now integrationId batch dto)
    rw [List.foldl_cons, List.length_cons]
    omega

/-- What the outcome of a poll counts. -/
structure Counts (t : Tables) (history : List PlaybackEventDto) (added : Nat)
    (outcome : PollOutcome) : Prop where
  fetched : outcome.fetched = history.length + added
  inserted : outcome.inserted ≤ history.length + added
  resolved : outcome.resolved = history.countP fun dto => resolves t dto.sourcePath
  unresolved : outcome.unresolved = history.length - outcome.resolved
  drift : outcome.driftSuspected = true → 2 * outcome.resolved < outcome.fetched

theorem counts_zero (t : Tables) (id : String) (error : Option String) :
    Counts t [] 0 { integrationId := id, error := error } := by
  constructor
  · rfl
  · exact le_rfl
  · rfl
  · rfl
  · intro hdrift
    cases hdrift

theorem counts_quiet : Counts t [] (synthesized lib poll integration t []).length
    (pollQuiet lib poll integration t).1.1 := by
  have hcount := mergeLiveSessions_count lib poll integration
    (touchCursor poll.now integration.id t)
  constructor
  · rw [List.length_nil, Nat.zero_add]
    exact hcount
  · rw [List.length_nil, Nat.zero_add]
    exact hcount.le
  · rfl
  · rfl
  · intro hdrift
    cases hdrift

theorem counts_reportHealth {history : List PlaybackEventDto} {added : Nat} {configured : Bool}
    (h : Counts t history added outcome) :
    Counts t history added (reportHealth lib poll configured outcome integration).1 := by
  rw [reportHealth]
  split
  · rename_i hdrift
    refine ⟨h.fetched, h.inserted, h.resolved, h.unresolved, ?_⟩
    intro _
    exact majority_of_drift hdrift
  · exact h

theorem counts_history (dto : PlaybackEventDto) (rest : List PlaybackEventDto) :
    Counts t ((dto :: rest).map (remapEvent integration t))
      (synthesized lib poll integration t (dto :: rest)).length
      (pollHistory lib poll integration (dto :: rest) t).1.1 := by
  have hadded := mergeLiveSessions_count lib poll integration
    (afterHistory lib poll integration (dto :: rest) t)
  have hinserted := inserted_foldl lib poll.now integration.id ⟨t, 0, none, none⟩
    ((dto :: rest).map (remapEvent integration t))
  rw [Nat.zero_add] at hinserted
  unfold pollHistory
  apply counts_reportHealth
  constructor
  · rw [List.length_map]
    exact congrArg _ hadded
  · exact Nat.add_le_add hinserted hadded.le
  · exact List.countP_eq_length_filter.symm
  · rw [List.length_map]
  · intro hdrift
    cases hdrift

theorem counts_none (hnone : fetchedBy poll integration t = none)
    (h : pollOne lib poll integration t = (.ok (outcome, integration'), t')) :
    Counts t [] 0 outcome := by
  unfold fetchedBy at hnone
  unfold pollOne at h
  rcases hregistered : poll.registered with _ | _
  · rw [hregistered] at h
    cases h
    exact counts_zero ..
  · rcases hconfig : poll.configError with _ | text
    · rcases hfetch : poll.fetch (cursorOf t integration.id) with error | dtos
      · rw [hregistered, hconfig, hfetch] at h
        rcases error with _ | text
        · cases h
          exact counts_zero ..
        · cases h
          exact counts_zero ..
      · rcases hfault : poll.fault with _ | text
        · simp [hregistered, hconfig, hfetch, hfault] at hnone
        · rw [hregistered, hconfig, hfetch, hfault] at h
          cases h
    · rw [hregistered, hconfig] at h
      cases h
      exact counts_zero ..

theorem counts_some {dtos : List PlaybackEventDto} (hsome : fetchedBy poll integration t = some dtos)
    (h : pollOne lib poll integration t = (.ok (outcome, integration'), t')) :
    Counts t (dtos.map (remapEvent integration t))
      (synthesized lib poll integration t dtos).length outcome := by
  rw [pollOne_committed lib hsome] at h
  rcases dtos with _ | ⟨dto, rest⟩
  · have hresult := Except.ok.inj (congrArg Prod.fst h)
    have houtcome : (pollQuiet lib poll integration t).1.1 = outcome := congrArg Prod.fst hresult
    rw [← houtcome]
    exact counts_quiet
  · have hresult := Except.ok.inj (congrArg Prod.fst h)
    have houtcome : (pollHistory lib poll integration (dto :: rest) t).1.1 = outcome :=
      congrArg Prod.fst hresult
    rw [← houtcome]
    exact counts_history dto rest

theorem consistent_of_counts {history : List PlaybackEventDto} {added : List LivePlaybackDto}
    (hpaths : countedPaths lib poll integration t =
      history.map (·.sourcePath) ++ added.map (·.sourcePath))
    (h : Counts t history added.length outcome) :
    Consistent lib poll integration t outcome ↔ added = [] := by
  constructor
  · intro hconsistent
    have hsplit := hconsistent.split
    rw [h.fetched, h.unresolved] at hsplit
    apply List.length_eq_zero_iff.mp
    omega
  · rintro rfl
    have hfetched := h.fetched
    rw [List.length_nil, Nat.add_zero] at hfetched
    constructor
    · rw [h.unresolved, hfetched]
      omega
    · rw [h.fetched]
      exact h.inserted
    · intro hdrift
      have hfew := h.drift hdrift
      have hresolved := h.resolved
      have hall := List.length_eq_countP_add_countP (fun dto => resolves t dto.sourcePath)
        (l := history)
      rw [hpaths, List.map_nil, List.append_nil, List.countP_map]
      have hrest : history.countP (fun dto => !resolves t dto.sourcePath) + outcome.resolved =
          outcome.fetched := by
        rw [hresolved, hfetched, hall, Nat.add_comm]
        simp
      have hsame : ((fun path => !resolves t path) ∘ fun dto : PlaybackEventDto => dto.sourcePath) =
          fun dto => !resolves t dto.sourcePath := rfl
      rw [hsame]
      omega

/-- The counts of a poll agree, and drift is found only where most paths do not resolve, iff the
    poll synthesizes no session. -/
theorem consistent_iff (lib : PollerRuntime) (poll : Poll) (integration : Integration) (t : Tables)
    (outcome : PollOutcome) (integration' : Integration) (t' : Tables)
    (h : pollOne lib poll integration t = (.ok (outcome, integration'), t')) :
    Consistent lib poll integration t outcome ↔ NothingSynthesized poll integration t := by
  rcases hfetched : fetchedBy poll integration t with _ | dtos
  · have hpaths : countedPaths lib poll integration t =
        ([] : List PlaybackEventDto).map (·.sourcePath) ++
          ([] : List LivePlaybackDto).map (·.sourcePath) := by
      rw [countedPaths, hfetched]
      rfl
    rw [consistent_of_counts hpaths (counts_none hfetched h), NothingSynthesized, hfetched]
    simp
  · have hpaths : countedPaths lib poll integration t =
        (dtos.map (remapEvent integration t)).map (·.sourcePath) ++
          (synthesized lib poll integration t dtos).map (·.sourcePath) := by
      rw [countedPaths, hfetched]
    rw [consistent_of_counts hpaths (counts_some hfetched h), synthesized_eq_nil_iff,
      NothingSynthesized, hfetched]
    simp only [Option.some.injEq, forall_eq']

end Outcome

/-! ### One event and one session -/

open PlaybackCursor (plainRuntime pollOf plexIntegration noTables playAt)

/-- A session that has been playing for a minute when it is polled. -/
def playing : LivePlaybackDto where
  upstreamId := "s1"
  sourcePath := "/n.mkv"
  decision := "direct_play"
  startedAt := seconds (-60)
  progressPct := none
  deviceKind := none
  deviceName := none
  sourceCodec := none
  sourceBitrateKbps := none
  sourceWidth := none
  sourceHeight := none

/-- A poll that finds a play, and nothing or a session that is playing. -/
def mixedPoll (lives : List LivePlaybackDto) : Poll :=
  { pollOf [playAt "900" (seconds 10)] with lives := some lives }

/-- What the poll returns. -/
def mixedOutcome (lives : List LivePlaybackDto) : PollOutcome :=
  (pollHistory plainRuntime (mixedPoll lives) plexIntegration [playAt "900" (seconds 10)]
    noTables).1.1

theorem consistent_iff_quietSessions :
    Consistent plainRuntime (mixedPoll []) plexIntegration noTables (mixedOutcome []) ↔
      NothingSynthesized (mixedPoll []) plexIntegration noTables :=
  consistent_iff plainRuntime (mixedPoll []) plexIntegration noTables (mixedOutcome []) _ _ rfl

/-- Of the two that are fetched, one is counted as unresolved and none as resolved. -/
theorem mixed_not_consistent :
    ∃ outcome, (pollOne plainRuntime (mixedPoll [playing]) plexIntegration noTables).1.map
        (fun result => result.1) = .ok outcome ∧
      ¬Consistent plainRuntime (mixedPoll [playing]) plexIntegration noTables outcome := by
  refine ⟨mixedOutcome [playing], rfl, ?_⟩
  intro hconsistent
  have hsplit := hconsistent.split
  revert hsplit
  decide +kernel

end PollCounts
