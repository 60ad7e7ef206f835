/-
  Auditarr/PlaybackDelivery.lean
  ==============================
  **Every play is recorded once.**

  A play has an instant at which it started and one at which the history of the
  upstream shows it.  The cursor stays the skew behind an event that was fetched, so
  what is not recorded yet started at or after the cursor, provided that a play is
  shown no later than any that started more than the skew after it.
-/
import Auditarr.PlaybackCursor

namespace PlaybackDelivery

open KeyedTable PlaybackPoller PlaybackCursor Runs

/-- A play in the history of the upstream. -/
structure Play where
  upstreamId : String
  startedAt : Timestamp
  visibleAt : Timestamp

/-- The provider returns what the upstream shows at the time of the poll: everything
    since the cursor, and nothing that is not there. -/
structure Honest (plays : Set Play) (poll : Poll) : Prop where
  complete : ∀ since dtos, poll.fetch since = .ok dtos → ∀ play ∈ plays,
    play.visibleAt ≤ poll.now → (∀ instant, since = some instant → instant ≤ play.startedAt) →
    ∃ dto ∈ dtos, play.upstreamId = dto.upstreamId
  genuine : ∀ since dtos, poll.fetch since = .ok dtos → ∀ dto ∈ dtos,
    ∃ play ∈ plays, play.startedAt = dto.startedAt ∧ play.visibleAt ≤ poll.now

/-- A play is shown no later than any that started more than the skew after it. -/
def ShownInOrder (plays : Set Play) : Prop :=
  ∀ play ∈ plays, ∀ other ∈ plays, play.startedAt + cursorSafetySkew < other.startedAt →
    play.visibleAt ≤ other.visibleAt

section Delivery

variable (lib : PollerRuntime) {integrationId : String}

/-- Polls meet an honest provider, and nobody else takes event rows away. -/
def Fair (plays : Set Play) : Turn integrationId → Prop
  | .polled poll _ _ => Honest plays poll
  | .elsewhere change _ => ∀ t u, t.stored integrationId u = true →
      (change t).stored integrationId u = true

variable (integrationId) in
/-- What is not recorded yet started at or after the cursor. -/
def NothingPassed (plays : Set Play) (t : Tables) : Prop :=
  ∀ play ∈ plays, t.stored integrationId play.upstreamId = false →
    ∀ cursor, cursorOf t integrationId = some cursor → cursor ≤ play.startedAt

theorem advance_mem {t : Tables} {dtos : List PlaybackEventDto} {instant : Timestamp}
    (h : advance t integrationId dtos = some instant) : ∃ dto ∈ dtos, dto.startedAt = instant := by
  unfold advance at h
  cases hfresh : (starts (freshOf (t.stored integrationId) dtos)).max? with
  | none =>
    rw [hfresh] at h
    exact (max?_starts.mp h).1
  | some latest =>
    rw [hfresh] at h
    cases h
    obtain ⟨⟨dto, hdto, hstart⟩, -⟩ := max?_starts.mp hfresh
    exact ⟨dto, mem_of_mem_freshOf hdto, hstart⟩

theorem fetch_of_fetchedBy {poll : Poll} {integration : Integration} {t : Tables}
    {dtos : List PlaybackEventDto} (h : fetchedBy poll integration t = some dtos) :
    poll.fetch (cursorOf t integration.id) = .ok dtos := by
  unfold fetchedBy at h
  split at h
  · split at h
    · rename_i hfetch
      cases h
      exact hfetch
    · cases h
  · cases h

theorem stored_run {plays : Set Play} {turn : Turn integrationId} (hfair : Fair plays turn)
    {t : Tables} {u : String} (h : t.stored integrationId u = true) :
    (next lib t turn).stored integrationId u = true := by
  cases turn with
  | elsewhere change keeps => exact hfair t u h
  | polled poll integration isThis =>
    cases isThis
    simp only [next]
    cases hfetched : fetchedBy poll integration t with
    | none =>
      rw [pollOne_none lib hfetched]
      exact h
    | some dtos =>
      rw [pollOne_some lib hfetched]
      cases dtos with
      | nil => exact stored_pollQuiet lib poll integration t h
      | cons dto rest => exact stored_pollHistory lib poll integration (dto :: rest) t (.inl h)

theorem stored_of_fetched {poll : Poll} {integration : Integration} {t : Tables}
    {dtos : List PlaybackEventDto} (hfetched : fetchedBy poll integration t = some dtos)
    {dto : PlaybackEventDto} (hdto : dto ∈ dtos) :
    (pollOne lib poll integration t).2.stored integration.id dto.upstreamId = true := by
  rw [pollOne_some lib hfetched]
  cases dtos with
  | nil => cases hdto
  | cons first rest =>
    exact stored_pollHistory lib poll integration (first :: rest) t (.inr ⟨dto, hdto, rfl⟩)

theorem recorded_of_visible {plays : Set Play} {poll : Poll} (hhonest : Honest plays poll)
    {integration : Integration} {t : Tables} (hinv : NothingPassed integration.id plays t)
    {dtos : List PlaybackEventDto} (hfetched : fetchedBy poll integration t = some dtos)
    {play : Play} (hplay : play ∈ plays) (hvisible : play.visibleAt ≤ poll.now)
    (hnew : t.stored integration.id play.upstreamId = false) :
    ∃ dto ∈ dtos, play.upstreamId = dto.upstreamId := by
  apply hhonest.complete _ _ (fetch_of_fetchedBy hfetched) play hplay hvisible
  intro instant hinstant
  exact hinv play hplay hnew instant hinstant

theorem nothingPassed_run {plays : Set Play} (horder : ShownInOrder plays)
    {turn : Turn integrationId} (hfair : Fair plays turn) {t : Tables}
    (hinv : NothingPassed integrationId plays t) :
    NothingPassed integrationId plays (next lib t turn) := by
  intro play hplay hnew cursor hcursor
  -- what is not stored now was not stored before
  have hbefore : t.stored integrationId play.upstreamId = false := by
    by_contra hstored
    rw [Bool.not_eq_false] at hstored
    rw [stored_run lib hfair hstored] at hnew
    cases hnew
  cases turn with
  | elsewhere change keeps => exact hinv play hplay hbefore cursor ((keeps t).symm.trans hcursor)
  | polled poll integration isThis =>
    cases isThis
    simp only [next] at hnew hcursor
    cases hfetched : fetchedBy poll integration t with
    | none =>
      rw [pollOne_none lib hfetched] at hcursor
      exact hinv play hplay hbefore cursor hcursor
    | some dtos =>
      have hnone : ∀ dto ∈ dtos, play.upstreamId ≠ dto.upstreamId := by
        intro dto hdto hid
        rw [hid, stored_of_fetched lib hfetched hdto] at hnew
        cases hnew
      rw [pollOne_some lib hfetched] at hcursor
      cases dtos with
      | nil =>
        rw [cursorOf_pollQuiet] at hcursor
        exact hinv play hplay hbefore cursor hcursor
      | cons first rest =>
        dsimp only at hcursor
        rw [cursorOf_pollHistory] at hcursor
        cases hadvance : advance t integration.id (first :: rest) with
        | none =>
          rw [hadvance] at hcursor
          exact hinv play hplay hbefore cursor hcursor
        | some instant =>
          rw [hadvance] at hcursor
          cases hcursor
          obtain ⟨dto, hdto, rfl⟩ := advance_mem hadvance
          obtain ⟨other, hother, hstart, hshown⟩ :=
            hfair.genuine _ _ (fetch_of_fetchedBy hfetched) dto hdto
          by_contra hpassed
          have hafter : play.startedAt + cursorSafetySkew < other.startedAt := by
            rw [hstart]
            exact lt_sub_iff_add_lt.mp (not_le.mp hpassed)
          have hvisible : play.visibleAt ≤ poll.now :=
            (horder play hplay other hother hafter).trans hshown
          obtain ⟨dto', hdto', hid⟩ :=
            recorded_of_visible hfair hinv hfetched hplay hvisible hbefore
          exact hnone dto' hdto' hid

theorem one_row {t : Tables} {u : String} (h : t.stored integrationId u = true) :
    ∃! row, row ∈ t.events ∧ row.integrationId = integrationId ∧ row.upstreamId = u := by
  obtain ⟨row, hrow, hintegration, hupstream⟩ := stored_iff.mp h
  refine ⟨row, ⟨hrow, hintegration, hupstream⟩, ?_⟩
  rintro other ⟨hother, hintegration', hupstream'⟩
  apply Table.eq_of_key_eq hother hrow
  rw [PlaybackEvent.key, PlaybackEvent.key, hintegration, hintegration', hupstream, hupstream']

/-- In a run from a state without a cursor, a play that was shown at a poll that went
    through has exactly one row from then on. -/
theorem recorded_once (plays : Set Play) (horder : ShownInOrder plays) (integrationId : String)
    (t : Tables) (hstart : cursorOf t integrationId = none)
    (before after : List (Turn integrationId)) (poll : Poll) (integration : Integration)
    (isThis : integration.id = integrationId)
    (hfair : ∀ turn ∈ before ++ .polled poll integration isThis :: after, Fair plays turn)
    (hcompletes : fetchedBy poll integration (final (next lib) t before) ≠ none)
    (play : Play) (hplay : play ∈ plays) (hvisible : play.visibleAt ≤ poll.now) :
    ∃! row, row ∈ (final (next lib) t (before ++ .polled poll integration isThis :: after)).events ∧
      row.integrationId = integrationId ∧ row.upstreamId = play.upstreamId := by
  have hinv : NothingPassed integrationId plays (final (next lib) t before) := by
    apply final_invariant
    · intro turn hturn s hs
      exact nothingPassed_run lib horder (hfair turn (List.mem_append_left _ hturn)) hs
    · intro play _ _ cursor hcursor
      rw [hstart] at hcursor
      cases hcursor
  have hpoll : Fair plays (.polled poll integration isThis) := hfair _ (by simp)
  apply one_row
  have hsplit : final (next lib) t (before ++ .polled poll integration isThis :: after) =
      final (next lib) (next lib (final (next lib) t before) (.polled poll integration isThis))
        after := by
    rw [final, List.foldl_append]
    rfl
  rw [hsplit]
  refine final_invariant (next lib)
    (I := fun s => s.stored integrationId play.upstreamId = true) ?_ ?_
  · intro turn hturn s hs
    exact stored_run lib (hfair turn (by simp [hturn])) hs
  · cases hstored : (final (next lib) t before).stored integrationId play.upstreamId with
    | true => exact stored_run lib hpoll hstored
    | false =>
      cases isThis
      obtain ⟨dtos, hfetched⟩ := Option.ne_none_iff_exists'.mp hcompletes
      obtain ⟨dto, hdto, hid⟩ :=
        recorded_of_visible hpoll hinv hfetched hplay hvisible hstored
      rw [hid]
      exact stored_of_fetched lib hfetched hdto

end Delivery

/-! ### A provider with a list of plays -/

def eventOf (play : Play) : PlaybackEventDto := playAt play.upstreamId play.startedAt

/-- A poll of a provider that shows a list of plays. -/
def showing (plays : List Play) (now : Timestamp) : Poll :=
  { pollOf ((plays.filter fun play => play.visibleAt ≤ now).map eventOf) with now := now }

theorem honest_showing (plays : List Play) (now : Timestamp) :
    Honest {play | play ∈ plays} (showing plays now) := by
  constructor
  · intro since dtos hfetch play hplay hvisible hsince
    cases hfetch
    refine ⟨eventOf play, List.mem_filter.mpr ⟨?_, ?_⟩, rfl⟩
    · exact List.mem_map_of_mem (List.mem_filter.mpr ⟨hplay, decide_eq_true hvisible⟩)
    · cases since with
      | none => rfl
      | some instant => exact decide_eq_true (hsince instant rfl)
  · intro since dtos hfetch dto hdto
    cases hfetch
    obtain ⟨play, hplay, rfl⟩ := List.mem_map.mp (List.mem_filter.mp hdto).1
    obtain ⟨hmem, hvisible⟩ := List.mem_filter.mp hplay
    exact ⟨play, hmem, rfl, of_decide_eq_true hvisible⟩

/-- The second is shown after the first poll. -/
def twoPlays : List Play := [⟨"a", seconds 100, seconds 200⟩, ⟨"b", seconds 250, seconds 400⟩]

theorem recorded_once_two :
    (∃! row, row ∈ (final (next plainRuntime) noTables
        ([.polled (showing twoPlays (seconds 300)) plexIntegration rfl] ++
          [.polled (showing twoPlays (seconds 500)) plexIntegration rfl] :
          List (Turn "plex"))).events ∧
      row.integrationId = "plex" ∧ row.upstreamId = "a") ∧
    ∃! row, row ∈ (final (next plainRuntime) noTables
        ([.polled (showing twoPlays (seconds 300)) plexIntegration rfl] ++
          [.polled (showing twoPlays (seconds 500)) plexIntegration rfl] :
          List (Turn "plex"))).events ∧
      row.integrationId = "plex" ∧ row.upstreamId = "b" := by
  have hrecorded := recorded_once plainRuntime {play | play ∈ twoPlays} ?_ "plex" noTables rfl
    [.polled (showing twoPlays (seconds 300)) plexIntegration rfl] []
    (showing twoPlays (seconds 500)) plexIntegration rfl ?_ nofun
  · constructor
    · exact hrecorded ⟨"a", seconds 100, seconds 200⟩ (List.mem_cons_self ..) (by decide)
    · exact hrecorded ⟨"b", seconds 250, seconds 400⟩ (.tail _ (List.mem_cons_self ..)) (by decide)
  · intro play hplay other hother hlt
    rcases List.mem_pair.mp hplay with rfl | rfl
    · rcases List.mem_pair.mp hother with rfl | rfl <;> decide
    · rcases List.mem_pair.mp hother with rfl | rfl
      · exact absurd hlt (by decide)
      · decide
  · intro turn hturn
    rcases List.mem_pair.mp hturn with rfl | rfl
    · exact honest_showing twoPlays (seconds 300)
    · exact honest_showing twoPlays (seconds 500)

/-- A play that is shown 30 seconds after one that started ten minutes after it. -/
def overtaken : List Play := [⟨"f", seconds 600, seconds 700⟩, ⟨"e", 0, seconds 730⟩]

/-- Polls before and after the second play is shown. -/
def twoPolls : List (Turn "plex") :=
  [.polled (showing overtaken (seconds 700)) plexIntegration plexIntegration_id,
    .polled (showing overtaken (seconds 800)) plexIntegration plexIntegration_id]

/-- With plays shown at most the skew after any later one, a play can be lost. -/
theorem overtaken_play_lost :
    ¬ ∀ (lib : PollerRuntime) (plays : Set Play) (integrationId : String) (t : Tables)
      (before after : List (Turn integrationId)) (poll : Poll) (integration : Integration)
      (isThis : integration.id = integrationId),
      (∀ play ∈ plays, ∀ other ∈ plays, play.startedAt < other.startedAt →
        play.visibleAt ≤ other.visibleAt + cursorSafetySkew) →
      cursorOf t integrationId = none →
      (∀ turn ∈ before ++ .polled poll integration isThis :: after, Fair plays turn) →
      fetchedBy poll integration (final (next lib) t before) ≠ none →
      ∀ play ∈ plays, play.visibleAt ≤ poll.now →
        ∃! row, row ∈ (final (next lib) t (before ++ .polled poll integration isThis :: after)).events ∧
          row.integrationId = integrationId ∧ row.upstreamId = play.upstreamId := by
  intro hall
  have hlost : (final (next plainRuntime) noTables twoPolls).stored "plex" "e" = false := by
    decide +kernel
  have hone := hall plainRuntime {play | play ∈ overtaken} "plex" noTables
    [.polled (showing overtaken (seconds 700)) plexIntegration rfl] []
    (showing overtaken (seconds 800)) plexIntegration rfl ?_ rfl ?_ ?_ ⟨"e", 0, seconds 730⟩
    (List.mem_cons_of_mem _ (List.mem_singleton_self _)) (by decide)
  · obtain ⟨row, hrow, -⟩ := hone
    exact absurd (hlost.symm.trans (stored_iff.mpr ⟨row, hrow⟩)) (by decide)
  · intro play hplay other hother hlt
    rcases List.mem_pair.mp hplay with rfl | rfl
    · rcases List.mem_pair.mp hother with rfl | rfl
      · exact absurd hlt (by decide)
      · exact absurd hlt (by decide)
    · rcases List.mem_pair.mp hother with rfl | rfl
      · decide
      · exact absurd hlt (by decide)
  · intro turn hturn
    rcases List.mem_pair.mp hturn with rfl | rfl
    · exact honest_showing overtaken (seconds 700)
    · exact honest_showing overtaken (seconds 800)
  · intro hnone
    cases hnone

end PlaybackDelivery
