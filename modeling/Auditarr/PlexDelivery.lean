/-
  Auditarr/PlexDelivery.lean
  ==========================
  **Whether the cursor passes a play of a Plex server.**

  A poll keeps what it received of the history and moves the cursor behind the newest
  new event of that, whatever it did not receive.  So a play is passed unless it was
  recorded before, is received, or is no more than the skew older than every new event
  that is.
-/
import Auditarr.PlexHistory
import Auditarr.PlaybackCursor

namespace PlexDelivery

open PyValues PlaybackPoller PlaybackCursor PlexHistory Runs

/-- An entry of the history with a file. -/
structure HistoryPlay where
  ratingKey : String
  viewedAt : Int

def HistoryPlay.upstreamId (play : HistoryPlay) : String :=
  upstreamIdOf play.ratingKey play.viewedAt

/-- A poll of a Plex server, with the history at that time and the answers to the
    requests, which need not agree with it. -/
structure PlexPoll where
  now : Timestamp
  /-- The clock when the provider is called. -/
  askedAt : Timestamp
  registered : Bool
  configError : Option String
  answers : PlexAnswers
  lives : Option (List LivePlaybackDto)
  fault : Option String
  history : Set HistoryPlay

section Turns

variable (lib : PollerRuntime) (rt : PlexRuntime) {integrationId : String}

/-- The poll that the poller makes. -/
def PlexPoll.poll (plex : PlexPoll) : Poll where
  now := plex.now
  registered := plex.registered
  configError := plex.configError
  fetch since := match fetchPlaybackEvents rt plex.answers plex.askedAt since with
    | .ok events => .ok events
    | .error exc => .error (.raised (rt.errorText exc))
  lives := plex.lives
  fault := plex.fault

/-- A poll of the integration, or whatever somebody else does in between. -/
inductive PlexTurn (integrationId : String) where
  | polled (plex : PlexPoll) (integration : Integration) (isThis : integration.id = integrationId)
  | elsewhere (change : Tables → Tables)

/-- The tables after a turn. -/
def next (t : Tables) : PlexTurn integrationId → Tables
  | .polled plex integration _ => (pollOne lib (plex.poll rt) integration t).2
  | .elsewhere change => change t

/-- The instant from which on a poll asks for plays: the cursor, if there is one. -/
def PlexPoll.cutoff (plex : PlexPoll) (integrationId : String) (t : Tables) : Timestamp :=
  cutoffOf plex.askedAt (cursorOf t integrationId)

/-- Every play of the history between the cursor before and the cursor after is
    recorded. -/
def NothingSkipped (t : Tables) : PlexTurn integrationId → Prop
  | .elsewhere _ => True
  | .polled plex integration isThis => ∀ play ∈ plex.history, ∀ cursor,
      cursorOf (next lib rt t (.polled plex integration isThis)) integrationId = some cursor →
      plex.cutoff integrationId t ≤ seconds play.viewedAt → seconds play.viewedAt < cursor →
      (next lib rt t (.polled plex integration isThis)).stored integrationId play.upstreamId = true

/-- Nothing stops the poll before it commits. -/
def PlexPoll.Completes (plex : PlexPoll) (integrationId : String) (t : Tables) : Prop :=
  (plex.registered = true ∧ plex.configError = none ∧ plex.fault = none) ∧
    ∃ events, fetchPlaybackEvents rt plex.answers plex.askedAt (cursorOf t integrationId) = .ok events

/-- The cursor may move to the event: it is not recorded, or nothing that is received
    is new. -/
def PlexPoll.Moves (plex : PlexPoll) (integrationId : String) (t : Tables)
    (event : PlaybackEventDto) : Prop :=
  Received rt plex.answers (plex.cutoff integrationId t) event ∧
    (t.stored integrationId event.upstreamId = false ∨
      ∀ other, Received rt plex.answers (plex.cutoff integrationId t) other →
        t.stored integrationId other.upstreamId = true)

/-- A play that is neither recorded nor received is at most the skew older than every
    event that the cursor may move to. -/
def KeepsUp (t : Tables) : PlexTurn integrationId → Prop
  | .elsewhere _ => True
  | .polled plex _ _ => plex.Completes rt integrationId t → ∀ play ∈ plex.history,
      plex.cutoff integrationId t ≤ seconds play.viewedAt →
      t.stored integrationId play.upstreamId = false →
      (∀ event, Received rt plex.answers (plex.cutoff integrationId t) event →
        play.upstreamId ≠ event.upstreamId) →
      ∀ event, plex.Moves rt integrationId t event →
        event.startedAt ≤ seconds play.viewedAt + cursorSafetySkew

variable {rt}

theorem startedAt_of_upstreamId {answers : PlexAnswers} {cutoff : Timestamp}
    {event event' : PlaybackEventDto} (h : Received rt answers cutoff event)
    (h' : Received rt answers cutoff event') (hid : event.upstreamId = event'.upstreamId) :
    event.startedAt = event'.startedAt := by
  obtain ⟨_, _, _, _, ⟨_, _, _, _, _, _, hevent⟩, _⟩ := h
  obtain ⟨_, _, _, _, ⟨_, _, _, _, _, _, hevent'⟩, _⟩ := h'
  obtain ⟨ratingKey, viewedAt, hshape, hstart⟩ := shape_of_eventOf hevent
  obtain ⟨ratingKey', viewedAt', hshape', hstart'⟩ := shape_of_eventOf hevent'
  rw [hshape, hshape'] at hid
  rw [hstart, hstart', viewedAt_of_upstreamIdOf hid]

variable (integrationId) in
theorem advance_le_iff (t : Tables) {dtos : List PlaybackEventDto} (hsome : dtos ≠ [])
    (hsame : ∀ dto ∈ dtos, ∀ dto' ∈ dtos, dto.upstreamId = dto'.upstreamId →
      dto.startedAt = dto'.startedAt) (bound : Timestamp) :
    (∃ instant, advance t integrationId dtos = some instant ∧ instant ≤ bound) ↔
      ∀ dto ∈ dtos, (t.stored integrationId dto.upstreamId = false ∨
        ∀ other ∈ dtos, t.stored integrationId other.upstreamId = true) → dto.startedAt ≤ bound := by
  unfold advance
  cases hfresh : (starts (freshOf (t.stored integrationId) dtos)).max? with
  | none =>
    have hall : ∀ dto ∈ dtos, t.stored integrationId dto.upstreamId = true := by
      apply freshOf_eq_nil.mp
      simpa [starts] using hfresh
    obtain ⟨newest, hnewest⟩ := exists_newest hsome
    obtain ⟨⟨dto, hdto, rfl⟩, hmax⟩ := max?_starts.mp hnewest
    rw [hnewest]
    constructor
    · rintro ⟨instant, hinstant, hle⟩ other hother -
      cases hinstant
      exact (hmax other hother).trans hle
    · intro h
      exact ⟨dto.startedAt, rfl, h dto hdto (.inr hall)⟩
  | some latest =>
    obtain ⟨⟨new, hnew, rfl⟩, hmax⟩ := max?_starts.mp hfresh
    have hunknown := unknown_of_mem_freshOf hnew
    have hmem := mem_of_mem_freshOf hnew
    constructor
    · rintro ⟨instant, hinstant, hle⟩ dto hdto hmoves
      cases hinstant
      rcases hmoves with hunstored | hall
      · obtain ⟨first, hfirst, hid⟩ := exists_freshOf _ hdto hunstored
        have hstart := hsame first (mem_of_mem_freshOf hfirst) dto hdto hid
        exact hstart ▸ (hmax first hfirst).trans hle
      · rw [hall new hmem] at hunknown
        cases hunknown
    · intro h
      exact ⟨new.startedAt, rfl, h new hmem (.inl hunknown)⟩

theorem fetchedBy_poll {plex : PlexPoll} {integration : Integration} {t : Tables}
    {dtos : List PlaybackEventDto} :
    fetchedBy (plex.poll rt) integration t = some dtos ↔
      (plex.registered = true ∧ plex.configError = none ∧ plex.fault = none) ∧
        fetchPlaybackEvents rt plex.answers plex.askedAt (cursorOf t integration.id) = .ok dtos := by
  have hready : (plex.poll rt).registered && (plex.poll rt).configError.isNone &&
      (plex.poll rt).fault.isNone ↔
      plex.registered = true ∧ plex.configError = none ∧ plex.fault = none := by
    simp [PlexPoll.poll, and_assoc]
  unfold fetchedBy
  rw [← hready]
  split
  · rename_i h
    rw [and_iff_right h]
    simp only [PlexPoll.poll]
    cases fetchPlaybackEvents rt plex.answers plex.askedAt (cursorOf t integration.id) <;> simp
  · rename_i h
    simp [h]

theorem HistoryPlay.not_live (play : HistoryPlay) (session : String) :
    play.upstreamId ≠ "live:" ++ session := by
  intro h
  have hlist := congrArg (fun s => s.toList.head?) h
  simp [HistoryPlay.upstreamId, upstreamIdOf, String.toList_append] at hlist

theorem cutoff_of_cursor {plex : PlexPoll} {t : Tables} {cursor : Timestamp}
    (h : cursorOf t integrationId = some cursor) : plex.cutoff integrationId t = cursor := by
  rw [PlexPoll.cutoff, h]
  rfl

theorem skipped_iff (poll : Poll) (integration : Integration) {dtos : List PlaybackEventDto}
    (hsome : dtos ≠ []) (t : Tables)
    (hsame : ∀ dto ∈ dtos, ∀ dto' ∈ dtos, dto.upstreamId = dto'.upstreamId →
      dto.startedAt = dto'.startedAt) (play : HistoryPlay) :
    (∀ cursor, cursorOf (pollHistory lib poll integration dtos t).2 integration.id = some cursor →
      seconds play.viewedAt < cursor →
      (pollHistory lib poll integration dtos t).2.stored integration.id play.upstreamId = true) ↔
    (t.stored integration.id play.upstreamId = false →
      (∀ dto ∈ dtos, play.upstreamId ≠ dto.upstreamId) →
      ∀ dto ∈ dtos, (t.stored integration.id dto.upstreamId = false ∨
        ∀ other ∈ dtos, t.stored integration.id other.upstreamId = true) →
      dto.startedAt ≤ seconds play.viewedAt + cursorSafetySkew) := by
  have hbound := advance_le_iff integration.id t hsome hsame
    (seconds play.viewedAt + cursorSafetySkew)
  have hcursor := cursorOf_pollHistory lib poll integration dtos t
  constructor
  · intro h hunstored hmissing
    apply hbound.mp
    obtain ⟨instant, hinstant⟩ := exists_advance t integration.id hsome
    refine ⟨instant, hinstant, ?_⟩
    rw [hinstant] at hcursor
    by_contra hbeyond
    have hstored := h _ hcursor (by
      rw [not_le] at hbeyond
      exact lt_sub_iff_add_lt.mpr hbeyond)
    rcases of_stored_pollHistory lib poll integration dtos t play.not_live hstored with
      hbefore | ⟨dto, hdto, hid⟩
    · rw [hunstored] at hbefore
      cases hbefore
    · exact hmissing dto hdto hid
  · intro h cursor hafter hlt
    apply stored_pollHistory
    by_contra hnot
    rw [not_or, Bool.not_eq_true] at hnot
    obtain ⟨hunstored, hmissing⟩ := hnot
    obtain ⟨instant, hinstant, hle⟩ := hbound.mpr
      (h hunstored fun dto hdto hid => hmissing ⟨dto, hdto, hid⟩)
    rw [hinstant] at hcursor
    rw [hcursor] at hafter
    cases hafter
    exact absurd hlt (not_lt.mpr (sub_le_iff_le_add.mpr hle))

theorem nothingSkipped_iff (t : Tables) (turn : PlexTurn integrationId) :
    NothingSkipped lib rt t turn ↔ KeepsUp rt t turn := by
  cases turn with
  | elsewhere change => exact Iff.rfl
  | polled plex integration isThis =>
    cases isThis
    have hstays : ∀ t', cursorOf t' integration.id = cursorOf t integration.id →
        ∀ play : HistoryPlay, ∀ cursor, cursorOf t' integration.id = some cursor →
        plex.cutoff integration.id t ≤ seconds play.viewedAt →
        ¬ seconds play.viewedAt < cursor := by
      intro t' hsame play cursor hcursor hcutoff hlt
      rw [cutoff_of_cursor (hsame.symm.trans hcursor)] at hcutoff
      exact absurd hlt (not_lt.mpr hcutoff)
    simp only [NothingSkipped, KeepsUp, next]
    cases hfetched : fetchedBy (plex.poll rt) integration t with
    | none =>
      rw [pollOne_none lib hfetched]
      constructor
      · rintro - ⟨hready, events, hevents⟩
        rw [fetchedBy_poll.mpr ⟨hready, hevents⟩] at hfetched
        cases hfetched
      · intro _ play _ cursor hcursor hcutoff hlt
        exact absurd hlt (hstays t rfl play cursor hcursor hcutoff)
    | some dtos =>
      obtain ⟨hready, hevents⟩ := fetchedBy_poll.mp hfetched
      have hcompletes : plex.Completes rt integration.id t := ⟨hready, dtos, hevents⟩
      have hmem : ∀ event, Received rt plex.answers (plex.cutoff integration.id t) event ↔
          event ∈ dtos := fun event => (mem_fetchPlaybackEvents hevents).symm
      rw [pollOne_some lib hfetched, imp_iff_right hcompletes]
      simp only [PlexPoll.Moves, hmem, and_imp]
      cases dtos with
      | nil =>
        constructor
        · intro _ play _ _ _ _ event hevent
          cases hevent
        · intro _ play _ cursor hcursor hcutoff hlt
          have hquiet := cursorOf_pollQuiet lib (plex.poll rt) integration t
          exact absurd hlt (hstays _ hquiet play cursor hcursor hcutoff)
      | cons dto rest =>
        have hsame : ∀ event ∈ dto :: rest, ∀ event' ∈ dto :: rest,
            event.upstreamId = event'.upstreamId → event.startedAt = event'.startedAt := by
          intro event hevent event' hevent'
          exact startedAt_of_upstreamId ((hmem _).mpr hevent) ((hmem _).mpr hevent')
        have hskipped := skipped_iff lib (plex.poll rt) integration (List.cons_ne_nil dto rest) t hsame
        constructor
        · intro h play hplay hcutoff
          exact (hskipped play).mp fun cursor hcursor => h play hplay cursor hcursor hcutoff
        · intro h play hplay cursor hcursor hcutoff
          exact (hskipped play).mpr (h play hplay hcutoff) cursor hcursor

/-- Along a run no poll skips a play exactly if every poll keeps up. -/
theorem nothing_skipped_iff (integrationId : String) (t : Tables)
    (run : List (PlexTurn integrationId)) :
    Throughout (next lib rt) (NothingSkipped lib rt) t run ↔
      Throughout (next lib rt) (KeepsUp rt) t run :=
  throughout_congr (next lib rt) (nothingSkipped_iff lib) t run

end Turns

/-! ### Metadata that is missing -/

def plainPlex : PlexRuntime where
  lower s := s
  str
    | .str s => s
    | _ => ""
  timestampError _ := .valueError
  errorText _ := ""

/-- An entry of the history without a `Media` list. -/
def bareEntry (ratingKey : String) (viewedAt : Int) : PyValue :=
  .dict [("ratingKey", .str ratingKey), ("viewedAt", .int viewedAt)]

/-- The metadata of an entry with a file. -/
def fullEntry (ratingKey : String) : PyValue :=
  .dict [("ratingKey", .str ratingKey),
    ("Media", .list [.dict [("Part", .list [.dict [("file", .str "/m.mkv")]])]])]

def container (entries : List PyValue) : Answer :=
  .json (.dict [("MediaContainer", .dict [("Metadata", .list entries)])])

/-- Two plays were made; the server has the metadata of the later one only. -/
def halfAnswered : PlexPoll where
  now := seconds 3000
  askedAt := seconds 3000
  registered := true
  configError := none
  answers := ⟨fun _ => container [bareEntry "2" 2000, bareEntry "1" 1000],
    fun _ _ => container [fullEntry "2"]⟩
  lives := none
  fault := none
  history := {⟨"1", 1000⟩, ⟨"2", 2000⟩}

def cursorAt900 : Tables :=
  { noTables with cursors := .upsert .empty ⟨"plex", cursorKind, some (seconds 900), seconds 960⟩ }

/-- The cursor moves from 900 to 1940 seconds, and the play at 1000 is not recorded. -/
theorem cursor_passes_play :
    ¬ ∀ (lib : PollerRuntime) (rt : PlexRuntime) (integrationId : String) (t : Tables)
      (run : List (PlexTurn integrationId)),
      Throughout (next lib rt) (NothingSkipped lib rt) t run := by
  intro hall
  have hskipped := (hall plainRuntime plainPlex "plex" cursorAt900
    [.polled halfAnswered plexIntegration rfl]).1
  have hstored := hskipped ⟨"1", 1000⟩ (.inl rfl) (seconds 1940) (by decide +kernel)
    (by decide +kernel) (by decide)
  exact absurd hstored (by decide +kernel)

end PlexDelivery
