/-
  Auditarr/PlaybackCursor.lean
  ============================
  **Where the polling cursor goes.**

  A poll that fetched events moves the cursor to the newest of the events it inserted,
  or, if it inserted none, of those it fetched, less the safety skew.  So the cursor
  follows the newest event that was fetched exactly if that event is among the inserted
  ones whenever there are some; and nothing compares it with the cursor before.
-/
import Auditarr.PlaybackPoller
import Auditarr.Runs

namespace PlaybackCursor

open KeyedTable PlaybackPoller Runs

/-! ### The events of a batch that are new -/

/-- The first event of each id that is not known yet. -/
def freshOf (known : String → Bool) : List PlaybackEventDto → List PlaybackEventDto
  | [] => []
  | dto :: rest =>
      if known dto.upstreamId then freshOf known rest
      else dto :: freshOf (fun id => known id || decide (id = dto.upstreamId)) rest

theorem freshOf_map {f : PlaybackEventDto → PlaybackEventDto}
    (hid : ∀ dto, (f dto).upstreamId = dto.upstreamId) (known : String → Bool)
    (dtos : List PlaybackEventDto) : freshOf known (dtos.map f) = (freshOf known dtos).map f := by
  induction dtos generalizing known with
  | nil => rfl
  | cons dto rest ih =>
    rw [List.map_cons, freshOf, freshOf, hid]
    split
    · exact ih known
    · rw [List.map_cons, ih]

theorem mem_of_mem_freshOf {known : String → Bool} {dtos : List PlaybackEventDto}
    {dto : PlaybackEventDto} (h : dto ∈ freshOf known dtos) : dto ∈ dtos := by
  induction dtos generalizing known with
  | nil => exact h
  | cons first rest ih =>
    rw [freshOf] at h
    split at h
    · exact List.mem_cons_of_mem _ (ih h)
    · rcases List.mem_cons.mp h with rfl | hrest
      · exact List.mem_cons_self ..
      · exact List.mem_cons_of_mem _ (ih hrest)

theorem unknown_of_mem_freshOf {known : String → Bool} {dtos : List PlaybackEventDto}
    {dto : PlaybackEventDto} (h : dto ∈ freshOf known dtos) : known dto.upstreamId = false := by
  induction dtos generalizing known with
  | nil => cases h
  | cons first rest ih =>
    rw [freshOf] at h
    split at h
    · exact ih h
    · rename_i hunknown
      rcases List.mem_cons.mp h with rfl | hrest
      · exact Bool.not_eq_true _ ▸ hunknown
      · have hlater := ih hrest
        rw [Bool.or_eq_false_iff] at hlater
        exact hlater.1

theorem exists_freshOf (known : String → Bool) {dtos : List PlaybackEventDto}
    {dto : PlaybackEventDto} (hdto : dto ∈ dtos) (hunknown : known dto.upstreamId = false) :
    ∃ new ∈ freshOf known dtos, new.upstreamId = dto.upstreamId := by
  induction dtos generalizing known with
  | nil => cases hdto
  | cons first rest ih =>
    rw [freshOf]
    split
    · rename_i hknown
      rcases List.mem_cons.mp hdto with rfl | hrest
      · rw [hunknown] at hknown
        cases hknown
      · exact ih known hrest hunknown
    · by_cases hsame : dto.upstreamId = first.upstreamId
      · exact ⟨first, List.mem_cons_self .., hsame.symm⟩
      · rcases List.mem_cons.mp hdto with rfl | hrest
        · exact absurd rfl hsame
        · obtain ⟨new, hnew, hid⟩ := ih
            (fun id => known id || decide (id = first.upstreamId)) hrest (by simp [hunknown, hsame])
          exact ⟨new, List.mem_cons_of_mem _ hnew, hid⟩

/-- The instants at which events started. -/
def starts (dtos : List PlaybackEventDto) : List Timestamp := dtos.map (·.startedAt)

theorem foldl_later (latest : Option Timestamp) (instants : List Timestamp) :
    instants.foldl later latest = (latest.toList ++ instants).max? := by
  induction instants generalizing latest with
  | nil => cases latest <;> rfl
  | cons instant rest ih =>
    rw [List.foldl_cons, ih]
    cases latest with
    | none => rfl
    | some before =>
      have hlater : later (some before) instant = some (max before instant) := by
        simp only [later]
        split
        · rename_i hlt
          rw [max_eq_right hlt.le]
        · rename_i hle
          rw [max_eq_left (not_lt.mp hle)]
      rw [hlater]
      rfl

/-! ### What the calls of a poll leave alone -/

section Frames

variable {lib : PollerRuntime}

theorem stored_iff {t : Tables} {integrationId upstreamId : String} :
    t.stored integrationId upstreamId = true ↔
      ∃ row ∈ t.events, row.integrationId = integrationId ∧ row.upstreamId = upstreamId := by
  unfold Tables.stored
  rw [Option.isSome_iff_exists]
  constructor
  · rintro ⟨row, hfind⟩
    obtain ⟨hrow, hkey⟩ := Table.mem_of_find? hfind
    exact ⟨row, hrow, congrArg Prod.fst hkey, congrArg Prod.snd hkey⟩
  · rintro ⟨row, hrow, hintegration, hupstream⟩
    refine ⟨row, Table.find?_eq_some.mpr ⟨hrow, ?_⟩⟩
    rw [PlaybackEvent.key, hintegration, hupstream]

/-- The events and the cursors are the same. -/
structure SameEvents (t t' : Tables) : Prop where
  events : t'.events = t.events
  cursors : t'.cursors = t.cursors

variable (lib) in
theorem upsertDevice_frame (integrationId : String) (kind name : Option String)
    (decision : String) (seenAt : Timestamp) (t : Tables) :
    ∃ devices, upsertDevice lib integrationId kind name decision seenAt t =
      { t with devices := devices } := by
  unfold upsertDevice
  dsimp only
  split
  · exact ⟨t.devices, rfl⟩
  · exact ⟨_, rfl⟩

theorem markMatched_frame (now : Timestamp) (matched : Option String) (t : Tables) :
    ∃ sessions, markMatched now matched t = { t with sessions := sessions } := by
  rcases matched with _ | id
  · exact ⟨t.sessions, rfl⟩
  · exact ⟨_, rfl⟩

variable (lib) in
theorem sameEvents_upsertDevice (integrationId : String) (kind name : Option String)
    (decision : String) (seenAt : Timestamp) (t : Tables) :
    SameEvents t (upsertDevice lib integrationId kind name decision seenAt t) := by
  obtain ⟨devices, hframe⟩ :=
    upsertDevice_frame lib integrationId kind name decision seenAt t
  rw [hframe]
  exact ⟨rfl, rfl⟩

theorem SameEvents.stored {t t' : Tables} (h : SameEvents t t') (integrationId upstreamId : String) :
    t'.stored integrationId upstreamId = t.stored integrationId upstreamId := by
  unfold Tables.stored
  rw [h.events]

theorem insertEvent_eq_some {row : PlaybackEvent} {t t' : Tables} :
    insertEvent row t = some t' ↔ t.stored row.integrationId row.upstreamId = false ∧
      t' = { t with events := t.events.upsert row } := by
  unfold insertEvent
  cases hstored : t.stored row.integrationId row.upstreamId with
  | true => simp
  | false => simp [eq_comm]

theorem insertEvent_eq_none {row : PlaybackEvent} {t : Tables} :
    insertEvent row t = none ↔ t.stored row.integrationId row.upstreamId = true := by
  unfold insertEvent
  cases hstored : t.stored row.integrationId row.upstreamId with
  | true => simp
  | false => simp

theorem stored_upsert (t : Tables) (row : PlaybackEvent) (integrationId upstreamId : String) :
    ({ t with events := t.events.upsert row } : Tables).stored integrationId upstreamId =
      (t.stored integrationId upstreamId ||
        (decide (integrationId = row.integrationId) && decide (upstreamId = row.upstreamId))) := by
  rw [Bool.eq_iff_iff, stored_iff, Bool.or_eq_true, stored_iff, Bool.and_eq_true, decide_eq_true_iff,
    decide_eq_true_iff]
  constructor
  · rintro ⟨other, hother, rfl, rfl⟩
    rcases Table.mem_upsert.mp hother with rfl | ⟨hold, -⟩
    · exact .inr ⟨rfl, rfl⟩
    · exact .inl ⟨other, hold, rfl, rfl⟩
  · rintro (⟨other, hother, rfl, rfl⟩ | ⟨rfl, rfl⟩)
    · by_cases hkey : other.key = row.key
      · refine ⟨row, Table.mem_upsert.mpr (.inl rfl), ?_, ?_⟩
        · exact (congrArg Prod.fst hkey).symm
        · exact (congrArg Prod.snd hkey).symm
      · exact ⟨other, Table.mem_upsert.mpr (.inr ⟨hother, hkey⟩), rfl, rfl⟩
    · exact ⟨row, Table.mem_upsert.mpr (.inl rfl), rfl, rfl⟩

/-- What one round of the insert loop does. -/
structure Inserted (integrationId : String) (batch : Batch) (dto : PlaybackEventDto)
    (batch' : Batch) : Prop where
  cursors : batch'.tables.cursors = batch.tables.cursors
  stored : ∀ i u, batch'.tables.stored i u =
    (batch.tables.stored i u || (decide (i = integrationId) && decide (u = dto.upstreamId)))
  latestSeen : batch'.latestSeenStartedAt = later batch.latestSeenStartedAt dto.startedAt
  latest : batch'.latestStartedAt =
    if batch.tables.stored integrationId dto.upstreamId then batch.latestStartedAt
    else later batch.latestStartedAt dto.startedAt

theorem sameEvents_markMatched (now : Timestamp) (matched : Option String) (t : Tables) :
    SameEvents t (markMatched now matched t) := by
  obtain ⟨sessions, hframe⟩ := markMatched_frame now matched t
  rw [hframe]
  exact ⟨rfl, rfl⟩

theorem SameEvents.trans {t t' t'' : Tables} (h : SameEvents t t') (h' : SameEvents t' t'') :
    SameEvents t t'' :=
  ⟨h'.events.trans h.events, h'.cursors.trans h.cursors⟩

variable (lib) in
theorem inserted_insertOne (now : Timestamp) (integrationId : String) (batch : Batch)
    (dto : PlaybackEventDto) :
    Inserted integrationId batch dto (insertOne lib now integrationId batch dto) := by
  unfold insertOne
  dsimp only
  generalize findMatchingSession batch.tables integrationId dto.ratingKey dto.startedAt = matched
  have hintegration : (eventRow integrationId (resolvePath batch.tables dto.sourcePath) matched
    dto).integrationId = integrationId := rfl
  have hupstream : (eventRow integrationId (resolvePath batch.tables dto.sourcePath) matched
    dto).upstreamId = dto.upstreamId := rfl
  generalize eventRow integrationId (resolvePath batch.tables dto.sourcePath) matched dto = row at *
  cases hstored : batch.tables.stored integrationId dto.upstreamId with
  | true =>
    have hinsert : insertEvent row batch.tables = none := by
      rw [insertEvent_eq_none, hintegration, hupstream, hstored]
    have hsame := sameEvents_markMatched now matched batch.tables
    rw [hinsert]
    refine ⟨hsame.cursors, fun i u => ?_, rfl, by simp [hstored]⟩
    rw [hsame.stored, Bool.eq_iff_iff, Bool.or_eq_true, Bool.and_eq_true, decide_eq_true_iff,
      decide_eq_true_iff]
    constructor
    · exact .inl
    · rintro (h | ⟨rfl, rfl⟩)
      · exact h
      · exact hstored
  | false =>
    have hinsert : insertEvent row batch.tables =
        some { batch.tables with events := batch.tables.events.upsert row } := by
      rw [insertEvent_eq_some, hintegration, hupstream, hstored]
      exact ⟨rfl, rfl⟩
    rw [hinsert]
    have hsame := (sameEvents_upsertDevice lib integrationId dto.deviceKind dto.deviceName
      dto.decision dto.startedAt
      { batch.tables with events := batch.tables.events.upsert row }).trans
      (sameEvents_markMatched now matched _)
    refine ⟨hsame.cursors, fun i u => ?_, rfl, by simp [hstored]⟩
    rw [hsame.stored, stored_upsert, hintegration, hupstream]

/-- What the insert loop does. -/
structure AllInserted (integrationId : String) (batch : Batch) (dtos : List PlaybackEventDto)
    (batch' : Batch) : Prop where
  cursors : batch'.tables.cursors = batch.tables.cursors
  stored : ∀ i u, batch'.tables.stored i u = true ↔
    batch.tables.stored i u = true ∨ (i = integrationId ∧ ∃ dto ∈ dtos, u = dto.upstreamId)
  latestSeen : batch'.latestSeenStartedAt =
    (batch.latestSeenStartedAt.toList ++ starts dtos).max?
  latest : batch'.latestStartedAt = (batch.latestStartedAt.toList ++
    starts (freshOf (batch.tables.stored integrationId) dtos)).max?

variable (lib) in
theorem allInserted_foldl (now : Timestamp) (integrationId : String) (batch : Batch)
    (dtos : List PlaybackEventDto) :
    AllInserted integrationId batch dtos (dtos.foldl (insertOne lib now integrationId) batch) := by
  induction dtos generalizing batch with
  | nil =>
    constructor
    · rfl
    · simp
    · rw [show starts [] = [] from rfl, ← foldl_later]
      rfl
    · rw [freshOf, show starts [] = [] from rfl, ← foldl_later]
      rfl
  | cons dto rest ih =>
    have hone := inserted_insertOne lib now integrationId batch dto
    have hrest := ih (insertOne lib now integrationId batch dto)
    rw [List.foldl_cons]
    constructor
    · rw [hrest.cursors, hone.cursors]
    · intro i u
      rw [hrest.stored, hone.stored]
      simp only [Bool.or_eq_true, Bool.and_eq_true, decide_eq_true_iff, List.mem_cons,
        exists_eq_or_imp, and_or_left, or_assoc]
    · rw [hrest.latestSeen, ← foldl_later, hone.latestSeen, ← foldl_later]
      rfl
    · rw [hrest.latest, ← foldl_later, hone.latest, ← foldl_later, freshOf]
      have hknown : (insertOne lib now integrationId batch dto).tables.stored integrationId =
          fun id => batch.tables.stored integrationId id || decide (id = dto.upstreamId) := by
        funext id
        rw [hone.stored]
        simp
      rw [hknown]
      cases hstored : batch.tables.stored integrationId dto.upstreamId with
      | true =>
        have hsame : (fun id => batch.tables.stored integrationId id ||
            decide (id = dto.upstreamId)) = batch.tables.stored integrationId := by
          funext id
          rw [Bool.eq_iff_iff, Bool.or_eq_true, decide_eq_true_iff]
          constructor
          · rintro (h | rfl)
            · exact h
            · exact hstored
          · exact .inl
        rw [hsame]
        rfl
      | false => rfl

/-- What recording the sessions that are playing does. -/
structure Kept (t t' : Tables) : Prop where
  cursors : t'.cursors = t.cursors
  stored : ∀ i u, t.stored i u = true → t'.stored i u = true
  onlyLive : ∀ i u, t'.stored i u = true → t.stored i u = true ∨ ∃ session, u = "live:" ++ session

theorem Kept.refl (t : Tables) : Kept t t := ⟨rfl, fun _ _ h => h, fun _ _ h => .inl h⟩

theorem Kept.trans {t t' t'' : Tables} (h : Kept t t') (h' : Kept t' t'') : Kept t t'' := by
  constructor
  · exact h'.cursors.trans h.cursors
  · intro i u hstored
    exact h'.stored i u (h.stored i u hstored)
  · intro i u hstored
    rcases h'.onlyLive i u hstored with hmid | hlive
    · exact h.onlyLive i u hmid
    · exact .inr hlive

theorem kept_mergeOne (integrationId : String) (before : Tables) (acc : Nat × Tables)
    (live : LivePlaybackDto) : Kept acc.2 (mergeOne lib integrationId before acc live).2 := by
  unfold mergeOne
  split
  · exact Kept.refl acc.2
  · split
    · rename_i t hinsert
      obtain ⟨-, rfl⟩ := insertEvent_eq_some.mp hinsert
      have hsame := sameEvents_upsertDevice lib integrationId live.deviceKind
        live.deviceName live.decision live.startedAt { acc.2 with
          events := acc.2.events.upsert
            (liveRow integrationId (resolvePath acc.2 live.sourcePath) live) }
      refine ⟨hsame.cursors, fun i u h => ?_, fun i u h => ?_⟩
      · rw [hsame.stored, stored_upsert, h]
        rfl
      · rw [hsame.stored, stored_upsert, Bool.or_eq_true] at h
        refine h.imp_right fun hrow => ⟨live.upstreamId, ?_⟩
        rw [Bool.and_eq_true, decide_eq_true_iff, decide_eq_true_iff] at hrow
        exact hrow.2
    · exact Kept.refl acc.2

variable (lib) in
theorem kept_mergeLiveSessions (poll : Poll) (integration : Integration) (t : Tables) :
    Kept t (mergeLiveSessions lib poll integration t).2 := by
  unfold mergeLiveSessions
  split
  · exact Kept.refl t
  · rename_i lives hlives
    dsimp only
    generalize List.filter _ _ = eligible
    have hloop : ∀ acc : Nat × Tables, Kept acc.2
        (eligible.foldl (mergeOne lib integration.id t) acc).2 := by
      induction eligible with
      | nil => exact fun acc => Kept.refl acc.2
      | cons live rest ih =>
        intro acc
        exact (kept_mergeOne integration.id t acc live).trans (ih _)
    exact hloop (0, t)

end Frames

/-! ### One poll -/

section OnePoll

variable (lib : PollerRuntime)

/-- The history that a poll fetches and commits; `none` if it ends before that. -/
def fetchedBy (poll : Poll) (integration : Integration) (t : Tables) :
    Option (List PlaybackEventDto) :=
  if poll.registered && poll.configError.isNone && poll.fault.isNone then
    match poll.fetch (cursorOf t integration.id) with
    | .ok dtos => some dtos
    | .error _ => none
  else none

/-- The newest instant, the one the insert loop advances to. -/
def advance (t : Tables) (integrationId : String) (dtos : List PlaybackEventDto) :
    Option Timestamp :=
  ((starts (freshOf (t.stored integrationId) dtos)).max?).orElse fun _ => (starts dtos).max?

theorem pollOne_none {poll : Poll} {integration : Integration} {t : Tables}
    (h : fetchedBy poll integration t = none) : (pollOne lib poll integration t).2 = t := by
  unfold pollOne
  unfold fetchedBy at h
  cases hregistered : poll.registered with
  | false => rfl
  | true =>
    cases hconfig : poll.configError with
    | some text => rfl
    | none =>
      cases hfetch : poll.fetch (cursorOf t integration.id) with
      | error e => cases e <;> rfl
      | ok dtos =>
        cases hfault : poll.fault with
        | some text => rfl
        | none => simp [hregistered, hconfig, hfetch, hfault] at h

theorem pollOne_committed {poll : Poll} {integration : Integration} {t : Tables}
    {dtos : List PlaybackEventDto} (h : fetchedBy poll integration t = some dtos) :
    pollOne lib poll integration t = match dtos with
      | [] => (.ok (pollQuiet lib poll integration t).1, (pollQuiet lib poll integration t).2)
      | _ :: _ => (.ok (pollHistory lib poll integration dtos t).1,
          (pollHistory lib poll integration dtos t).2) := by
  unfold fetchedBy at h
  split at h
  · rename_i hready
    rw [Bool.and_eq_true, Bool.and_eq_true, Option.isNone_iff_eq_none, Option.isNone_iff_eq_none]
      at hready
    split at h
    · rename_i fetched hfetch
      cases h
      simp only [pollOne, hready.1.1, hready.1.2, hready.2, hfetch]
      cases dtos <;> rfl
    · cases h
  · cases h

theorem pollOne_some {poll : Poll} {integration : Integration} {t : Tables}
    {dtos : List PlaybackEventDto} (h : fetchedBy poll integration t = some dtos) :
    (pollOne lib poll integration t).2 = match dtos with
      | [] => (pollQuiet lib poll integration t).2
      | _ :: _ => (pollHistory lib poll integration dtos t).2 := by
  rw [pollOne_committed lib h]
  cases dtos <;> rfl

theorem cursorOf_upsertCursor (now : Timestamp) (integrationId : String) (value : Timestamp)
    (t : Tables) : cursorOf (upsertCursor now integrationId value t) integrationId = some value := by
  have hfind : getCursor (upsertCursor now integrationId value t) integrationId =
      some ⟨integrationId, cursorKind, some value, now⟩ :=
    Table.find?_eq_some.mpr ⟨Table.mem_upsert.mpr (.inl rfl), rfl⟩
  rw [cursorOf, hfind]
  rfl

theorem cursorOf_touchCursor (now : Timestamp) (integrationId : String) (t : Tables) :
    cursorOf (touchCursor now integrationId t) integrationId = cursorOf t integrationId := by
  have hfind : getCursor (touchCursor now integrationId t) integrationId =
      some ⟨integrationId, cursorKind, cursorOf t integrationId, now⟩ :=
    Table.find?_eq_some.mpr ⟨Table.mem_upsert.mpr (.inl rfl), rfl⟩
  rw [cursorOf, hfind]
  rfl

theorem cursorOf_congr {t t' : Tables} (h : t'.cursors = t.cursors) (integrationId : String) :
    cursorOf t' integrationId = cursorOf t integrationId := by
  rw [cursorOf, cursorOf, getCursor, getCursor, h]

theorem cursorOf_pollQuiet (poll : Poll) (integration : Integration) (t : Tables) :
    cursorOf (pollQuiet lib poll integration t).2 integration.id = cursorOf t integration.id := by
  have hkept := kept_mergeLiveSessions lib poll integration
    (touchCursor poll.now integration.id t)
  exact (cursorOf_congr hkept.cursors _).trans (cursorOf_touchCursor _ _ _)

theorem tables_pollHistory (poll : Poll) (integration : Integration) (dtos : List PlaybackEventDto)
    (t : Tables) :
    (pollHistory lib poll integration dtos t).2 =
      (mergeLiveSessions lib poll integration (advanceCursor poll.now integration.id
        (insertAll lib poll.now integration.id t (dtos.map (remapEvent integration t))))).2 := rfl

theorem starts_remapped (integration : Integration) (t : Tables) (dtos : List PlaybackEventDto) :
    starts (dtos.map (remapEvent integration t)) = starts dtos := by
  rw [starts, List.map_map]
  rfl

theorem advanceTo_insertAll (now : Timestamp) (integration : Integration) (t : Tables)
    (dtos : List PlaybackEventDto) :
    (insertAll lib now integration.id t (dtos.map (remapEvent integration t))).advanceTo =
      advance t integration.id dtos := by
  have hall := allInserted_foldl lib now integration.id ⟨t, 0, none, none⟩
    (dtos.map (remapEvent integration t))
  unfold insertAll Batch.advanceTo
  rw [hall.latest, hall.latestSeen, starts_remapped]
  have hfresh : starts (freshOf (t.stored integration.id) (dtos.map (remapEvent integration t))) =
      starts (freshOf (t.stored integration.id) dtos) := by
    rw [freshOf_map (f := remapEvent integration t) fun _ => rfl]
    exact starts_remapped integration t _
  rw [hfresh]
  rfl

theorem cursorOf_pollHistory (poll : Poll) (integration : Integration)
    (dtos : List PlaybackEventDto) (t : Tables) :
    cursorOf (pollHistory lib poll integration dtos t).2 integration.id =
      match advance t integration.id dtos with
      | some instant => some (instant - cursorSafetySkew)
      | none => cursorOf t integration.id := by
  have hkept := kept_mergeLiveSessions lib poll integration
    (advanceCursor poll.now integration.id
      (insertAll lib poll.now integration.id t (dtos.map (remapEvent integration t))))
  have hall := allInserted_foldl lib poll.now integration.id ⟨t, 0, none, none⟩
    (dtos.map (remapEvent integration t))
  rw [tables_pollHistory, cursorOf_congr hkept.cursors, advanceCursor, advanceTo_insertAll]
  cases advance t integration.id dtos with
  | some instant => exact cursorOf_upsertCursor _ _ _ _
  | none => exact cursorOf_congr hall.cursors _

theorem stored_advanceCursor (poll : Poll) (integration : Integration)
    (dtos : List PlaybackEventDto) (t : Tables) (u : String) :
    (advanceCursor poll.now integration.id
      (insertAll lib poll.now integration.id t (dtos.map (remapEvent integration t)))).stored
        integration.id u = true ↔
      t.stored integration.id u = true ∨ ∃ dto ∈ dtos, u = dto.upstreamId := by
  have hall := allInserted_foldl lib poll.now integration.id ⟨t, 0, none, none⟩
    (dtos.map (remapEvent integration t))
  have hevents : (advanceCursor poll.now integration.id
      (insertAll lib poll.now integration.id t (dtos.map (remapEvent integration t)))).events =
      (insertAll lib poll.now integration.id t (dtos.map (remapEvent integration t))).tables.events := by
    unfold advanceCursor
    split <;> rfl
  unfold Tables.stored
  rw [hevents]
  refine (hall.stored integration.id u).trans (or_congr_right ?_)
  constructor
  · rintro ⟨-, event, hevent, rfl⟩
    obtain ⟨dto, hdto, rfl⟩ := List.mem_map.mp hevent
    exact ⟨dto, hdto, rfl⟩
  · rintro ⟨dto, hdto, rfl⟩
    exact ⟨rfl, _, List.mem_map_of_mem hdto, rfl⟩

theorem stored_pollHistory (poll : Poll) (integration : Integration)
    (dtos : List PlaybackEventDto) (t : Tables) {u : String}
    (h : t.stored integration.id u = true ∨ ∃ dto ∈ dtos, u = dto.upstreamId) :
    (pollHistory lib poll integration dtos t).2.stored integration.id u = true :=
  (kept_mergeLiveSessions lib poll integration _).stored _ _
    ((stored_advanceCursor lib poll integration dtos t u).mpr h)

theorem of_stored_pollHistory (poll : Poll) (integration : Integration)
    (dtos : List PlaybackEventDto) (t : Tables) {u : String}
    (hlive : ∀ session, u ≠ "live:" ++ session)
    (h : (pollHistory lib poll integration dtos t).2.stored integration.id u = true) :
    t.stored integration.id u = true ∨ ∃ dto ∈ dtos, u = dto.upstreamId := by
  rcases (kept_mergeLiveSessions lib poll integration _).onlyLive _ _ h with
    hstored | ⟨session, hsession⟩
  · exact (stored_advanceCursor lib poll integration dtos t u).mp hstored
  · exact absurd hsession (hlive session)

theorem stored_pollQuiet (poll : Poll) (integration : Integration) (t : Tables) {u : String}
    (h : t.stored integration.id u = true) :
    (pollQuiet lib poll integration t).2.stored integration.id u = true :=
  (kept_mergeLiveSessions lib poll integration
    (touchCursor poll.now integration.id t)).stored _ _ h

end OnePoll

/-! ### Runs -/

section Turns

variable (lib : PollerRuntime) {integrationId : String}

/-- A poll of the integration, or a change by somebody else that leaves its cursor as it
    is. -/
inductive Turn (integrationId : String) where
  | polled (poll : Poll) (integration : Integration) (isThis : integration.id = integrationId)
  | elsewhere (change : Tables → Tables)
      (keeps : ∀ t, cursorOf (change t) integrationId = cursorOf t integrationId)

/-- The tables after a turn. -/
def next (t : Tables) : Turn integrationId → Tables
  | .polled poll integration _ => (pollOne lib poll integration t).2
  | .elsewhere change _ => change t

/-- The history that a turn fetches and commits. -/
def Turn.fetched : Turn integrationId → Tables → Option (List PlaybackEventDto)
  | .polled poll integration _, t => fetchedBy poll integration t
  | .elsewhere _ _, _ => none

variable (integrationId) in
/-- The cursor of the second state is not before that of the first. -/
def NotBackward (t t' : Tables) : Prop :=
  ∀ before, cursorOf t integrationId = some before →
    ∃ after, cursorOf t' integrationId = some after ∧ before ≤ after

/-- After a poll that fetched events the cursor is the newest one, less the skew. -/
def AtNewest (t : Tables) (turn : Turn integrationId) : Prop :=
  ∀ dtos, turn.fetched t = some dtos → dtos ≠ [] →
    cursorOf (next lib t turn) integrationId =
      (starts dtos).max?.map fun newest => newest - cursorSafetySkew

/-- Of the events that are fetched a newest one is new, or none is. -/
def NewestIsNew (t : Tables) (integrationId : String) (dtos : List PlaybackEventDto) : Prop :=
  (∀ dto ∈ dtos, t.stored integrationId dto.upstreamId = true) ∨
    ∃ new ∈ freshOf (t.stored integrationId) dtos, ∀ dto ∈ dtos, dto.startedAt ≤ new.startedAt

/-- Some event started the skew after the cursor, or later. -/
def ReachesCursor (t : Tables) (integrationId : String) (dtos : List PlaybackEventDto) : Prop :=
  ∀ before, cursorOf t integrationId = some before →
    ∃ dto ∈ dtos, before + cursorSafetySkew ≤ dto.startedAt

/-- The events of a poll keep the cursor in step. -/
def InStep (t : Tables) (turn : Turn integrationId) : Prop :=
  ∀ dtos, turn.fetched t = some dtos → dtos ≠ [] →
    NewestIsNew t integrationId dtos ∧ ReachesCursor t integrationId dtos

theorem max?_starts {dtos : List PlaybackEventDto} {newest : Timestamp} :
    (starts dtos).max? = some newest ↔
      (∃ dto ∈ dtos, dto.startedAt = newest) ∧ ∀ dto ∈ dtos, dto.startedAt ≤ newest := by
  rw [List.max?_eq_some_iff, starts, List.mem_map]
  simp

theorem exists_newest {dtos : List PlaybackEventDto} (hsome : dtos ≠ []) :
    ∃ newest, (starts dtos).max? = some newest := by
  apply Option.ne_none_iff_exists'.mp
  simpa [starts] using hsome

theorem exists_advance (t : Tables) (integrationId : String) {dtos : List PlaybackEventDto}
    (hsome : dtos ≠ []) : ∃ instant, advance t integrationId dtos = some instant := by
  unfold advance
  cases (starts (freshOf (t.stored integrationId) dtos)).max? with
  | some latest => exact ⟨latest, rfl⟩
  | none => exact exists_newest hsome

theorem freshOf_eq_nil {known : String → Bool} {dtos : List PlaybackEventDto} :
    freshOf known dtos = [] ↔ ∀ dto ∈ dtos, known dto.upstreamId = true := by
  induction dtos with
  | nil => simp [freshOf]
  | cons dto rest ih =>
    rw [freshOf, List.forall_mem_cons]
    split
    · rename_i hknown
      rw [ih]
      exact (and_iff_right hknown).symm
    · rename_i hunknown
      constructor
      · intro h
        cases h
      · rintro ⟨hknown, -⟩
        exact absurd hknown hunknown

theorem advance_eq_newest_iff {t : Tables} {dtos : List PlaybackEventDto} (hsome : dtos ≠ []) :
    advance t integrationId dtos = (starts dtos).max? ↔ NewestIsNew t integrationId dtos := by
  obtain ⟨newest, hnewest⟩ := exists_newest hsome
  obtain ⟨-, hmax⟩ := max?_starts.mp hnewest
  unfold advance NewestIsNew
  rw [hnewest, ← freshOf_eq_nil]
  cases hfresh : (starts (freshOf (t.stored integrationId) dtos)).max? with
  | none =>
    have hnil : freshOf (t.stored integrationId) dtos = [] := by
      simpa [starts] using hfresh
    simp [hnil]
  | some latest =>
    have hne : freshOf (t.stored integrationId) dtos ≠ [] := by
      intro hnil
      rw [hnil] at hfresh
      cases hfresh
    obtain ⟨⟨new, hnew, rfl⟩, hlatest⟩ := max?_starts.mp hfresh
    constructor
    · intro heq
      have hsame : new.startedAt = newest := Option.some.inj heq
      exact .inr ⟨new, hnew, fun dto hdto => hsame ▸ hmax dto hdto⟩
    · rintro (hnil | ⟨other, hother, hall⟩)
      · exact absurd hnil hne
      · obtain ⟨⟨dto, hdto, rfl⟩, -⟩ := max?_starts.mp hnewest
        have hle := hmax new (mem_of_mem_freshOf hnew)
        have hge := (hall dto hdto).trans (hlatest other hother)
        exact congrArg some (le_antisymm hle hge)

theorem notBackward_iff {t t' : Tables} {dtos : List PlaybackEventDto} (hsome : dtos ≠ [])
    (hcursor : cursorOf t' integrationId =
      (starts dtos).max?.map fun newest => newest - cursorSafetySkew) :
    NotBackward integrationId t t' ↔ ReachesCursor t integrationId dtos := by
  obtain ⟨newest, hnewest⟩ := exists_newest hsome
  obtain ⟨⟨latest, hlatest, rfl⟩, hmax⟩ := max?_starts.mp hnewest
  rw [hnewest, Option.map_some] at hcursor
  constructor
  · intro h before hbefore
    obtain ⟨after, hafter, hle⟩ := h before hbefore
    rw [hcursor] at hafter
    cases hafter
    exact ⟨latest, hlatest, le_sub_iff_add_le.mp hle⟩
  · intro h before hbefore
    obtain ⟨dto, hdto, hreach⟩ := h before hbefore
    exact ⟨_, hcursor, le_sub_iff_add_le.mpr (hreach.trans (hmax dto hdto))⟩

theorem inStep_iff (t : Tables) (turn : Turn integrationId) :
    NotBackward integrationId t (next lib t turn) ∧ AtNewest lib t turn ↔ InStep t turn := by
  have hsame : ∀ t', cursorOf t' integrationId = cursorOf t integrationId →
      NotBackward integrationId t t' := by
    intro t' hcursor before hbefore
    exact ⟨before, hcursor.trans hbefore, le_refl _⟩
  cases turn with
  | elsewhere change keeps =>
    refine ⟨fun _ dtos hfetched => ?_, fun _ => ⟨hsame _ (keeps t), fun dtos hfetched => ?_⟩⟩
    · cases hfetched
    · cases hfetched
  | polled poll integration isThis =>
    cases isThis
    unfold AtNewest InStep
    simp only [next, Turn.fetched]
    cases hfetched : fetchedBy poll integration t with
    | none =>
      rw [pollOne_none lib hfetched]
      refine ⟨fun _ dtos h => ?_, fun _ => ⟨hsame t rfl, fun dtos h => ?_⟩⟩
      · cases h
      · cases h
    | some dtos =>
      rw [pollOne_some lib hfetched]
      cases dtos with
      | nil =>
        refine ⟨fun _ dtos h hne => ?_, fun _ => ⟨?_, fun dtos h hne => ?_⟩⟩
        · exact absurd (Option.some.inj h).symm hne
        · exact hsame _ (cursorOf_pollQuiet lib poll integration t)
        · exact absurd (Option.some.inj h).symm hne
      | cons dto rest =>
        have hne : dto :: rest ≠ [] := List.cons_ne_nil _ _
        have hcursor := cursorOf_pollHistory lib poll integration (dto :: rest) t
        have hnewest : cursorOf (pollHistory lib poll integration (dto :: rest) t).2 integration.id =
            (starts (dto :: rest)).max?.map (fun newest => newest - cursorSafetySkew) ↔
            NewestIsNew t integration.id (dto :: rest) := by
          obtain ⟨instant, hadvance⟩ := exists_advance t integration.id hne
          obtain ⟨newest, hmax⟩ := exists_newest hne
          rw [← advance_eq_newest_iff hne, hcursor, hadvance, hmax]
          simp only [Option.map_some, Option.some.injEq, sub_left_inj]
        constructor
        · rintro ⟨hback, hat⟩ dtos h -
          cases h
          have hcursor' := hat _ rfl hne
          exact ⟨hnewest.mp hcursor', (notBackward_iff hne hcursor').mp hback⟩
        · intro h
          obtain ⟨hnew, hreach⟩ := h _ rfl hne
          have hcursor' := hnewest.mpr hnew
          refine ⟨(notBackward_iff hne hcursor').mpr hreach, fun dtos h' _ => ?_⟩
          cases h'
          exact hcursor'

instance : IsTrans Tables (NotBackward integrationId) := by
  constructor
  intro a b c hab hbc before hbefore
  obtain ⟨mid, hmid, hle⟩ := hab before hbefore
  obtain ⟨after, hafter, hle'⟩ := hbc mid hmid
  exact ⟨after, hafter, hle.trans hle'⟩

/-- Along a run the cursor never goes back and is at the newest event after each poll that
    fetched some, exactly if in each of these polls a newest event is new, or none is, and
    some event started the skew after the cursor or later. -/
theorem cursor_in_step_iff (integrationId : String) (t : Tables) (run : List (Turn integrationId)) :
    (states (next lib) t run).Pairwise (NotBackward integrationId) ∧
        Throughout (next lib) (AtNewest lib) t run ↔
      Throughout (next lib) InStep t run := by
  rw [pairwise_states, throughout_and]
  exact throughout_congr (next lib) (inStep_iff lib) t run

end Turns

/-! ### A late event -/

/-- A provider that has these events and returns those since the cursor. -/
def pollOf (events : List PlaybackEventDto) : Poll where
  now := 0
  registered := true
  configError := none
  fetch since := .ok (events.filter fun dto => since.all fun instant => instant ≤ dto.startedAt)
  lives := none
  fault := none

def plainRuntime : PollerRuntime where
  repr s := s
  sha1Prefix s := s
  isoSeconds _ := ""

def plexIntegration : Integration where
  id := "plex"
  kind := "plex"
  pathMappings := .none
  healthStatus := "ok"
  healthDetail := none
  healthCheckedAt := none

theorem plexIntegration_id : plexIntegration.id = "plex" :=
  rfl

def noTables : Tables where
  events := .empty
  cursors := .empty
  sessions := .empty
  devices := .empty
  globalMappings := []
  media := []

def playAt (upstreamId : String) (startedAt : Timestamp) : PlaybackEventDto :=
  { upstreamId := upstreamId, sourcePath := "/m.mkv", decision := "direct_play", startedAt := startedAt }

/-- A play is fetched; then it is fetched again, with one that started before it. -/
def lateRun : List (Turn "plex") :=
  [.polled (pollOf [playAt "a" (seconds 100)]) plexIntegration plexIntegration_id,
    .polled (pollOf [playAt "a" (seconds 100), playAt "b" (seconds 50)]) plexIntegration
      plexIntegration_id]

/-- The provider returns only events since the cursor, and the cursor goes back. -/
theorem late_event_moves_cursor_back :
    ¬ ∀ (lib : PollerRuntime) (integrationId : String) (t : Tables)
      (run : List (Turn integrationId)),
      (∀ turn ∈ run, ∀ s since dtos, cursorOf s integrationId = some since →
        turn.fetched s = some dtos → ∀ dto ∈ dtos, since ≤ dto.startedAt) →
      (states (next lib) t run).Pairwise (NotBackward integrationId) ∧
        Throughout (next lib) (AtNewest lib) t run := by
  intro hall
  have hsince : ∀ turn ∈ lateRun, ∀ s since dtos, cursorOf s "plex" = some since →
      turn.fetched s = some dtos → ∀ dto ∈ dtos, since ≤ dto.startedAt := by
    intro turn hturn s since dtos hcursor hfetched dto hdto
    have hpoll : ∀ events, fetchedBy (pollOf events) plexIntegration s = some dtos →
        since ≤ dto.startedAt := by
      intro events hevents
      have hplex : cursorOf s plexIntegration.id = some since := hcursor
      simp only [fetchedBy, pollOf, hplex] at hevents
      cases hevents
      simpa using (List.mem_filter.mp hdto).2
    rcases List.mem_pair.mp hturn with rfl | rfl
    · exact hpoll _ hfetched
    · exact hpoll _ hfetched
  obtain ⟨hback, -⟩ := hall plainRuntime "plex" noTables lateRun hsince
  -- the second state against the third
  have hlast := (List.pairwise_cons.mp (List.pairwise_cons.mp hback).2).1 _ (List.mem_singleton_self _)
  obtain ⟨after, hafter, hle⟩ := hlast (seconds 40) (by decide +kernel)
  have hbefore : cursorOf (final (next plainRuntime) noTables lateRun) "plex" =
      some (seconds (-10)) := by
    decide +kernel
  have hsame : after = seconds (-10) := Option.some.inj (hafter.symm.trans hbefore)
  rw [hsame] at hle
  exact absurd hle (by decide)

end PlaybackCursor
