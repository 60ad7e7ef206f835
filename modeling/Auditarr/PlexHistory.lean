/-
  Auditarr/PlexHistory.lean
  =========================
  **The playback history of a Plex server** (`plugins/plex/backend.py`,
  `fetch_playback_events` and what it calls).

  The history comes in pages, newest first; entries without a `Media` list get it from a
  second kind of request, in batches.  A request that fails is made up for by going on
  with what there is.  The answers of the server are whatever JSON they are.
-/
import Auditarr.Ffprobe
import Auditarr.PlaybackPoller
import Std.Data.String.ToInt

namespace PlexHistory

open PyValues PlaybackPoller

/-- Library functions. -/
structure PlexRuntime where
  /-- `str.lower`. -/
  lower : String → String
  /-- `str(value)`. -/
  str : PyValue → String
  /-- What `fromtimestamp` raises for an instant outside the years 1 to 9999. -/
  timestampError : Int → PyError
  /-- `str(exc)`. -/
  errorText : PyError → String

/-- The answer to a request. -/
inductive Answer where
  /-- `httpx.HTTPError`, that of a bad status included. -/
  | httpError
  /-- The `ValueError` of `response.json()`. -/
  | notJson
  | json (body : PyValue)
  | raised (exc : PyError)

/-- The answers of the server: to the request for the so-many-th page, and to the
    so-many-th request for metadata. -/
structure PlexAnswers where
  page : Nat → Answer
  metadata : Nat → List String → Answer

/-- `v.get(key, default)`. -/
def getD (v : PyValue) (key : String) (default : PyValue) : Except PyError PyValue :=
  match v with
  | .dict entries => .ok ((entries.lookup key).getD default)
  | _ => .error (.other "AttributeError")

/-- `d[key] = value`. -/
def setKey (entries : List (String × PyValue)) (key : String) (value : PyValue) :
    List (String × PyValue) :=
  if entries.any (·.1 = key) then entries.map fun entry => if entry.1 = key then (key, value) else entry
  else entries ++ [(key, value)]

/-! ### The pages -/

/-- `_HISTORY_PAGE_SIZE`. -/
def historyPageSize : Nat := 500

/-- `_HISTORY_PAGE_CAP`. -/
def historyPageCap : Nat := 20

/-- The entries of a page, none of one that could not be had. -/
def pageItems : Answer → Except PyError (List PyValue)
  | .httpError | .notJson => .ok []
  | .raised exc => .error exc
  | .json body => do
      let payload ← getD body "MediaContainer" (.dict [])
      let pageEntries ← getD payload "Metadata" (.list [])
      pageEntries.orEmpty.iterate

/-- `int(e.get("viewedAt") or 0)`. -/
def viewedAtOrZero (entry : PyValue) : Except PyError Int := do
  let viewedAt ← entry.get "viewedAt"
  if viewedAt.truthy then viewedAt.toInt else return 0

/-- `max(..., default=0)`. -/
def youngestOnPage (items : List PyValue) : Except PyError Int := do
  let viewed ← items.mapM viewedAtOrZero
  return viewed.max?.getD 0

/-- Another page is requested after one with these entries. -/
def goesOn (cutoffUnix : Int) (items : List PyValue) : Except PyError Bool :=
  if items.length < historyPageSize then .ok false
  else do
    let youngest ← youngestOnPage items
    return !(decide (youngest ≠ 0) && decide (youngest < cutoffUnix))

section Fetch

variable (rt : PlexRuntime) (answers : PlexAnswers)

/-- The entries of at most so many pages, from one on. -/
def walkPages (cutoffUnix : Int) : Nat → Nat → Except PyError (List PyValue)
  | 0, _ => .ok []
  | remaining + 1, pageIdx => do
      let items ← pageItems (answers.page pageIdx)
      let more ← goesOn cutoffUnix items
      if more then
        let rest ← walkPages cutoffUnix remaining (pageIdx + 1)
        return items ++ rest
      else return items

/-! ### The metadata -/

/-- The keys of the entries without a `Media` list. -/
def keysNeedingMetadata : List PyValue → Except PyError (List String)
  | [] => .ok []
  | entry :: rest => do
      let ratingKey ← entry.get "ratingKey"
      let media ← entry.get "Media"
      let others ← keysNeedingMetadata rest
      return if !ratingKey.isNone && !media.truthy then rt.str ratingKey :: others else others

/-- `_METADATA_BATCH_SIZE`. -/
def metadataBatchSize : Nat := 50

/-- `out[str(rk)] = entry`; the last entry of a key counts. -/
def addEntry (out : List (String × PyValue)) (entry : PyValue) :
    Except PyError (List (String × PyValue)) := do
  let ratingKey ← entry.get "ratingKey"
  return if ratingKey.isNone then out else (rt.str ratingKey, entry) :: out

/-- One batch; a failed one is left out. -/
def addBatch (out : List (String × PyValue)) (batch : List String × Nat) :
    Except PyError (List (String × PyValue)) :=
  match answers.metadata batch.2 batch.1 with
  | .httpError | .notJson => .ok out
  | .raised exc => .error exc
  | .json body => do
      let payload ← getD body "MediaContainer" (.dict [])
      let entries ← getD payload.orDict "Metadata" (.list [])
      let items ← entries.orEmpty.iterate
      items.foldlM (addEntry rt) out

/-- `_batched_library_metadata`. -/
def batchedLibraryMetadata (ratingKeys : List String) : Except PyError (List (String × PyValue)) :=
  let ordered := (ratingKeys.filter (· ≠ "")).eraseDups
  ((ordered.toChunks metadataBatchSize).zipIdx).foldlM (addBatch rt answers) []

/-- The `Media` list of an entry, from the metadata if it has none. -/
def attachMedia (metadataByRk : List (String × PyValue)) (entry : PyValue) :
    Except PyError PyValue := do
  let media ← entry.get "Media"
  if media.truthy then return entry
  else do
    let ratingKey ← entry.get "ratingKey"
    match metadataByRk.lookup (if ratingKey.truthy then rt.str ratingKey else "") with
    | none => return entry
    | some full => do
        let fullMedia ← full.get "Media"
        match entry, fullMedia with
        | .dict entries, .list items => return .dict (setKey entries "Media" (.list items))
        | _, _ => return entry

/-! ### One entry -/

/-- `_safe_int`. -/
def safeInt : PyValue → Except PyError (Option Int)
  | .none => .ok none
  | v => Ffprobe.orNone v.toInt

/-- The first item of a list, if it is a dictionary that is not empty. -/
def firstDict : PyValue → Option PyValue
  | .list (.dict (entry :: rest) :: _) => some (.dict (entry :: rest))
  | _ => none

/-- `v.get(key) if isinstance(v.get(key), str) else None`. -/
def strOrNone (v : PyValue) (key : String) : Except PyError (Option String) := do
  match (← v.get key) with
  | .str s => return some s
  | _ => return none

/-- `(v.get(key) or "").lower()`. -/
def lowered (v : PyValue) (key : String) : Except PyError String := do
  let value ← v.get key
  match value with
  | .str s => return rt.lower s
  | other => if other.truthy then .error (.other "AttributeError") else return rt.lower ""

/-- `datetime.fromtimestamp(n, tz=UTC)`. -/
def fromTimestamp (n : Int) : Except PyError Timestamp :=
  if -62135596800 ≤ n ∧ n ≤ 253402300799 then .ok (seconds n) else .error (rt.timestampError n)

def decisionOf (videoDecision audioDecision : String) : String :=
  if videoDecision = "transcode" ∨ audioDecision = "transcode" then "transcode"
  else if videoDecision = "copy" ∨ audioDecision = "copy" then "direct_stream"
  else "direct_play"

/-- Why a play was transcoded. -/
def reasonOf (videoDecision audioDecision : String) (targetContainer partContainer : PyValue) :
    Option String :=
  if decisionOf videoDecision audioDecision = "transcode" then
    if targetContainer.truthy && partContainer.truthy && !targetContainer.eq partContainer then
      some "video.container.unsupported"
    else if videoDecision = "transcode" then some "video.codec.unsupported"
    else if audioDecision = "transcode" then some "audio.codec.unsupported"
    else none
  else none

/-- The id of a play. -/
def upstreamIdOf (ratingKey : String) (viewedAt : Int) : String :=
  "plex:" ++ ratingKey ++ ":" ++ toString viewedAt

/-- An event from the parts of its entry that were found. -/
def eventOfParts (entry ratingKey media0 part0 : PyValue) (viewedAt : Int) (sourcePath : String) :
    Except PyError PlaybackEventDto := do
  let videoDecision ← lowered rt part0 "videoDecision"
  let audioDecision ← lowered rt part0 "audioDecision"
  let targetContainer ← media0.get "container"
  let partContainer ← part0.get "container"
  let player ← entry.get "Player"
  let player := match player with
    | .dict entries => PyValue.dict entries
    | _ => .dict []
  let durationMs ← safeInt (← entry.get "duration")
  let startedAt ← fromTimestamp rt viewedAt
  return {
    upstreamId := upstreamIdOf (rt.str ratingKey) viewedAt
    sourcePath := sourcePath
    decision := decisionOf videoDecision audioDecision
    startedAt := startedAt
    deviceKind := ← strOrNone player "platform"
    deviceName := ← strOrNone player "title"
    reasonCode := reasonOf videoDecision audioDecision targetContainer partContainer
    sourceCodec := ← strOrNone media0 "videoCodec"
    sourceBitrateKbps := ← safeInt (← media0.get "bitrate")
    sourceWidth := ← safeInt (← media0.get "width")
    sourceHeight := ← safeInt (← media0.get "height")
    sourceContainer := ← strOrNone media0 "container"
    durationS := durationMs.map fun ms => ms / 1000
    ratingKey := some (rt.str ratingKey) }

/-- The body of `_plex_history_to_event`. -/
def eventOfEntry (entry : PyValue) : Except PyError (Option PlaybackEventDto) := do
  let ratingKey ← entry.get "ratingKey"
  let viewedAtRaw ← entry.get "viewedAt"
  if !ratingKey.truthy || !viewedAtRaw.truthy then return none
  else match (← safeInt viewedAtRaw) with
    | none => return none
    | some viewedAt => match firstDict (← entry.get "Media") with
      | none => return none
      | some media0 => match firstDict (← media0.get "Part") with
        | none => return none
        | some part0 => match (← part0.get "file") with
          | .str sourcePath =>
              if sourcePath = "" then return none
              else return some (← eventOfParts rt entry ratingKey media0 part0 viewedAt sourcePath)
          | _ => return none

/-- `_plex_history_to_event`: an entry of an unexpected shape is dropped. -/
def plexHistoryToEvent (entry : PyValue) : Except PyError (Option PlaybackEventDto) :=
  match eventOfEntry rt entry with
  | .error .typeError | .error .valueError | .error (.other "AttributeError") => .ok none
  | outcome => outcome

/-! ### The events -/

/-- `since or (now - timedelta(days=1))`. -/
def cutoffOf (now : Timestamp) (since : Option Timestamp) : Timestamp :=
  since.getD (now - seconds 86400)

/-- `cutoff_unix`. -/
def unixOf (cutoff : Timestamp) : Int := cutoff.tdiv 1000000

/-- The metadata of the entries without a `Media` list. -/
def metadataFor (entries : List PyValue) : Except PyError (List (String × PyValue)) := do
  let keys ← keysNeedingMetadata rt entries
  batchedLibraryMetadata rt answers keys

/-- The event of an entry. -/
def eventOf (metadataByRk : List (String × PyValue)) (entry : PyValue) :
    Except PyError (Option PlaybackEventDto) := do
  let entry ← attachMedia rt metadataByRk entry
  plexHistoryToEvent rt entry

/-- `fetch_playback_events`. -/
def fetchPlaybackEvents (now : Timestamp) (since : Option Timestamp) :
    Except PyError (List PlaybackEventDto) := do
  let cutoff := cutoffOf now since
  let entries ← walkPages answers (unixOf cutoff) historyPageCap 0
  let metadataByRk ← metadataFor rt answers entries
  let events ← entries.mapM (eventOf rt metadataByRk)
  return (events.filterMap id).filter fun event => cutoff ≤ event.startedAt

end Fetch

/-! ### What is received -/

section Received

variable {rt : PlexRuntime} {answers : PlexAnswers}

/-- The page is requested: all before it were full, and reached back no further than the
    cutoff. -/
def Requested (answers : PlexAnswers) (cutoffUnix : Int) (pageIdx : Nat) : Prop :=
  pageIdx < historyPageCap ∧ ∀ earlier < pageIdx, ∃ items,
    pageItems (answers.page earlier) = .ok items ∧ goesOn cutoffUnix items = .ok true

theorem mem_walkPages {cutoffUnix : Int} {remaining pageIdx : Nat} {entries : List PyValue}
    (h : walkPages answers cutoffUnix remaining pageIdx = .ok entries) {entry : PyValue} :
    entry ∈ entries ↔ ∃ k < remaining, (∀ j < k, ∃ items,
        pageItems (answers.page (pageIdx + j)) = .ok items ∧ goesOn cutoffUnix items = .ok true) ∧
      ∃ items, pageItems (answers.page (pageIdx + k)) = .ok items ∧ entry ∈ items := by
  induction remaining generalizing pageIdx entries with
  | zero =>
    cases h
    simp
  | succ remaining ih =>
    rw [walkPages] at h
    obtain ⟨items, hitems, h⟩ := PyValues.bind_eq_ok.mp h
    obtain ⟨more, hmore, h⟩ := PyValues.bind_eq_ok.mp h
    have hhere : entry ∈ items → ∃ k < remaining + 1, (∀ j < k, ∃ items,
          pageItems (answers.page (pageIdx + j)) = .ok items ∧ goesOn cutoffUnix items = .ok true) ∧
        ∃ items, pageItems (answers.page (pageIdx + k)) = .ok items ∧ entry ∈ items := by
      intro hentry
      exact ⟨0, Nat.succ_pos _, fun j hj => absurd hj (Nat.not_lt_zero j), items, hitems, hentry⟩
    cases more with
    | false =>
      cases h
      refine ⟨hhere, ?_⟩
      rintro ⟨k, -, hbefore, items', hitems', hentry⟩
      cases k with
      | zero =>
        rw [Nat.add_zero, hitems] at hitems'
        cases hitems'
        exact hentry
      | succ k =>
        obtain ⟨first, hfirst, hgoes⟩ := hbefore 0 (Nat.succ_pos k)
        rw [Nat.add_zero, hitems] at hfirst
        cases hfirst
        rw [hmore] at hgoes
        cases hgoes
    | true =>
      obtain ⟨rest, hrest, h⟩ := PyValues.bind_eq_ok.mp h
      cases h
      rw [List.mem_append, ih hrest]
      constructor
      · rintro (hentry | ⟨k, hk, hbefore, items', hitems', hentry⟩)
        · exact hhere hentry
        · refine ⟨k + 1, Nat.succ_lt_succ hk, fun j hj => ?_, items', ?_, hentry⟩
          · cases j with
            | zero => exact ⟨items, hitems, hmore⟩
            | succ j =>
              have hj' := hbefore j (Nat.lt_of_succ_lt_succ hj)
              rwa [Nat.add_right_comm] at hj'
          · rwa [Nat.add_right_comm] at hitems'
      · rintro ⟨k, hk, hbefore, items', hitems', hentry⟩
        cases k with
        | zero =>
          rw [Nat.add_zero, hitems] at hitems'
          cases hitems'
          exact .inl hentry
        | succ k =>
          refine .inr ⟨k, Nat.lt_of_succ_lt_succ hk, fun j hj => ?_, items', ?_, hentry⟩
          · have hj' := hbefore (j + 1) (Nat.succ_lt_succ hj)
            rwa [Nat.add_right_comm pageIdx 1 j]
          · rwa [Nat.add_right_comm pageIdx 1 k]

/-- The event is that of an entry on a requested page, with the metadata that was
    answered, and is not before the cutoff. -/
def Received (rt : PlexRuntime) (answers : PlexAnswers) (cutoff : Timestamp)
    (event : PlaybackEventDto) : Prop :=
  ∃ entries metadataByRk, walkPages answers (unixOf cutoff) historyPageCap 0 = .ok entries ∧
    metadataFor rt answers entries = .ok metadataByRk ∧
    (∃ pageIdx, Requested answers (unixOf cutoff) pageIdx ∧
      ∃ items, pageItems (answers.page pageIdx) = .ok items ∧
      ∃ entry ∈ items, eventOf rt metadataByRk entry = .ok (some event)) ∧
    cutoff ≤ event.startedAt

theorem mem_fetchPlaybackEvents {now : Timestamp} {since : Option Timestamp}
    {events : List PlaybackEventDto} (h : fetchPlaybackEvents rt answers now since = .ok events)
    {event : PlaybackEventDto} :
    event ∈ events ↔ Received rt answers (cutoffOf now since) event := by
  unfold fetchPlaybackEvents at h
  obtain ⟨entries, hentries, h⟩ := PyValues.bind_eq_ok.mp h
  obtain ⟨metadataByRk, hmetadata, h⟩ := PyValues.bind_eq_ok.mp h
  obtain ⟨found, hfound, h⟩ := PyValues.bind_eq_ok.mp h
  cases h
  have hpages : ∀ entry, entry ∈ entries ↔
      ∃ pageIdx, Requested answers (unixOf (cutoffOf now since)) pageIdx ∧
        ∃ items, pageItems (answers.page pageIdx) = .ok items ∧ entry ∈ items := by
    intro entry
    rw [mem_walkPages hentries]
    simp [Requested, and_assoc]
  rw [List.mem_filter, List.mem_filterMap, decide_eq_true_iff]
  constructor
  · rintro ⟨⟨result, hresult, rfl⟩, hcutoff⟩
    obtain ⟨entry, hentry, hevent⟩ := (mem_mapM_ok hfound).mp hresult
    obtain ⟨pageIdx, hrequested, items, hitems, hmem⟩ := (hpages entry).mp hentry
    exact ⟨entries, metadataByRk, hentries, hmetadata,
      ⟨pageIdx, hrequested, items, hitems, entry, hmem, hevent⟩, hcutoff⟩
  · rintro ⟨entries', metadata', hentries', hmetadata', ⟨pageIdx, hrequested, items, hitems, entry,
      hmem, hevent⟩, hcutoff⟩
    rw [hentries] at hentries'
    cases hentries'
    rw [hmetadata] at hmetadata'
    cases hmetadata'
    have hentry := (hpages entry).mpr ⟨pageIdx, hrequested, items, hitems, hmem⟩
    exact ⟨⟨some event, (mem_mapM_ok hfound).mpr ⟨entry, hentry, hevent⟩, rfl⟩, hcutoff⟩

theorem startedAt_of_fromTimestamp {n : Int} {startedAt : Timestamp}
    (h : fromTimestamp rt n = .ok startedAt) : startedAt = seconds n := by
  unfold fromTimestamp at h
  split at h
  · cases h
    rfl
  · cases h

theorem shape_of_eventOfParts {entry ratingKey media0 part0 : PyValue} {viewedAt : Int}
    {sourcePath : String} {event : PlaybackEventDto}
    (h : eventOfParts rt entry ratingKey media0 part0 viewedAt sourcePath = .ok event) :
    event.upstreamId = upstreamIdOf (rt.str ratingKey) viewedAt ∧
      event.startedAt = seconds viewedAt := by
  unfold eventOfParts at h
  obtain ⟨videoDecision, -, h⟩ := PyValues.bind_eq_ok.mp h
  obtain ⟨audioDecision, -, h⟩ := PyValues.bind_eq_ok.mp h
  obtain ⟨targetContainer, -, h⟩ := PyValues.bind_eq_ok.mp h
  obtain ⟨partContainer, -, h⟩ := PyValues.bind_eq_ok.mp h
  obtain ⟨player, -, h⟩ := PyValues.bind_eq_ok.mp h
  obtain ⟨duration, -, h⟩ := PyValues.bind_eq_ok.mp h
  obtain ⟨durationMs, -, h⟩ := PyValues.bind_eq_ok.mp h
  obtain ⟨startedAt, hstarted, h⟩ := PyValues.bind_eq_ok.mp h
  obtain ⟨deviceKind, -, h⟩ := PyValues.bind_eq_ok.mp h
  obtain ⟨deviceName, -, h⟩ := PyValues.bind_eq_ok.mp h
  obtain ⟨sourceCodec, -, h⟩ := PyValues.bind_eq_ok.mp h
  obtain ⟨bitrate, -, h⟩ := PyValues.bind_eq_ok.mp h
  obtain ⟨bitrateKbps, -, h⟩ := PyValues.bind_eq_ok.mp h
  obtain ⟨width, -, h⟩ := PyValues.bind_eq_ok.mp h
  obtain ⟨sourceWidth, -, h⟩ := PyValues.bind_eq_ok.mp h
  obtain ⟨height, -, h⟩ := PyValues.bind_eq_ok.mp h
  obtain ⟨sourceHeight, -, h⟩ := PyValues.bind_eq_ok.mp h
  obtain ⟨sourceContainer, -, h⟩ := PyValues.bind_eq_ok.mp h
  cases h
  exact ⟨rfl, startedAt_of_fromTimestamp hstarted⟩

theorem shape_of_eventOfEntry {entry : PyValue} {event : PlaybackEventDto}
    (h : eventOfEntry rt entry = .ok (some event)) :
    ∃ ratingKey viewedAt, event.upstreamId = upstreamIdOf ratingKey viewedAt ∧
      event.startedAt = seconds viewedAt := by
  unfold eventOfEntry at h
  obtain ⟨ratingKey, -, h⟩ := PyValues.bind_eq_ok.mp h
  obtain ⟨viewedAtRaw, -, h⟩ := PyValues.bind_eq_ok.mp h
  split at h
  · cases h
  obtain ⟨found, -, h⟩ := PyValues.bind_eq_ok.mp h
  split at h
  · cases h
  rename_i viewedAt
  obtain ⟨media, -, h⟩ := PyValues.bind_eq_ok.mp h
  split at h
  · cases h
  obtain ⟨parts, -, h⟩ := PyValues.bind_eq_ok.mp h
  split at h
  · cases h
  obtain ⟨file, -, h⟩ := PyValues.bind_eq_ok.mp h
  split at h
  · split at h
    · cases h
    · obtain ⟨event', hevent, h⟩ := PyValues.bind_eq_ok.mp h
      cases h
      exact ⟨rt.str ratingKey, viewedAt, shape_of_eventOfParts hevent⟩
  · cases h

theorem shape_of_eventOf {metadataByRk : List (String × PyValue)} {entry : PyValue}
    {event : PlaybackEventDto} (h : eventOf rt metadataByRk entry = .ok (some event)) :
    ∃ ratingKey viewedAt, event.upstreamId = upstreamIdOf ratingKey viewedAt ∧
      event.startedAt = seconds viewedAt := by
  obtain ⟨full, -, h⟩ := PyValues.bind_eq_ok.mp h
  unfold plexHistoryToEvent at h
  split at h
  · cases h
  · cases h
  · cases h
  · exact shape_of_eventOfEntry h

theorem colon_not_mem_toString (n : Int) : ':' ∉ (toString n).toList := by
  have hnat : ∀ m : Nat, ':' ∉ m.repr.toList := by
    intro m hmem
    rw [Nat.repr, String.toList_ofList] at hmem
    have hdigit := Nat.isDigit_of_mem_toDigits (by decide) (by decide) hmem
    cases hdigit
  cases n with
  | ofNat m => exact hnat m
  | negSucc m =>
    show ':' ∉ ("-" ++ (m + 1).repr).toList
    rw [String.toList_append, List.mem_append]
    rintro (hsign | hmem)
    · cases hsign with
      | tail _ h => cases h
    · exact hnat (m + 1) hmem

theorem eq_of_append_colon {a a' b b' : List Char} (h : a ++ ':' :: b = a' ++ ':' :: b')
    (hb : ':' ∉ b) (hb' : ':' ∉ b') : b = b' := by
  induction a generalizing a' with
  | nil =>
    cases a' with
    | nil => exact (List.cons.inj h).2
    | cons c rest =>
      obtain ⟨-, hrest⟩ := List.cons.inj h
      exact absurd (hrest ▸ by simp) hb
  | cons c rest ih =>
    cases a' with
    | nil =>
      obtain ⟨-, hrest⟩ := List.cons.inj h
      exact absurd (hrest ▸ by simp) hb'
    | cons c' rest' => exact ih (List.cons.inj h).2

theorem viewedAt_of_upstreamIdOf {ratingKey ratingKey' : String} {viewedAt viewedAt' : Int}
    (h : upstreamIdOf ratingKey viewedAt = upstreamIdOf ratingKey' viewedAt') :
    viewedAt = viewedAt' := by
  have hlist := congrArg String.toList h
  simp only [upstreamIdOf, String.toList_append] at hlist
  have htext : (toString viewedAt).toList = (toString viewedAt').toList := by
    apply eq_of_append_colon _ (colon_not_mem_toString _) (colon_not_mem_toString _)
    · exact "plex:".toList ++ ratingKey.toList
    · exact "plex:".toList ++ ratingKey'.toList
    · simpa using hlist
  exact Int.repr_injective (String.toList_injective htext)

end Received

end PlexHistory
