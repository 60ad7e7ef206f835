/-
  Auditarr/TracearrReconciler.lean
  ================================
  **The reconciler of Tracearr playback** (`app/services/playback/tracearr_reconciler.py`).

  Pass A takes every play that another integration recorded and links the Tracearr events of
  the same play to it; pass B looks the remaining ones up by title.  The session does not
  flush by itself, so every query sees the database as it was before the run, whatever was
  assigned to the rows since.  One commit stands at the end of pass B.
-/
import Auditarr.PlaybackPoller
import Auditarr.TracearrPath
import Mathlib.Data.List.Sort

namespace TracearrReconciler

open KeyedTable PyValues PlaybackPoller TracearrPath

/-! ### The rows -/

/-- A row of `playback_events` with its primary key. -/
structure EventRow where
  id : String
  event : PlaybackEvent
deriving DecidableEq

structure Db where
  events : Table EventRow.id
  sessions : Table PlaybackSession.id
  media : Table Database.MediaFile.id
  /-- The kind of an integration, by its id. -/
  kindOf : String → Option String

/-- Library functions. -/
structure ReconcilerRuntime where
  /-- `str.lower`. -/
  lower : String → String
  /-- `SequenceMatcher(None, a, b).ratio()`. -/
  ratio : List Char → List Char → PyFloat
  /-- `text ILIKE pattern`. -/
  ilike : String → String → Bool

/-- `_RECONCILE_WINDOW_DAYS`. -/
def reconcileWindow : Timestamp := seconds (30 * 24 * 3600)

/-- `_RECONCILE_BATCH_LIMIT`. -/
def reconcileBatchLimit : Nat := 200

/-- `_SAME_PLAY_BACKWARD_BUFFER`. -/
def samePlayBackwardBuffer : Timestamp := seconds 300

/-- `_SAME_PLAY_FORWARD_TOLERANCE`. -/
def samePlayForwardTolerance : Timestamp := seconds 60

/-- `_SAME_PLAY_DURATION_FALLBACK`. -/
def samePlayDurationFallback : Timestamp := seconds 7200

/-- `_TITLE_MATCH_THRESHOLD`. -/
def titleMatchThreshold : PyFloat := .ofExact (85 / 100)

/-! ### Titles -/

section Titles

variable (rt : ReconcilerRuntime)

/-- `_normalize`. -/
def normalize (text : String) : List Char :=
  (rt.lower text).toList.filter fun c => ('a' ≤ c && c ≤ 'z') || ('0' ≤ c && c ≤ '9')

/-- `text.replace(pattern, "")`, after so many characters that are passed over. -/
def removeAll (pattern : List Char) : Nat → List Char → List Char
  | _, [] => []
  | skip + 1, _ :: cs => removeAll pattern skip cs
  | 0, c :: cs =>
      if pattern <+: c :: cs then removeAll pattern (pattern.length - 1) cs
      else c :: removeAll pattern 0 cs

/-- `S<NN>E<NN>`, with the letters given. -/
def seasonEpisode (s e : Char) (season episode : Int) : List Char :=
  s :: twoDigits season ++ e :: twoDigits episode

/-- The texts that are there and not empty. -/
def present (texts : List (Option String)) : List String := (texts.filterMap id).filter (· ≠ "")

/-- The year, unless it is zero. -/
def yearText : Option Int → Option String
  | some 0 => none
  | some year => some (toString year)
  | none => none

/-- `_build_ilike_patterns`. -/
def buildIlikePatterns (identity : ParsedIdentity) : List String :=
  if identity.mediaType = "movie" then match present [identity.title] with
    | title :: _ =>
        let title := strip title
        ("%" ++ title ++ "%") :: ((yearText identity.year).map fun year =>
          "%" ++ title ++ "%" ++ year ++ "%").toList
    | [] => []
  else if identity.mediaType = "episode" then match identity.season, identity.episode with
    | some season, some episode =>
        let se := String.ofList (seasonEpisode 'S' 'E' season episode)
        ((present [identity.showTitle]).map fun name => "%" ++ name ++ "%" ++ se ++ "%") ++
          ["%" ++ se ++ "%"]
    | _, _ => match present [identity.showTitle], present [identity.title] with
      | name :: _, title :: _ => ["%" ++ name ++ "%" ++ title ++ "%"]
      | _, _ => []
  else []

/-- `min(1.0, 0.90 + 0.10 * coverage)`. -/
def containedScore (target file : List Char) : PyFloat :=
  let coverage := PyFloat.ofExact ((target.length : ℚ) / max file.length 1)
  let tenth : ℚ := 3602879701896397 / 36028797018963968
  let score := (PyFloat.ofExact (90 / 100)).sub (coverage.scale tenth).neg
  if score.lt (.finite 1) then score else .finite 1

/-- The score of what is looked for against a normalized filename. -/
def scoreTarget (target file : List Char) : PyFloat :=
  if target = [] then .finite 0
  else if target <:+: file then containedScore target file
  else rt.ratio target file

/-- `_score_filename`. -/
def scoreFilename (identity : ParsedIdentity) (filename : String) : PyFloat :=
  let file := normalize rt filename
  if identity.mediaType = "episode" then
    let target := normalize rt (" ".intercalate (present [identity.showTitle, identity.title]))
    match identity.season, identity.episode with
    | some season, some episode =>
        let se := seasonEpisode 's' 'e' season episode
        if se <:+: file then scoreTarget rt target (removeAll se 0 file) else .finite 0
    | _, _ => scoreTarget rt target file
  else
    scoreTarget rt (normalize rt (" ".intercalate (present [identity.title, yearText identity.year]))) file

/-- The score is good enough. -/
def accepts (identity : ParsedIdentity) (filename : String) : Bool :=
  titleMatchThreshold.le (scoreFilename rt identity filename)

/-- The best candidate so far, and its score. -/
def better (identity : ParsedIdentity) (best : Option String × PyFloat) (m : Database.MediaFile) :
    Option String × PyFloat :=
  let score := scoreFilename rt identity m.filename
  if best.2.lt score then (some m.id, score) else best

/-- `_try_title_heuristic`. -/
def tryTitleHeuristic (db : Db) (identity : ParsedIdentity) : Option String :=
  let patterns := buildIlikePatterns identity
  let candidates := (db.media.rows.filter fun m =>
    decide (m.category = "media") && patterns.any (rt.ilike m.filename)).take 200
  match candidates.foldl (better rt identity) (none, .finite 0) with
  | (some id, score) => if titleMatchThreshold.le score then some id else none
  | (none, _) => none

end Titles

/-! ### Pass A -/

/-- A play that another integration recorded. -/
structure Source where
  id : String
  startedAt : Timestamp
  mediaFileId : String
  durationS : Option Int
  filename : String
deriving DecidableEq

/-- The filename of a media row of the category `media`. -/
def filenameOf (db : Db) (mediaFileId : String) : Option String :=
  (db.media.find? mediaFileId).bind fun m => if m.category = "media" then some m.filename else none

/-- The integration exists and is of another kind. -/
def elsewhere (db : Db) (integrationId : String) : Bool :=
  (db.kindOf integrationId).any (· ≠ "tracearr")

def ofTracearr (db : Db) (row : EventRow) : Bool :=
  decide (db.kindOf row.event.integrationId = some "tracearr")

/-- `plex_rows`. -/
def eventSource (db : Db) (cutoff : Timestamp) (row : EventRow) : Option Source :=
  if elsewhere db row.event.integrationId ∧ cutoff ≤ row.event.startedAt then do
    let mediaFileId ← row.event.mediaFileId
    let filename ← filenameOf db mediaFileId
    return ⟨row.id, row.event.startedAt, mediaFileId, row.event.durationS, filename⟩
  else none

/-- `session_rows`; a session has no `duration_s`. -/
def sessionSource (db : Db) (cutoff : Timestamp) (row : PlaybackSession) : Option Source :=
  if elsewhere db row.integrationId ∧ cutoff ≤ row.startedAt ∧ row.state = .stopped then do
    let mediaFileId ← row.mediaFileId
    let filename ← filenameOf db mediaFileId
    return ⟨row.id, row.startedAt, mediaFileId, none, filename⟩
  else none

def sources (db : Db) (cutoff : Timestamp) : List Source :=
  db.events.rows.filterMap (eventSource db cutoff) ++ db.sessions.rows.filterMap (sessionSource db cutoff)

/-- How far back an event may have started. -/
def Source.backward (s : Source) : Timestamp :=
  let duration := match s.durationS with
    | none => samePlayDurationFallback
    | some d => if d = 0 then samePlayDurationFallback else seconds d
  min (max duration (seconds 60)) samePlayDurationFallback + samePlayBackwardBuffer

/-- An event that is not reconciled started in the window of the source. -/
def inWindow (db : Db) (s : Source) (row : EventRow) : Bool :=
  ofTracearr db row && row.event.reconciledWithSessionId.isNone &&
    decide (s.startedAt - s.backward ≤ row.event.startedAt ∧
      row.event.startedAt ≤ s.startedAt + samePlayForwardTolerance)

/-- The primary match: both sides have the same file. -/
def samePlay (db : Db) (s : Source) (row : EventRow) : Bool :=
  inWindow db s row && decide (row.event.mediaFileId = some s.mediaFileId)

/-- The secondary match: the file of the event is not known, and its title is that of the
    source. -/
def sameTitle (rt : ReconcilerRuntime) (db : Db) (s : Source) (row : EventRow) : Bool :=
  inWindow db s row && row.event.mediaFileId.isNone &&
    (parseTracearrPseudoPath row.event.sourcePath).any (accepts rt · s.filename)

/-- What is assigned to an event when it is counted. -/
structure Assignment where
  eventId : String
  reconciledWithSessionId : Option String
  mediaFileId : Option String
deriving DecidableEq

section Passes

variable (rt : ReconcilerRuntime) (db : Db)

def byStartDesc (rows : List EventRow) : List EventRow :=
  rows.insertionSort fun r r' => r'.event.startedAt ≤ r.event.startedAt

/-- What one source row shadows. -/
def shadowedBy (s : Source) : List Assignment :=
  (byStartDesc (db.events.rows.filter (samePlay db s))).map (fun row => ⟨row.id, some s.id, none⟩) ++
    (db.events.rows.filter (sameTitle rt db s)).map fun row => ⟨row.id, some s.id, some s.mediaFileId⟩

/-- `_shadow_tracearr_against_other_sources`: what it assigns, in order; it returns how much. -/
def shadowTracearr (cutoff : Timestamp) : List Assignment := (sources db cutoff).flatMap (shadowedBy rt db)

/-! ### Pass B -/

/-- The event awaits pass B. -/
def unresolved (cutoff : Timestamp) (row : EventRow) : Bool :=
  ofTracearr db row && row.event.mediaFileId.isNone && decide (cutoff ≤ row.event.startedAt)

/-- `rows`. -/
def unresolvedRows (cutoff : Timestamp) : List EventRow :=
  (byStartDesc (db.events.rows.filter (unresolved db cutoff))).take reconcileBatchLimit

/-- What the world adds to one run. -/
structure Occasion where
  now : Timestamp
  /-- The budget is exhausted when the row of this position is looked at. -/
  exhausted : Nat → Bool
  /-- Something raises while the row is looked at. -/
  rowFails : EventRow → Bool
  /-- The commit raises. -/
  commitFails : Bool

def Occasion.cutoff (o : Occasion) : Timestamp := o.now - reconcileWindow

/-- The rows that are looked at before the budget is exhausted. -/
def withinBudget (exhausted : Nat → Bool) : Nat → List EventRow → List EventRow
  | _, [] => []
  | n, row :: rest => if exhausted n then [] else row :: withinBudget exhausted (n + 1) rest

def processedRows (o : Occasion) : List EventRow :=
  withinBudget o.exhausted 0 (unresolvedRows db o.cutoff)

/-- The media row that the title of an event leads to. -/
def titleMatch (o : Occasion) (row : EventRow) : Option String :=
  if o.rowFails row then none
  else match parseTracearrPseudoPath row.event.sourcePath with
    | none => none
    | some identity =>
        if identity.mediaType = "movie" ∨ identity.mediaType = "episode" then tryTitleHeuristic rt db identity
        else none

/-- What pass B assigns, in order. -/
def matchTitles (o : Occasion) : List Assignment :=
  (processedRows db o).filterMap fun row =>
    (titleMatch rt db o row).map fun id => ⟨row.id, none, some id⟩

/-! ### The run -/

/-- The row of an event after an assignment. -/
def Assignment.apply (a : Assignment) (row : EventRow) : EventRow :=
  { row with event := { row.event with
      reconciledWithSessionId := a.reconciledWithSessionId <|> row.event.reconciledWithSessionId
      mediaFileId := a.mediaFileId <|> row.event.mediaFileId } }

theorem Assignment.apply_id (a : Assignment) (row : EventRow) : (a.apply row).id = row.id := rfl

/-- The rows as the session holds them after an assignment. -/
def assign (held : Table EventRow.id) (a : Assignment) : Table EventRow.id :=
  held.update (fun row => row.id = a.eventId) a.apply a.apply_id

/-- `ReconcileOutcome`; `error` is never set. -/
structure ReconcileOutcome where
  examined : Nat := 0
  matchedCrossSource : Nat := 0
  matchedTitleHeuristic : Nat := 0
  unmatched : Nat := 0
deriving DecidableEq

/-- What a run returns: the outcome, the rows that the session holds, and the rows that are
    stored. -/
structure Returned where
  outcome : ReconcileOutcome
  held : Table EventRow.id
  stored : Table EventRow.id

/-- `reconcile_tracearr_playback`; `none` if the commit raises. -/
def reconcileTracearrPlayback (o : Occasion) : Option Returned :=
  let shadowed := shadowTracearr rt db o.cutoff
  let held := shadowed.foldl assign db.events
  let rows := unresolvedRows db o.cutoff
  if rows = [] then
    -- the session is closed without a commit
    some ⟨{ examined := 0, matchedCrossSource := shadowed.length }, held, db.events⟩
  else
    let matched := matchTitles rt db o
    let held := matched.foldl assign held
    if o.commitFails then none
    else some ⟨{
      examined := rows.length
      matchedCrossSource := shadowed.length
      matchedTitleHeuristic := matched.length
      unmatched := (processedRows db o).length - matched.length }, held, held⟩

/-- What is counted as shadowed or matched, in order. -/
def counted (o : Occasion) : List Assignment := shadowTracearr rt db o.cutoff ++ matchTitles rt db o

/-- The events that are counted, in order: once for each assignment of pass A, and as matched
    or unmatched in pass B. -/
def countedEvents (o : Occasion) : List String :=
  (shadowTracearr rt db o.cutoff).map Assignment.eventId ++ (processedRows db o).map EventRow.id

end Passes

end TracearrReconciler
