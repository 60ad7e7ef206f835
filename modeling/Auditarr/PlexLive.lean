/-
  Auditarr/PlexLive.lean
  ======================
  **What a Plex server says is playing, against what it says was played**
  (`plugins/plex/backend.py`: `_plex_live_to_dto` next to `_plex_history_to_event`).

  A play is in `/status/sessions` while it lasts and in the history afterwards.  The two
  entries have the same `Media` list; how the play was decoded is on a `Part` in the one
  and in `TranscodeSession` in the other.  The live mapper goes through the list for a
  file, the history mapper looks at its first element; the live mapper reads the video
  decision, the history mapper the audio decision too.

  `agree_iff` says when the two make the same of a play.
-/
import Auditarr.JellyfinSessions
import Auditarr.PlexDelivery
import Auditarr.PlexHistory

namespace PlexLive

open PyValues PlaybackPoller PlexHistory
open JellyfinSessions (dictOr progressOf)
open PlexDelivery (plainPlex)

abbrev Entries := List (String × PyValue)

/-- `entries.get(key)`. -/
def field (entries : Entries) (key : String) : PyValue := (entries.lookup key).getD .none

/-! ### The live mapper -/

/-- `LivePlaybackDTO`, whole. -/
structure LiveDto extends LivePlaybackDto where
  state : String
  user : Option String
  sourceContainer : Option String
  targetCodec : Option String
  targetBitrateKbps : Option Int
  title : Option String

/-- `v or w`. -/
def orElse (v w : PyValue) : PyValue := if v.truthy then v else w

/-- A `Part` with a file, and the file. -/
def filePart : PyValue → Option (Entries × String)
  | .dict part => match field part "file" with
    | .str path => if path = "" then none else some (part, path)
    | _ => none
  | _ => none

/-- The first `Media` with a `Part` with a file, and the file. -/
def scanMedia : List PyValue → Except PyError (Option (Entries × String))
  | [] => .ok none
  | .dict media :: rest => do
      let parts ← (field media "Part").orEmpty.iterate
      match parts.findSome? filePart with
      | some (_, path) => return some (media, path)
      | none => scanMedia rest
  | _ :: rest => scanMedia rest

def liveDecisionOf : PyValue → String
  | .str decision =>
      if decision = "transcode" then "transcode"
      else if decision = "copy" then "direct_stream"
      else "direct_play"
  | _ => "direct_play"

section Live

variable (rt : PlexRuntime) (now : Timestamp)

/-- `_str_or_none`. -/
def strOrNone : PyValue → Option String
  | .none => none
  | .str s => if s = "" then none else some s
  | v => some (rt.str v)

/-- `except (ValueError, OSError, TypeError)`. -/
def startIsGuessed : PyError → Bool
  | .valueError | .typeError | .other "OSError" => true
  | _ => false

/-- When the play began: an instant that cannot be read is now. -/
def startedAtOf (entry : Entries) : Except PyError Timestamp :=
  match orElse (field entry "addedAt") (field entry "lastViewedAt") with
  | .none => .ok now
  | raw => match raw.toInt >>= fromTimestamp rt with
    | .ok startedAt => .ok startedAt
    | .error e => if startIsGuessed e then .ok now else .error e

/-- `_safe_int(first_media.get("duration")) or _safe_int(entry.get("duration"))`. -/
def durationOf (entry media : Entries) : Except PyError (Option Int) := do
  let ofMedia ← safeInt (field media "duration")
  if ofMedia.any (· ≠ 0) then return ofMedia else safeInt (field entry "duration")

/-- A live playback from the parts of its entry that were found. -/
def liveOfParts (entry media : Entries) (sessionKey : PyValue) (sourcePath : String) :
    Except PyError LiveDto := do
  let transcode ← (dictOr (field entry "TranscodeSession")).get "videoDecision"
  let startedAt ← startedAtOf rt now entry
  let player := dictOr (field entry "Player")
  let user := dictOr (field entry "User")
  let viewOffset ← safeInt (field entry "viewOffset")
  let durationMs ← durationOf entry media
  let progressPct ← progressOf viewOffset durationMs
  let bitrate ← safeInt (field media "bitrate")
  let width ← safeInt (field media "width")
  let height ← safeInt (field media "height")
  let targetBitrate ← safeInt (← (dictOr (field entry "TranscodeSession")).get "bitrate")
  return {
    upstreamId := rt.str sessionKey
    sourcePath := sourcePath
    decision := liveDecisionOf transcode
    startedAt := startedAt
    state := ((strOrNone rt (← player.get "state")).filter (· ≠ "")).getD "playing"
    progressPct := progressPct
    user := strOrNone rt (← user.get "title")
    deviceKind := strOrNone rt (orElse (← player.get "device") (← player.get "product"))
    deviceName := strOrNone rt (← player.get "title")
    sourceCodec := strOrNone rt (field media "videoCodec")
    sourceBitrateKbps := bitrate
    sourceWidth := width
    sourceHeight := height
    sourceContainer := strOrNone rt (field media "container")
    targetCodec := strOrNone rt (← (dictOr (field entry "TranscodeSession")).get "videoCodec")
    targetBitrateKbps := targetBitrate
    title := strOrNone rt (orElse (field entry "title") (field entry "grandparentTitle")) }

/-- The body of `_plex_live_to_dto`, for an entry with a session key. -/
def liveOfEntry (entry : Entries) (sessionKey : PyValue) : Except PyError (Option LiveDto) :=
  match field entry "Media" with
  | .list (media :: rest) => do
      match (← scanMedia (media :: rest)) with
      | none => return none
      | some (first, sourcePath) => return some (← liveOfParts rt now entry first sessionKey sourcePath)
  | _ => .ok none

/-- `_plex_live_to_dto`: what raises is dropped. -/
def plexLiveToDto : PyValue → Except PyError (Option LiveDto)
  | .dict entry =>
      let sessionKey := field entry "sessionKey"
      if !sessionKey.truthy then .ok none
      else match liveOfEntry rt now entry sessionKey with
        | .ok dto => .ok dto
        | .error _ => .ok none
  | _ => .error (.other "AttributeError")

end Live

/-- The entries of a dictionary, none of anything else. -/
def entriesOf : PyValue → Entries
  | .dict entries => entries
  | _ => []

/-! ### The two entries of a play -/

/-- The `Part` elements of a `Media` list that have a file, in order. -/
def fileParts : PyValue → List (Entries × String)
  | .list items => items.flatMap fun
    | .dict media => match field media "Part" with
      | .list parts => parts.filterMap filePart
      | _ => []
    | _ => []
  | _ => []

/-- The entries of one play in the history and among the sessions: they have the same `Media`
    list, and the first of its parts with a file has the decisions that `TranscodeSession` has. -/
structure SamePlay (history live : Entries) : Prop where
  media : field history "Media" = field live "Media"
  decisions : ∀ found ∈ (fileParts (field history "Media")).head?,
    ∀ key ∈ ["videoDecision", "audioDecision"],
      field found.1 key = field (entriesOf (field live "TranscodeSession")) key

/-- Both mappers drop the play, or both yield the same path and the same decision. -/
def Agree (recorded : Except PyError (Option PlaybackEventDto))
    (live : Except PyError (Option LiveDto)) : Prop :=
  match recorded, live with
  | .ok none, .ok none => True
  | .ok (some event), .ok (some dto) =>
      event.sourcePath = dto.sourcePath ∧ event.decision = dto.decision
  | _, _ => False

instance decidableAgree (recorded : Except PyError (Option PlaybackEventDto))
    (live : Except PyError (Option LiveDto)) : Decidable (Agree recorded live) := by
  unfold Agree
  split <;> infer_instance

/-! ### What the history mapper needs -/

/-- A number that `int` does not take. -/
def infinite : PyValue → Bool
  | .float (.inf _) => true
  | _ => false

/-- The first `Media`, its first `Part`, and the file that this has. -/
def frontPart : PyValue → Option (Entries × Entries × String)
  | .list (.dict media :: _) => match field media "Part" with
    | .list (.dict part :: _) => (filePart (.dict part)).map fun found => (media, part, found.2)
    | _ => none
  | _ => none

/-- A decision that `lower` can be called on. -/
def textual : PyValue → Bool
  | .str _ => true
  | v => !v.truthy

/-- `except (AttributeError, TypeError, ValueError, KeyError)`. -/
def caught : PyError → Bool
  | .typeError | .valueError | .other "AttributeError" => true
  | _ => false

/-- Why an entry of the history is dropped. -/
inductive HistoryDropped (rt : PlexRuntime) (h : Entries) : Prop where
  | ratingKey : (field h "ratingKey").truthy = false → HistoryDropped rt h
  | viewedAt : (field h "viewedAt").truthy = false → HistoryDropped rt h
  | unreadable : safeInt (field h "viewedAt") = .ok none → HistoryDropped rt h
  | noFile : infinite (field h "viewedAt") = false → frontPart (field h "Media") = none →
      HistoryDropped rt h
  | decision {media part : Entries} {path key : String} :
      infinite (field h "viewedAt") = false →
      frontPart (field h "Media") = some (media, part, path) →
      key ∈ ["videoDecision", "audioDecision"] → textual (field part key) = false →
      HistoryDropped rt h
  | year {n : Int} {e : PyError} : safeInt (field h "viewedAt") = .ok (some n) →
      infinite (field h "duration") = false → fromTimestamp rt n = .error e → caught e = true →
      HistoryDropped rt h

/-- An entry of the history that every field can be read of. -/
structure HistoryRead (rt : PlexRuntime) (h media part : Entries) (path : String) : Prop where
  ratingKey : (field h "ratingKey").truthy = true
  viewedAt : (field h "viewedAt").truthy = true
  front : frontPart (field h "Media") = some (media, part, path)
  texts : ∀ key ∈ ["videoDecision", "audioDecision"], textual (field part key) = true
  played : ∃ n startedAt, safeInt (field h "viewedAt") = .ok (some n) ∧
    fromTimestamp rt n = .ok startedAt
  duration : infinite (field h "duration") = false
  numbers : ∀ key ∈ ["bitrate", "width", "height"], infinite (field media key) = false

/-! ### What the live mapper needs -/

/-- The numbers of a live entry that are read without a guess. -/
structure LiveNumbers (rt : PlexRuntime) (now : Timestamp) (l media : Entries) : Prop where
  startedAt : ∃ startedAt, startedAtOf rt now l = .ok startedAt
  progress : ∃ viewOffset durationMs progressPct, safeInt (field l "viewOffset") = .ok viewOffset ∧
    durationOf l media = .ok durationMs ∧ progressOf viewOffset durationMs = .ok progressPct
  numbers : ∀ key ∈ ["bitrate", "width", "height"], infinite (field media key) = false
  target : infinite (field (entriesOf (field l "TranscodeSession")) "bitrate") = false

/-- Why a live entry is dropped. -/
inductive LiveDropped (rt : PlexRuntime) (now : Timestamp) (l : Entries) : Prop where
  | sessionKey : (field l "sessionKey").truthy = false → LiveDropped rt now l
  | noFile : (∀ items found, field l "Media" = .list items → scanMedia items ≠ .ok (some found)) →
      LiveDropped rt now l
  | number {items : List PyValue} {media : Entries} {path : String} :
      field l "Media" = .list items → scanMedia items = .ok (some (media, path)) →
      ¬ LiveNumbers rt now l media → LiveDropped rt now l

/-- The decision of a part in lower case. -/
def lowerOf (rt : PlexRuntime) : PyValue → String
  | .str s => rt.lower s
  | _ => rt.lower ""

/-- The video decision alone, as it is spelled, says what the two say in lower case. -/
def DecidesAlike (rt : PlexRuntime) (part : Entries) : Prop :=
  let video := lowerOf rt (field part "videoDecision")
  let audio := lowerOf rt (field part "audioDecision")
  (field part "videoDecision" = .str "transcode" ↔ video = "transcode" ∨ audio = "transcode") ∧
  (field part "videoDecision" = .str "copy" ↔
    (video = "copy" ∨ audio = "copy") ∧ video ≠ "transcode" ∧ audio ≠ "transcode")

/-! ### The history mapper on an entry -/

section History

variable {rt : PlexRuntime} {h media part : Entries} {path : String}

theorem safeInt_of_infinite {v : PyValue} (hv : infinite v = true) :
    safeInt v = .error .overflowError := by
  match v with
  | .float (.inf _) => rfl

theorem safeInt_of_finite {v : PyValue} (hv : infinite v = false) : ∃ n, safeInt v = .ok n := by
  cases v with
  | none => exact ⟨none, rfl⟩
  | bool b => exact ⟨_, rfl⟩
  | int n => exact ⟨_, rfl⟩
  | float x =>
    cases x with
    | finite q => exact ⟨_, rfl⟩
    | inf negative => cases hv
    | nan => exact ⟨none, rfl⟩
  | str s =>
    show ∃ n, Ffprobe.orNone (PyValue.str s).toInt = .ok n
    rw [PyValue.toInt]
    cases intOfStr s with
    | none => exact ⟨none, rfl⟩
    | some n => exact ⟨some n, rfl⟩
  | list items => exact ⟨none, rfl⟩
  | dict entries => exact ⟨none, rfl⟩

theorem lowered_dict (part : Entries) (key : String) :
    lowered rt (.dict part) key = match field part key with
      | .str s => .ok (rt.lower s)
      | other => if other.truthy then .error (.other "AttributeError") else .ok (rt.lower "") :=
  rfl

theorem lowered_of_textual {key : String} (htext : textual (field part key) = true) :
    lowered rt (.dict part) key = .ok (lowerOf rt (field part key)) := by
  rw [lowered_dict]
  generalize field part key = value at htext ⊢
  cases value with
  | str s => rfl
  | _ => exact if_neg (by simpa [textual] using htext)

theorem lowered_of_not_textual {key : String} (htext : textual (field part key) = false) :
    lowered rt (.dict part) key = .error (.other "AttributeError") := by
  rw [lowered_dict]
  generalize field part key = value at htext ⊢
  cases value with
  | str s => cases htext
  | _ => exact if_pos (by simpa [textual] using htext)

/-- A text, of what is one. -/
def textOf : PyValue → Option String
  | .str s => some s
  | _ => none

theorem strOrNone_dict (entries : Entries) (key : String) :
    PlexHistory.strOrNone (.dict entries) key = .ok (textOf (field entries key)) := by
  have hmatch : PlexHistory.strOrNone (.dict entries) key = match field entries key with
      | .str s => .ok (some s)
      | _ => .ok none := rfl
  rw [hmatch]
  cases field entries key <;> rfl

theorem frontPart_eq {α : Type} (value : PyValue)
    (k : PyValue → PyValue → String → Except PyError (Option α)) :
    (match firstDict value with
      | none => pure none
      | some media => media.get "Part" >>= fun parts => match firstDict parts with
        | none => pure none
        | some part => part.get "file" >>= fun
          | .str path => if path = "" then pure none else k media part path
          | _ => pure none : Except PyError (Option α)) =
      match frontPart value with
      | none => .ok none
      | some (media, part, path) => k (.dict media) (.dict part) path := by
  match value with
  | .list (.dict (entry :: media) :: rest) =>
    show (match firstDict (field (entry :: media) "Part") with
      | none => _
      | some part => _) = _
    unfold frontPart
    dsimp only
    match field (entry :: media) "Part" with
    | .list (.dict (first :: part) :: others) =>
      show (match field (first :: part) "file" with
        | .str path => if path = "" then _ else _
        | _ => _) = _
      dsimp only
      unfold filePart
      dsimp only
      cases hfile : field (first :: part) "file" with
      | str path =>
        dsimp only
        by_cases hpath : path = ""
        · rw [if_pos hpath, if_pos hpath]
          rfl
        · rw [if_neg hpath, if_neg hpath]
          rfl
      | _ => rfl
    | .list (.dict [] :: others) => rfl
    | .list [] | .list (.none :: _) | .list (.bool _ :: _) | .list (.int _ :: _)
    | .list (.float _ :: _) | .list (.str _ :: _) | .list (.list _ :: _) => rfl
    | .none | .bool _ | .int _ | .float _ | .str _ | .dict _ => rfl
  | .list (.dict [] :: rest) => rfl
  | .list [] | .list (.none :: _) | .list (.bool _ :: _) | .list (.int _ :: _)
  | .list (.float _ :: _) | .list (.str _ :: _) | .list (.list _ :: _) => rfl
  | .none | .bool _ | .int _ | .float _ | .str _ | .dict _ => rfl

theorem eventOfEntry_dict : eventOfEntry rt (.dict h) =
    if !(field h "ratingKey").truthy || !(field h "viewedAt").truthy then .ok none
    else safeInt (field h "viewedAt") >>= fun
      | none => .ok none
      | some n => match frontPart (field h "Media") with
        | none => .ok none
        | some (media, part, path) =>
            eventOfParts rt (.dict h) (field h "ratingKey") (.dict media) (.dict part) n path >>=
              fun event => .ok (some event) := by
  unfold eventOfEntry
  by_cases hids : (!(field h "ratingKey").truthy || !(field h "viewedAt").truthy) = true
  · rw [if_pos hids]
    exact if_pos hids
  · rw [if_neg hids]
    refine (if_neg hids).trans ?_
    congr 1
    funext viewedAt
    cases viewedAt with
    | none => rfl
    | some n =>
      exact frontPart_eq (field h "Media") fun media part path =>
        eventOfParts rt (.dict h) (field h "ratingKey") media part n path >>=
          fun event => .ok (some event)

theorem get_dict (entries : Entries) (key : String) :
    (PyValue.dict entries).get key = .ok (field entries key) := rfl

theorem ok_bind {α β : Type} (a : α) (k : α → Except PyError β) : (Except.ok a >>= k) = k a := rfl

theorem error_bind {α β : Type} (e : PyError) (k : α → Except PyError β) :
    (Except.error e >>= k) = .error e := rfl

variable {ratingKey : PyValue} {n : Int}

theorem eventOfParts_of_not_textual {key : String} (hkey : key ∈ ["videoDecision", "audioDecision"])
    (htext : textual (field part key) = false) :
    eventOfParts rt (.dict h) ratingKey (.dict media) (.dict part) n path =
      .error (.other "AttributeError") := by
  unfold eventOfParts
  cases hvideo : textual (field part "videoDecision") with
  | false => rw [lowered_of_not_textual hvideo, error_bind]
  | true =>
    have haudio : textual (field part "audioDecision") = false := by
      rcases List.mem_cons.mp hkey with rfl | hrest
      · rw [htext] at hvideo
        cases hvideo
      · rw [← List.mem_singleton.mp hrest]
        exact htext
    rw [lowered_of_textual hvideo, ok_bind, lowered_of_not_textual haudio, error_bind]

variable (htexts : ∀ key ∈ ["videoDecision", "audioDecision"], textual (field part key) = true)

include htexts

theorem eventOfParts_of_infinite_duration (hduration : infinite (field h "duration") = true) :
    eventOfParts rt (.dict h) ratingKey (.dict media) (.dict part) n path =
      .error .overflowError := by
  unfold eventOfParts
  rw [lowered_of_textual (htexts _ (by simp)), ok_bind, lowered_of_textual (htexts _ (by simp))]
  simp only [get_dict, ok_bind, safeInt_of_infinite hduration, error_bind]

theorem eventOfParts_of_timestamp {e : PyError} (hduration : infinite (field h "duration") = false)
    (he : fromTimestamp rt n = .error e) :
    eventOfParts rt (.dict h) ratingKey (.dict media) (.dict part) n path = .error e := by
  obtain ⟨duration, hd⟩ := safeInt_of_finite hduration
  unfold eventOfParts
  rw [lowered_of_textual (htexts _ (by simp)), ok_bind, lowered_of_textual (htexts _ (by simp))]
  simp only [get_dict, ok_bind, hd, he, error_bind]

theorem eventOfParts_of_infinite {startedAt : Timestamp} {key : String}
    (hduration : infinite (field h "duration") = false)
    (hstarted : fromTimestamp rt n = .ok startedAt) (hkey : key ∈ ["bitrate", "width", "height"])
    (hinfinite : infinite (field media key) = true) :
    eventOfParts rt (.dict h) ratingKey (.dict media) (.dict part) n path =
      .error .overflowError := by
  obtain ⟨duration, hd⟩ := safeInt_of_finite hduration
  unfold eventOfParts
  rw [lowered_of_textual (htexts _ (by simp)), ok_bind, lowered_of_textual (htexts _ (by simp))]
  simp only [get_dict, ok_bind, hd, hstarted]
  cases hbitrate : infinite (field media "bitrate") with
  | true =>
    have hb := safeInt_of_infinite hbitrate
    split <;> simp only [strOrNone_dict, ok_bind, hb, error_bind]
  | false =>
    obtain ⟨bitrate, hb⟩ := safeInt_of_finite hbitrate
    cases hwidth : infinite (field media "width") with
    | true =>
      have hw := safeInt_of_infinite hwidth
      split <;> simp only [strOrNone_dict, ok_bind, hb, hw, error_bind]
    | false =>
      obtain ⟨width, hw⟩ := safeInt_of_finite hwidth
      have hheight : infinite (field media "height") = true := by
        simp only [List.mem_cons, List.not_mem_nil, or_false] at hkey
        rcases hkey with rfl | rfl | rfl
        · rw [hinfinite] at hbitrate
          cases hbitrate
        · rw [hinfinite] at hwidth
          cases hwidth
        · exact hinfinite
      have hh := safeInt_of_infinite hheight
      split <;> simp only [strOrNone_dict, ok_bind, hb, hw, hh, error_bind]

theorem eventOfParts_read (ratingKey : PyValue) (path : String) {startedAt : Timestamp}
    (hduration : infinite (field h "duration") = false)
    (hstarted : fromTimestamp rt n = .ok startedAt)
    (hnumbers : ∀ key ∈ ["bitrate", "width", "height"], infinite (field media key) = false) :
    ∃ event, eventOfParts rt (.dict h) ratingKey (.dict media) (.dict part) n path = .ok event ∧
      event.sourcePath = path ∧
      event.decision = decisionOf (lowerOf rt (field part "videoDecision"))
        (lowerOf rt (field part "audioDecision")) := by
  obtain ⟨duration, hd⟩ := safeInt_of_finite hduration
  obtain ⟨bitrate, hb⟩ := safeInt_of_finite (hnumbers "bitrate" (by simp))
  obtain ⟨width, hw⟩ := safeInt_of_finite (hnumbers "width" (by simp))
  obtain ⟨height, hh⟩ := safeInt_of_finite (hnumbers "height" (by simp))
  unfold eventOfParts
  rw [lowered_of_textual (htexts _ (by simp)), ok_bind, lowered_of_textual (htexts _ (by simp))]
  simp only [get_dict, ok_bind, hd, hstarted]
  split <;>
    simp only [strOrNone_dict, ok_bind, hb, hw, hh] <;>
    exact ⟨_, rfl, rfl, rfl⟩

omit htexts

/-! ### What becomes of an entry of the history -/

theorem history_of_ok {event : Option PlaybackEventDto} (he : eventOfEntry rt (.dict h) = .ok event) :
    plexHistoryToEvent rt (.dict h) = .ok event := by
  unfold plexHistoryToEvent
  rw [he]

theorem history_of_error {e : PyError} (he : eventOfEntry rt (.dict h) = .error e) :
    plexHistoryToEvent rt (.dict h) = if caught e then .ok none else .error e := by
  unfold plexHistoryToEvent
  rw [he]
  unfold caught
  split
  next heq =>
    cases heq
    rfl
  next heq =>
    cases heq
    rfl
  next heq =>
    cases heq
    rfl
  next htype hvalue hattribute =>
    split
    next => exact absurd rfl htype
    next => exact absurd rfl hvalue
    next => exact absurd rfl hattribute
    next => rfl

theorem eventOfEntry_of_front (hrating : (field h "ratingKey").truthy = true)
    (hviewed : (field h "viewedAt").truthy = true) (hn : safeInt (field h "viewedAt") = .ok (some n))
    (hfront : frontPart (field h "Media") = some (media, part, path)) :
    eventOfEntry rt (.dict h) =
      eventOfParts rt (.dict h) (field h "ratingKey") (.dict media) (.dict part) n path >>=
        fun event => .ok (some event) := by
  rw [eventOfEntry_dict, if_neg (by simp [hrating, hviewed]), hn, ok_bind]
  dsimp only
  rw [hfront]

theorem history_of_unreadable (hrating : (field h "ratingKey").truthy = true)
    (hviewed : (field h "viewedAt").truthy = true) (hn : safeInt (field h "viewedAt") = .ok none) :
    plexHistoryToEvent rt (.dict h) = .ok none := by
  apply history_of_ok
  rw [eventOfEntry_dict, if_neg (by simp [hrating, hviewed]), hn, ok_bind]

theorem history_of_no_file (hrating : (field h "ratingKey").truthy = true)
    (hviewed : (field h "viewedAt").truthy = true) (hn : safeInt (field h "viewedAt") = .ok (some n))
    (hfront : frontPart (field h "Media") = none) :
    plexHistoryToEvent rt (.dict h) = .ok none := by
  apply history_of_ok
  rw [eventOfEntry_dict, if_neg (by simp [hrating, hviewed]), hn, ok_bind]
  dsimp only
  rw [hfront]

theorem history_of_not_textual (hrating : (field h "ratingKey").truthy = true)
    (hviewed : (field h "viewedAt").truthy = true) (hn : safeInt (field h "viewedAt") = .ok (some n))
    (hfront : frontPart (field h "Media") = some (media, part, path)) {key : String}
    (hkey : key ∈ ["videoDecision", "audioDecision"]) (hbad : textual (field part key) = false) :
    plexHistoryToEvent rt (.dict h) = .ok none := by
  refine (history_of_error (e := .other "AttributeError") ?_).trans (if_pos rfl)
  rw [eventOfEntry_of_front hrating hviewed hn hfront, eventOfParts_of_not_textual hkey hbad,
    error_bind]

theorem history_dropped (hdropped : HistoryDropped rt h) :
    plexHistoryToEvent rt (.dict h) = .ok none := by
  by_cases hids : (field h "ratingKey").truthy = true ∧ (field h "viewedAt").truthy = true
  swap
  · apply history_of_ok
    rw [eventOfEntry_dict, if_pos]
    cases hrating : (field h "ratingKey").truthy with
    | false => rfl
    | true =>
      cases hviewed : (field h "viewedAt").truthy with
      | false => rfl
      | true => exact absurd ⟨hrating, hviewed⟩ hids
  obtain ⟨hrating, hviewed⟩ := hids
  cases hdropped with
  | ratingKey hfalse =>
    rw [hrating] at hfalse
    cases hfalse
  | viewedAt hfalse =>
    rw [hviewed] at hfalse
    cases hfalse
  | unreadable hn => exact history_of_unreadable hrating hviewed hn
  | noFile hfinite hfront =>
    obtain ⟨found, hfound⟩ := safeInt_of_finite hfinite
    cases found with
    | none => exact history_of_unreadable hrating hviewed hfound
    | some n => exact history_of_no_file hrating hviewed hfound hfront
  | decision hfinite hfront hkey hbad =>
    obtain ⟨found, hfound⟩ := safeInt_of_finite hfinite
    cases found with
    | none => exact history_of_unreadable hrating hviewed hfound
    | some n => exact history_of_not_textual hrating hviewed hfound hfront hkey hbad
  | @year n e hn hduration he hcaught =>
    cases hfront : frontPart (field h "Media") with
    | none => exact history_of_no_file hrating hviewed hn hfront
    | some found =>
      obtain ⟨media, part, path⟩ := found
      by_cases htexts : ∀ key ∈ ["videoDecision", "audioDecision"], textual (field part key) = true
      · refine (history_of_error ?_).trans (if_pos hcaught)
        rw [eventOfEntry_of_front hrating hviewed hn hfront,
          eventOfParts_of_timestamp htexts hduration he, error_bind]
      · push Not at htexts
        obtain ⟨key, hkey, hbad⟩ := htexts
        exact history_of_not_textual hrating hviewed hn hfront hkey (Bool.not_eq_true _ ▸ hbad)

theorem history_read (hread : HistoryRead rt h media part path) :
    ∃ event, plexHistoryToEvent rt (.dict h) = .ok (some event) ∧ event.sourcePath = path ∧
      event.decision = decisionOf (lowerOf rt (field part "videoDecision"))
        (lowerOf rt (field part "audioDecision")) := by
  obtain ⟨n, startedAt, hn, hstarted⟩ := hread.played
  obtain ⟨event, hevent, hpath, hdecision⟩ :=
    eventOfParts_read hread.texts (field h "ratingKey") path hread.duration hstarted hread.numbers
  refine ⟨event, history_of_ok ?_, hpath, hdecision⟩
  rw [eventOfEntry_of_front hread.ratingKey hread.viewedAt hn hread.front, hevent, ok_bind]

theorem history_total (rt : PlexRuntime) (h : Entries) :
    HistoryDropped rt h ∨ (∃ media part path, HistoryRead rt h media part path) ∨
      ∃ e, plexHistoryToEvent rt (.dict h) = .error e := by
  cases hrating : (field h "ratingKey").truthy with
  | false => exact .inl (.ratingKey hrating)
  | true =>
  cases hviewed : (field h "viewedAt").truthy with
  | false => exact .inl (.viewedAt hviewed)
  | true =>
  cases hfinite : infinite (field h "viewedAt") with
  | true =>
    refine .inr (.inr ⟨.overflowError, (history_of_error ?_).trans (if_neg (by decide))⟩)
    rw [eventOfEntry_dict, if_neg (by simp [hrating, hviewed]), safeInt_of_infinite hfinite,
      error_bind]
  | false =>
  obtain ⟨found, hn⟩ := safeInt_of_finite hfinite
  cases found with
  | none => exact .inl (.unreadable hn)
  | some n =>
  cases hfront : frontPart (field h "Media") with
  | none => exact .inl (.noFile hfinite hfront)
  | some found =>
  obtain ⟨media, part, path⟩ := found
  by_cases htexts : ∀ key ∈ ["videoDecision", "audioDecision"], textual (field part key) = true
  swap
  · push Not at htexts
    obtain ⟨key, hkey, hbad⟩ := htexts
    exact .inl (.decision hfinite hfront hkey (Bool.not_eq_true _ ▸ hbad))
  have hraises : ∀ e, caught e = false →
      eventOfParts rt (.dict h) (field h "ratingKey") (.dict media) (.dict part) n path = .error e →
      plexHistoryToEvent rt (.dict h) = .error e := by
    intro e he hparts
    refine (history_of_error ?_).trans (if_neg (by simp [he]))
    rw [eventOfEntry_of_front hrating hviewed hn hfront, hparts, error_bind]
  cases hduration : infinite (field h "duration") with
  | true =>
    exact .inr (.inr ⟨_, hraises _ rfl (eventOfParts_of_infinite_duration htexts hduration)⟩)
  | false =>
  cases hstarted : fromTimestamp rt n with
  | error e =>
    cases hcaught : caught e with
    | true => exact .inl (.year hn hduration hstarted hcaught)
    | false =>
      exact .inr (.inr ⟨e, hraises e hcaught (eventOfParts_of_timestamp htexts hduration hstarted)⟩)
  | ok startedAt =>
  by_cases hnumbers : ∀ key ∈ ["bitrate", "width", "height"], infinite (field media key) = false
  · exact .inr (.inl ⟨media, part, path, hrating, hviewed, hfront, htexts,
      ⟨n, startedAt, hn, hstarted⟩, hduration, hnumbers⟩)
  · push Not at hnumbers
    obtain ⟨key, hkey, hbad⟩ := hnumbers
    exact .inr (.inr ⟨_, hraises _ rfl (eventOfParts_of_infinite htexts hduration hstarted hkey
      (Bool.not_eq_false _ ▸ hbad))⟩)

end History

/-! ### What becomes of a live entry -/

section Live

variable {rt : PlexRuntime} {now : Timestamp} {l media : Entries} {sessionKey : PyValue} {path : String}

theorem dictOr_eq (v : PyValue) : dictOr v = .dict (entriesOf v) := by
  cases v <;> rfl

theorem liveOfParts_read (sessionKey : PyValue) (path : String)
    (hnumbers : LiveNumbers rt now l media) :
    ∃ dto, liveOfParts rt now l media sessionKey path = .ok dto ∧ dto.sourcePath = path ∧
      dto.decision =
        liveDecisionOf (field (entriesOf (field l "TranscodeSession")) "videoDecision") := by
  obtain ⟨startedAt, hstarted⟩ := hnumbers.startedAt
  obtain ⟨viewOffset, durationMs, progressPct, hoffset, hduration, hprogress⟩ := hnumbers.progress
  obtain ⟨bitrate, hb⟩ := safeInt_of_finite (hnumbers.numbers "bitrate" (by simp))
  obtain ⟨width, hw⟩ := safeInt_of_finite (hnumbers.numbers "width" (by simp))
  obtain ⟨height, hh⟩ := safeInt_of_finite (hnumbers.numbers "height" (by simp))
  obtain ⟨target, ht⟩ := safeInt_of_finite hnumbers.target
  unfold liveOfParts
  simp only [dictOr_eq, get_dict, ok_bind, hstarted, hoffset, hduration, hprogress, hb, hw, hh, ht]
  exact ⟨_, rfl, rfl, rfl⟩

theorem liveNumbers_of_ok {dto : LiveDto}
    (hdto : liveOfParts rt now l media sessionKey path = .ok dto) : LiveNumbers rt now l media := by
  have hfinite : ∀ {v : PyValue} {n : Option Int}, safeInt v = .ok n → infinite v = false := by
    intro v n hn
    cases hv : infinite v with
    | false => rfl
    | true =>
      rw [safeInt_of_infinite hv] at hn
      cases hn
  unfold liveOfParts at hdto
  simp only [dictOr_eq, get_dict, ok_bind] at hdto
  obtain ⟨startedAt, hstarted, hdto⟩ := bind_eq_ok.mp hdto
  obtain ⟨viewOffset, hoffset, hdto⟩ := bind_eq_ok.mp hdto
  obtain ⟨durationMs, hduration, hdto⟩ := bind_eq_ok.mp hdto
  obtain ⟨progressPct, hprogress, hdto⟩ := bind_eq_ok.mp hdto
  obtain ⟨bitrate, hb, hdto⟩ := bind_eq_ok.mp hdto
  obtain ⟨width, hw, hdto⟩ := bind_eq_ok.mp hdto
  obtain ⟨height, hh, hdto⟩ := bind_eq_ok.mp hdto
  obtain ⟨target, ht, -⟩ := bind_eq_ok.mp hdto
  refine ⟨⟨startedAt, hstarted⟩, ⟨viewOffset, durationMs, progressPct, hoffset, hduration, hprogress⟩,
    ?_, hfinite ht⟩
  intro key hkey
  simp only [List.mem_cons, List.not_mem_nil, or_false] at hkey
  rcases hkey with rfl | rfl | rfl
  · exact hfinite hb
  · exact hfinite hw
  · exact hfinite hh

theorem liveOfEntry_list {items : List PyValue} (hitems : field l "Media" = .list items) :
    liveOfEntry rt now l sessionKey = scanMedia items >>= fun
      | none => .ok none
      | some (media, path) => liveOfParts rt now l media sessionKey path >>= fun dto => .ok (some dto) := by
  unfold liveOfEntry
  rw [hitems]
  cases items with
  | nil => rfl
  | cons media rest => rfl

theorem live_dropped (hdropped : LiveDropped rt now l) :
    plexLiveToDto rt now (.dict l) = .ok none := by
  unfold plexLiveToDto
  dsimp only
  cases hsession : (field l "sessionKey").truthy with
  | false => rfl
  | true =>
    show (match liveOfEntry rt now l (field l "sessionKey") with
      | .ok dto => .ok dto
      | .error _ => .ok none : Except PyError (Option LiveDto)) = _
    cases hdropped with
    | sessionKey hfalse =>
      rw [hsession] at hfalse
      cases hfalse
    | noFile hnofile =>
      cases hmedia : field l "Media" with
      | list items =>
        rw [liveOfEntry_list hmedia]
        cases hscan : scanMedia items with
        | error e => rfl
        | ok found =>
          cases found with
          | none => rfl
          | some found => exact absurd hscan (hnofile items found hmedia)
      | _ =>
        unfold liveOfEntry
        rw [hmedia]
    | @number items media path hmedia hscan hnumbers =>
      rw [liveOfEntry_list hmedia, hscan, ok_bind]
      dsimp only
      cases hdto : liveOfParts rt now l media (field l "sessionKey") path with
      | error e => rfl
      | ok dto => exact absurd (liveNumbers_of_ok hdto) hnumbers

theorem live_read (hread : ¬ LiveDropped rt now l) :
    ∃ items media path dto, field l "Media" = .list items ∧
      scanMedia items = .ok (some (media, path)) ∧
      plexLiveToDto rt now (.dict l) = .ok (some dto) ∧ dto.sourcePath = path ∧
      dto.decision =
        liveDecisionOf (field (entriesOf (field l "TranscodeSession")) "videoDecision") := by
  have hsession : (field l "sessionKey").truthy = true := by
    by_contra hfalse
    exact hread (.sessionKey (Bool.not_eq_true _ ▸ hfalse))
  have hfile : ∃ items found, field l "Media" = .list items ∧ scanMedia items = .ok (some found) := by
    by_contra hnone
    exact hread (.noFile fun items found hmedia hscan => hnone ⟨items, found, hmedia, hscan⟩)
  obtain ⟨items, ⟨media, path⟩, hmedia, hscan⟩ := hfile
  have hnumbers : LiveNumbers rt now l media := by
    by_contra hnot
    exact hread (.number hmedia hscan hnot)
  obtain ⟨dto, hdto, hpath, hdecision⟩ := liveOfParts_read (field l "sessionKey") path hnumbers
  refine ⟨items, media, path, dto, hmedia, hscan, ?_, hpath, hdecision⟩
  unfold plexLiveToDto
  dsimp only
  rw [hsession, liveOfEntry_list hmedia, hscan, ok_bind]
  dsimp only
  rw [hdto]
  rfl

/-! ### The two together -/

theorem filePart_eq_some {v : PyValue} {found : Entries × String} (h : filePart v = some found) :
    v = .dict found.1 := by
  unfold filePart at h
  split at h
  · split at h
    · split at h
      · cases h
      · cases h
        rfl
    · cases h
  · cases h

theorem scanMedia_of_front {value : PyValue} {part : Entries}
    (hfront : frontPart value = some (media, part, path)) :
    ∃ items, value = .list items ∧ scanMedia items = .ok (some (media, path)) ∧
      (fileParts value).head? = some (part, path) := by
  unfold frontPart at hfront
  split at hfront
  next entries rest =>
    split at hfront
    next first others hparts =>
      obtain ⟨⟨found, file⟩, hfound, heq⟩ := Option.map_eq_some_iff.mp hfront
      obtain rfl : first = found := PyValue.dict.inj (filePart_eq_some hfound)
      cases heq
      refine ⟨_, rfl, ?_, ?_⟩
      · rw [scanMedia, hparts]
        show (match (PyValue.dict part :: others).findSome? filePart with
          | some (_, path) => _
          | none => _) = _
        rw [List.findSome?_cons, hfound]
        rfl
      · rw [fileParts, List.flatMap_cons]
        dsimp only
        rw [hparts]
        dsimp only
        rw [List.filterMap_cons, hfound]
        rfl
    · cases hfront
  · cases hfront

theorem liveDecisionOf_other {value : PyValue} (htranscode : value ≠ .str "transcode")
    (hcopy : value ≠ .str "copy") : liveDecisionOf value = "direct_play" := by
  unfold liveDecisionOf
  split
  next decision =>
    rw [if_neg, if_neg]
    · exact fun h => hcopy (congrArg PyValue.str h)
    · exact fun h => htranscode (congrArg PyValue.str h)
  next => rfl

theorem eq_liveDecisionOf (value : PyValue) (transcodes copies : Prop) [Decidable transcodes]
    [Decidable copies] :
    (if transcodes then "transcode" else if copies then "direct_stream" else "direct_play") =
        liveDecisionOf value ↔
      (value = .str "transcode" ↔ transcodes) ∧ (value = .str "copy" ↔ copies ∧ ¬ transcodes) := by
  by_cases htranscode : value = .str "transcode"
  · subst htranscode
    rw [show liveDecisionOf (.str "transcode") = "transcode" from rfl]
    by_cases ht : transcodes
    · simp [ht]
    · by_cases hc : copies <;> simp [ht, hc]
  · by_cases hcopy : value = .str "copy"
    · subst hcopy
      rw [show liveDecisionOf (.str "copy") = "direct_stream" from rfl]
      by_cases ht : transcodes
      · simp [ht]
      · by_cases hc : copies <;> simp [ht, hc]
    · rw [liveDecisionOf_other htranscode hcopy]
      by_cases ht : transcodes
      · simp [ht, htranscode]
      · by_cases hc : copies <;> simp [ht, hc, htranscode, hcopy]

theorem decisions_alike (rt : PlexRuntime) (part : Entries) :
    decisionOf (lowerOf rt (field part "videoDecision")) (lowerOf rt (field part "audioDecision")) =
        liveDecisionOf (field part "videoDecision") ↔
      DecidesAlike rt part := by
  unfold DecidesAlike decisionOf
  rw [eq_liveDecisionOf, not_or]

end Live

/-- Where both mappers read an entry of one play, and where they do not. -/
def SameFate (rt : PlexRuntime) (now : Timestamp) (h l : Entries) : Prop :=
  (HistoryDropped rt h ∧ LiveDropped rt now l) ∨
    ((∃ media part path, HistoryRead rt h media part path ∧ DecidesAlike rt part) ∧
      ¬ LiveDropped rt now l)

/-- The two mappers agree on a play iff they both drop it, each for its reasons, or they both
    read it, the file being in front, and the decisions come to the same. -/
theorem agree_iff (rt : PlexRuntime) (now : Timestamp) (h l : Entries) (hsame : SamePlay h l) :
    Agree (plexHistoryToEvent rt (.dict h)) (plexLiveToDto rt now (.dict l)) ↔
      SameFate rt now h l := by
  unfold SameFate
  rcases history_total rt h with hdropped | ⟨media, part, path, hread⟩ | ⟨e, he⟩
  · have hnone := history_dropped hdropped
    have hnotread : ¬ ∃ media part path, HistoryRead rt h media part path ∧ DecidesAlike rt part := by
      rintro ⟨media, part, path, hread, -⟩
      obtain ⟨event, hevent, -⟩ := history_read hread
      rw [hnone] at hevent
      cases hevent
    rw [hnone]
    by_cases hlive : LiveDropped rt now l
    · rw [live_dropped hlive]
      exact iff_of_true trivial (.inl ⟨hdropped, hlive⟩)
    · obtain ⟨items, media, path, dto, -, -, hdto, -⟩ := live_read hlive
      rw [hdto]
      refine iff_of_false id ?_
      rintro (⟨-, h⟩ | ⟨h, -⟩)
      · exact hlive h
      · exact hnotread h
  · obtain ⟨event, hevent, hpath, hdecision⟩ := history_read hread
    have hnotdropped : ¬ HistoryDropped rt h := by
      intro hdropped
      rw [history_dropped hdropped] at hevent
      cases hevent
    rw [hevent]
    by_cases hlive : LiveDropped rt now l
    · rw [live_dropped hlive]
      refine iff_of_false id ?_
      rintro (⟨h, -⟩ | ⟨-, h⟩)
      · exact hnotdropped h
      · exact h hlive
    · obtain ⟨items, media', path', dto, hitems, hscan, hdto, hdtopath, hdtodecision⟩ :=
        live_read hlive
      obtain ⟨items', hitems', hscan', hhead⟩ := scanMedia_of_front hread.front
      rw [hsame.media, hitems] at hitems'
      cases hitems'
      rw [hscan] at hscan'
      cases hscan'
      have hvideo := hsame.decisions _ (Option.mem_def.mpr hhead) "videoDecision" (by simp)
      rw [← hvideo] at hdtodecision
      rw [hdto]
      show event.sourcePath = dto.sourcePath ∧ event.decision = dto.decision ↔ _
      rw [hpath, hdtopath, hdecision, hdtodecision, decisions_alike]
      constructor
      · rintro ⟨-, halike⟩
        exact .inr ⟨⟨_, part, path, hread, halike⟩, hlive⟩
      · rintro (⟨h, -⟩ | ⟨⟨media'', part', path', hread', halike⟩, -⟩)
        · exact absurd h hnotdropped
        · have hsamefront := hread.front.symm.trans hread'.front
          cases hsamefront
          exact ⟨rfl, halike⟩
  · rw [he]
    refine iff_of_false ?_ ?_
    · cases plexLiveToDto rt now (.dict l) with
      | error e' => exact id
      | ok dto => exact id
    · rintro (⟨h, -⟩ | ⟨⟨media, part, path, hread, -⟩, -⟩)
      · rw [history_dropped h] at he
        cases he
      · obtain ⟨event, hevent, -⟩ := history_read hread
        rw [he] at hevent
        cases hevent

/-! ### Plays on which they differ, and one on which they do not -/

def playedEntry (media : List PyValue) : Entries :=
  [("ratingKey", .str "1"), ("viewedAt", .int 1000), ("Media", .list media)]

def sessionEntry (media : List PyValue) (transcode : Entries) : Entries :=
  [("sessionKey", .str "9"), ("Media", .list media), ("TranscodeSession", .dict transcode)]

/-- A `Media` element whose only part has the file and these decisions. -/
def filed (decisions : Entries) : PyValue :=
  .dict [("Part", .list [.dict (("file", .str "/m.mkv") :: decisions)])]

theorem samePlay_of_head {media : List PyValue} {transcode part : Entries} {path : String}
    (hhead : (fileParts (.list media)).head? = some (part, path))
    (hvideo : field part "videoDecision" = field transcode "videoDecision")
    (haudio : field part "audioDecision" = field transcode "audioDecision") :
    SamePlay (playedEntry media) (sessionEntry media transcode) := by
  refine ⟨rfl, ?_⟩
  intro found hfound key hkey
  obtain rfl : (part, path) = found := Option.some.inj (hhead.symm.trans hfound)
  simp only [List.mem_cons, List.not_mem_nil, or_false] at hkey
  rcases hkey with rfl | rfl
  · exact hvideo
  · exact haudio

/-- A remux: the video is copied, and the audio is not decoded. -/
def remux : List PyValue := [filed [("videoDecision", .str "copy")]]

theorem agree_iff_remux :
    SameFate plainPlex 0 (playedEntry remux) (sessionEntry remux [("videoDecision", .str "copy")]) :=
  (agree_iff plainPlex 0 (playedEntry remux) (sessionEntry remux [("videoDecision", .str "copy")])
    (samePlay_of_head rfl rfl rfl)).mp
    (by decide +kernel)

/-- The output of the transcoder stands before the file. -/
def outputFirst : List PyValue := [.dict [("protocol", .str "dash")], filed []]

/-- The audio alone is transcoded. -/
def audioTranscode : Entries :=
  [("videoDecision", .str "copy"), ("audioDecision", .str "transcode")]

/-- A session with the output first is shown and not recorded; one with the audio transcoded is a
    direct stream while it lasts and a transcode afterwards. -/
theorem mappers_disagree :
    (SamePlay (playedEntry outputFirst) (sessionEntry outputFirst []) ∧
      ¬ Agree (plexHistoryToEvent plainPlex (.dict (playedEntry outputFirst)))
        (plexLiveToDto plainPlex 0 (.dict (sessionEntry outputFirst [])))) ∧
    SamePlay (playedEntry [filed audioTranscode])
        (sessionEntry [filed audioTranscode] audioTranscode) ∧
      ¬ Agree (plexHistoryToEvent plainPlex (.dict (playedEntry [filed audioTranscode])))
        (plexLiveToDto plainPlex 0
          (.dict (sessionEntry [filed audioTranscode] audioTranscode))) := by
  refine ⟨⟨samePlay_of_head rfl rfl rfl, ?_⟩, samePlay_of_head rfl rfl rfl, ?_⟩
  · decide +kernel
  · decide +kernel

end PlexLive
