/-
  Auditarr/JellyfinSessions.lean
  ==============================
  **What a Jellyfin server says is playing** (`plugins/jellyfin/backend.py`:
  `fetch_playback_events`, `fetch_live_playbacks` and what they call).

  Jellyfin has no history of plays.  `/Sessions` lists what is playing at the moment, and each
  entry is made into an event of the history, and into a live playback, by functions of its own.
  The id of the event has the session and the item; that of the live playback has the session.

  The answers of the server are whatever JSON they are.  The columns of a live playback that
  are texts are taken from entries that have texts there.
-/
import Auditarr.PlexHistory

namespace JellyfinSessions

open PyValues PlaybackPoller
open PlexHistory (safeInt strOrNone)

/-- Library functions. -/
structure JellyfinRuntime where
  /-- `str.lower`. -/
  lower : String → String
  /-- `str.isupper`, of one character. -/
  isUpper : Char → Bool
  /-- `str(value)`. -/
  str : PyValue → String
  /-- `datetime.fromisoformat`; `none` is its `ValueError`. -/
  fromIsoFormat : String → Option Timestamp
  /-- `str(exc)`. -/
  errorText : PyError → String

variable (rt : JellyfinRuntime)

/-! ### Values -/

/-- `value if isinstance(value, dict) else {}`. -/
def dictOr : PyValue → PyValue
  | .dict entries => .dict entries
  | _ => .dict []

/-- The text before a character and the text after it, where it first stands. -/
def splitOnce (sep : Char) (text : List Char) : Option (List Char × List Char) :=
  if sep ∈ text then some (text.takeWhile (· ≠ sep), (text.dropWhile (· ≠ sep)).tail) else none

/-- The digits of a fraction of a second, and the zone after it. -/
def fractionAndZone (tail : List Char) : List Char × List Char :=
  match splitOnce '+' tail with
  | some (fraction, zone) => (fraction, '+' :: zone)
  | none => match splitOnce '-' tail with
    | some (fraction, zone) => (fraction, '-' :: zone)
    | none => (tail, [])

/-- A timestamp as `fromisoformat` takes it: `Z` is a zone, and six digits are enough. -/
def isoText (value : List Char) : List Char :=
  let value := if value.getLast? = some 'Z' then value.dropLast ++ "+00:00".toList else value
  match splitOnce '.' value with
  | none => value
  | some (head, tail) =>
      let (fraction, zone) := fractionAndZone tail
      head ++ '.' :: (fraction.take 6 ++ zone)

/-- `_parse_jellyfin_ts`. -/
def parseJellyfinTs : PyValue → Option Timestamp
  | .str value => rt.fromIsoFormat (String.ofList (isoText value.toList))
  | _ => none

/-- The characters of a reason with an underscore before each word but the first. -/
def snakeCase : Option Char → List Char → String
  | _, [] => ""
  | before, ch :: rest =>
      let word := if rt.isUpper ch && before.any (!rt.isUpper ·) then "_" else ""
      word ++ rt.lower (String.singleton ch) ++ snakeCase (some ch) rest

/-- `_jellyfin_reason_to_code`. -/
def jellyfinReasonToCode (raw : String) : String :=
  let snake := snakeCase rt none raw.toList
  if snake.startsWith "video_" then
    "video." ++ ((snake.drop 6).toString.replace "_not_supported" ".unsupported")
  else if snake.startsWith "audio_" then
    "audio." ++ ((snake.drop 6).toString.replace "_not_supported" ".unsupported")
  else if snake.startsWith "container_" then "video.container.unsupported"
  else snake

/-- The first item that is a video stream. -/
def videoStream (items : List PyValue) : Option PyValue :=
  items.find? fun
    | .dict entries => ((entries.lookup "Type").getD .none).eq (.str "Video")
    | _ => false

/-! ### Events of the history -/

/-- The id of an event. -/
def upstreamIdOf (sessionId itemId : String) : String := "jellyfin:" ++ sessionId ++ ":" ++ itemId

/-- How an item is played, by `PlayMethod`. -/
def decisionOf (playMethod : String) : String :=
  if playMethod = "transcode" then "transcode"
  else if playMethod = "directstream" then "direct_stream"
  else "direct_play"

/-- `(play_state.get("PlayMethod") or "").lower()`. -/
def playMethodOf (session : PyValue) : Except PyError String := do
  let playState := dictOr (← session.get "PlayState")
  match (← playState.get "PlayMethod") with
  | .str s => return rt.lower s
  | other => if other.truthy then .error (.other "AttributeError") else return rt.lower ""

/-- The first of the reasons for a transcode. -/
def reasonOf (transcoding : PyValue) : Except PyError (Option String) := do
  match (← transcoding.get "TranscodeReasons") with
  | .list (reason :: _) => return some (jellyfinReasonToCode rt (rt.str reason))
  | _ => return none

/-- An event from the parts of its entry that were found. -/
def eventOfParts (session item : PyValue) (upstreamId sourcePath : String) (cutoff : Timestamp) :
    Except PyError PlaybackEventDto := do
  let playMethod ← playMethodOf rt session
  let transcoding := dictOr (← session.get "TranscodingInfo")
  let reasonCode ← reasonOf rt transcoding
  let lastCheckIn ← session.get "LastPlaybackCheckIn"
  let streams ← (← item.get "MediaStreams").orEmpty.iterate
  let video := (videoStream streams).getD (.dict [])
  let bitrate ← safeInt (← video.get "BitRate")
  let targetBitrate ← safeInt (← transcoding.get "Bitrate")
  let runtimeTicks ← safeInt (← item.get "RunTimeTicks")
  return {
    upstreamId := upstreamId
    sourcePath := sourcePath
    decision := decisionOf playMethod
    startedAt := (parseJellyfinTs rt lastCheckIn).getD cutoff
    deviceKind := ← strOrNone session "Client"
    deviceName := ← strOrNone session "DeviceName"
    reasonCode := reasonCode
    sourceCodec := ← strOrNone video "Codec"
    sourceBitrateKbps := bitrate.map (· / 1000)
    sourceWidth := ← safeInt (← video.get "Width")
    sourceHeight := ← safeInt (← video.get "Height")
    sourceContainer := ← strOrNone item "Container"
    targetCodec := ← strOrNone transcoding "VideoCodec"
    targetBitrateKbps := targetBitrate.map (· / 1000)
    durationS := runtimeTicks.map (· / 10000000) }

/-- The body of `_jellyfin_session_to_event`. -/
def eventOfSession (session : PyValue) (cutoff : Timestamp) :
    Except PyError (Option PlaybackEventDto) := do
  match (← session.get "NowPlayingItem") with
  | .dict entries =>
      let item := PyValue.dict entries
      match (← item.get "Path") with
      | .str sourcePath =>
          let sessionId ← session.get "Id"
          let itemId ← item.get "Id"
          if sourcePath = "" || !sessionId.truthy || !itemId.truthy then return none
          else return some (← eventOfParts rt session item
            (upstreamIdOf (rt.str sessionId) (rt.str itemId)) sourcePath cutoff)
      | _ => return none
  | _ => return none

/-- `_jellyfin_session_to_event`: an entry of an unexpected shape is dropped. -/
def jellyfinSessionToEvent (session : PyValue) (cutoff : Timestamp) :
    Except PyError (Option PlaybackEventDto) :=
  match eventOfSession rt session cutoff with
  | .error .typeError | .error .valueError | .error (.other "AttributeError") => .ok none
  | outcome => outcome

/-- `since or (now - timedelta(minutes=20))`. -/
def cutoffOf (now : Timestamp) (since : Option Timestamp) : Timestamp :=
  since.getD (now - seconds 1200)

/-- `fetch_playback_events`, of the sessions that the server lists. -/
def fetchPlaybackEvents (now : Timestamp) (sessions : List PyValue) (since : Option Timestamp) :
    Except PyError (List PlaybackEventDto) := do
  let events ← sessions.mapM fun session => jellyfinSessionToEvent rt session (cutoffOf now since)
  return events.filterMap id

/-! ### Live playbacks -/

/-- A text that is there and not empty. -/
def textOrNone : PyValue → Option String
  | .str s => if s = "" then none else some s
  | _ => none

/-- How an item is played, by `TranscodingInfo`. -/
def liveDecisionOf (transcoding : PyValue) : Except PyError String :=
  match transcoding with
  | .dict (entry :: rest) => do
      let video ← (PyValue.dict (entry :: rest)).get "IsVideoDirect"
      let audio ← (PyValue.dict (entry :: rest)).get "IsAudioDirect"
      match video, audio with
      | .bool false, _ => return "transcode"
      | _, .bool false => return "transcode"
      | _, _ => return "direct_stream"
  | _ => .ok "direct_play"

/-- `max(0.0, min(100.0, round(position / runtime * 100, 1)))`. -/
def progressOf (position runtime : Option Int) : Except PyError (Option PyFloat) :=
  match position, runtime with
  | some position, some runtime =>
      if runtime ≤ 0 then .ok none
      else match roundDouble (position / runtime) with
        | none => .error .overflowError
        | some quotient =>
            let pct := (PyFloat.mul (.finite quotient) (.finite 100)).roundTo 1
            let capped := PyFloat.min (.finite 100) pct
            .ok (some (if (PyFloat.finite 0).lt capped then capped else .finite 0))
  | _, _ => .ok none

/-- `_safe_int(value // 1000)` of a value that is not falsy, and `None` of one that is. -/
def kbpsOf (value : PyValue) : Except PyError (Option Int) :=
  if !value.truthy then .ok none
  else match value with
    | .int n => .ok (some (n / 1000))
    | .bool _ => .ok (some 0)
    | .float (.finite q) => .ok (some ⌊q / 1000⌋)
    | .float _ => .ok none
    | _ => .error .typeError

/-- `media_sources[0]` if that is a dictionary. -/
def firstSourceOf (mediaSources : PyValue) : Except PyError PyValue :=
  if !mediaSources.truthy then .ok (.dict [])
  else match mediaSources with
    | .list (first :: _) => .ok (dictOr first)
    | .str _ => .ok (.dict [])
    | .dict _ => .error (.other "KeyError")
    | _ => .error .typeError

/-- A live playback from the parts of its entry that were found. -/
def liveOfParts (now : Timestamp) (session item : PyValue) (sessionId sourcePath : String) :
    Except PyError LivePlaybackDto := do
  let playState := dictOr (← session.get "PlayState")
  let transcoding := dictOr (← session.get "TranscodingInfo")
  let decision ← liveDecisionOf transcoding
  let lastActivity ← session.get "LastActivityDate"
  let position ← safeInt (← playState.get "PositionTicks")
  let runtime ← safeInt (← item.get "RunTimeTicks")
  let progressPct ← progressOf position runtime
  let firstSource ← firstSourceOf (← item.get "MediaSources")
  let streams ← (← firstSource.get "MediaStreams").orEmpty.iterate
  let video := (videoStream streams).getD (.dict [])
  let bitrate ← kbpsOf (← firstSource.get "Bitrate")
  let width ← safeInt (← video.get "Width")
  let height ← safeInt (← video.get "Height")
  -- the bitrate of the target is computed too, and may raise
  let _ ← kbpsOf (← transcoding.get "Bitrate")
  return {
    upstreamId := sessionId
    sourcePath := sourcePath
    decision := decision
    startedAt := (parseJellyfinTs rt lastActivity).getD now
    progressPct := progressPct
    deviceKind := textOrNone (← session.get "Client")
    deviceName := textOrNone (← session.get "DeviceName")
    sourceCodec := ← strOrNone video "Codec"
    sourceBitrateKbps := bitrate
    sourceWidth := width
    sourceHeight := height }

/-- `_jellyfin_session_to_live_dto`. -/
def jellyfinSessionToLiveDto (now : Timestamp) (session : PyValue) :
    Except PyError (Option LivePlaybackDto) :=
  match session with
  | .dict _ => do
      match (← session.get "NowPlayingItem") with
      | .dict entries =>
          let item := PyValue.dict entries
          let sessionId ← session.get "Id"
          match (← item.get "Path") with
          | .str sourcePath =>
              if sourcePath = "" || !sessionId.truthy then return none
              else return some (← liveOfParts rt now session item (rt.str sessionId) sourcePath)
          | _ => return none
      | _ => return none
  | _ => .ok none

/-- `fetch_live_playbacks`, of the sessions that the server lists. -/
def fetchLivePlaybacks (now : Timestamp) (sessions : List PyValue) :
    Except PyError (List LivePlaybackDto) := do
  let lives ← sessions.mapM fun session => jellyfinSessionToLiveDto rt now session
  return lives.filterMap id

end JellyfinSessions
