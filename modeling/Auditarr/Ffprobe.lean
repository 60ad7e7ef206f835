/-
  Auditarr/Ffprobe.lean
  =====================
  **Reading ffprobe's output** (`app/services/media/ffprobe.py`, `parse_ffprobe`).

  The payload is whatever JSON value ffprobe printed.  Its audio and subtitle languages
  are collected into sets and sorted, so what is kept of them is neither their number
  nor their order.
-/
import Auditarr.PyValues
import Mathlib.Data.List.Dedup
import Mathlib.Data.List.Sort
import Mathlib.Data.String.Basic

namespace Ffprobe

open PyValues

/-- What is read from the format and the first video stream. -/
structure Measures where
  container : Option String
  durationSeconds : Option PyFloat
  bitrateKbps : Option Int
  width : Option Int
  height : Option Int
  framerate : Option PyFloat

/-- A codec is the value the payload has, `none` for a falsy one. -/
structure Codecs where
  videoCodec : Option PyValue
  audioCodec : Option PyValue
  subtitleCodec : Option PyValue

/-- `FfprobeResult`, without the payload itself. -/
structure FfprobeResult extends Measures, Codecs where
  ok : Bool
  hasSubtitles : Bool
  subtitleLanguages : List String
  audioLanguages : List String

/-! ### Helpers -/

/-- `try: f()` / `except (TypeError, ValueError): return None`. -/
def orNone {α : Type} : Except PyError α → Except PyError (Option α)
  | .ok a => .ok (some a)
  | .error .typeError | .error .valueError => .ok none
  | .error e => .error e

/-- `_coerce_float`. -/
def coerceFloat : PyValue → Except PyError (Option PyFloat)
  | .none => .ok none
  | value => orNone value.toFloat

/-- `_coerce_int`. -/
def coerceInt : PyValue → Except PyError (Option Int)
  | .none => .ok none
  | value => orNone value.toInt

/-- `_parse_framerate`. -/
def parseFramerate : PyValue → Except PyError (Option PyFloat)
  | .str value =>
      let num := value.toList.takeWhile (· ≠ '/')
      match value.toList.dropWhile (· ≠ '/') with
      | [] => if value = "" then .ok none else coerceFloat (.str value)
      | _ :: den => match floatOfStr (String.ofList num), floatOfStr (String.ofList den) with
        | some n, some d => .ok (if d.eq (.finite 0) then none else some ((n.div d).roundTo 4))
        | _, _ => .ok none
  | _ => .ok none

/-- `round(bitrate / 1000)`. -/
def kbps (bitrate : Int) : Except PyError Int :=
  match roundDouble (bitrate / 1000) with
  | some quotient => .ok (roundHalfEven quotient)
  | none => .error .overflowError

/-- The keys under which muxers put the language of a stream. -/
def LANGUAGE_KEYS : List String := ["language", "LANGUAGE", "Language"]

/-- The language under one key, normalized; `none` for what does not name one. -/
def languageOf (rt : PyRuntime) : PyValue → Option String
  | .str v =>
      if strip v ≠ "" ∧ rt.lower (strip v) ≠ "und" then some (rt.lower (strip v)) else none
  | _ => none

/-- The loop of `_stream_language` over the keys. -/
def firstLanguage (rt : PyRuntime) (tags : PyValue) : List String → Except PyError (Option String)
  | [] => .ok none
  | key :: rest => do
      match languageOf rt (← tags.get key) with
      | some language => return some language
      | none => firstLanguage rt tags rest

/-- `_stream_language`. -/
def streamLanguage (rt : PyRuntime) (stream : PyValue) : Except PyError (Option String) := do
  let tags ← stream.get "tags"
  firstLanguage rt tags.orDict LANGUAGE_KEYS

/-! ### The payload -/

/-- `[s for s in streams if s.get("codec_type") == kind]`. -/
def streamsOfKind (kind : String) : List PyValue → Except PyError (List PyValue)
  | [] => .ok []
  | s :: rest => do
      let codecType ← s.get "codec_type"
      let others ← streamsOfKind kind rest
      return if codecType.eq (.str kind) then s :: others else others

/-- `next((s for s in streams if s.get("codec_type") == "video"), None)`. -/
def firstVideo : List PyValue → Except PyError (Option PyValue)
  | [] => .ok none
  | s :: rest => do
      let codecType ← s.get "codec_type"
      if codecType.eq (.str "video") then return some s else firstVideo rest

/-- The languages of some streams in their order, `none` for an unknown one. -/
def languagesOf (rt : PyRuntime) : List PyValue → Except PyError (List (Option String))
  | [] => .ok []
  | s :: rest => do
      let language ← streamLanguage rt s
      let others ← languagesOf rt rest
      return language :: others

/-- `sorted({lang for s in streams if (lang := _stream_language(s)) is not None})`. -/
def sortedLanguages (languages : List (Option String)) : List String :=
  (languages.filterMap id).dedup.insertionSort (· ≤ ·)

/-- `(streams[0] if streams else {}).get("codec_name") or None`. -/
def codecName : Option PyValue → Except PyError (Option PyValue)
  | none => .ok none
  | some stream => do
      let name ← stream.get "codec_name"
      return if name.truthy then some name else none

/-- `(fmt.get("format_name") or "").split(",")[0].strip() or None`. -/
def containerOf (fmt : PyValue) : Except PyError (Option String) := do
  let name ← fmt.get "format_name"
  if !name.truthy then return none
  match name with
  | .str s =>
      let first := strip (String.ofList (s.toList.takeWhile (· ≠ ',')))
      return if first = "" then none else some first
  | _ => .error (.other "AttributeError")

/-- A field of the video stream, `None` without one. -/
def videoField (video : Option PyValue) (key : String) : Except PyError PyValue :=
  match video with
  | none => .ok .none
  | some stream => stream.get key

/-- The streams of a payload. -/
def streamsOf (payload : PyValue) : Except PyError (List PyValue) := do
  let streams ← payload.get "streams"
  streams.orEmpty.iterate

def measuresOf (fmt : PyValue) (video : Option PyValue) : Except PyError Measures := do
  let container ← containerOf fmt
  let duration ← coerceFloat (← fmt.get "duration")
  let bitrate ← coerceInt (← fmt.get "bit_rate")
  let bitrateKbps ← bitrate.mapM kbps
  let width ← coerceInt (← videoField video "width")
  let height ← coerceInt (← videoField video "height")
  let framerate ← parseFramerate (← videoField video "avg_frame_rate")
  return ⟨container, duration, bitrateKbps, width, height, framerate⟩

def codecsOf (video : Option PyValue) (audios subs : List PyValue) : Except PyError Codecs := do
  let videoCodec ← codecName video
  let audioCodec ← codecName audios.head?
  let subtitleCodec ← codecName subs.head?
  return ⟨videoCodec, audioCodec, subtitleCodec⟩

/-- `parse_ffprobe`. -/
def parseFfprobe (rt : PyRuntime) (payload : PyValue) : Except PyError FfprobeResult := do
  let fmt ← payload.get "format"
  let streams ← streamsOf payload
  let video ← firstVideo streams
  let audios ← streamsOfKind "audio" streams
  let subs ← streamsOfKind "subtitle" streams
  let measures ← measuresOf fmt.orDict video
  let audioLanguages ← languagesOf rt audios
  let subtitleLanguages ← languagesOf rt subs
  let codecs ← codecsOf video audios subs
  return { toMeasures := measures
           toCodecs := codecs
           ok := true
           hasSubtitles := !subs.isEmpty
           subtitleLanguages := sortedLanguages subtitleLanguages
           audioLanguages := sortedLanguages audioLanguages }

/-! ### What is kept of the languages -/

/-- The languages of the audio streams of a payload, in their order. -/
def audioTrackLanguages (rt : PyRuntime) (payload : PyValue) :
    Except PyError (List (Option String)) := do
  languagesOf rt (← streamsOfKind "audio" (← streamsOf payload))

def subtitleTrackLanguages (rt : PyRuntime) (payload : PyValue) :
    Except PyError (List (Option String)) := do
  languagesOf rt (← streamsOfKind "subtitle" (← streamsOf payload))

theorem parseFfprobe_languages {rt : PyRuntime} {payload : PyValue} {result : FfprobeResult}
    (hparse : parseFfprobe rt payload = .ok result) :
    (∃ audio, audioTrackLanguages rt payload = .ok audio ∧
      result.audioLanguages = sortedLanguages audio) ∧
    ∃ subtitles, subtitleTrackLanguages rt payload = .ok subtitles ∧
      result.subtitleLanguages = sortedLanguages subtitles := by
  unfold parseFfprobe at hparse
  obtain ⟨fmt, -, hparse⟩ := bind_eq_ok.mp hparse
  obtain ⟨streams, hstreams, hparse⟩ := bind_eq_ok.mp hparse
  obtain ⟨video, -, hparse⟩ := bind_eq_ok.mp hparse
  obtain ⟨audios, haudios, hparse⟩ := bind_eq_ok.mp hparse
  obtain ⟨subs, hsubs, hparse⟩ := bind_eq_ok.mp hparse
  obtain ⟨measures, -, hparse⟩ := bind_eq_ok.mp hparse
  obtain ⟨audio, haudio, hparse⟩ := bind_eq_ok.mp hparse
  obtain ⟨subtitles, hsubtitles, hparse⟩ := bind_eq_ok.mp hparse
  obtain ⟨codecs, -, hparse⟩ := bind_eq_ok.mp hparse
  cases hparse
  constructor
  · refine ⟨audio, ?_, rfl⟩
    exact bind_eq_ok.mpr ⟨streams, hstreams, bind_eq_ok.mpr ⟨audios, haudios, haudio⟩⟩
  · refine ⟨subtitles, ?_, rfl⟩
    exact bind_eq_ok.mpr ⟨streams, hstreams, bind_eq_ok.mpr ⟨subs, hsubs, hsubtitles⟩⟩

theorem mem_sortedLanguages {languages : List (Option String)} {language : String} :
    language ∈ sortedLanguages languages ↔ some language ∈ languages := by
  rw [sortedLanguages, List.mem_insertionSort, List.mem_dedup, List.mem_filterMap]
  simp

theorem head_sortedLanguages (languages : List (Option String)) :
    (sortedLanguages languages).head? = (languages.filterMap id).min? := by
  cases hsorted : sortedLanguages languages with
  | nil =>
    have hempty : languages.filterMap id = [] := by
      rw [List.eq_nil_iff_forall_not_mem]
      intro language hmem
      have hkept : language ∈ sortedLanguages languages := by
        rw [sortedLanguages, List.mem_insertionSort, List.mem_dedup]
        exact hmem
      rw [hsorted] at hkept
      cases hkept
    rw [hempty]; rfl
  | cons first rest =>
    have hpairwise : (sortedLanguages languages).Pairwise (· ≤ ·) := List.pairwise_insertionSort _ _
    have hmem : ∀ language, language ∈ languages.filterMap id ↔ language ∈ first :: rest := by
      intro language
      rw [← hsorted, sortedLanguages, List.mem_insertionSort, List.mem_dedup]
    rw [hsorted, List.pairwise_cons] at hpairwise
    rw [List.head?_cons, eq_comm, List.min?_eq_some_iff]
    refine ⟨(hmem first).mpr (List.mem_cons_self ..), ?_⟩
    intro language hlanguage
    rcases List.mem_cons.mp ((hmem language).mp hlanguage) with rfl | hrest
    · exact le_refl _
    · exact hpairwise.1 language hrest

end Ffprobe
