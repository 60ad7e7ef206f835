/-
  Auditarr/SuggestedFiles.lean
  ============================
  **The files that a suggested rule is for** (`app/services/playback/analyzer.py`,
  `app/services/media/ffprobe.py`, `app/utils/container_label.py`).

  A codec or a container is named by the media server, and the rule compares the name in lower
  case with what ffprobe called it.  The two have one label for a container, like `mkv` and
  `matroska`, and still are not equal.
-/
import Auditarr.RulesService
import Auditarr.SuggestionColumns
import Auditarr.BitrateCeiling
import Auditarr.Ffprobe
import Auditarr.ListOperators

namespace SuggestedFiles

open BitrateCeiling (holds)
open Database PlaybackAnalyzer PlaybackHeuristics PyValues RuleDocument RuleEvaluator RuleSchema
open RuleSuggestions (Env plainEnv)

/-! ### Labels -/

/-- `_CONTAINER_MAP`. -/
def CONTAINER_MAP : List (String × String) :=
  [("matroska", "MKV"), ("matroska,webm", "MKV"), ("mkv", "MKV"), ("webm", "WEBM"),
   ("mov", "MP4"), ("mp4", "MP4"), ("m4a", "MP4"), ("m4v", "MP4"),
   ("mov,mp4,m4a,3gp,3g2,mj2", "MP4"), ("mpegts", "TS"), ("ts", "TS"), ("mpeg", "MPEG"),
   ("mpegps", "MPEG"), ("avi", "AVI"), ("flv", "FLV"), ("f4v", "FLV"), ("ogg", "OGG"),
   ("ogv", "OGG"), ("wav", "WAV"), ("wave", "WAV"), ("flac", "FLAC"), ("aac", "AAC"),
   ("asf", "ASF"), ("wma", "WMA"), ("wmv", "WMV")]

/-- `container_label`. -/
def containerLabel (rt : HeuristicRuntime) : Option String → Option String
  | none => none
  | some raw =>
      let s := rt.lower (strip raw)
      if s = "" then none
      else match CONTAINER_MAP.lookup s with
        | some label => some label
        | none =>
            let first := strip (String.ofList (s.toList.takeWhile (· ≠ ',')))
            match if first = "" then none else CONTAINER_MAP.lookup first with
            | some label => some label
            | none => some (rt.upper (strip raw))

/-! ### Rows and files -/

/-- The media row of a play. -/
def fileOf (t : Tables) (ev : PlaybackRow) : Option MediaFile := ev.mediaFileId.bind t.media.find?

/-- The candidate is a valid rule, and the rule matches the file of every play. -/
def RuleMatches (env : Env) (t : Tables) (c : SuggestionCandidate) (plays : List PlaybackRow) : Prop :=
  ∃ rule, modelValidate env.py env.rt.toPyRuntime c.definition = some rule ∧
    ∀ ev ∈ plays, ∀ m, fileOf t ev = some m →
      holds env.rt.toPyRuntime rule.match_ (RulesService.inputOf t m) = true

/-- The file has the codec of the play, letter case apart. -/
def SameCodecs (rt : HeuristicRuntime) (t : Tables) (rows : List PlaybackRow) : Prop :=
  ∀ ev ∈ rows, ∀ m, fileOf t ev = some m → ∀ codec, present ev.sourceCodec = some codec →
    ∃ stored, m.videoCodec = some stored ∧ rt.lower stored = rt.lower codec

/-- The container of the file has the label of the container of the play. -/
def SameContainers (rt : HeuristicRuntime) (t : Tables) (rows : List PlaybackRow) : Prop :=
  ∀ ev ∈ rows, ∀ m, fileOf t ev = some m → ∀ container, present ev.sourceContainer = some container →
    containerLabel rt m.container = containerLabel rt (some container)

/-- A candidate of the two heuristics, and the rows that contributed to it. -/
inductive Contributed (rt : HeuristicRuntime) (rows : List PlaybackRow) :
    SuggestionCandidate → List PlaybackRow → Prop where
  | codec {codec : String} {plays : List PlaybackRow}
      (hfamily : (codec, plays) ∈ grouped (codecOf rt) rows) (hoften : transcodesOften plays = true) :
      Contributed rt rows (codecCandidate rt codec plays) plays
  | container {container : String} {plays : List PlaybackRow}
      (hfamily : (container, plays) ∈ grouped (unsupportedContainer rt) rows)
      (henough : playsEnough plays = true) :
      Contributed rt rows (containerCandidate rt container plays) plays

theorem exists_contributed_iff {rt : HeuristicRuntime} {rows : List PlaybackRow}
    {c : SuggestionCandidate} : (∃ plays, Contributed rt rows c plays) ↔
      c ∈ highTranscodeCodec rt rows ∨ c ∈ containerCompatibility rt rows := by
  simp only [highTranscodeCodec, containerCompatibility, List.mem_map, List.mem_filter]
  constructor
  · rintro ⟨plays, hplays⟩
    cases hplays with
    | codec hfamily hoften => exact .inl ⟨_, ⟨hfamily, hoften⟩, rfl⟩
    | container hfamily henough => exact .inr ⟨_, ⟨hfamily, henough⟩, rfl⟩
  · rintro (⟨⟨codec, plays⟩, ⟨hfamily, hoften⟩, rfl⟩ | ⟨⟨container, plays⟩, ⟨hfamily, henough⟩, rfl⟩)
    · exact ⟨plays, .codec hfamily hoften⟩
    · exact ⟨plays, .container hfamily henough⟩

/-- Every rule that the two heuristics suggest matches the files that it was derived from, if
    these have the codecs and the containers of their plays. -/
def Fitting (env : Env) (t : Tables) (rows : List PlaybackRow) : Prop :=
  SameCodecs env.rt t rows → SameContainers env.rt t rows →
    ∀ c plays, Contributed env.rt rows c plays → RuleMatches env t c plays

/-! ### What a suggested rule compares -/

section Rules

variable {env : Env} {t : Tables} {rows : List PlaybackRow}

theorem holds_eq (rt : PyRuntime) {condition : Condition} {input : EvaluationInput}
    (hop : condition.op = .eq) {text : String} (hvalue : condition.value = .str text)
    (hfield : condition.field = .videoCodec ∨ condition.field = .container) :
    holds rt (.condition condition) input = true ↔ input.get condition.field = .str text := by
  have hcompared : evalCondition rt condition input =
      .ok ((input.get condition.field).eq (.str text)) := by
    rw [evalCondition, hop, hvalue]
    rcases hfield with hfield | hfield <;> rw [hfield] <;> rfl
  have htext : ∀ stored : Option String, (PyValue.ofOption .str stored).eq (.str text) = true ↔
      PyValue.ofOption .str stored = .str text := by
    intro stored
    cases stored with
    | none => simp [PyValue.ofOption, ListOperators.eq_none_str]
    | some v =>
      rw [PyValue.ofOption]
      exact ListOperators.eq_str.trans eq_comm
  rw [holds, matchNode, hcompared]
  simp only [Except.toOption, beq_iff_eq, Option.some.injEq]
  rcases hfield with hfield | hfield
  · rw [hfield]
    exact htext input.videoCodec
  · rw [hfield]
    exact htext input.container

/-- A rule that flags an equal text is valid and matches iff its tag is not too long and every
    file has the text. -/
theorem ruleMatches_iff (field : Field) (hfield : field = .videoCodec ∨ field = .container)
    {text tag : String} {c : SuggestionCandidate} {plays : List PlaybackRow} (htag : 1 ≤ tag.length)
    (hdefinition : c.definition = flagRule (fieldName field) "eq" (.str text) "warn" tag) :
    RuleMatches env t c plays ↔ tag.length ≤ 64 ∧ ∀ ev ∈ plays, ∀ m, fileOf t ev = some m →
      (RulesService.inputOf t m).get field = .str text := by
  have hop : Op.eq ∈ opsForField field := by
    rcases hfield with rfl | rfl <;> decide
  have hallowed : valueAllowed field .eq (.str text) = true := by
    rcases hfield with rfl | rfl <;> rfl
  let condition : Condition := ⟨field, .eq, .str text, hop, hallowed⟩
  rw [RuleMatches, hdefinition]
  constructor
  · rintro ⟨rule, hrule, hholds⟩
    have hlength := (SuggestionColumns.validate_flagRule env condition .warn tag).mp
      (Option.isSome_iff_exists.mpr ⟨rule, hrule⟩)
    obtain ⟨rule', hrule', hmatch⟩ := SuggestionColumns.validated_flagRule env condition .warn hlength
    obtain rfl := Option.some.inj (hrule.symm.trans hrule')
    refine ⟨hlength.2, fun ev hev m hm => ?_⟩
    have hcondition := hholds ev hev m hm
    rw [hmatch] at hcondition
    exact (holds_eq env.rt.toPyRuntime rfl rfl hfield).mp hcondition
  · rintro ⟨hlength, hfiles⟩
    obtain ⟨rule, hrule, hmatch⟩ :=
      SuggestionColumns.validated_flagRule env condition .warn ⟨htag, hlength⟩
    refine ⟨rule, hrule, fun ev hev m hm => ?_⟩
    rw [hmatch]
    exact (holds_eq env.rt.toPyRuntime rfl rfl hfield).mpr (hfiles ev hev m hm)

theorem ofOption_eq_str {stored : Option String} {text : String} :
    PyValue.ofOption .str stored = .str text ↔ stored = some text := by
  cases stored <;> simp [PyValue.ofOption]

theorem codec_matches_iff {codec : String} {plays : List PlaybackRow} :
    RuleMatches env t (codecCandidate env.rt codec plays) plays ↔ codec.length ≤ 54 ∧
      ∀ ev ∈ plays, ∀ m, fileOf t ev = some m → m.videoCodec = some codec := by
  have hlength : ("transcode-" ++ codec).length = 10 + codec.length :=
    SuggestionColumns.length_of_append (by decide)
  rw [ruleMatches_iff .videoCodec (.inl rfl) (by omega) rfl, hlength]
  apply and_congr
  · omega
  · simp only [EvaluationInput.get, RulesService.inputOf, ofOption_eq_str]

theorem container_matches_iff {container : String} {plays : List PlaybackRow} :
    RuleMatches env t (containerCandidate env.rt container plays) plays ↔ container.length ≤ 42 ∧
      ∀ ev ∈ plays, ∀ m, fileOf t ev = some m → m.container = some container := by
  have hlength : ("container-" ++ container ++ "-unsupported").length = 22 + container.length := by
    rw [String.length_append, String.length_append]
    have h₁ : "container-".length = 10 := by decide
    have h₂ : "-unsupported".length = 12 := by decide
    omega
  rw [ruleMatches_iff .container (.inr rfl) (by omega) rfl, hlength]
  apply and_congr
  · omega
  · simp only [EvaluationInput.get, RulesService.inputOf, ofOption_eq_str]

/-! ### The law -/

theorem mem_grouped {key : PlaybackRow → Option String} {k : String} {plays : List PlaybackRow}
    (h : (k, plays) ∈ grouped key rows) {ev : PlaybackRow} (hev : ev ∈ plays) :
    ev ∈ rows ∧ key ev = some k := by
  obtain ⟨k', -, heq⟩ := List.mem_map.mp h
  cases heq
  simpa using hev

theorem exists_play {key : PlaybackRow → Option String} {k : String} {plays : List PlaybackRow}
    (h : (k, plays) ∈ grouped key rows) (hplays : minFamilyPlays ≤ plays.length) :
    ∃ ev ∈ plays, key ev = some k := by
  obtain ⟨ev, hev⟩ := List.exists_mem_of_length_pos (Nat.lt_of_lt_of_le (by decide) hplays)
  exact ⟨ev, hev, (mem_grouped h hev).2⟩

/-- The files are spelled as the rule compares them: a codec is stored in lower case, and a
    container as the play's own in lower case; and the name leaves room for the rest of the
    tag. -/
structure Spelled (rt : HeuristicRuntime) (t : Tables) (c : SuggestionCandidate)
    (plays : List PlaybackRow) : Prop where
  codec : c.heuristic = "high_transcode_codec" → ∀ ev ∈ plays,
    (∀ name, codecOf rt ev = some name → name.length ≤ 54) ∧
      ∀ m, fileOf t ev = some m → ∀ stored, m.videoCodec = some stored → rt.lower stored = stored
  container : c.heuristic = "container_compat" → ∀ ev ∈ plays,
    (∀ name, unsupportedContainer rt ev = some name → name.length ≤ 42) ∧
      ∀ m, fileOf t ev = some m → m.container = (present ev.sourceContainer).map rt.lower

theorem codec_eq_iff (hcodecs : SameCodecs env.rt t rows) {codec : String} {plays : List PlaybackRow}
    (hfamily : (codec, plays) ∈ grouped (codecOf env.rt) rows) {ev : PlaybackRow} (hev : ev ∈ plays)
    {m : MediaFile} (hm : fileOf t ev = some m) : m.videoCodec = some codec ↔
      ∀ stored, m.videoCodec = some stored → env.rt.lower stored = stored := by
  obtain ⟨hrow, hkey⟩ := mem_grouped hfamily hev
  obtain ⟨source, hsource, rfl⟩ := Option.map_eq_some_iff.mp hkey
  obtain ⟨stored, hstored, hlower⟩ := hcodecs ev hrow m hm source hsource
  rw [hstored]
  constructor
  · intro heq other hother
    cases hother
    rw [hlower]
    exact (Option.some.inj heq).symm
  · intro hall
    rw [← hlower, hall stored rfl]

/-- A suggested rule is valid and matches the files that it was derived from iff they are spelled
    as the rule compares them. -/
theorem matches_iff_spelled (env : Env) (t : Tables) (rows : List PlaybackRow)
    (hcodecs : SameCodecs env.rt t rows) (c : SuggestionCandidate) (plays : List PlaybackRow)
    (hplays : Contributed env.rt rows c plays) :
    RuleMatches env t c plays ↔ Spelled env.rt t c plays := by
  cases hplays with
  | @codec codec _ hfamily hoften =>
    simp only [transcodesOften, Bool.and_eq_true, decide_eq_true_eq] at hoften
    rw [codec_matches_iff]
    constructor
    · rintro ⟨hshort, hfiles⟩
      refine ⟨fun _ ev hev => ⟨fun name hname => ?_, fun m hm => ?_⟩, fun hother => ?_⟩
      · cases (mem_grouped hfamily hev).2.symm.trans hname
        exact hshort
      · exact (codec_eq_iff hcodecs hfamily hev hm).mp (hfiles ev hev m hm)
      · exact absurd hother (show ¬"high_transcode_codec" = "container_compat" by decide)
    · rintro ⟨hspelled, -⟩
      obtain ⟨ev, hev, hkey⟩ := exists_play hfamily hoften.1
      refine ⟨(hspelled rfl ev hev).1 codec hkey, fun ev hev m hm => ?_⟩
      exact (codec_eq_iff hcodecs hfamily hev hm).mpr ((hspelled rfl ev hev).2 m hm)
  | @container container _ hfamily henough =>
    simp only [playsEnough, decide_eq_true_eq] at henough
    have hname : ∀ ev ∈ plays, (present ev.sourceContainer).map env.rt.lower = some container := by
      intro ev hev
      have hkey := (mem_grouped hfamily hev).2
      rw [unsupportedContainer] at hkey
      split at hkey
      · exact hkey
      · cases hkey
    rw [container_matches_iff]
    constructor
    · rintro ⟨hshort, hfiles⟩
      refine ⟨fun hother => ?_, fun _ ev hev => ⟨fun name hname => ?_, fun m hm => ?_⟩⟩
      · exact absurd hother (show ¬"container_compat" = "high_transcode_codec" by decide)
      · cases (mem_grouped hfamily hev).2.symm.trans hname
        exact hshort
      · rw [hfiles ev hev m hm, hname ev hev]
    · rintro ⟨-, hspelled⟩
      obtain ⟨ev, hev, hkey⟩ := exists_play hfamily henough
      refine ⟨(hspelled rfl ev hev).1 container hkey, fun ev hev m hm => ?_⟩
      rw [(hspelled rfl ev hev).2 m hm, hname ev hev]

end Rules

/-! ### Ten plays of a Matroska file -/

open PlaybackPoller (PlaybackEvent)

/-- ASCII letters are the only ones with two cases. -/
def asciiEnv : Env :=
  { plainEnv with rt := { plainEnv.rt with
      lower := fun text => String.ofList (text.toList.map Char.toLower) } }

/-- What ffprobe prints for the file. -/
def matroskaPayload : PyValue :=
  .dict [("format", .dict [("format_name", .str "matroska,webm")]),
    ("streams", .list [.dict [("codec_type", .str "video"), ("codec_name", .str "hevc")]])]

/-- The row that the scanner stores. -/
def matroskaFile : MediaFile :=
  { MediaFile.unprobed "m" "l" "/m.mkv" "mkv" with
    category := "media", container := some "matroska", videoCodec := some "hevc" }

def oneFile : Tables :=
  { Tables.empty with
    media := ⟨[matroskaFile], List.nodup_singleton _⟩
    media_path_unique := List.nodup_singleton _ }

/-- A play of the file that the media server reports, with its names for container and codec. -/
def playOf (container codec reason : String) : PlaybackRow := .event
  { integrationId := "plex"
    upstreamId := "1"
    mediaFileId := some "m"
    sourcePath := "/m.mkv"
    deviceKind := none
    deviceName := none
    decision := "transcode"
    reasonCode := some reason
    sourceContainer := some container
    sourceCodec := some codec
    sourceBitrateKbps := none
    sourceWidth := none
    sourceHeight := none
    startedAt := 0 }

def tenPlaysOf (container codec reason : String) : List PlaybackRow :=
  List.replicate 10 (playOf container codec reason)

theorem mem_grouped_replicate {key : PlaybackRow → Option String} {k : String} {ev : PlaybackRow}
    (hkey : key ev = some k) :
    (k, List.replicate 10 ev) ∈ grouped key (List.replicate 10 ev) := by
  refine List.mem_map.mpr ⟨k, ?_, ?_⟩
  · rw [List.mem_eraseDups]
    exact List.mem_filterMap.mpr ⟨ev, by simp, hkey⟩
  · simp [hkey]

theorem fileOf_playOf (container codec reason : String) :
    fileOf oneFile (playOf container codec reason) = some matroskaFile := rfl

theorem present_some {text text' : String} (h : present (some text) = some text') : text = text' := by
  rw [present, Option.filter_eq_some_iff] at h
  exact Option.some.inj h.1

theorem lower_hevc : asciiEnv.rt.lower "hevc" = asciiEnv.rt.lower "HEVC" := by decide +kernel

theorem sameCodecs_hevc (container reason : String) :
    SameCodecs asciiEnv.rt oneFile (tenPlaysOf container "HEVC" reason) := by
  intro ev hev m hm codec hcodec
  obtain rfl := List.eq_of_mem_replicate hev
  obtain rfl := Option.some.inj ((fileOf_playOf container "HEVC" reason).symm.trans hm)
  obtain rfl : "HEVC" = codec := present_some hcodec
  exact ⟨"hevc", rfl, lower_hevc⟩

/-- A rule for the codec matches the file, whatever the letters of the media server. -/
theorem codec_rule_matches : RuleMatches asciiEnv oneFile
    (codecCandidate asciiEnv.rt "hevc" (tenPlaysOf "mkv" "HEVC" "video.codec.unsupported"))
      (tenPlaysOf "mkv" "HEVC" "video.codec.unsupported") := by
  have hfamily : ("hevc", tenPlaysOf "mkv" "HEVC" "video.codec.unsupported") ∈
      grouped (codecOf asciiEnv.rt) (tenPlaysOf "mkv" "HEVC" "video.codec.unsupported") :=
    mem_grouped_replicate (by decide +kernel)
  apply (matches_iff_spelled asciiEnv oneFile _ (sameCodecs_hevc "mkv" "video.codec.unsupported") _ _
    (.codec hfamily (by decide +kernel))).mpr
  refine ⟨fun _ ev hev => ⟨fun name hname => ?_, fun m hm stored hstored => ?_⟩, fun hother => ?_⟩
  · obtain rfl := List.eq_of_mem_replicate hev
    have hkey : codecOf asciiEnv.rt (playOf "mkv" "HEVC" "video.codec.unsupported") = some "hevc" := by
      decide +kernel
    cases hkey.symm.trans hname
    decide
  · obtain rfl := List.eq_of_mem_replicate hev
    rw [fileOf_playOf] at hm
    cases hm
    cases hstored
    decide +kernel
  · exact absurd hother (show ¬"high_transcode_codec" = "container_compat" by decide)

/-- What ffprobe calls Matroska the media server calls `mkv`: the two have one label, and the rule
    for `mkv` does not match the file. -/
theorem mkv_rule_misses :
    (∃ result, Ffprobe.parseFfprobe asciiEnv.rt.toPyRuntime matroskaPayload = .ok result ∧
      result.container = matroskaFile.container ∧
        result.videoCodec = matroskaFile.videoCodec.map .str) ∧
      ¬Fitting asciiEnv oneFile (tenPlaysOf "mkv" "HEVC" "video.container.unsupported") := by
  refine ⟨⟨_, rfl, by decide +kernel, rfl⟩, ?_⟩
  intro hfitting
  have hcontainers : SameContainers asciiEnv.rt oneFile
      (tenPlaysOf "mkv" "HEVC" "video.container.unsupported") := by
    intro ev hev m hm container hcontainer
    obtain rfl := List.eq_of_mem_replicate hev
    rw [fileOf_playOf] at hm
    cases hm
    obtain rfl : "mkv" = container := present_some hcontainer
    decide +kernel
  have hfamily : ("mkv", tenPlaysOf "mkv" "HEVC" "video.container.unsupported") ∈
      grouped (unsupportedContainer asciiEnv.rt) (tenPlaysOf "mkv" "HEVC" "video.container.unsupported") :=
    mem_grouped_replicate (by decide +kernel)
  have hmatches := hfitting (sameCodecs_hevc _ _) hcontainers _ _ (.container hfamily (by decide))
  obtain ⟨-, hfiles⟩ := container_matches_iff.mp hmatches
  have hcontainer := hfiles _ (List.mem_replicate.mpr ⟨by decide, rfl⟩) _ (fileOf_playOf _ _ _)
  revert hcontainer
  decide

end SuggestedFiles
