/-
  Auditarr/PlaybackHeuristics.lean
  ================================
  **The heuristics of the analyzer** (`app/services/playback/analyzer.py`).

  Five heuristics read the same rows, and each makes candidates of them: a rule that would
  address what the rows show, the evidence for it, and a key by which the same pattern is
  known again.  The key of the first four says what the rule is about.  That of
  `_failed_playback` has the ten smallest ids of the files that failed, and its rule the names
  of up to fifty of them.
-/
import Auditarr.PlaybackAnalyzer
import Std.Data.String.ToInt

namespace PlaybackAnalyzer.PlaybackRow

/-! ### The columns that the heuristics read -/

def sourceCodec : PlaybackRow → Option String
  | .session s => s.sourceCodec
  | .event e => e.sourceCodec

def decision : PlaybackRow → String
  | .session s => s.decision
  | .event e => e.decision

def sourceBitrateKbps : PlaybackRow → Option Int
  | .session s => s.sourceBitrateKbps
  | .event e => e.sourceBitrateKbps

def sourceContainer : PlaybackRow → Option String
  | .session s => s.sourceContainer
  | .event e => e.sourceContainer

def sourceWidth : PlaybackRow → Option Int
  | .session s => s.sourceWidth
  | .event e => e.sourceWidth

def sourceHeight : PlaybackRow → Option Int
  | .session s => s.sourceHeight
  | .event e => e.sourceHeight

def reasonCode : PlaybackRow → Option String
  | .session s => s.reasonCode
  | .event e => e.reasonCode

def mediaFileId : PlaybackRow → Option String
  | .session s => s.mediaFileId
  | .event e => e.mediaFileId

def deviceKind : PlaybackRow → Option String
  | .session s => s.deviceKind
  | .event e => e.deviceKind

def deviceName : PlaybackRow → Option String
  | .session s => s.deviceName
  | .event e => e.deviceName

/-- The path of a session may be unknown. -/
def sourcePath : PlaybackRow → Option String
  | .session s => s.sourcePath
  | .event e => some e.sourcePath

end PlaybackAnalyzer.PlaybackRow

namespace PlaybackHeuristics

open PyValues PlaybackAnalyzer

/-! ### Candidates -/

def minFamilyPlays : Nat := 10
def minTranscodeRate : PyFloat := .ofExact (1 / 2)
def minBitrateCeilingKbps : Int := 10000
def minFailedPlays : Nat := 3

structure SuggestionCandidate where
  heuristic : String
  name : String
  definition : PyValue
  evidence : PyValue
  filesAffected : Nat
  estRuntimeS : Option Int
  confidence : PyFloat
  dedupKey : String

/-- The functions of the standard library that the heuristics use. -/
structure HeuristicRuntime extends PyRuntime where
  /-- `str.upper`. -/
  upper : String → String
  /-- `math.log10`. -/
  log10 : Nat → PyFloat

variable (rt : HeuristicRuntime)

/-! ### What the heuristics share -/

/-- A text that is there and not empty. -/
def present (text : Option String) : Option String := text.filter (· ≠ "")

/-- The rows by the keys they have, in the order in which the keys come up. -/
def grouped (key : PlaybackRow → Option String) (events : List PlaybackRow) :
    List (String × List PlaybackRow) :=
  (events.filterMap key).eraseDups.map fun k => (k, events.filter fun ev => key ev = some k)

def isTranscode (p : PlaybackRow) : Bool := p.decision = "transcode"

/-- The files of some plays, each once. -/
def affectedFiles (plays : List PlaybackRow) : List String :=
  (plays.filterMap fun p => present p.mediaFileId).dedup

/-- `Counter(items).most_common(n)`. -/
def mostCommon (n : Nat) (items : List String) : List (String × Nat) :=
  ((items.eraseDups.map fun item => (item, items.count item)).insertionSort
    fun a b => b.2 ≤ a.2).take n

def topDevices (plays : List PlaybackRow) : PyValue :=
  .list ((mostCommon 3 (plays.filterMap fun p => present p.deviceKind)).map fun entry =>
    .dict [("device", .str entry.1), ("count", .int entry.2)])

/-- The share of plays that were transcoded. -/
def transcodeRate (plays : List PlaybackRow) : PyFloat :=
  .div (.finite (plays.countP isTranscode)) (.finite plays.length)

/-- `_sample_size_factor`. -/
def sampleSizeFactor (n : Nat) : PyFloat :=
  if n = 0 then .ofExact (1 / 2)
  else .min (.finite 1) (.add (.ofExact (1 / 2)) (.mul (.ofExact (1 / 5)) (rt.log10 (max n 1))))

/-- The confidence of a signal of some strength in a sample of some size. -/
def confidenceOf (strength : PyFloat) (n : Nat) : PyFloat :=
  .roundTo 3 (.min (.ofExact (99 / 100)) (.mul strength (sampleSizeFactor rt n)))

/-- The definition of a rule that gives what matches a severity and a tag. -/
def flagRule (field op : String) (value : PyValue) (severity tag : String) : PyValue :=
  .dict [("match", .dict [("field", .str field), ("op", .str op), ("value", value)]),
    ("actions", .list [.dict [("type", .str "set_severity"), ("severity", .str severity)],
      .dict [("type", .str "add_tag"), ("tag", .str tag)]])]

/-! ### Codecs that transcode -/

def codecName (codec : String) : String :=
  "Flag " ++ rt.upper codec ++ " files that transcode frequently"

def codecDefinition (codec : String) : PyValue :=
  flagRule "video_codec" "eq" (.str codec) "warn" ("transcode-" ++ codec)

/-- The candidate for a codec. -/
def codecCandidate (codec : String) (plays : List PlaybackRow) : SuggestionCandidate where
  heuristic := "high_transcode_codec"
  name := codecName rt codec
  definition := codecDefinition codec
  evidence := .dict [("codec", .str codec), ("total_plays", .int plays.length),
    ("transcodes", .int (plays.countP isTranscode)),
    ("transcode_rate", .float (.roundTo 3 (transcodeRate plays))),
    ("top_devices", topDevices (plays.filter isTranscode))]
  filesAffected := (affectedFiles (plays.filter isTranscode)).length
  estRuntimeS := none
  confidence := confidenceOf rt (transcodeRate plays) plays.length
  dedupKey := "high_transcode_codec:" ++ codec

/-- There are enough plays, and enough of them transcode. -/
def transcodesOften (plays : List PlaybackRow) : Bool :=
  minFamilyPlays ≤ plays.length && !(transcodeRate plays).lt minTranscodeRate

def codecOf (ev : PlaybackRow) : Option String := (present ev.sourceCodec).map rt.lower

/-- `_high_transcode_codec`. -/
def highTranscodeCodec (events : List PlaybackRow) : List SuggestionCandidate :=
  ((grouped (codecOf rt) events).filter fun family => transcodesOften family.2).map fun family =>
    codecCandidate rt family.1 family.2

/-! ### A ceiling for the bitrate -/

/-- The play was transcoded from a bitrate that is high. -/
def isHighBitrate (ev : PlaybackRow) : Bool :=
  isTranscode ev && ev.sourceBitrateKbps.any (minBitrateCeilingKbps < ·)

def ceilingName (ceiling : Int) : String :=
  "Flag files above " ++ toString ceiling ++ " kbps that often transcode"

def ceilingDefinition (ceiling : Int) : PyValue :=
  flagRule "bitrate_kbps" "gt" (.int ceiling) "warn" "bitrate-too-high"

/-- The bitrates of some plays, in order. -/
def sortedBitrates (plays : List PlaybackRow) : List Int :=
  (plays.map fun ev => ev.sourceBitrateKbps.getD 0).insertionSort (· ≤ ·)

/-- The 25th percentile of the bitrates. -/
def p25 (transcodes : List PlaybackRow) : Int :=
  (sortedBitrates transcodes).getD (transcodes.length / 4) 0

/-- The candidate for a ceiling. -/
def ceilingCandidate (ceiling : Int) (transcodes : List PlaybackRow) : SuggestionCandidate where
  heuristic := "bitrate_ceiling"
  name := ceilingName ceiling
  definition := ceilingDefinition ceiling
  evidence := .dict [("ceiling_kbps", .int ceiling),
    ("transcoded_above_ceiling", .int transcodes.length),
    ("p25_bitrate_kbps", .int (p25 transcodes)),
    ("min_bitrate_kbps", .int ((sortedBitrates transcodes).headD 0)),
    ("max_bitrate_kbps", .int ((sortedBitrates transcodes).getLastD 0))]
  filesAffected := (affectedFiles transcodes).length
  estRuntimeS := none
  confidence := confidenceOf rt (.ofExact (4 / 5)) transcodes.length
  dedupKey := "bitrate_ceiling:" ++ toString ceiling

/-- `_bitrate_ceiling`. -/
def bitrateCeiling (events : List PlaybackRow) : List SuggestionCandidate :=
  let transcodes := events.filter isHighBitrate
  if transcodes.length < minFamilyPlays then [] else
    let ceiling := p25 transcodes / 1000 * 1000
    if ceiling < minBitrateCeilingKbps then [] else [ceilingCandidate rt ceiling transcodes]

/-! ### Containers that clients do not play -/

def containerName (container : String) : String :=
  "Flag ." ++ container ++ " files — container repeatedly blocks direct play"

def containerDefinition (container : String) : PyValue :=
  flagRule "container" "eq" (.str container) "warn" ("container-" ++ container ++ "-unsupported")

/-- The candidate for a container. -/
def containerCandidate (container : String) (plays : List PlaybackRow) : SuggestionCandidate where
  heuristic := "container_compat"
  name := containerName container
  definition := containerDefinition container
  evidence := .dict [("container", .str container),
    ("transcodes_due_to_container", .int plays.length), ("top_devices", topDevices plays)]
  filesAffected := (affectedFiles plays).length
  estRuntimeS := none
  confidence := confidenceOf rt (.ofExact (17 / 20)) plays.length
  dedupKey := "container_compat:" ++ container

/-- The container of a play that it kept from being played directly. -/
def unsupportedContainer (ev : PlaybackRow) : Option String :=
  if ev.reasonCode = some "video.container.unsupported" then
    (present ev.sourceContainer).map rt.lower
  else none

/-- There are enough plays. -/
def playsEnough (plays : List PlaybackRow) : Bool := minFamilyPlays ≤ plays.length

/-- `_container_compatibility`. -/
def containerCompatibility (events : List PlaybackRow) : List SuggestionCandidate :=
  ((grouped (unsupportedContainer rt) events).filter fun family => playsEnough family.2).map
    fun family => containerCandidate rt family.1 family.2

/-! ### Resolutions that transcode -/

/-- `_class_for`. -/
def classFor (width height : Option Int) : Option String :=
  match width, height with
  | some width, some _ =>
      some (if 3800 ≤ width then "4k"
        else if 2400 ≤ width then "1440p"
        else if 1900 ≤ width then "1080p"
        else if 1200 ≤ width then "720p"
        else "sd")
  | _, _ => none

/-- The least width of a class. -/
def widthFloor (klass : String) : Int :=
  (List.lookup klass [("4k", 3800), ("1440p", 2400), ("1080p", 1900), ("720p", 1200),
    ("sd", 0)]).getD 0

def resolutionName (klass : String) : String :=
  "Flag " ++ rt.upper klass ++ " content that frequently transcodes"

def resolutionDefinition (klass : String) : PyValue :=
  flagRule "width" "gte" (.int (widthFloor klass)) "warn" ("hi-res-" ++ klass)

/-- The candidate for a class. -/
def resolutionCandidate (klass : String) (plays : List PlaybackRow) : SuggestionCandidate where
  heuristic := "resolution_mismatch"
  name := resolutionName rt klass
  definition := resolutionDefinition klass
  evidence := .dict [("resolution_class", .str klass), ("width_floor", .int (widthFloor klass)),
    ("total_plays", .int plays.length), ("transcodes", .int (plays.countP isTranscode)),
    ("transcode_rate", .float (.roundTo 3 (transcodeRate plays)))]
  filesAffected := (affectedFiles (plays.filter isTranscode)).length
  estRuntimeS := none
  confidence := confidenceOf rt (transcodeRate plays) plays.length
  dedupKey := "resolution_mismatch:" ++ klass

def resolutionOf (ev : PlaybackRow) : Option String := classFor ev.sourceWidth ev.sourceHeight

/-- `_resolution_mismatch`: a class without a least width is passed over. -/
def resolutionMismatch (events : List PlaybackRow) : List SuggestionCandidate :=
  ((grouped resolutionOf events).filter fun family =>
    transcodesOften family.2 && widthFloor family.1 ≠ 0).map fun family =>
      resolutionCandidate rt family.1 family.2

/-! ### Files that failed -/

def isFailed (ev : PlaybackRow) : Bool := ev.decision = "failed"

/-- `source_path.rsplit("/", 1)[-1]`. -/
def baseName (path : String) : String :=
  String.ofList (path.toList.reverse.takeWhile (· ≠ '/')).reverse

/-- One play of the loop that names the files: the first name that is not empty counts. -/
def nameFile (filenamesById : List (String × String)) (e : PlaybackRow) :
    Except PyError (List (String × String)) :=
  match present e.mediaFileId with
  | none => .ok filenamesById
  | some id =>
      if (filenamesById.lookup id).isSome then .ok filenamesById
      else match e.sourcePath with
        | none => .error (.other "AttributeError")
        | some path =>
            if baseName path = "" then .ok filenamesById
            else .ok (filenamesById ++ [(id, baseName path)])

/-- The names of the files that failed, in order. -/
def failedFilenames (failed : List PlaybackRow) : Except PyError (List String) := do
  let filenamesById ← failed.foldlM nameFile []
  return (filenamesById.map (·.2)).insertionSort (· ≤ ·)

def failedName (count : Nat) : String := "Flag " ++ toString count ++ " files that failed to play"

def failedDefinition (filenames : List String) : PyValue :=
  flagRule "filename" "in" (.ofStrings (filenames.take 50)) "error" "playback-failed"

/-- The ids that the key of the failures has. -/
def keyIds (ids : List String) : List String := (ids.insertionSort (· ≤ ·)).take 10

def failedKey (ids : List String) : String :=
  "failed_playback:" ++ ",".intercalate (keyIds ids)

/-- A play among the evidence. -/
def sampleEntry (e : PlaybackRow) : PyValue :=
  .dict [("source_path", .ofOption .str e.sourcePath), ("decision", .str e.decision),
    ("device_name", .ofOption .str e.deviceName), ("device_kind", .ofOption .str e.deviceKind),
    ("source_codec", .ofOption .str e.sourceCodec), ("reason_code", .ofOption .str e.reasonCode)]

/-- The candidate for the files that failed. -/
def failedCandidate (failed : List PlaybackRow) (filenames : List String) :
    SuggestionCandidate where
  heuristic := "failed_playback"
  name := failedName (affectedFiles failed).length
  definition := failedDefinition filenames
  evidence := .dict [("failed_events", .int failed.length),
    ("affected_file_count", .int (affectedFiles failed).length),
    ("rule_covers_filenames", .int (filenames.take 50).length),
    ("sample", .list ((failed.take 10).map sampleEntry)),
    ("reason_codes", .list ((mostCommon 5 (failed.filterMap fun f => present f.reasonCode)).map
      fun entry => .list [.str entry.1, .int entry.2]))]
  filesAffected := (affectedFiles failed).length
  estRuntimeS := none
  confidence := .roundTo 3 (.min (.ofExact (19 / 20)) (.add (.ofExact (1 / 2))
    (.mul (.ofExact (1 / 10)) (.div (.finite failed.length) (.finite minFailedPlays)))))
  dedupKey := failedKey (affectedFiles failed)

/-- `_failed_playback`. -/
def failedPlayback (events : List PlaybackRow) : Except PyError (List SuggestionCandidate) :=
  let failed := events.filter isFailed
  if failed.length < minFailedPlays then .ok []
  else if affectedFiles failed = [] then .ok []
  else do
    let filenames ← failedFilenames failed
    return if filenames = [] then [] else [failedCandidate failed filenames]

/-- What `analyze` gathers from the heuristics: one that raises adds nothing. -/
def candidatesOf (rows : List PlaybackRow) : List SuggestionCandidate :=
  highTranscodeCodec rt rows ++ bitrateCeiling rt rows ++ containerCompatibility rt rows ++
    resolutionMismatch rt rows ++ (failedPlayback rows).toOption.getD []

/-! ### What is emitted -/

variable {rt : HeuristicRuntime} {rows : List PlaybackRow} {c : SuggestionCandidate}

/-- The candidates of a population, by what they are about. -/
inductive Emitted (rt : HeuristicRuntime) (rows : List PlaybackRow) : SuggestionCandidate → Prop where
  | codec {codec : String} {plays : List PlaybackRow}
      (hfamily : (codec, plays) ∈ grouped (codecOf rt) rows) (hoften : transcodesOften plays = true) :
      Emitted rt rows (codecCandidate rt codec plays)
  | ceiling {ceiling : Int} (hplays : minFamilyPlays ≤ (rows.filter isHighBitrate).length)
      (hceiling : ceiling = p25 (rows.filter isHighBitrate) / 1000 * 1000)
      (hhigh : minBitrateCeilingKbps ≤ ceiling) :
      Emitted rt rows (ceilingCandidate rt ceiling (rows.filter isHighBitrate))
  | container {container : String} {plays : List PlaybackRow}
      (hfamily : (container, plays) ∈ grouped (unsupportedContainer rt) rows)
      (henough : playsEnough plays = true) :
      Emitted rt rows (containerCandidate rt container plays)
  | resolution {klass : String} {plays : List PlaybackRow}
      (hfamily : (klass, plays) ∈ grouped resolutionOf rows) (hoften : transcodesOften plays = true)
      (hfloor : widthFloor klass ≠ 0) :
      Emitted rt rows (resolutionCandidate rt klass plays)
  | failures {filenames : List String} (hcount : minFailedPlays ≤ (rows.filter isFailed).length)
      (hids : affectedFiles (rows.filter isFailed) ≠ [])
      (hnames : failedFilenames (rows.filter isFailed) = .ok filenames) (hnonempty : filenames ≠ []) :
      Emitted rt rows (failedCandidate (rows.filter isFailed) filenames)

theorem mem_bitrateCeiling : c ∈ bitrateCeiling rt rows ↔
    minFamilyPlays ≤ (rows.filter isHighBitrate).length ∧
      minBitrateCeilingKbps ≤ p25 (rows.filter isHighBitrate) / 1000 * 1000 ∧
      c = ceilingCandidate rt (p25 (rows.filter isHighBitrate) / 1000 * 1000)
        (rows.filter isHighBitrate) := by
  unfold bitrateCeiling
  simp only []
  split
  · next hfew => simp [Nat.not_le.mpr hfew]
  · next hplays =>
    split
    · next hlow => simp [Int.not_le.mpr hlow]
    · next hhigh => simp [Nat.le_of_not_lt hplays, Int.not_lt.mp hhigh]

theorem mem_failedPlayback : c ∈ (failedPlayback rows).toOption.getD [] ↔
    minFailedPlays ≤ (rows.filter isFailed).length ∧ affectedFiles (rows.filter isFailed) ≠ [] ∧
      ∃ filenames, failedFilenames (rows.filter isFailed) = .ok filenames ∧ filenames ≠ [] ∧
        c = failedCandidate (rows.filter isFailed) filenames := by
  unfold failedPlayback
  simp only []
  split
  · next hfew => simp [Except.toOption, Nat.not_le.mpr hfew]
  · next hcount =>
    split
    · next hnone => simp [Except.toOption, hnone]
    · next hids =>
      cases hnames : failedFilenames (rows.filter isFailed) with
      | error e => simp [Except.toOption, bind, Except.bind]
      | ok filenames =>
        by_cases hempty : filenames = []
        · simp [Except.toOption, bind, Except.bind, pure, Except.pure, hempty]
        · simp [Except.toOption, bind, Except.bind, pure, Except.pure, hempty, hids,
            Nat.le_of_not_lt hcount]

theorem mem_candidatesOf : c ∈ candidatesOf rt rows ↔ Emitted rt rows c := by
  simp only [candidatesOf, List.mem_append, mem_bitrateCeiling, mem_failedPlayback,
    highTranscodeCodec, containerCompatibility, resolutionMismatch, List.mem_map, List.mem_filter,
    Bool.and_eq_true, decide_eq_true_eq]
  constructor
  · rintro ((((⟨⟨codec, plays⟩, ⟨hfamily, hoften⟩, rfl⟩ | ⟨hplays, hhigh, rfl⟩) |
      ⟨⟨container, plays⟩, ⟨hfamily, henough⟩, rfl⟩) |
      ⟨⟨klass, plays⟩, ⟨hfamily, hoften, hfloor⟩, rfl⟩) |
      ⟨hcount, hids, filenames, hnames, hnonempty, rfl⟩)
    · exact .codec hfamily hoften
    · exact .ceiling hplays rfl hhigh
    · exact .container hfamily henough
    · exact .resolution hfamily hoften hfloor
    · exact .failures hcount hids hnames hnonempty
  · intro h
    cases h with
    | codec hfamily hoften =>
      exact .inl (.inl (.inl (.inl ⟨_, ⟨hfamily, hoften⟩, rfl⟩)))
    | ceiling hplays hceiling hhigh =>
      subst hceiling
      exact .inl (.inl (.inl (.inr ⟨hplays, hhigh, rfl⟩)))
    | container hfamily henough => exact .inl (.inl (.inr ⟨_, ⟨hfamily, henough⟩, rfl⟩))
    | resolution hfamily hoften hfloor => exact .inl (.inr ⟨_, ⟨hfamily, hoften, hfloor⟩, rfl⟩)
    | failures hcount hids hnames hnonempty =>
      exact .inr ⟨hcount, hids, _, hnames, hnonempty, rfl⟩

/-! ### Keys -/

/-- The names of the heuristics, as candidates have them. -/
def heuristicNames : List String :=
  ["high_transcode_codec", "bitrate_ceiling", "container_compat", "resolution_mismatch",
    "failed_playback"]

/-- The character that a text begins with. -/
def mark (text : String) : Option Char := text.toList.head?

theorem mark_injective : ∀ a ∈ heuristicNames, ∀ b ∈ heuristicNames, mark a = mark b → a = b := by
  decide

@[simp] theorem heuristic_codecCandidate (codec : String) (plays : List PlaybackRow) :
    (codecCandidate rt codec plays).heuristic = "high_transcode_codec" := rfl

@[simp] theorem heuristic_ceilingCandidate (ceiling : Int) (transcodes : List PlaybackRow) :
    (ceilingCandidate rt ceiling transcodes).heuristic = "bitrate_ceiling" := rfl

@[simp] theorem heuristic_containerCandidate (container : String) (plays : List PlaybackRow) :
    (containerCandidate rt container plays).heuristic = "container_compat" := rfl

@[simp] theorem heuristic_resolutionCandidate (klass : String) (plays : List PlaybackRow) :
    (resolutionCandidate rt klass plays).heuristic = "resolution_mismatch" := rfl

@[simp] theorem heuristic_failedCandidate (failed : List PlaybackRow) (filenames : List String) :
    (failedCandidate failed filenames).heuristic = "failed_playback" := rfl

theorem Emitted.mem_heuristicNames (h : Emitted rt rows c) : c.heuristic ∈ heuristicNames := by
  cases h <;> simp [heuristicNames]

theorem Emitted.mark_key (h : Emitted rt rows c) : mark c.dedupKey = mark c.heuristic := by
  cases h <;>
    simp [mark, codecCandidate, ceilingCandidate, containerCandidate, resolutionCandidate,
      failedCandidate, failedKey]

theorem Emitted.heuristic_eq {rows' : List PlaybackRow} {c' : SuggestionCandidate}
    (h : Emitted rt rows c) (h' : Emitted rt rows' c') (hkey : c.dedupKey = c'.dedupKey) :
    c.heuristic = c'.heuristic := by
  refine mark_injective _ h.mem_heuristicNames _ h'.mem_heuristicNames ?_
  rw [← h.mark_key, ← h'.mark_key, hkey]

theorem Emitted.rule_eq {rows' : List PlaybackRow} {c' : SuggestionCandidate}
    (h : Emitted rt rows c) (h' : Emitted rt rows' c') (hkey : c.dedupKey = c'.dedupKey)
    (hother : c.heuristic ≠ "failed_playback") :
    c.name = c'.name ∧ c.definition = c'.definition := by
  have hheuristic := h.heuristic_eq h' hkey
  cases h with
  | codec =>
    cases h' with
    | codec =>
      rw [codecCandidate, codecCandidate, String.append_right_inj] at hkey
      exact hkey ▸ ⟨rfl, rfl⟩
    | _ => exact absurd hheuristic (by simp)
  | ceiling =>
    cases h' with
    | ceiling =>
      rw [ceilingCandidate, ceilingCandidate, String.append_right_inj] at hkey
      exact Int.repr_injective hkey ▸ ⟨rfl, rfl⟩
    | _ => exact absurd hheuristic (by simp)
  | container =>
    cases h' with
    | container =>
      rw [containerCandidate, containerCandidate, String.append_right_inj] at hkey
      exact hkey ▸ ⟨rfl, rfl⟩
    | _ => exact absurd hheuristic (by simp)
  | resolution =>
    cases h' with
    | resolution =>
      rw [resolutionCandidate, resolutionCandidate, String.append_right_inj] at hkey
      exact hkey ▸ ⟨rfl, rfl⟩
    | _ => exact absurd hheuristic (by simp)
  | failures => exact absurd rfl hother

theorem nodup_eraseDups (items : List String) : items.eraseDups.Nodup := by
  induction hlength : items.length using Nat.strongRecOn generalizing items with
  | ind n ih =>
    cases items with
    | nil => simp
    | cons item rest =>
      rw [List.eraseDups_cons, List.nodup_cons]
      refine ⟨?_, ih _ ?_ _ rfl⟩
      · rw [List.mem_eraseDups]
        simp
      · rw [← hlength, List.length_cons]
        exact Nat.lt_succ_of_le (List.length_filter_le _ _)

theorem nodup_families (key : PlaybackRow → Option String) (events : List PlaybackRow) :
    ((grouped key events).map (·.1)).Nodup := by
  rw [grouped, List.map_map]
  simpa [Function.comp_def] using nodup_eraseDups (events.filterMap key)

theorem nodup_keys_families {key : PlaybackRow → Option String} {events : List PlaybackRow}
    {keep : String × List PlaybackRow → Bool}
    {candidate : String × List PlaybackRow → SuggestionCandidate} {label : String}
    (hkey : ∀ family, (candidate family).dedupKey = label ++ family.1) :
    ((((grouped key events).filter keep).map candidate).map (·.dedupKey)).Nodup := by
  have hfamilies : (((grouped key events).filter keep).map (·.1)).Nodup :=
    (nodup_families key events).sublist (List.filter_sublist.map _)
  rw [List.map_map, show (fun c : SuggestionCandidate => c.dedupKey) ∘ candidate =
    (label ++ ·) ∘ (·.1) from funext hkey, ← List.map_map]
  exact hfamilies.map fun a b hab => by simpa using hab

/-- Candidates of a population by some of the heuristics, that differ in their keys. -/
structure Part (rt : HeuristicRuntime) (rows : List PlaybackRow) (names : List String)
    (part : List SuggestionCandidate) : Prop where
  emitted : ∀ c ∈ part, Emitted rt rows c
  named : ∀ c ∈ part, c.heuristic ∈ names
  nodup : (part.map (·.dedupKey)).Nodup

theorem Part.append {names names' : List String} {part part' : List SuggestionCandidate}
    (h : Part rt rows names part) (h' : Part rt rows names' part')
    (hnames : ∀ name ∈ names, name ∉ names') : Part rt rows (names ++ names') (part ++ part') := by
  refine ⟨fun c hc => ?_, fun c hc => ?_, ?_⟩
  · exact (List.mem_append.mp hc).elim (h.emitted c) (h'.emitted c)
  · exact List.mem_append.mpr ((List.mem_append.mp hc).imp (h.named c) (h'.named c))
  · rw [List.map_append, List.nodup_append]
    refine ⟨h.nodup, h'.nodup, fun key hkey key' hkey' heq => ?_⟩
    obtain ⟨c, hc, rfl⟩ := List.mem_map.mp hkey
    obtain ⟨c', hc', rfl⟩ := List.mem_map.mp hkey'
    have hheuristic := (h.emitted c hc).heuristic_eq (h'.emitted c' hc') heq
    exact hnames _ (h.named c hc) (hheuristic ▸ h'.named c' hc')

theorem part_highTranscodeCodec :
    Part rt rows ["high_transcode_codec"] (highTranscodeCodec rt rows) := by
  refine ⟨fun c hc => mem_candidatesOf.mp (by simp [candidatesOf, hc]), fun c hc => ?_,
    nodup_keys_families fun _ => rfl⟩
  obtain ⟨family, -, rfl⟩ := List.mem_map.mp hc
  simp

theorem part_bitrateCeiling : Part rt rows ["bitrate_ceiling"] (bitrateCeiling rt rows) := by
  refine ⟨fun c hc => mem_candidatesOf.mp (by simp [candidatesOf, hc]), fun c hc => ?_, ?_⟩
  · rw [(mem_bitrateCeiling.mp hc).2.2]
    simp
  · unfold bitrateCeiling
    simp only []
    split
    · exact List.nodup_nil
    · split
      · exact List.nodup_nil
      · exact List.nodup_singleton _

theorem part_containerCompatibility :
    Part rt rows ["container_compat"] (containerCompatibility rt rows) := by
  refine ⟨fun c hc => mem_candidatesOf.mp (by simp [candidatesOf, hc]), fun c hc => ?_,
    nodup_keys_families fun _ => rfl⟩
  obtain ⟨family, -, rfl⟩ := List.mem_map.mp hc
  simp

theorem part_resolutionMismatch :
    Part rt rows ["resolution_mismatch"] (resolutionMismatch rt rows) := by
  refine ⟨fun c hc => mem_candidatesOf.mp (by simp [candidatesOf, hc]), fun c hc => ?_,
    nodup_keys_families fun _ => rfl⟩
  obtain ⟨family, -, rfl⟩ := List.mem_map.mp hc
  simp

theorem part_failedPlayback :
    Part rt rows ["failed_playback"] ((failedPlayback rows).toOption.getD []) := by
  refine ⟨fun c hc => mem_candidatesOf.mp (by simp [candidatesOf, hc]), fun c hc => ?_, ?_⟩
  · obtain ⟨-, -, filenames, -, -, rfl⟩ := mem_failedPlayback.mp hc
    simp
  · unfold failedPlayback
    simp only []
    split
    · exact List.nodup_nil
    · split
      · exact List.nodup_nil
      · cases failedFilenames (rows.filter isFailed) with
        | error e => exact List.nodup_nil
        | ok filenames =>
          show (((if filenames = [] then [] else [_] : List SuggestionCandidate)).map _).Nodup
          split
          · exact List.nodup_nil
          · exact List.nodup_singleton _

theorem nodup_keys (rt : HeuristicRuntime) (rows : List PlaybackRow) :
    ((candidatesOf rt rows).map (·.dedupKey)).Nodup :=
  ((((part_highTranscodeCodec.append part_bitrateCeiling (by decide)).append
    part_containerCompatibility (by decide)).append part_resolutionMismatch (by decide)).append
    part_failedPlayback (by decide)).nodup

end PlaybackHeuristics
