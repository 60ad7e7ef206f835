/-
  Auditarr/SuggestionColumns.lean
  ===============================
  **What fits the table of suggestions** (`services/playback/analyzer.py`,
  `models/rule_suggestion.py`).

  A name and a key may have 256 characters, the tag of a rule 64.  The candidates are made of
  texts of any number: a key for files that failed has up to ten ids, of 36 characters each,
  and seven are too many.  Then the flush of that candidate fails, and with it the run: what the
  other heuristics found is rolled back.

  `delivered_iff` says for which populations every candidate is a valid rule, fits, and is
  persisted whatever the table is.
-/
import Auditarr.RuleSuggestions

namespace SuggestionColumns

open KeyedTable PyValues RuleSchema RuleDocument PlaybackHeuristics PlaybackPoller RuleSuggestions
open PlaybackAnalyzer (PlaybackRow)

variable {env : Env} {rows : List PlaybackRow} {c : SuggestionCandidate}

/-! ### Rules -/

/-- The definition of a candidate passes `RuleDefinition`. -/
def ValidRule (env : Env) (c : SuggestionCandidate) : Prop :=
  (modelValidate env.py env.rt.toPyRuntime c.definition).isSome = true

theorem validateAction_severity (severity : Severity) :
    validateAction env.py env.rt.toPyRuntime (.dict [("type", .str "set_severity"),
      ("severity", .str (severityName severity))]) = some (.setSeverity severity) := by
  simp [validateAction, validateTagged, onlyKeys, strField, List.lookup]

theorem validateAction_tag (tag : String) :
    validateAction env.py env.rt.toPyRuntime (.dict [("type", .str "add_tag"), ("tag", .str tag)]) =
      if 1 ≤ tag.length ∧ tag.length ≤ 64 then some (.addTag tag) else none := by
  split
  · next hlength =>
    have htag : boundedStr 1 64 [("type", .str "add_tag"), ("tag", .str tag)] "tag" = some tag :=
      boundedStr_dump _ _ hlength.1 hlength.2 rfl
    simp [validateAction, validateTagged, onlyKeys, strField, htag]
  · next hlength =>
    have htag : boundedStr 1 64 [("type", .str "add_tag"), ("tag", .str tag)] "tag" = none := by
      simpa [boundedStr, strField, List.lookup, Option.filter] using hlength
    simp [validateAction, validateTagged, onlyKeys, strField, htag]

theorem validated_flagRule (env : Env) (condition : Condition) (severity : Severity) {tag : String}
    (hlength : 1 ≤ tag.length ∧ tag.length ≤ 64) :
    ∃ rule, modelValidate env.py env.rt.toPyRuntime (flagRule (fieldName condition.field)
      (opName condition.op) condition.value (severityName severity) tag) = some rule ∧
        rule.match_ = .condition condition := by
  have hmatch := validateMatch_condition condition
  rw [dumpMatch, dumpCondition] at hmatch
  have hactions : [.setSeverity severity, .addTag tag].all Action.lengthsAllowed = true := by
    simp [Action.lengthsAllowed, hlength]
  let rule : RuleDefinition := ⟨.condition condition, [.setSeverity severity, .addTag tag], false,
    rfl, List.cons_ne_nil _ _, hactions, rfl⟩
  have hbuild : buildRule (.condition condition) [.setSeverity severity, .addTag tag] false =
      some rule := buildRule_self rule
  refine ⟨rule, ?_, rfl⟩
  · simp [flagRule, modelValidate, onlyKeys, List.lookup, hmatch, validateActions,
      validateAction_severity, validateAction_tag, hlength, acknowledged, hbuild]

theorem validate_flagRule (env : Env) (condition : Condition) (severity : Severity) (tag : String) :
    (modelValidate env.py env.rt.toPyRuntime (flagRule (fieldName condition.field)
      (opName condition.op) condition.value (severityName severity) tag)).isSome = true ↔
        1 ≤ tag.length ∧ tag.length ≤ 64 := by
  by_cases hlength : 1 ≤ tag.length ∧ tag.length ≤ 64
  · obtain ⟨rule, hrule, -⟩ := validated_flagRule env condition severity hlength
    rw [hrule]
    exact iff_of_true rfl hlength
  · have hmatch := validateMatch_condition condition
    rw [dumpMatch, dumpCondition] at hmatch
    simp [flagRule, modelValidate, onlyKeys, List.lookup, hmatch, validateActions,
      validateAction_severity, validateAction_tag, hlength]

/-! ### The condition -/

/-- The texts of a candidate fit their columns. -/
def FitsColumns (c : SuggestionCandidate) : Prop := c.name.length ≤ 256 ∧ c.dedupKey.length ≤ 256

/-- Every candidate is a valid rule and fits; and whatever the table is, the run commits, with
    the row of each candidate settled. -/
structure Delivered (env : Env) (rows : List PlaybackRow) : Prop where
  valid : ∀ c ∈ candidatesOf env.rt rows, ValidRule env c
  fits : ∀ c ∈ candidatesOf env.rt rows, FitsColumns c
  persisted : ∀ (now : Timestamp) (t : Suggestions),
    ∃ p, persist env now (candidatesOf env.rt rows) t = some p ∧
      ∀ c ∈ candidatesOf env.rt rows, p.suggestions.find? c.dedupKey =
        some (settled now c (t.find? c.dedupKey))

/-- The texts that the candidates are made of are short enough. -/
structure ShortEnough (rt : HeuristicRuntime) (rows : List PlaybackRow) : Prop where
  codecs : ∀ family ∈ grouped (codecOf rt) rows, transcodesOften family.2 = true →
    family.1.length ≤ 54
  containers : ∀ family ∈ grouped (unsupportedContainer rt) rows, playsEnough family.2 = true →
    family.1.length ≤ 42
  bitrates : minFamilyPlays ≤ (rows.filter isHighBitrate).length →
    minBitrateCeilingKbps ≤ p25 (rows.filter isHighBitrate) / 1000 * 1000 →
      (toString (p25 (rows.filter isHighBitrate) / 1000 * 1000)).length ≤ 213
  failures : minFailedPlays ≤ (rows.filter isFailed).length →
    affectedFiles (rows.filter isFailed) ≠ [] →
    (∃ filenames, failedFilenames (rows.filter isFailed) = .ok filenames ∧ filenames ≠ []) →
      (",".intercalate (keyIds (affectedFiles (rows.filter isFailed)))).length ≤ 240 ∧
        (toString (affectedFiles (rows.filter isFailed)).length).length ≤ 225

/-- `str.upper` makes at most three characters of one. -/
def UpperBounded (rt : HeuristicRuntime) : Prop := ∀ text, (rt.upper text).length ≤ 3 * text.length

/-! ### Each heuristic -/

theorem length_of_append {before after : String} {n : Nat} (h : before.length = n) :
    (before ++ after).length = n + after.length := by
  rw [String.length_append, h]

theorem length_between {before text after : String} {m n : Nat} (hbefore : before.length = m)
    (hafter : after.length = n) : (before ++ text ++ after).length = m + text.length + n := by
  rw [String.length_append, String.length_append, hbefore, hafter]

theorem fits_codec (hupper : UpperBounded env.rt) (codec : String) (plays : List PlaybackRow) :
    ValidRule env (codecCandidate env.rt codec plays) ∧
      FitsColumns (codecCandidate env.rt codec plays) ↔ codec.length ≤ 54 := by
  have htag : ("transcode-" ++ codec).length = 10 + codec.length := length_of_append (by decide)
  have hkey : ("high_transcode_codec:" ++ codec).length = 21 + codec.length := length_of_append (by decide)
  have hname : (codecName env.rt codec).length = 5 + (env.rt.upper codec).length + 32 :=
    length_between (by decide) (by decide)
  have hvalid := validate_flagRule env
    ⟨.videoCodec, .eq, .str codec, by decide, rfl⟩ .warn ("transcode-" ++ codec)
  have hbound := hupper codec
  rw [ValidRule, FitsColumns]
  refine ⟨fun h => ?_, fun h => ⟨hvalid.mpr (by omega), ?_, ?_⟩⟩
  · have := (hvalid.mp h.1).2
    omega
  · show (codecName env.rt codec).length ≤ 256
    omega
  · show ("high_transcode_codec:" ++ codec).length ≤ 256
    omega

theorem fits_ceiling (ceiling : Int) (transcodes : List PlaybackRow) :
    ValidRule env (ceilingCandidate env.rt ceiling transcodes) ∧
      FitsColumns (ceilingCandidate env.rt ceiling transcodes) ↔
        (toString ceiling).length ≤ 213 := by
  have hkey : ("bitrate_ceiling:" ++ toString ceiling).length = 16 + (toString ceiling).length :=
    length_of_append (by decide)
  have hname : (ceilingName ceiling).length = 17 + (toString ceiling).length + 26 :=
    length_between (by decide) (by decide)
  have hvalid := validate_flagRule env
    ⟨.bitrateKbps, .gt, .int ceiling, by decide, rfl⟩ .warn "bitrate-too-high"
  rw [ValidRule, FitsColumns]
  refine ⟨fun h => ?_, fun h => ⟨hvalid.mpr (by decide), ?_, ?_⟩⟩
  · have : (ceilingName ceiling).length ≤ 256 := h.2.1
    omega
  · show (ceilingName ceiling).length ≤ 256
    omega
  · show ("bitrate_ceiling:" ++ toString ceiling).length ≤ 256
    omega

theorem fits_container (container : String) (plays : List PlaybackRow) :
    ValidRule env (containerCandidate env.rt container plays) ∧
      FitsColumns (containerCandidate env.rt container plays) ↔ container.length ≤ 42 := by
  have htag : ("container-" ++ container ++ "-unsupported").length = 10 + container.length + 12 :=
    length_between (by decide) (by decide)
  have hkey : ("container_compat:" ++ container).length = 17 + container.length :=
    length_of_append (by decide)
  have hname : (containerName container).length = 6 + container.length + 48 :=
    length_between (by decide) (by decide)
  have hvalid := validate_flagRule env ⟨.container, .eq, .str container, by decide, rfl⟩
    .warn ("container-" ++ container ++ "-unsupported")
  rw [ValidRule, FitsColumns]
  refine ⟨fun h => ?_, fun h => ⟨hvalid.mpr (by omega), ?_, ?_⟩⟩
  · have := (hvalid.mp h.1).2
    omega
  · show (containerName container).length ≤ 256
    omega
  · show ("container_compat:" ++ container).length ≤ 256
    omega

theorem length_klass {klass : String} (h : widthFloor klass ≠ 0) : klass.length ≤ 5 := by
  by_contra hlong
  refine h ?_
  have hne : ∀ name : String, name.length ≤ 5 → (klass == name) = false := by
    intro name hname
    refine beq_false_of_ne fun heq => ?_
    exact hlong (heq ▸ hname)
  simp [widthFloor, List.lookup, hne "4k" (by decide), hne "1440p" (by decide),
    hne "1080p" (by decide), hne "720p" (by decide), hne "sd" (by decide)]

theorem fits_resolution (hupper : UpperBounded env.rt) {klass : String} (hfloor : widthFloor klass ≠ 0)
    (plays : List PlaybackRow) : ValidRule env (resolutionCandidate env.rt klass plays) ∧
      FitsColumns (resolutionCandidate env.rt klass plays) := by
  have htag : ("hi-res-" ++ klass).length = 7 + klass.length := length_of_append (by decide)
  have hkey : ("resolution_mismatch:" ++ klass).length = 20 + klass.length := length_of_append (by decide)
  have hname : (resolutionName env.rt klass).length = 5 + (env.rt.upper klass).length + 35 :=
    length_between (by decide) (by decide)
  have hvalid := validate_flagRule env
    ⟨.width, .gte, .int (widthFloor klass), by decide, rfl⟩ .warn ("hi-res-" ++ klass)
  have hbound := hupper klass
  have hshort := length_klass hfloor
  rw [ValidRule, FitsColumns]
  refine ⟨hvalid.mpr (by omega), ?_, ?_⟩
  · show (resolutionName env.rt klass).length ≤ 256
    omega
  · show ("resolution_mismatch:" ++ klass).length ≤ 256
    omega

theorem fits_failures (failed : List PlaybackRow) (filenames : List String) :
    ValidRule env (failedCandidate failed filenames) ∧
      FitsColumns (failedCandidate failed filenames) ↔
        (",".intercalate (keyIds (affectedFiles failed))).length ≤ 240 ∧
          (toString (affectedFiles failed).length).length ≤ 225 := by
  have hkey : (failedKey (affectedFiles failed)).length =
      16 + (",".intercalate (keyIds (affectedFiles failed))).length :=
    length_of_append (by decide)
  have hname : (failedName (affectedFiles failed).length).length =
      5 + (toString (affectedFiles failed).length).length + 26 :=
    length_between (by decide) (by decide)
  have hvalid := validate_flagRule env
    ⟨.filename, .in_, .ofStrings (filenames.take 50), by decide, rfl⟩ .error "playback-failed"
  rw [ValidRule, FitsColumns]
  refine ⟨fun h => ?_, fun h => ⟨hvalid.mpr (by decide), ?_, ?_⟩⟩
  · have : (failedName (affectedFiles failed).length).length ≤ 256 := h.2.1
    have : (failedKey (affectedFiles failed)).length ≤ 256 := h.2.2
    omega
  · show (failedName (affectedFiles failed).length).length ≤ 256
    omega
  · show (failedKey (affectedFiles failed)).length ≤ 256
    omega

/-! ### Runs -/

theorem fitsColumns_newSuggestion (hemitted : Emitted env.rt rows c) (hfits : FitsColumns c) :
    fitsColumns (newSuggestion c) = true := by
  have hheuristic : ∀ name ∈ heuristicNames, name.length ≤ 64 := by decide
  simp [fitsColumns, newSuggestion, hfits.1, hfits.2, hheuristic _ hemitted.mem_heuristicNames]

theorem all_fit_iff (hupper : UpperBounded env.rt) :
    (∀ c ∈ candidatesOf env.rt rows, ValidRule env c ∧ FitsColumns c) ↔ ShortEnough env.rt rows := by
  constructor
  · intro hall
    refine ⟨fun family hfamily hoften => ?_, fun family hfamily henough => ?_,
      fun hplays hhigh => ?_, ?_⟩
    · exact (fits_codec hupper _ _).mp (hall _ (mem_candidatesOf.mpr (.codec hfamily hoften)))
    · exact (fits_container _ _).mp (hall _ (mem_candidatesOf.mpr (.container hfamily henough)))
    · exact (fits_ceiling _ _).mp (hall _ (mem_candidatesOf.mpr (.ceiling hplays rfl hhigh)))
    · rintro hcount hids ⟨filenames, hnames, hnonempty⟩
      exact (fits_failures _ filenames).mp
        (hall _ (mem_candidatesOf.mpr (.failures hcount hids hnames hnonempty)))
  · intro hshort c hc
    cases mem_candidatesOf.mp hc with
    | codec hfamily hoften => exact (fits_codec hupper _ _).mpr (hshort.codecs _ hfamily hoften)
    | ceiling hplays hceiling hhigh =>
      subst hceiling
      exact (fits_ceiling _ _).mpr (hshort.bitrates hplays hhigh)
    | container hfamily henough =>
      exact (fits_container _ _).mpr (hshort.containers _ hfamily henough)
    | resolution hfamily hoften hfloor => exact fits_resolution hupper hfloor _
    | failures hcount hids hnames hnonempty =>
      exact (fits_failures _ _).mpr (hshort.failures hcount hids ⟨_, hnames, hnonempty⟩)

/-- **What is delivered.**  Every candidate of a population is a valid rule, fits the columns,
    and is persisted whatever the table is, iff the texts that the candidates are made of are
    short enough. -/
theorem delivered_iff (env : Env) (hupper : UpperBounded env.rt) (rows : List PlaybackRow) :
    Delivered env rows ↔ ShortEnough env.rt rows := by
  rw [← all_fit_iff hupper]
  constructor
  · exact fun h c hc => ⟨h.valid c hc, h.fits c hc⟩
  · intro hall
    refine ⟨fun c hc => (hall c hc).1, fun c hc => (hall c hc).2, fun now t => ?_⟩
    have hsome : (persist env now (candidatesOf env.rt rows) t).isSome = true :=
      persist_isSome now { suggestions := t } fun c hc =>
        .inr (.inr (fitsColumns_newSuggestion (mem_candidatesOf.mp hc) (hall c hc).2))
    obtain ⟨p, hp⟩ := Option.isSome_iff_exists.mp hsome
    exact ⟨p, hp, (persist_find? (nodup_keys env.rt rows) hp).1⟩

/-! Six files that failed fit, seven do not. -/

def sevenFiles : List (String × String) :=
  [("3f0a5c1e-7d42-4b8f-9a61-0c2e4d6f8a01", "/tv/1.mkv"),
    ("3f0a5c1e-7d42-4b8f-9a61-0c2e4d6f8a02", "/tv/2.mkv"),
    ("3f0a5c1e-7d42-4b8f-9a61-0c2e4d6f8a03", "/tv/3.mkv"),
    ("3f0a5c1e-7d42-4b8f-9a61-0c2e4d6f8a04", "/tv/4.mkv"),
    ("3f0a5c1e-7d42-4b8f-9a61-0c2e4d6f8a05", "/tv/5.mkv"),
    ("3f0a5c1e-7d42-4b8f-9a61-0c2e4d6f8a06", "/tv/6.mkv"),
    ("3f0a5c1e-7d42-4b8f-9a61-0c2e4d6f8a07", "/tv/7.mkv")]

/-- The plays of some files that failed, as a run combines them. -/
def failedRows (files : List (String × String)) : List PlaybackRow :=
  PlaybackAnalyzer.rowsSince 0 (failures (seconds 90) files)

theorem upperBounded_plainEnv : UpperBounded plainEnv.rt := by
  intro text
  show text.toUpper.length ≤ 3 * text.length
  rw [String.toUpper, String.length_map]
  omega

theorem length_joined {ids : List String} {n : Nat} (hlength : ∀ id ∈ ids, id.length = n)
    (hne : ids ≠ []) : (",".intercalate ids).length + 1 = (n + 1) * ids.length := by
  induction ids with
  | nil => exact absurd rfl hne
  | cons id rest ih =>
    have hid := hlength id (List.mem_cons_self ..)
    by_cases hrest : rest = []
    · subst hrest
      simp [hid]
    · have hothers := ih (fun other hother => hlength other (List.mem_cons_of_mem _ hother)) hrest
      have hcomma : ",".length = 1 := by decide
      rw [String.intercalate_cons_of_ne_nil hrest, String.length_append, String.length_append, hid,
        hcomma, Nat.add_assoc, hothers, List.length_cons, Nat.mul_add, Nat.mul_one, Nat.add_comm]

theorem length_keyIds {ids : List String} (hfew : ids.length ≤ 10) :
    (keyIds ids).length = ids.length := by
  rw [keyIds, List.length_take, List.length_insertionSort]
  omega

theorem length_failures {ids : List String} (hlength : ∀ id ∈ ids, id.length = 36)
    (hfew : ids.length ≤ 10) (hne : ids ≠ []) :
    (",".intercalate (keyIds ids)).length + 1 = 37 * ids.length := by
  rw [length_joined (n := 36), length_keyIds hfew]
  · intro id hid
    exact hlength id ((List.mem_insertionSort _).mp (List.mem_of_mem_take hid))
  · intro hnone
    have hcount := length_keyIds hfew
    rw [hnone] at hcount
    exact hne (List.length_eq_zero_iff.mp hcount.symm)

theorem delivered_iff_sixFiles : Delivered plainEnv (failedRows (sevenFiles.take 6)) := by
  have hcodecs : (grouped (codecOf plainEnv.rt) (failedRows (sevenFiles.take 6))).length = 0 := by
    decide +kernel
  have hcontainers : (grouped (unsupportedContainer plainEnv.rt)
      (failedRows (sevenFiles.take 6))).length = 0 := by
    decide +kernel
  have hcount : (affectedFiles ((failedRows (sevenFiles.take 6)).filter isFailed)).length = 6 := by
    decide +kernel
  have hlength : ∀ id ∈ affectedFiles ((failedRows (sevenFiles.take 6)).filter isFailed),
      id.length = 36 := by
    decide +kernel
  refine (delivered_iff plainEnv upperBounded_plainEnv _).mpr ⟨?_, ?_, ?_, ?_⟩
  · rw [List.length_eq_zero_iff.mp hcodecs]
    exact nofun
  · rw [List.length_eq_zero_iff.mp hcontainers]
    exact nofun
  · intro hplays
    exact absurd hplays (by decide +kernel)
  · rintro - hne -
    have hkey := length_failures hlength (by omega) hne
    rw [hcount] at hkey ⊢
    exact ⟨by omega, by decide⟩

theorem seven_files_fail_the_run :
    (∀ row ∈ failedRows sevenFiles, (∀ codec ∈ row.sourceCodec, codec.length ≤ 32) ∧
        ∀ container ∈ row.sourceContainer, container.length ≤ 32) ∧
      ¬Delivered plainEnv (failedRows sevenFiles) := by
  refine ⟨by decide +kernel, fun h => ?_⟩
  have hcount : (affectedFiles ((failedRows sevenFiles).filter isFailed)).length = 7 := by
    decide +kernel
  have hlength : ∀ id ∈ affectedFiles ((failedRows sevenFiles).filter isFailed),
      id.length = 36 := by
    decide +kernel
  have hne : affectedFiles ((failedRows sevenFiles).filter isFailed) ≠ [] := by
    intro hnone
    rw [hnone] at hcount
    cases hcount
  have hnamed : ((failedFilenames ((failedRows sevenFiles).filter isFailed)).toOption.map
      List.length) = some 7 := by
    decide +kernel
  obtain ⟨filenames, hnames, hnonempty⟩ : ∃ filenames,
      failedFilenames ((failedRows sevenFiles).filter isFailed) = .ok filenames ∧
        filenames ≠ [] := by
    cases hrun : failedFilenames ((failedRows sevenFiles).filter isFailed) with
    | error e =>
      rw [hrun] at hnamed
      cases hnamed
    | ok filenames =>
      refine ⟨filenames, rfl, ?_⟩
      rintro rfl
      rw [hrun] at hnamed
      cases hnamed
  have hshort := (all_fit_iff upperBounded_plainEnv).mp fun c hc => ⟨h.valid c hc, h.fits c hc⟩
  have hfits := (hshort.failures (by decide +kernel) hne ⟨filenames, hnames, hnonempty⟩).1
  have hkey := length_failures hlength (by omega) hne
  omega

end SuggestionColumns
