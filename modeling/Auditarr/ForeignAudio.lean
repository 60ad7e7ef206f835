/-
  Auditarr/ForeignAudio.lean
  ==========================
  **The dashboard's foreign-audio summary** (`app/services/dashboard/foreign_audio.py`).

  The summary takes the first entry of a row's `audio_languages` for the language of
  the primary track.  The entries come from the probe parser, which sorts them: what is
  judged is the first language in the alphabet, not that of the first stream.
-/
import Auditarr.Ffprobe
import Auditarr.Database

namespace ForeignAudio

open PyValues Ffprobe Database

/-! ### The service -/

/-- The two settings the summary reads; `none` for an unset one. -/
structure Settings where
  preferredAudioLanguages : Option (List String)
  preferredSubtitleLanguages : Option (List String)

structure ForeignAudioSummary where
  count : Nat
  sampleIds : List String
  preferredAudioLanguages : List String
  preferredSubtitleLanguages : List String

/-- `_LIBRARY_SCAN_CAP`. -/
def LIBRARY_SCAN_CAP : Nat := 50000

/-- `{s.lower() for s in (languages or []) if s}`. -/
def preferredSet (rt : PyRuntime) (languages : Option (List String)) : List String :=
  (((languages.getD []).filter (· ≠ "")).map rt.lower).dedup

/-- `_has_foreign_primary_audio`. -/
def hasForeignPrimaryAudio (rt : PyRuntime) (audioLangs : Option (List String))
    (prefer : List String) : Bool :=
  match audioLangs with
  | none | some [] => false
  | some (first :: _) =>
      let primary := rt.lower (strip first)
      if primary ∈ ["", "und", "unknown"] then false else primary ∉ prefer

/-- `_has_preferred_subtitle`. -/
def hasPreferredSubtitle (rt : PyRuntime) (subLangs : Option (List String))
    (prefer : List String) : Bool :=
  if prefer.isEmpty then false
  else (subLangs.getD []).any fun lang => rt.lower (strip lang) ∈ prefer

/-- The rows the query of the summary returns. -/
def scannedMedia (t : Tables) : List MediaFile :=
  (t.media.rows.filter (·.category = "media")).take LIBRARY_SCAN_CAP

/-- Whether the loop of the summary counts a row. -/
def counts (rt : PyRuntime) (settings : Settings) (m : MediaFile) : Bool :=
  hasForeignPrimaryAudio rt m.audioLanguages (preferredSet rt settings.preferredAudioLanguages) &&
    !hasPreferredSubtitle rt m.subtitleLanguages
      (preferredSet rt settings.preferredSubtitleLanguages)

/-- One turn of the loop. -/
def countRow (rt : PyRuntime) (settings : Settings) (acc : Nat × List String) (m : MediaFile) :
    Nat × List String :=
  if counts rt settings m then
    (acc.1 + 1, if acc.2.length < 10 then acc.2 ++ [m.id] else acc.2)
  else acc

/-- `ForeignAudioService.summary`. -/
def summary (rt : PyRuntime) (settings : Settings) (t : Tables) : ForeignAudioSummary :=
  let preferAudio := preferredSet rt settings.preferredAudioLanguages
  let preferSubs := preferredSet rt settings.preferredSubtitleLanguages
  if preferAudio.isEmpty then
    ⟨0, [], preferAudio.insertionSort (· ≤ ·), preferSubs.insertionSort (· ≤ ·)⟩
  else
    let (count, sampleIds) := (scannedMedia t).foldl (countRow rt settings) (0, [])
    ⟨count, sampleIds, preferAudio.insertionSort (· ≤ ·), preferSubs.insertionSort (· ≤ ·)⟩

theorem foldl_countRow (rt : PyRuntime) (settings : Settings) (rows : List MediaFile) :
    rows.foldl (countRow rt settings) (0, []) =
      ((rows.filter (counts rt settings)).length,
        ((rows.filter (counts rt settings)).map (·.id)).take 10) := by
  -- from any stage of the loop
  suffices hgen : ∀ (done rows : List MediaFile),
      rows.foldl (countRow rt settings) (done.length, (done.map (·.id)).take 10) =
        ((done ++ rows.filter (counts rt settings)).length,
          ((done ++ rows.filter (counts rt settings)).map (·.id)).take 10) from hgen [] rows
  intro done rows
  induction rows generalizing done with
  | nil => simp
  | cons m rest ih =>
    rw [List.foldl_cons, countRow]
    cases hcounts : counts rt settings m with
    | false =>
      rw [if_neg Bool.false_ne_true, List.filter_cons_of_neg (by simp [hcounts]), ih]
    | true =>
      have hnext := ih (done ++ [m])
      rw [if_pos rfl, List.filter_cons_of_pos hcounts]
      rw [List.append_assoc, List.singleton_append] at hnext
      rw [← hnext]
      congr 2
      · simp
      · rw [List.map_append, List.map_singleton]
        by_cases hroom : done.length < 10
        · rw [if_pos (by simp; omega), List.take_of_length_le (by simp; omega),
            List.take_of_length_le (by simp; omega)]
        · rw [if_neg (by simp; omega), List.take_append_of_le_length (by simp; omega)]

/-! ### What the summary is to count -/

/-- A row carries the languages of a payload; an empty list is stored as `None`. -/
structure Scanned (rt : PyRuntime) (m : MediaFile) (payload : PyValue) : Prop where
  parsed : ∃ result, parseFfprobe rt payload = .ok result ∧
    m.audioLanguages = (if result.audioLanguages = [] then none else some result.audioLanguages) ∧
    m.subtitleLanguages =
      if result.subtitleLanguages = [] then none else some result.subtitleLanguages

/-- A known language that is not preferred. -/
def Foreign (rt : PyRuntime) (prefer : List String) (language : String) : Prop :=
  rt.lower (strip language) ∉ ["", "und", "unknown"] ∧ rt.lower (strip language) ∉ prefer

/-- The audio languages of a payload in the order of its streams. -/
def audioOf (rt : PyRuntime) (payload : PyValue) : List (Option String) :=
  (audioTrackLanguages rt payload).toOption.getD []

def subtitlesOf (rt : PyRuntime) (payload : PyValue) : List (Option String) :=
  (subtitleTrackLanguages rt payload).toOption.getD []

/-- Some subtitle stream has a preferred language. -/
def Subtitled (rt : PyRuntime) (settings : Settings) (payload : PyValue) : Prop :=
  ∃ language, some language ∈ subtitlesOf rt payload ∧
    rt.lower (strip language) ∈ preferredSet rt settings.preferredSubtitleLanguages

/-- The first audio stream has a known language that is not preferred, and no subtitle
    stream has a preferred one. -/
def ForeignPrimary (rt : PyRuntime) (settings : Settings) (payload : PyValue) : Prop :=
  (∃ language, (audioOf rt payload).head? = some (some language) ∧
      Foreign rt (preferredSet rt settings.preferredAudioLanguages) language) ∧
    ¬Subtitled rt settings payload

/-- The first language in the alphabet that some audio stream has is foreign. -/
def ForeignLeast (rt : PyRuntime) (settings : Settings) (payload : PyValue) : Prop :=
  ∃ language, ((audioOf rt payload).filterMap id).min? = some language ∧
    Foreign rt (preferredSet rt settings.preferredAudioLanguages) language

section Rows

variable {rt : PyRuntime} {settings : Settings} {m : MediaFile} {payload : PyValue}

theorem Scanned.audio (h : Scanned rt m payload) :
    m.audioLanguages = if sortedLanguages (audioOf rt payload) = [] then none
      else some (sortedLanguages (audioOf rt payload)) := by
  obtain ⟨result, hparse, haudio, -⟩ := h.parsed
  obtain ⟨⟨audio, hlanguages, hkept⟩, -⟩ := parseFfprobe_languages hparse
  have hof : audioOf rt payload = audio := by
    rw [audioOf, hlanguages]; rfl
  rw [haudio, hkept, hof]

theorem Scanned.subtitles (h : Scanned rt m payload) :
    m.subtitleLanguages.getD [] = sortedLanguages (subtitlesOf rt payload) := by
  obtain ⟨result, hparse, -, hsubtitles⟩ := h.parsed
  obtain ⟨-, subtitles, hlanguages, hkept⟩ := parseFfprobe_languages hparse
  have hof : subtitlesOf rt payload = subtitles := by
    rw [subtitlesOf, hlanguages]; rfl
  rw [hsubtitles, hkept, hof]
  split
  · rename_i hempty
    rw [hempty]; rfl
  · rfl

theorem hasPreferredSubtitle_iff (h : Scanned rt m payload) :
    hasPreferredSubtitle rt m.subtitleLanguages
      (preferredSet rt settings.preferredSubtitleLanguages) = true ↔
      Subtitled rt settings payload := by
  unfold hasPreferredSubtitle Subtitled
  cases hprefer : preferredSet rt settings.preferredSubtitleLanguages with
  | nil => simp
  | cons first rest =>
    rw [h.subtitles]
    simp [mem_sortedLanguages]

theorem hasForeignPrimaryAudio_iff (h : Scanned rt m payload) :
    hasForeignPrimaryAudio rt m.audioLanguages
      (preferredSet rt settings.preferredAudioLanguages) = true ↔
      ForeignLeast rt settings payload := by
  unfold ForeignLeast
  rw [h.audio, ← head_sortedLanguages]
  cases sortedLanguages (audioOf rt payload) with
  | nil => simp [hasForeignPrimaryAudio]
  | cons first rest =>
    rw [if_neg (List.cons_ne_nil _ _)]
    simp only [hasForeignPrimaryAudio, List.head?_cons, Option.some.injEq, exists_eq_left', Foreign]
    split
    · rename_i hunknown
      simp [hunknown]
    · rename_i hknown
      simp [hknown]

theorem counts_iff (h : Scanned rt m payload) :
    counts rt settings m = true ↔
      ForeignLeast rt settings payload ∧ ¬Subtitled rt settings payload := by
  rw [counts, Bool.and_eq_true, Bool.not_eq_true', ← Bool.not_eq_true, hasPreferredSubtitle_iff h,
    hasForeignPrimaryAudio_iff h]

end Rows

/-! ### The summary -/

/-- The summary counts the rows its loop counts, and these are the files whose primary
    track is foreign exactly if in every file without a preferred subtitle the language
    of the first audio stream and the first one in the alphabet are both foreign or
    neither is. -/
theorem summary_counts_iff (rt : PyRuntime) (settings : Settings) (t : Tables)
    (payload : MediaFile → PyValue)
    (hcap : (t.media.rows.filter (·.category = "media")).length ≤ LIBRARY_SCAN_CAP)
    (hscanned : ∀ m ∈ t.media, m.category = "media" → Scanned rt m (payload m))
    (hprefer : preferredSet rt settings.preferredAudioLanguages ≠ []) :
    (summary rt settings t).count = (t.media.rows.filter fun m =>
        m.category = "media" && counts rt settings m).length ∧
      (summary rt settings t).sampleIds = ((t.media.rows.filter fun m =>
        m.category = "media" && counts rt settings m).map (·.id)).take 10 ∧
      ((∀ m ∈ t.media, m.category = "media" →
          (counts rt settings m = true ↔ ForeignPrimary rt settings (payload m))) ↔
        ∀ m ∈ t.media, m.category = "media" → Subtitled rt settings (payload m) ∨
          ((∃ language, (audioOf rt (payload m)).head? = some (some language) ∧
            Foreign rt (preferredSet rt settings.preferredAudioLanguages) language) ↔
            ForeignLeast rt settings (payload m))) := by
  have hrows : (scannedMedia t).filter (counts rt settings) = t.media.rows.filter fun m =>
      m.category = "media" && counts rt settings m := by
    rw [scannedMedia, List.take_of_length_le hcap, List.filter_filter]
    apply List.filter_congr
    intro m _
    exact Bool.and_comm _ _
  have hsummary : summary rt settings t = ⟨((scannedMedia t).filter (counts rt settings)).length,
      (((scannedMedia t).filter (counts rt settings)).map (·.id)).take 10,
      (preferredSet rt settings.preferredAudioLanguages).insertionSort (· ≤ ·),
      (preferredSet rt settings.preferredSubtitleLanguages).insertionSort (· ≤ ·)⟩ := by
    have hempty : (preferredSet rt settings.preferredAudioLanguages).isEmpty = false := by
      simpa using hprefer
    simp only [summary, hempty, Bool.false_eq_true, if_false, foldl_countRow]
  rw [hsummary, hrows]
  refine ⟨rfl, rfl, ?_⟩
  apply forall_congr'
  intro m
  apply forall_congr'
  intro hm
  apply forall_congr'
  intro hmedia
  rw [counts_iff (hscanned m hm hmedia), ForeignPrimary]
  by_cases hsubtitled : Subtitled rt settings (payload m)
  · simp [hsubtitled]
  · simp only [hsubtitled, not_false_eq_true, and_true, false_or]
    exact Iff.comm

/-! ### A file with two audio tracks -/

def asciiRuntime : PyRuntime := ⟨id, fun _ _ => .notFound⟩

/-- An audio stream tagged with a language. -/
def audioStream (language : String) : PyValue :=
  .dict [("codec_type", .str "audio"), ("tags", .dict [("language", .str language)])]

/-- A payload with two audio tracks. -/
def twoTracks (first second : String) : PyValue :=
  .dict [("format", .dict []), ("streams", .list [audioStream first, audioStream second])]

def preferEnglish : Settings := ⟨some ["eng"], none⟩

/-- A scanned file with the tracks `eng` and `jpn`; its row does not tell their order. -/
def dualAudio : MediaFile :=
  { MediaFile.unprobed "f1" "l1" "/media/a.mkv" "mkv" with
    category := "media"
    audioLanguages := some ["eng", "jpn"] }

def dualAudioTables : Tables :=
  { Tables.empty with
    media := ⟨[dualAudio], by decide⟩
    media_path_unique := by decide }

theorem dualAudio_scanned_eng : Scanned asciiRuntime dualAudio (twoTracks "eng" "jpn") :=
  ⟨_, rfl, by decide +kernel, by decide +kernel⟩

theorem dualAudio_scanned_jpn : Scanned asciiRuntime dualAudio (twoTracks "jpn" "eng") :=
  ⟨_, rfl, by decide +kernel, by decide +kernel⟩

theorem summary_counts_iff_dual :
    (∀ m ∈ dualAudioTables.media, m.category = "media" →
      (counts asciiRuntime preferEnglish m = true ↔
        ForeignPrimary asciiRuntime preferEnglish (twoTracks "eng" "jpn"))) ↔
      ∀ m ∈ dualAudioTables.media, m.category = "media" →
        Subtitled asciiRuntime preferEnglish (twoTracks "eng" "jpn") ∨
          ((∃ language,
              (audioOf asciiRuntime (twoTracks "eng" "jpn")).head? = some (some language) ∧
              Foreign asciiRuntime
                (preferredSet asciiRuntime preferEnglish.preferredAudioLanguages) language) ↔
            ForeignLeast asciiRuntime preferEnglish (twoTracks "eng" "jpn")) := by
  apply (summary_counts_iff asciiRuntime preferEnglish dualAudioTables
    (fun _ => twoTracks "eng" "jpn") (by decide) _ (by decide)).2.2
  intro m hm _
  rw [List.mem_singleton.mp hm]
  exact dualAudio_scanned_eng

/-- With the Japanese track first the file is foreign, but `eng` comes before `jpn`. -/
theorem japanese_first_not_counted :
    ¬ ∀ (rt : PyRuntime) (settings : Settings) (t : Tables) (payload : MediaFile → PyValue),
      (t.media.rows.filter (·.category = "media")).length ≤ LIBRARY_SCAN_CAP →
      (∀ m ∈ t.media, m.category = "media" → Scanned rt m (payload m)) →
      preferredSet rt settings.preferredAudioLanguages ≠ [] →
      ∃ foreign : List MediaFile, foreign.Sublist t.media.rows ∧
        (∀ m ∈ t.media, m ∈ foreign ↔
          m.category = "media" ∧ ForeignPrimary rt settings (payload m)) ∧
        (summary rt settings t).count = foreign.length := by
  intro hall
  obtain ⟨foreign, -, hmem, hcount⟩ := hall asciiRuntime preferEnglish dualAudioTables
    (fun _ => twoTracks "jpn" "eng") (by decide)
    (fun m hm _ => by rw [List.mem_singleton.mp hm]; exact dualAudio_scanned_jpn) (by decide)
  have hnone : (summary asciiRuntime preferEnglish dualAudioTables).count = 0 := by
    decide +kernel
  have hforeign : dualAudio ∈ foreign := by
    rw [hmem dualAudio (List.mem_singleton.mpr rfl)]
    refine ⟨rfl, ⟨"jpn", rfl, by decide +kernel, by decide +kernel⟩, ?_⟩
    rintro ⟨language, -, hpreferred⟩
    exact absurd hpreferred List.not_mem_nil
  rw [hnone, eq_comm, List.length_eq_zero_iff] at hcount
  rw [hcount] at hforeign
  exact List.not_mem_nil hforeign

end ForeignAudio
