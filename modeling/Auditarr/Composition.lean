/-
  Auditarr/Composition.lean
  =========================
  **The composition panel of the dashboard** (`app/services/dashboard/composition.py`).

  A section of the panel counts and measures the media files by a label: one the database groups
  by, one the groups are merged under afterwards, or one of a list stored with the file.  Whatever
  order the database answers in, the sections count what is there, and the panel over all libraries
  is the panels of the libraries taken together.
-/
import Mathlib.Algebra.Group.Prod
import Auditarr.Grouping
import Auditarr.SuggestedFiles
import Auditarr.TopRows

namespace Composition

open Database Grouping KeyedTable PlaybackHeuristics PyValues SuggestedFiles TopRows
open RuleSuggestions (plainEnv)

/-! ### The tables -/

/-- The files and the names of the libraries they belong to. -/
structure Catalogue where
  files : List MediaFile
  libraries : Dict String String
  owned : ∀ m ∈ files, m.libraryId ∈ libraries.rows.map (·.1)

/-- `_media_scope`. -/
def mediaScope (db : Catalogue) (libraryId : Option String) : List MediaFile :=
  db.files.filter fun m => m.category = "media" && libraryId.all (· = m.libraryId)

/-- What a file adds to `count(id)` and to `sum(size_bytes)`. -/
def measure (m : MediaFile) : Nat × Int := (1, m.sizeBytes)

/-- A range of heights, open where there is no bound. -/
structure Bucket where
  key : String
  label : String
  lo : Option Int
  hi : Option Int

def RESOLUTION_BUCKETS : List Bucket :=
  [⟨"lt480p", "<480p", some 1, some 480⟩, ⟨"480p", "480p", some 480, some 720⟩,
   ⟨"720p", "720p", some 720, some 1080⟩, ⟨"1080p", "1080p", some 1080, some 1440⟩,
   ⟨"1440p", "1440p", some 1440, some 2160⟩, ⟨"4k", "4K", some 2160, some 4320⟩,
   ⟨"8k", "8K", some 4320, none⟩]

/-- The condition of a `when`, which no `NULL` meets. -/
def Bucket.holds (b : Bucket) : Option Int → Bool
  | none => false
  | some height => b.lo.all (· ≤ height) && b.hi.all (height < ·)

/-- `case(*whens, else_="unknown")`. -/
def bucket (height : Option Int) : String :=
  match RESOLUTION_BUCKETS.find? (·.holds height) with
  | some b => b.key
  | none => "unknown"

/-- A cell of the bitrate matrix. -/
structure Cell where
  libraryId : String
  libraryName : Option String
  resolution : String
  videoCodec : Option String
  container : Option String
deriving DecidableEq

/-- The cell of a file, with the name of its library from the outer join. -/
def cellOf (db : Catalogue) (m : MediaFile) : Cell :=
  ⟨m.libraryId, (db.libraries.find? m.libraryId).map (·.2), bucket m.height, m.videoCodec,
    m.container⟩

/-! ### What the database answers -/

/-- The answers to the queries of one panel. -/
structure Answers where
  resolutions : List (String × (Nat × Int))
  extensions : List (String × (Nat × Int))
  containers : List (Option String × (Nat × Int))
  subtitleFormats : List (String × Nat)
  subtitleLanguages : List (List String)
  audioLanguages : List (List String)
  videoUnknown : Nat
  audioUnknown : Nat
  internal : Nat
  external : Nat
  orphans : Nat
  bitrates : List (Cell × Int)

/-- `SELECT key, count(id), sum(size_bytes) … GROUP BY key`. -/
def CountedBy {κ : Type} [DecidableEq κ] (key : MediaFile → κ) (files : List MediaFile)
    (answer : List (κ × (Nat × Int))) : Prop :=
  Grouped List.sum (files.map fun m => (key m, measure m)) answer

/-- The rows with a subtitle codec, by the codec. -/
def codecs (files : List MediaFile) : List (String × Nat) :=
  files.filterMap fun m => m.subtitleCodec.map fun codec => (codec, 1)

def samplesOf (db : Catalogue) (files : List MediaFile) : List (Cell × Int) :=
  files.filterMap fun m => m.bitrateKbps.map fun kbps => (cellOf db m, kbps)

/-- `func.count(…).where(…)`. -/
def number (files : List MediaFile) (p : MediaFile → Bool) : Nat := files.countP p

def ofLibrary (libraryId : Option String) (m : MediaFile) : Bool := libraryId.all (· = m.libraryId)

/-- What the database may answer: rows come in any order where none is asked for, and rows with
    the same count in any order where the counts fall. -/
structure Answers.Of (db : Catalogue) (libraryId : Option String) (a : Answers) : Prop where
  resolutions : CountedBy (fun m => bucket m.height) (mediaScope db libraryId) a.resolutions
  extensions : ∃ groups, CountedBy (·.extension) (mediaScope db libraryId) groups ∧
    Top (·.2.1) 8 groups a.extensions
  containers : CountedBy (·.container) (mediaScope db libraryId) a.containers
  subtitleFormats : Grouped List.sum (codecs (mediaScope db libraryId)) a.subtitleFormats
  formatsFall : a.subtitleFormats.Pairwise fun x y => y.2 ≤ x.2
  subtitleLanguages :
    a.subtitleLanguages.Perm ((mediaScope db libraryId).filterMap (·.subtitleLanguages))
  audioLanguages : a.audioLanguages.Perm ((mediaScope db libraryId).filterMap (·.audioLanguages))
  videoUnknown : a.videoUnknown =
    number (mediaScope db libraryId) fun m => !m.probeFailed && m.videoCodec.isNone
  audioUnknown : a.audioUnknown =
    number (mediaScope db libraryId) fun m => !m.probeFailed && m.audioCodec.isNone
  internal : a.internal =
    number db.files fun m => m.category = "media" && m.hasSubtitles && ofLibrary libraryId m
  external : a.external =
    number db.files fun m => m.category = "subtitle" && ofLibrary libraryId m
  orphans : a.orphans =
    number db.files fun m => m.isOrphaned && m.category = "media" && ofLibrary libraryId m
  bitrates : a.bitrates.Perm (samplesOf db (mediaScope db libraryId))

/-! ### The panel -/

structure CompositionRow where
  key : String
  label : String
  count : Nat
  totalSizeBytes : Int
deriving DecidableEq

structure BitrateMatrixRow where
  libraryId : String
  libraryName : Option String
  resolutionKey : String
  videoCodec : Option String
  container : Option String
  fileCount : Nat
  medianBitrateKbps : Int
deriving DecidableEq

structure CompositionPayload where
  resolutions : List CompositionRow
  extensions : List CompositionRow
  containers : List CompositionRow
  subtitleFormats : List CompositionRow
  subtitleLanguages : List CompositionRow
  audioLanguages : List CompositionRow
  audioUnknownCount : Nat
  videoUnknownCount : Nat
  internal : Nat
  external : Nat
  orphanCount : Nat
  bitrateMatrix : List BitrateMatrixRow

/-- `sorted(rows, key=by, reverse=True)`, which keeps rows with the same key in their order. -/
def falling {α β : Type} [LE β] [DecidableLE β] (field : α → β) (rows : List α) : List α :=
  rows.mergeSort fun a b => decide (field b ≤ field a)

/-- `_resolutions`. -/
def resolutions (rows : List (String × (Nat × Int))) : List CompositionRow :=
  let counts := collect (fun _ v => v) (0, 0) rows
  let out := RESOLUTION_BUCKETS.filterMap fun b =>
    let (count, total) := counts.getD b.key (0, 0)
    if count = 0 then none else some ⟨b.key, b.label, count, total⟩
  let (unknownCount, unknownSize) := counts.getD "unknown" (0, 0)
  if unknownCount > 0 then out ++ [⟨"unknown", "Unknown", unknownCount, unknownSize⟩] else out

section Panel

variable (rt : HeuristicRuntime)

/-- `_top_extensions`. -/
def topExtensions (rows : List (String × (Nat × Int))) : List CompositionRow :=
  rows.map fun (ext, count, total) =>
    let name := rt.lower (if ext = "" then "(none)" else ext)
    ⟨name, name, count, total⟩

/-- `container_label(raw) or "Unknown"`. -/
def containerOr (raw : Option String) : String :=
  match containerLabel rt raw with
  | some label => if label = "" then "Unknown" else label
  | none => "Unknown"

/-- `_containers`. -/
def containers (rows : List (Option String × (Nat × Int))) : List CompositionRow :=
  let merged := collect (· + ·) (0, 0) (rows.map fun e => (containerOr rt e.1, e.2))
  (falling (·.2.2) merged.rows).map fun (label, count, total) =>
    ⟨rt.lower label, label, count, total⟩

def SUBTITLE_LABELS : List (String × String) :=
  [("subrip", "SRT"), ("srt", "SRT"), ("ass", "ASS"), ("ssa", "SSA"), ("webvtt", "VTT"),
   ("hdmv_pgs_subtitle", "PGS"), ("dvd_subtitle", "VobSub"), ("dvb_subtitle", "DVB"),
   ("mov_text", "MOV_TEXT")]

/-- `_subtitle_label`. -/
def subtitleLabel (codec : String) : String :=
  (SUBTITLE_LABELS.lookup (rt.lower (strip codec))).getD (rt.upper codec)

/-- `_subtitle_formats`. -/
def subtitleFormats (rows : List (String × Nat)) : List CompositionRow :=
  rows.map fun (codec, count) => ⟨rt.lower codec, subtitleLabel rt codec, count, 0⟩

/-- The keys that one list of languages counts for. -/
def languageKeys (langs : List String) : List String :=
  ((langs.filter (· ≠ "")).map fun lang => rt.lower (strip lang)).filter (· ≠ "")

/-- `_language_counts`. -/
def languageCounts (rows : List (List String)) : List CompositionRow :=
  let counts := collect (· + ·) 0 ((rows.flatMap (languageKeys rt)).map fun key => (key, 1))
  (falling (·.2) counts.rows).map fun (key, count) => ⟨key, key, count, 0⟩

/-- `int(median(samples))`. -/
def median (samples : List Int) : Int :=
  let data := samples.mergeSort fun a b => decide (a ≤ b)
  let n := data.length
  if n % 2 = 1 then data.getD (n / 2) 0
  else (data.getD (n / 2 - 1) 0 + data.getD (n / 2) 0).tdiv 2

/-- `_bitrate_matrix`. -/
def bitrateMatrix (rows : List (Cell × Int)) : List BitrateMatrixRow :=
  let groups := collect (fun samples kbps => samples ++ [kbps]) [] rows
  falling (·.fileCount) (groups.rows.filterMap fun (cell, samples) =>
    if samples.length < 3 then none
    else some ⟨cell.libraryId, cell.libraryName, cell.resolution, cell.videoCodec,
      containerLabel rt cell.container, samples.length, median samples⟩)

/-- `LibraryCompositionService.build`. -/
def build (a : Answers) : CompositionPayload where
  resolutions := resolutions a.resolutions
  extensions := topExtensions rt a.extensions
  containers := containers rt a.containers
  subtitleFormats := subtitleFormats rt a.subtitleFormats
  subtitleLanguages := languageCounts rt a.subtitleLanguages
  audioLanguages := languageCounts rt a.audioLanguages
  audioUnknownCount := a.audioUnknown
  videoUnknownCount := a.videoUnknown
  internal := a.internal
  external := a.external
  orphanCount := a.orphans
  bitrateMatrix := bitrateMatrix rt a.bitrates

end Panel

/-! ### Medians -/

theorem countP_lt_le {data : List Int} {m : Int} {k : Nat} (h : ∀ x ∈ data.drop k, m ≤ x) :
    data.countP (· < m) ≤ k := by
  have hdrop : (data.drop k).countP (· < m) = 0 := by
    rw [List.countP_eq_zero]
    intro x hx
    have hle := h x hx
    simpa using hle
  have htake := List.countP_le_length (p := fun x => decide (x < m)) (l := data.take k)
  rw [← List.take_append_drop k data, List.countP_append, hdrop, Nat.add_zero]
  exact htake.trans (List.length_take_le k data)

theorem countP_gt_le {data : List Int} {m : Int} {k : Nat} (h : ∀ x ∈ data.take k, x ≤ m) :
    data.countP (m < ·) ≤ data.length - k := by
  have htake : (data.take k).countP (m < ·) = 0 := by
    rw [List.countP_eq_zero]
    intro x hx
    have hle := h x hx
    simpa using hle
  have hdrop := List.countP_le_length (p := fun x => decide (m < x)) (l := data.drop k)
  rw [List.length_drop] at hdrop
  calc data.countP (m < ·) = (data.take k ++ data.drop k).countP (m < ·) := by
        rw [List.take_append_drop]
    _ ≤ data.length - k := by rw [List.countP_append, htake, Nat.zero_add]; exact hdrop

section Sorted

variable {data : List Int} {k : Nat}

theorem getD_le_of_le (hsorted : data.Pairwise (· ≤ ·)) {i : Nat} (hi : i ≤ k)
    (hk : k < data.length) : data.getD i 0 ≤ data.getD k 0 := by
  rw [List.getD_eq_getElem _ _ (by omega), List.getD_eq_getElem _ _ hk]
  rcases Nat.lt_or_eq_of_le hi with hlt | rfl
  · exact List.pairwise_iff_getElem.mp hsorted i k (by omega) hk hlt
  · exact le_rfl

theorem getD_le_of_mem_drop (hsorted : data.Pairwise (· ≤ ·)) {x : Int} (hx : x ∈ data.drop k) :
    data.getD k 0 ≤ x := by
  rcases List.mem_iff_getElem.mp hx with ⟨i, hi, rfl⟩
  rw [List.length_drop] at hi
  rw [List.getElem_drop, ← List.getD_eq_getElem _ 0]
  exact getD_le_of_le hsorted (by omega) (by omega)

theorem le_getD_of_mem_take (hsorted : data.Pairwise (· ≤ ·)) (hk : k < data.length) {x : Int}
    (hx : x ∈ data.take (k + 1)) : x ≤ data.getD k 0 := by
  rcases List.mem_iff_getElem.mp hx with ⟨i, hi, rfl⟩
  rw [List.length_take] at hi
  rw [List.getElem_take, ← List.getD_eq_getElem _ 0]
  exact getD_le_of_le hsorted (by omega) hk

end Sorted

theorem median_perm {samples samples' : List Int} (h : samples.Perm samples') :
    median samples = median samples' := by
  have hsort : (samples.mergeSort fun a b => decide (a ≤ b)) =
      samples'.mergeSort fun a b => decide (a ≤ b) := by
    apply List.Perm.eq_of_pairwise (fun a b _ _ (hab : a ≤ b) hba => le_antisymm hab hba)
      (List.pairwise_mergeSort' (· ≤ ·) samples) (List.pairwise_mergeSort' (· ≤ ·) samples')
    exact (List.mergeSort_perm _ _).trans (h.trans (List.mergeSort_perm _ _).symm)
  simp only [median, hsort]

/-- No more than half of the samples are below, and no more than half above. -/
def Middle (samples : List Int) (m : Int) : Prop :=
  2 * samples.countP (· < m) ≤ samples.length ∧ 2 * samples.countP (m < ·) ≤ samples.length

theorem median_middle {samples : List Int} (hsome : samples ≠ []) :
    Middle samples (median samples) := by
  let data := samples.mergeSort fun a b => decide (a ≤ b)
  have hsorted : data.Pairwise (· ≤ ·) := List.pairwise_mergeSort' (· ≤ ·) samples
  have hperm : data.Perm samples := List.mergeSort_perm _ _
  have hpos := List.length_pos_iff.mpr hsome
  rw [← hperm.length_eq] at hpos
  rw [Middle, ← hperm.length_eq, ← hperm.countP_eq, ← hperm.countP_eq]
  let k := data.length / 2
  -- the upper middle is not below the median, the lower middle not above it
  have hmiddle : median samples ≤ data.getD k 0 ∧
      data.getD (data.length - k - 1) 0 ≤ median samples := by
    by_cases hodd : data.length % 2 = 1
    · have hlower : data.length - k - 1 = k := by omega
      have hmedian : median samples = data.getD k 0 := if_pos hodd
      rw [hlower, hmedian]
      exact ⟨le_rfl, le_rfl⟩
    · have hlower : data.length - k - 1 = k - 1 := by omega
      have hmedian : median samples = (data.getD (k - 1) 0 + data.getD k 0).tdiv 2 := if_neg hodd
      have hle := getD_le_of_le hsorted (Nat.sub_le k 1) (by omega : k < data.length)
      rw [hlower, hmedian, Int.tdiv_eq_ediv]
      -- truncated towards zero, half of the sum stays between the two
      split
      · omega
      · rename_i hnegative
        rw [Int.sign_eq_one_of_pos two_pos]
        omega
  have hbelow : data.countP (· < median samples) ≤ k :=
    countP_lt_le fun x hx => hmiddle.1.trans (getD_le_of_mem_drop hsorted hx)
  have habove : data.countP (median samples < ·) ≤ data.length - (data.length - k - 1 + 1) :=
    countP_gt_le fun x hx => (le_getD_of_mem_take hsorted (by omega) hx).trans hmiddle.2
  omega

/-! ### The sections -/

inductive Section where
  | resolutions | containers | subtitleFormats | subtitleLanguages | audioLanguages
deriving DecidableEq

def Section.rows : Section → CompositionPayload → List CompositionRow
  | .resolutions => (·.resolutions)
  | .containers => (·.containers)
  | .subtitleFormats => (·.subtitleFormats)
  | .subtitleLanguages => (·.subtitleLanguages)
  | .audioLanguages => (·.audioLanguages)

/-- The keys of the resolutions and their labels. -/
def slots : List (String × String) :=
  RESOLUTION_BUCKETS.map (fun b => (b.key, b.label)) ++ [("unknown", "Unknown")]

def resolutionLabel (key : String) : String := (slots.lookup key).getD "Unknown"

/-- What a file counts for in a section, and with how many bytes. -/
def Section.entries (rt : HeuristicRuntime) : Section → MediaFile → List (String × (Nat × Int))
  | .resolutions, m => [(resolutionLabel (bucket m.height), measure m)]
  | .containers, m => [(containerOr rt m.container, measure m)]
  | .subtitleFormats, m => m.subtitleCodec.toList.map fun codec => (subtitleLabel rt codec, (1, 0))
  | .subtitleLanguages, m =>
      (m.subtitleLanguages.toList.flatMap (languageKeys rt)).map fun key => (key, (1, 0))
  | .audioLanguages, m =>
      (m.audioLanguages.toList.flatMap (languageKeys rt)).map fun key => (key, (1, 0))

/-- The rows by their labels. -/
def counted (rows : List CompositionRow) : List (String × (Nat × Int)) :=
  rows.map fun r => (r.label, (r.count, r.totalSizeBytes))

/-- What the rows of a section with a label count and measure. -/
def Section.amount (s : Section) (panel : CompositionPayload) (label : String) : Nat × Int :=
  (under (counted (s.rows panel)) label).sum

theorem slots_labels {a b : String × String} (ha : a ∈ slots) (hb : b ∈ slots) :
    resolutionLabel a.1 = b.2 ↔ a.1 = b.1 := by
  have hall : ∀ a ∈ slots, ∀ b ∈ slots, resolutionLabel a.1 = b.2 ↔ a.1 = b.1 := by decide +kernel
  exact hall a ha b hb

theorem bucket_mem (height : Option Int) : bucket height ∈ slots.map (·.1) := by
  unfold bucket
  cases hfind : RESOLUTION_BUCKETS.find? (·.holds height) with
  | none => decide +kernel
  | some b =>
      have hmem := List.mem_of_find?_eq_some hfind
      simp only [slots, List.map_append, List.map_map, List.mem_append, List.mem_map]
      exact .inl ⟨b, hmem, rfl⟩

section Sections

variable {rt : HeuristicRuntime} {files : List MediaFile}

theorem under_measured {κ : Type} [DecidableEq κ] (key : MediaFile → κ) (k : κ) :
    under (files.map fun m => (key m, measure m)) k =
      (files.filter fun m => key m = k).map measure := by
  simp [under, List.filter_map, Function.comp_def]

theorem sum_measure_count (files : List MediaFile) : (files.map measure).sum.1 = files.length := by
  induction files with
  | nil => rfl
  | cons m rest ih => simp [measure, ih, Nat.add_comm]

theorem counts_zero {κ : Type} [DecidableEq κ] (key : MediaFile → κ) (k : κ) :
    (under (files.map fun m => (key m, measure m)) k).sum.1 = 0 ↔
      under (files.map fun m => (key m, measure m)) k = [] := by
  rw [under_measured, sum_measure_count, List.length_eq_zero_iff, List.map_eq_nil_iff]

theorem filterMap_unless {α β : Type} (p : α → Prop) [DecidablePred p] (f : α → β) (l : List α) :
    (l.filterMap fun a => if p a then none else some (f a)) =
      (l.filter fun a => ¬p a).map f := by
  induction l with
  | nil => rfl
  | cons a rest ih => by_cases h : p a <;> simp [h, ih]

theorem counted_resolutions {rows : List (String × (Nat × Int))}
    (h : CountedBy (fun m => bucket m.height) files rows) :
    counted (resolutions rows) =
      (slots.filter fun slot =>
        under (files.map fun m => (bucket m.height, measure m)) slot.1 ≠ []).map fun slot =>
          (slot.2, (under (files.map fun m => (bucket m.height, measure m)) slot.1).sum) := by
  have hget : ∀ k, (collect (fun _ v => v) (0, 0) rows).getD k (0, 0) =
      (under (files.map fun m => (bucket m.height, measure m)) k).sum := by
    intro k
    rw [getD_collect, h.under_eq]
    split
    · rename_i hnone
      rw [hnone]
      rfl
    · rfl
  have hzero : ∀ k, (under (files.map fun m => (bucket m.height, measure m)) k).sum.1 = 0 ↔
      under (files.map fun m => (bucket m.height, measure m)) k = [] := counts_zero _
  generalize under (files.map fun m => (bucket m.height, measure m)) = found at hget hzero ⊢
  simp only [counted, resolutions, hget, hzero, gt_iff_lt, Nat.pos_iff_ne_zero, ne_eq, slots,
    filterMap_unless, List.filter_append, List.filter_map, List.map_append, List.map_map]
  by_cases hunknown : found "unknown" = [] <;> simp [hunknown, Function.comp_def]

theorem grouped_resolutions {rows : List (String × (Nat × Int))}
    (h : CountedBy (fun m => bucket m.height) files rows) :
    Grouped List.sum (files.flatMap (Section.entries rt .resolutions))
      (counted (resolutions rows)) := by
  have hentries : files.flatMap (Section.entries rt .resolutions) =
      files.map fun m => (resolutionLabel (bucket m.height), measure m) :=
    List.flatMap_pure_eq_map _ _
  -- a file has the label of a slot exactly if it is in its bucket
  have hunder : ∀ slot ∈ slots,
      under (files.map fun m => (bucket m.height, measure m)) slot.1 =
        under (files.map fun m => (resolutionLabel (bucket m.height), measure m)) slot.2 := by
    intro slot hslot
    rw [under_measured (fun m => bucket m.height), under_measured]
    congr 1
    apply List.filter_congr
    intro m _
    rcases List.mem_map.mp (bucket_mem m.height) with ⟨other, hother, heq⟩
    simp only [← heq, slots_labels hother hslot]
  have hcover : ∀ e ∈ files.map fun m => (resolutionLabel (bucket m.height), measure m),
      e.1 ∈ slots.map (·.2) := by
    intro e he
    rcases List.mem_map.mp he with ⟨m, -, rfl⟩
    rcases List.mem_map.mp (bucket_mem m.height) with ⟨slot, hslot, heq⟩
    have hlabel := (slots_labels hslot hslot).mpr rfl
    exact List.mem_map.mpr ⟨slot, hslot, by rw [← hlabel, heq]⟩
  have hgrouped := @grouped_keys _ _ _ _ List.sum _ _ (by decide +kernel) hcover
  rw [List.filter_map, List.map_map] at hgrouped
  rw [hentries]
  convert hgrouped using 1
  have hfilter := List.filter_congr (l := slots) (p := fun slot =>
      under (files.map fun m => (bucket m.height, measure m)) slot.1 ≠ [])
    fun slot hslot => by rw [hunder slot hslot]
  rw [counted_resolutions h, hfilter]
  apply List.map_congr_left
  intro slot hslot
  rw [Function.comp_apply, hunder slot (List.mem_of_mem_filter hslot)]

theorem falling_perm {α β : Type} [LE β] [DecidableLE β] (field : α → β) (rows : List α) :
    rows.Perm (falling field rows) :=
  (List.mergeSort_perm _ _).symm

theorem grouped_containers {rows : List (Option String × (Nat × Int))}
    (h : CountedBy (·.container) files rows) :
    Grouped List.sum (files.flatMap (Section.entries rt .containers))
      (counted (containers rt rows)) := by
  have hmerged := h.regroup (grouped_tally (rows.map fun e => (containerOr rt e.1, e.2)))
  have hentries : files.flatMap (Section.entries rt .containers) =
      (files.map fun m => (m.container, measure m)).map fun e => (containerOr rt e.1, e.2) := by
    rw [List.map_map]
    exact List.flatMap_pure_eq_map _ _
  rw [hentries]
  apply hmerged.of_answer_perm
  simp only [counted, containers, List.map_map, Function.comp_def, List.map_id']
  exact falling_perm _ _

theorem flatMap_stored {α β γ : Type} (stored : α → Option β) (g : β → List γ) (l : List α) :
    (l.flatMap fun a => (stored a).toList.flatMap g) = (l.filterMap stored).flatMap g := by
  induction l with
  | nil => rfl
  | cons a rest ih => cases hstored : stored a <;> simp [hstored, ih]

theorem grouped_languages {rows : List (List String)} {stored : MediaFile → Option (List String)}
    (h : rows.Perm (files.filterMap stored)) :
    Grouped List.sum
      (files.flatMap fun m => ((stored m).toList.flatMap (languageKeys rt)).map fun key =>
        (key, ((1, 0) : Nat × Int)))
      (counted (languageCounts rt rows)) := by
  have hentries := flatMap_stored stored
    (fun langs => (languageKeys rt langs).map fun key => (key, ((1, 0) : Nat × Int))) files
  simp only [← List.map_flatMap] at hentries
  have hperm := (h.flatMap_right (languageKeys rt)).map fun key => (key, ((1, 0) : Nat × Int))
  have htally := (grouped_tally ((rows.flatMap (languageKeys rt)).map fun key => (key, 1))).map_hom
    (AddMonoidHom.inl Nat Int)
  rw [List.map_map] at htally
  rw [← List.map_flatMap, hentries]
  refine (htally.of_perm (fun _ _ => List.Perm.sum_eq) hperm).of_answer_perm ?_
  simp only [counted, languageCounts, List.map_map, Function.comp_def]
  exact (falling_perm _ _).map _

theorem content_formats {rows : List (String × Nat)} (h : Grouped List.sum (codecs files) rows)
    (label : String) :
    (under (counted (subtitleFormats rt rows)) label).sum =
      (under (files.flatMap (Section.entries rt .subtitleFormats)) label).sum := by
  have hentries : files.flatMap (Section.entries rt .subtitleFormats) =
      ((codecs files).map fun e => (e.1, AddMonoidHom.inl Nat Int e.2)).map fun e =>
        (subtitleLabel rt e.1, e.2) := by
    clear h
    induction files with
    | nil => rfl
    | cons m rest ih =>
        rw [List.flatMap_cons, ih]
        cases hcodec : m.subtitleCodec <;> simp [Section.entries, codecs, hcodec]
  rw [hentries, ← (h.map_hom (AddMonoidHom.inl Nat Int)).coarser]
  simp [counted, subtitleFormats, Function.comp_def]

end Sections

/-! ### The whole and its parts -/

section Whole

variable {rt : HeuristicRuntime} {db : Catalogue} {libraryId : Option String} {a : Answers}

theorem Answers.Of.grouped (h : a.Of db libraryId) (s : Section) (hs : s ≠ .subtitleFormats) :
    Grouped List.sum ((mediaScope db libraryId).flatMap (s.entries rt))
      (counted (s.rows (build rt a))) := by
  cases s with
  | resolutions => exact grouped_resolutions h.resolutions
  | containers => exact grouped_containers h.containers
  | subtitleFormats => exact absurd rfl hs
  | subtitleLanguages => exact grouped_languages h.subtitleLanguages
  | audioLanguages => exact grouped_languages h.audioLanguages

theorem Answers.Of.content (h : a.Of db libraryId) (s : Section) (label : String) :
    s.amount (build rt a) label =
      (under ((mediaScope db libraryId).flatMap (s.entries rt)) label).sum := by
  by_cases hs : s = .subtitleFormats
  · subst hs
    exact content_formats h.subtitleFormats label
  · exact (h.grouped s hs).sum_under_eq label

theorem scope_library (l : String) :
    mediaScope db (some l) = (mediaScope db none).filter fun m => m.libraryId = l := by
  rw [mediaScope, mediaScope, List.filter_filter]
  apply List.filter_congr
  intro m _
  by_cases hl : l = m.libraryId
  · simp [← hl]
  · simp [hl, Ne.symm hl]

theorem under_flatMap {α : Type} (rows : List α) (entries : α → List (String × (Nat × Int)))
    (label : String) :
    (under (rows.flatMap entries) label).sum =
      (rows.map fun x => (under (entries x) label).sum).sum := by
  induction rows with
  | nil => rfl
  | cons x rest ih => simp [ih]

theorem content_libraries (entries : MediaFile → List (String × (Nat × Int))) (label : String) :
    (under ((mediaScope db none).flatMap entries) label).sum =
      (db.libraries.rows.map fun library =>
        (under ((mediaScope db (some library.1)).flatMap entries) label).sum).sum := by
  have hcover : ∀ m ∈ mediaScope db none, m.libraryId ∈ db.libraries.rows.map (·.1) :=
    fun m hm => db.owned m (List.mem_of_mem_filter hm)
  have hparts := sum_parts db.libraries.unique hcover fun m => (under (entries m) label).sum
  simp only [under_flatMap, scope_library]
  rw [← hparts, List.map_map]
  rfl

/-- The counts of the panel that have no section. -/
def numbers : List (CompositionPayload → Nat) :=
  [(·.audioUnknownCount), (·.videoUnknownCount), (·.internal), (·.external), (·.orphanCount)]

theorem number_libraries {files : List MediaFile} {p : MediaFile → Bool}
    (hsub : ∀ m ∈ files, m ∈ db.files) :
    number files p = (db.libraries.rows.map fun library =>
      number files fun m => p m && ofLibrary (some library.1) m).sum := by
  have hcover : ∀ m ∈ files, p m = true → m.libraryId ∈ db.libraries.rows.map (·.1) :=
    fun m hm _ => db.owned m (hsub m hm)
  rw [number, ← countP_parts db.libraries.unique hcover, List.map_map]
  simp only [number, ofLibrary, Option.all_some, Function.comp_def, eq_comm]

theorem number_scope (p : MediaFile → Bool) (l : String) :
    number (mediaScope db (some l)) p =
      number (mediaScope db none) fun m => p m && ofLibrary (some l) m := by
  rw [number, number, scope_library, List.countP_filter]
  congr 1
  funext m
  simp [ofLibrary, eq_comm]

theorem numbers_libraries {answers : Option String → Answers}
    (h : ∀ scope, (answers scope).Of db scope) {n : CompositionPayload → Nat} (hn : n ∈ numbers) :
    n (build rt (answers none)) =
      (db.libraries.rows.map fun library => n (build rt (answers (some library.1)))).sum := by
  have hscope : ∀ m ∈ mediaScope db none, m ∈ db.files := fun m hm => List.mem_of_mem_filter hm
  simp only [numbers, List.mem_cons, List.not_mem_nil, or_false] at hn
  rcases hn with rfl | rfl | rfl | rfl | rfl
  · simp only [build, (h _).audioUnknown, number_scope]
    exact number_libraries hscope
  · simp only [build, (h _).videoUnknown, number_scope]
    exact number_libraries hscope
  · simp only [build, (h _).internal]
    rw [number_libraries fun _ hm => hm]
    simp [ofLibrary]
  · simp only [build, (h _).external]
    rw [number_libraries fun _ hm => hm]
    simp [ofLibrary]
  · simp only [build, (h _).orphans]
    rw [number_libraries fun _ hm => hm]
    simp [ofLibrary]

/-- The row of a cell, where it has enough files. -/
def matrixRow (rt : HeuristicRuntime) (cell : Cell) (fileCount : Nat) (medianKbps : Int) :
    Option BitrateMatrixRow :=
  if fileCount < 3 then none
  else some ⟨cell.libraryId, cell.libraryName, cell.resolution, cell.videoCodec,
    containerLabel rt cell.container, fileCount, medianKbps⟩

/-- The cells with the numbers and the medians of their bitrates. -/
def cells (rows : List (Cell × Int)) : List (Cell × (Nat × Int)) :=
  (collect (fun samples kbps => samples ++ [kbps]) [] rows).rows.map fun e =>
    (e.1, (e.2.length, median e.2))

theorem matrix_cells (rows : List (Cell × Int)) :
    ((cells rows).filterMap fun e => matrixRow rt e.1 e.2.1 e.2.2).Perm
      (bitrateMatrix rt rows) := by
  rw [cells, List.filterMap_map]
  exact falling_perm _ _

theorem grouped_cells {files : List MediaFile} {rows : List (Cell × Int)}
    (h : rows.Perm (samplesOf db files)) :
    Grouped (fun samples => (samples.length, median samples)) (samplesOf db files)
      (cells rows) := by
  have hgrouped := grouped_collect (fun samples kbps => samples ++ [kbps]) [] rows
  have hgather : List.foldl (fun samples (kbps : Int) => samples ++ [kbps]) [] = id :=
    funext foldl_gather
  rw [hgather] at hgrouped
  refine (hgrouped.map fun samples => (samples.length, median samples)).of_perm ?_ h
  intro samples samples' hperm
  simp only [id_eq, hperm.length_eq, median_perm hperm]

theorem samples_library (db : Catalogue) (l : String) :
    (samplesOf db (mediaScope db none)).filter (fun e => e.1.libraryId = l) =
      samplesOf db (mediaScope db (some l)) := by
  rw [scope_library, samplesOf, samplesOf, List.filter_filterMap, List.filterMap_filter]
  apply List.filterMap_congr
  intro m _
  by_cases hl : m.libraryId = l <;> cases m.bitrateKbps <;> simp [cellOf, hl]

theorem matrix_libraries {answers : Option String → Answers}
    (h : ∀ scope, (answers scope).Of db scope) :
    (build rt (answers none)).bitrateMatrix.Perm (db.libraries.rows.flatMap fun library =>
      (build rt (answers (some library.1))).bitrateMatrix) := by
  have hcover : ∀ e ∈ samplesOf db (mediaScope db none),
      e.1.libraryId ∈ db.libraries.rows.map (·.1) := by
    intro e he
    rcases List.mem_filterMap.mp he with ⟨m, hm, hsample⟩
    rcases Option.map_eq_some_iff.mp hsample with ⟨kbps, -, rfl⟩
    exact db.owned m (List.mem_of_mem_filter hm)
  have hlibraries := Grouped.union db.libraries.unique hcover fun l =>
    (samples_library db l).symm ▸ grouped_cells (h (some l)).bitrates
  rw [List.flatMap_map] at hlibraries
  have hwhole := (grouped_cells (h none).bitrates).perm hlibraries
  have hrows := hwhole.filterMap fun e => matrixRow rt e.1 e.2.1 e.2.2
  rw [List.filterMap_flatMap] at hrows
  refine (matrix_cells _).symm.trans (hrows.trans ?_)
  exact List.Perm.flatMap_left _ fun library _ => matrix_cells _

theorem matrix_row (h : a.Of db libraryId) {row : BitrateMatrixRow}
    (hrow : row ∈ (build rt a).bitrateMatrix) :
    ∃ cell, let samples := under (samplesOf db (mediaScope db libraryId)) cell
      matrixRow rt cell samples.length row.medianBitrateKbps = some row ∧ 3 ≤ samples.length ∧
        Middle samples row.medianBitrateKbps := by
  rcases List.mem_filterMap.mp ((matrix_cells _).symm.mem_iff.mp hrow)
    with ⟨⟨cell, n, m⟩, hcell, heq⟩
  rcases ((grouped_cells h.bitrates).row cell (n, m)).mp hcell with ⟨hsome, hvalues⟩
  cases hvalues
  have hmiddle := median_middle hsome
  dsimp only [matrixRow] at heq
  split at heq
  · cases heq
  · rename_i hmany
    cases heq
    exact ⟨cell, if_neg hmany, not_lt.mp hmany, hmiddle⟩

end Whole

/-- Whatever order the database answers in, the panel counts and measures the media files in its
    scope under their labels, with one row for a label and every file in a row of the resolutions
    and of the containers.  The panel over all libraries holds what the panels of the libraries
    hold together. -/
theorem panel_adds_up (rt : HeuristicRuntime) (db : Catalogue) (answers : Option String → Answers)
    (h : ∀ scope, (answers scope).Of db scope) :
    (∀ scope (s : Section) label, s.amount (build rt (answers scope)) label =
      (under ((mediaScope db scope).flatMap (s.entries rt)) label).sum) ∧
    (∀ scope (s : Section), s ≠ .subtitleFormats →
      ((s.rows (build rt (answers scope))).map (·.label)).Nodup) ∧
    (∀ scope, ∀ s ∈ [Section.resolutions, .containers],
      ((counted (s.rows (build rt (answers scope)))).map (·.2)).sum =
        ((mediaScope db scope).map measure).sum) ∧
    (∀ (s : Section) label, s.amount (build rt (answers none)) label =
      (db.libraries.rows.map fun library =>
        s.amount (build rt (answers (some library.1))) label).sum) ∧
    (∀ n ∈ numbers, n (build rt (answers none)) =
      (db.libraries.rows.map fun library => n (build rt (answers (some library.1)))).sum) ∧
    (build rt (answers none)).bitrateMatrix.Perm (db.libraries.rows.flatMap fun library =>
      (build rt (answers (some library.1))).bitrateMatrix) ∧
    ∀ scope, ∀ row ∈ (build rt (answers scope)).bitrateMatrix,
      ∃ cell, let samples := under (samplesOf db (mediaScope db scope)) cell
        matrixRow rt cell samples.length row.medianBitrateKbps = some row ∧ 3 ≤ samples.length ∧
          Middle samples row.medianBitrateKbps := by
  refine ⟨fun scope s label => (h scope).content s label, ?_, ?_, ?_,
    fun n hn => numbers_libraries h hn, matrix_libraries h,
    fun scope row hrow => matrix_row (h scope) hrow⟩
  · intro scope s hs
    have hdistinct : ((counted (s.rows (build rt (answers scope)))).map (·.1)).Nodup :=
      ((h scope).grouped s hs).distinct
    rwa [counted, List.map_map] at hdistinct
  · intro scope s hs
    have hne : s ≠ .subtitleFormats := by
      rintro rfl
      simp at hs
    have hgrouped : Grouped List.sum ((mediaScope db scope).flatMap (s.entries rt))
        (counted (s.rows (build rt (answers scope)))) := (h scope).grouped s hne
    rw [hgrouped.total, List.map_flatMap]
    simp only [List.mem_cons, List.not_mem_nil, or_false] at hs
    rcases hs with rfl | rfl
    · exact congrArg List.sum (List.flatMap_pure_eq_map _ _)
    · exact congrArg List.sum (List.flatMap_pure_eq_map _ _)
  · intro s label
    rw [(h none).content, content_libraries]
    simp only [(h (some _)).content]

/-- The answers in the order in which the groups come up. -/
def answersOf (db : Catalogue) (libraryId : Option String) : Answers where
  resolutions :=
    (collect (· + ·) 0 ((mediaScope db libraryId).map fun m => (bucket m.height, measure m))).rows
  extensions := (falling (·.2.1) (collect (· + ·) 0
    ((mediaScope db libraryId).map fun m => (m.extension, measure m))).rows).take 8
  containers :=
    (collect (· + ·) 0 ((mediaScope db libraryId).map fun m => (m.container, measure m))).rows
  subtitleFormats := falling (·.2) (collect (· + ·) 0 (codecs (mediaScope db libraryId))).rows
  subtitleLanguages := (mediaScope db libraryId).filterMap (·.subtitleLanguages)
  audioLanguages := (mediaScope db libraryId).filterMap (·.audioLanguages)
  videoUnknown := number (mediaScope db libraryId) fun m => !m.probeFailed && m.videoCodec.isNone
  audioUnknown := number (mediaScope db libraryId) fun m => !m.probeFailed && m.audioCodec.isNone
  internal :=
    number db.files fun m => m.category = "media" && m.hasSubtitles && ofLibrary libraryId m
  external := number db.files fun m => m.category = "subtitle" && ofLibrary libraryId m
  orphans :=
    number db.files fun m => m.isOrphaned && m.category = "media" && ofLibrary libraryId m
  bitrates := samplesOf db (mediaScope db libraryId)

theorem falling_pairwise {α : Type} (field : α → Nat) (rows : List α) :
    (falling field rows).Pairwise fun a b => field b ≤ field a := by
  have hsorted := @List.pairwise_mergeSort _ (fun a b => decide (field b ≤ field a))
    (fun a b c hab hbc => by simp only [decide_eq_true_eq] at *; omega)
    (fun a b => by simp only [Bool.or_eq_true, decide_eq_true_eq]; omega) rows
  simpa [falling] using hsorted

theorem answersOf_of (db : Catalogue) (libraryId : Option String) :
    (answersOf db libraryId).Of db libraryId where
  resolutions := grouped_tally _
  extensions := ⟨_, grouped_tally _, _, (falling_perm _ _).symm, falling_pairwise _ _, rfl⟩
  containers := grouped_tally _
  subtitleFormats := (grouped_tally _).of_answer_perm (falling_perm _ _)
  formatsFall := falling_pairwise _ _
  subtitleLanguages := .refl _
  audioLanguages := .refl _
  videoUnknown := rfl
  audioUnknown := rfl
  internal := rfl
  external := rfl
  orphans := rfl
  bitrates := .refl _

/-- Three files of a film library, one of a series library, and a subtitle beside it. -/
def twoLibraries : Catalogue where
  files :=
    [{ MediaFile.unprobed "f1" "films" "/films/a.mkv" "mkv" with
        category := "media", height := some 1080, container := some "matroska",
        sizeBytes := 30, bitrateKbps := some 800 },
     { MediaFile.unprobed "f2" "films" "/films/b.mkv" "mkv" with
        category := "media", height := some 1088, container := some "mkv",
        sizeBytes := 20, bitrateKbps := some 900 },
     { MediaFile.unprobed "f3" "films" "/films/c.mp4" "mp4" with
        category := "media", height := none, container := some "mov", sizeBytes := 10 },
     { MediaFile.unprobed "f4" "series" "/series/d.mkv" "mkv" with
        category := "media", height := some 1080, container := some "matroska",
        sizeBytes := 5, bitrateKbps := some 700 },
     { MediaFile.unprobed "f5" "series" "/series/d.srt" "srt" with
        category := "subtitle", sizeBytes := 1 }]
  libraries := (Table.empty.upsert ("films", "Films")).upsert ("series", "Series")
  owned := by decide +kernel

theorem panel_adds_up_two :
    (build plainEnv.rt (answersOf twoLibraries none)).resolutions =
      [⟨"1080p", "1080p", 3, 55⟩, ⟨"unknown", "Unknown", 1, 10⟩] ∧
    Section.containers.amount (build plainEnv.rt (answersOf twoLibraries none)) "MKV" =
      (twoLibraries.libraries.rows.map fun library =>
        Section.containers.amount (build plainEnv.rt (answersOf twoLibraries (some library.1)))
          "MKV").sum :=
  ⟨by decide +kernel, (panel_adds_up plainEnv.rt twoLibraries (answersOf twoLibraries)
    (answersOf_of twoLibraries)).2.2.2.1 .containers "MKV"⟩

end Composition
