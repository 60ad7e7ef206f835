/-
  Auditarr/TitleHeuristic.lean
  ============================
  **The file that the title of a play leads to**
  (`app/services/playback/tracearr_reconciler.py`, `_try_title_heuristic`).

  The database answers the pre-filter with at most 200 rows in any order, and the first row with
  the best score is taken.  The module promises that ties stay unresolved; nothing looks for
  ties, for rows beyond the limit, or for where the token of the episode ends.
-/
import Auditarr.TracearrReconciler
import Auditarr.SqlLike
import Auditarr.UnorderedLimit

namespace TitleHeuristic

open PyValues TracearrPath TracearrReconciler UnorderedLimit

section Heuristic

variable (rt : ReconcilerRuntime)

/-! ### The choice -/

/-- The rows that the query selects. -/
def matching (db : Db) (identity : ParsedIdentity) : List Database.MediaFile :=
  db.media.rows.filter fun m =>
    decide (m.category = "media") && (buildIlikePatterns identity).any (rt.ilike m.filename)

def scoreOf (identity : ParsedIdentity) (m : Database.MediaFile) : PyFloat :=
  scoreFilename rt identity m.filename

/-- What the answer of the database leads to. -/
def choose (identity : ParsedIdentity) (answer : List Database.MediaFile) : Option String :=
  pick PyFloat.lt (scoreOf rt identity) Database.MediaFile.id titleMatchThreshold.le (.finite 0) answer

theorem tryTitleHeuristic_eq (db : Db) (identity : ParsedIdentity) :
    tryTitleHeuristic rt db identity = choose rt identity ((matching rt db identity).take 200) := by
  have hstep : better rt identity = keep PyFloat.lt (scoreOf rt identity) Database.MediaFile.id := rfl
  simp only [tryTitleHeuristic, choose, pick, matching, hstep]
  generalize List.foldl (keep PyFloat.lt (scoreOf rt identity) Database.MediaFile.id) _ _ = scanned
  obtain ⟨best, score⟩ := scanned
  cases best <;> rfl

/-! ### The promise -/

/-- The characters that `_normalize` keeps. -/
def kept (c : Char) : Bool := ('a' ≤ c && c ≤ 'z') || ('0' ≤ c && c ≤ '9')

/-- The tokens of a filename, between the characters that are dropped. -/
def tokens (filename : String) : List (List Char) :=
  (rt.lower filename).toList.splitOnP fun c => !kept c

/-- The token of a known season and episode is one of the tokens of the filename. -/
def HasToken (identity : ParsedIdentity) (m : Database.MediaFile) : Prop :=
  ∀ season episode, identity.season = some season → identity.episode = some episode →
    seasonEpisode 's' 'e' season episode ∈ tokens rt m.filename

/-- A file that is chosen has the token, reaches the threshold and is alone with its score, and
    every answer of the database leads to the same file. -/
structure Resolves (db : Db) (identity : ParsedIdentity) : Prop where
  chosen : ∀ answer, Answer 200 (matching rt db identity) answer →
    ∀ id, choose rt identity answer = some id → ∃ m ∈ answer, m.id = id ∧
      accepts rt identity m.filename = true ∧ HasToken rt identity m ∧
        ∀ m' ∈ answer, m' ≠ m → scoreOf rt identity m' ≠ scoreOf rt identity m
  same : ∀ answer answer', Answer 200 (matching rt db identity) answer →
    Answer 200 (matching rt db identity) answer' →
      choose rt identity answer = choose rt identity answer'

/-- One row is ahead of all others, and reaches the threshold. -/
def Ahead (db : Db) (identity : ParsedIdentity) (m : Database.MediaFile) : Prop :=
  Leads PyFloat.lt (scoreOf rt identity) titleMatchThreshold.le (matching rt db identity) m

/-! ### Scores -/

theorem lt_irrefl (x : PyFloat) : x.lt x = false := by
  cases x <;> simp [PyFloat.lt]

theorem lt_trans (x y z : PyFloat) (hxy : x.lt y = true) (hyz : y.lt z = true) : x.lt z = true := by
  cases x <;> cases y <;> cases z <;> simp_all [PyFloat.lt]
  exact hxy.trans hyz

theorem eq_of_not_lt {x y : PyFloat} (hx : x ≠ .nan) (hy : y ≠ .nan) (hxy : x.lt y = false)
    (hyx : y.lt x = false) : x = y := by
  cases x <;> cases y <;> simp_all [PyFloat.lt]
  case finite.finite => exact le_antisymm hyx hxy
  case inf.inf m n => exact Bool.eq_iff_iff.mpr ⟨hxy, hyx⟩

theorem le_of_not_lt {x y z : PyFloat} (hz : z ≠ .nan) (hxy : x.le y = true) (hzy : z.lt y = false) :
    x.le z = true := by
  rw [PyFloat.le, Bool.or_eq_true] at hxy ⊢
  cases hyz : y.lt z with
  | true =>
    left
    rcases hxy with hlt | heq
    · exact lt_trans x y z hlt hyz
    · cases x <;> cases y <;> simp_all [PyFloat.lt, PyFloat.eq]
  | false =>
    have hy : y ≠ .nan := by
      rintro rfl
      cases x <;> simp [PyFloat.lt, PyFloat.eq] at hxy
    rw [← eq_of_not_lt hy hz hyz hzy]
    exact hxy

variable {rt}

theorem scoreTarget_ne_nan (hratio : ∀ a b, rt.ratio a b ≠ .nan) (target file : List Char) :
    scoreTarget rt target file ≠ .nan := by
  rw [scoreTarget]
  split
  · exact PyFloat.noConfusion
  · split
    · simp only [containedScore]
      split
      · intro hnan
        simp_all [PyFloat.lt]
      · exact PyFloat.noConfusion
    · exact hratio target file

theorem scoreFilename_ne_nan (hratio : ∀ a b, rt.ratio a b ≠ .nan) (identity : ParsedIdentity)
    (filename : String) : scoreFilename rt identity filename ≠ .nan := by
  simp only [scoreFilename]
  split
  · split
    · split
      · exact scoreTarget_ne_nan hratio _ _
      · exact PyFloat.noConfusion
    · exact scoreTarget_ne_nan hratio _ _
  · exact scoreTarget_ne_nan hratio _ _

theorem threshold_pos : PyFloat.lt (.finite 0) titleMatchThreshold = true := by decide +kernel

theorem ranking (hratio : ∀ a b, rt.ratio a b ≠ .nan) (identity : ParsedIdentity) :
    Ranking PyFloat.lt (scoreOf rt identity) titleMatchThreshold.le (.finite 0) where
  irrefl := lt_irrefl
  trans := lt_trans
  total m m' := eq_of_not_lt (scoreFilename_ne_nan hratio identity _)
    (scoreFilename_ne_nan hratio identity _)
  above m haccept := by
    rw [PyFloat.le, Bool.or_eq_true] at haccept
    rcases haccept with hlt | heq
    · exact lt_trans _ _ _ threshold_pos hlt
    · have hsame : titleMatchThreshold = scoreOf rt identity m := by
        cases hx : titleMatchThreshold <;> cases hy : scoreOf rt identity m <;>
          simp_all [PyFloat.eq]
      exact hsame ▸ threshold_pos
  upward m m' haccept hnot := le_of_not_lt (scoreFilename_ne_nan hratio identity _) haccept hnot

/-! ### The law -/

theorem nodup_matching (db : Db) (identity : ParsedIdentity) : (matching rt db identity).Nodup :=
  (List.Nodup.of_map _ db.media.unique).filter _

theorem eq_of_id (db : Db) (identity : ParsedIdentity) : ∀ m ∈ matching rt db identity,
    ∀ m' ∈ matching rt db identity, m.id = m'.id → m = m' := by
  intro m hm m' hm'
  exact db.media.eq_of_key_eq (List.mem_filter.mp hm).1 (List.mem_filter.mp hm').1

/-- What is chosen is right whatever the database answers iff no row that matches reaches the
    threshold, or at most 200 match and one of them is ahead and has the token. -/
theorem resolves_iff (db : Db) (identity : ParsedIdentity) (hratio : ∀ a b, rt.ratio a b ≠ .nan) :
    Resolves rt db identity ↔
      (∀ m ∈ matching rt db identity, accepts rt identity m.filename = false) ∨
        (matching rt db identity).length ≤ 200 ∧
          ∃ m, Ahead rt db identity m ∧ HasToken rt identity m := by
  have hsettled : Settled PyFloat.lt (scoreOf rt identity) Database.MediaFile.id
      titleMatchThreshold.le (.finite 0) (HasToken rt identity) 200 (matching rt db identity) ↔ _ :=
    settled_iff (ranking hratio identity) (by decide) (nodup_matching db identity)
      (eq_of_id db identity)
  constructor
  · rintro ⟨hchosen, hsame⟩
    exact hsettled.mp ⟨hchosen, hsame⟩
  · intro h
    obtain ⟨hpicked, hsame⟩ := hsettled.mpr h
    exact ⟨hpicked, hsame⟩

end Heuristic

/-! ### Ten episodes -/

/-- ASCII letters, and texts that are alike only when they are equal. -/
def asciiRuntime : ReconcilerRuntime where
  lower text := text.map Char.toLower
  ratio a b := .finite (if a = b then 1 else 0)
  ilike text pattern := SqlLike.like SqlLike.postgresql (text.map Char.toLower) (pattern.map Char.toLower)

def firstEpisode : ParsedIdentity := ⟨"episode", none, none, none, some "Show", some 1, some 1⟩

def episodeFile (id filename : String) : Database.MediaFile :=
  { Database.MediaFile.unprobed id "l1" filename "mkv" with category := "media" }

theorem unique_one (m : Database.MediaFile) : ([m].map Database.MediaFile.id).Nodup :=
  List.nodup_singleton _

/-- One file, and no plays. -/
def libraryOf (m : Database.MediaFile) : Db := ⟨.empty, .empty, ⟨[m], unique_one m⟩, fun _ => none⟩

theorem asciiRuntime_ratio (a b : List Char) : asciiRuntime.ratio a b ≠ .nan := PyFloat.noConfusion

/-- A file of the first episode is chosen alone. -/
theorem resolves_first_episode :
    Resolves asciiRuntime (libraryOf (episodeFile "m1" "Show.S01E01.mkv")) firstEpisode := by
  apply (resolves_iff _ _ asciiRuntime_ratio).mpr
  right
  have hmatching : matching asciiRuntime (libraryOf (episodeFile "m1" "Show.S01E01.mkv")) firstEpisode =
      [episodeFile "m1" "Show.S01E01.mkv"] := by
    decide +kernel
  refine ⟨by rw [hmatching]; decide, episodeFile "m1" "Show.S01E01.mkv", ⟨?_, ?_, ?_⟩, ?_⟩
  · rw [hmatching]
    exact .head _
  · decide +kernel
  · rw [hmatching]
    intro m hm hne
    exact absurd (List.mem_singleton.mp hm) hne
  · intro season episode hseason hepisode
    cases hseason
    cases hepisode
    decide +kernel

/-- Episode 10, written with three digits, is taken for the first one. -/
theorem prefix_taken :
    ¬Resolves asciiRuntime (libraryOf (episodeFile "m1" "Show.S01E010.mkv")) firstEpisode := by
  rintro ⟨hchosen, -⟩
  have hchoose : choose asciiRuntime firstEpisode [episodeFile "m1" "Show.S01E010.mkv"] = some "m1" := by
    decide +kernel
  have hmatching : matching asciiRuntime (libraryOf (episodeFile "m1" "Show.S01E010.mkv")) firstEpisode =
      [episodeFile "m1" "Show.S01E010.mkv"] := by
    decide +kernel
  rw [hmatching] at hchosen
  obtain ⟨m, hm, -, -, htoken, -⟩ := hchosen _ (answer_take 200 _) _ hchoose
  cases List.mem_singleton.mp hm
  have hnot : seasonEpisode 's' 'e' 1 1 ∉ tokens asciiRuntime "Show.S01E010.mkv" := by decide +kernel
  exact hnot (htoken 1 1 rfl rfl)

end TitleHeuristic
