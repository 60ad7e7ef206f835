/-
  Auditarr/ScanOrphans.lean
  =========================
  **Orphans against the files on disk.**

  A scan decides which rows are orphans by the id of the scan that touched them last.
  For a file it indexed that is right.  For every other row it depends on the history of
  the row: a row whose last scan is known becomes an orphan, whether its file is gone or
  was only passed over, and a row that no scan has touched never does.
-/
import Auditarr.ScanIndex

namespace ScanOrphans

open Effects Transactions KeyedTable Database RulesService RulesPass Scanner ScanIndex

/-- There is a regular file at the path. -/
def fileAt (env : ScanEnv) (path : String) : Bool :=
  (env.stat path).any fun st => isRegularFile st.mode

section Found

variable {env : ScanEnv} {root : PosixPath} {file : Found}

theorem fileAt_of_enumerateName {dirpath filename : Option String}
    (h : enumerateName env root dirpath filename = .ok (some file)) :
    fileAt env file.str = true := by
  unfold enumerateName at h
  rcases dirpath with _ | dir
  · cases h
  rcases filename with _ | name
  · cases h
  simp only at h
  rcases hstat : env.stat (String.ofList
    ((PosixPath.parse dir.toList).join name.toList).render) with _ | st
  · rw [hstat] at h
    cases h
  · rw [hstat] at h
    by_cases hregular : isRegularFile st.mode = true
    · simp only [hregular, if_true] at h
      obtain ⟨relative, -, h⟩ := PyValues.bind_eq_ok.mp h
      cases h
      simp [fileAt, Found.str, hstat, hregular]
    · simp only [hregular] at h
      cases h

theorem fileAt_of_enumerateNames {names : List (Option String × Option String)}
    {files : List Found} (h : enumerateNames env root names = .ok files) (hfile : file ∈ files) :
    fileAt env file.str = true := by
  induction names generalizing files with
  | nil =>
    cases h
    cases hfile
  | cons entry rest ih =>
    unfold enumerateNames at h
    obtain ⟨found, hfound, h⟩ := PyValues.bind_eq_ok.mp h
    obtain ⟨others, hothers, h⟩ := PyValues.bind_eq_ok.mp h
    cases h
    rcases List.mem_append.mp hfile with hhere | hthere
    · obtain rfl : found = some file := by simpa using hhere
      exact fileAt_of_enumerateName hfound
    · exact ih hothers hthere

theorem fileAt_of_enumerate {rootPath : String} {followSymlinks : Bool} {files : List Found}
    (h : enumerate env rootPath followSymlinks = .ok files) (hfile : file ∈ files) :
    fileAt env file.str = true := by
  unfold enumerate at h
  simp only at h
  split at h
  · cases h
  · split at h
    · cases h
    · exact fileAt_of_enumerateNames h hfile

theorem fileAt_of_indexed {before : Tables} {library : Library} {options : ScanOptions}
    (hfile : file ∈ indexed env before library options) : fileAt env file.str = true := by
  have hfound : file ∈ foundIn env library options := by
    have hcap := List.mem_of_mem_filter hfile
    unfold withinCap at hcap
    split at hcap
    · exact hcap
    · exact List.mem_of_mem_take hcap
  unfold foundIn at hfound
  rcases henumerate : enumerate env library.rootPath options.followSymlinks with e | files
  · rw [henumerate] at hfound
    cases hfound
  · rw [henumerate] at hfound
    exact fileAt_of_enumerate henumerate hfound

end Found

/-! ### One row -/

/-- The path had a row whose history says rightly whether there is a file: it was an orphan,
    or a scan other than this one touched it last, exactly if there is none. -/
def HistoryFits (env : ScanEnv) (before : Tables) (runId path : String) : Prop :=
  ∃ old, before.mediaAt path = some old ∧
    ((old.isOrphaned = true ∨ ∃ scanId, old.lastScanId = some scanId ∧ scanId ≠ runId) ↔
      fileAt env path = false)

section Row

variable {env : ScanEnv} {options : ScanOptions} {library : Library} {before found t : Tables}
  {runId : String} {m : MediaFile}

theorem afterRules_columns (libraryId : String) (m : MediaFile) :
    (afterRules env options libraryId t m).isOrphaned = m.isOrphaned ∧
      (afterRules env options libraryId t m).path = m.path ∧
      (afterRules env options libraryId t m).libraryId = m.libraryId := by
  unfold afterRules judgedRow
  split
  · split
    · exact ⟨rfl, rfl, rfl⟩
    · exact ⟨rfl, rfl, rfl⟩
  · exact ⟨rfl, rfl, rfl⟩

theorem orphaned_unindexed {old : MediaFile} (hlibrary : old.libraryId = library.id) :
    (if untouched library.id runId old then { old with isOrphaned := true } else old).isOrphaned =
        true ↔
      old.isOrphaned = true ∨ ∃ scanId, old.lastScanId = some scanId ∧ scanId ≠ runId := by
  rcases hscan : old.lastScanId with _ | scanId
  · simp [untouched, hscan]
  · by_cases hsame : scanId = runId
    · simp [untouched, hscan, hsame]
    · rcases horphaned : old.isOrphaned with _ | _
      · simp [untouched, hscan, hsame, horphaned, hlibrary]
      · simp [untouched, hscan, hsame, horphaned]

theorem orphaned_swept
    (hswept : Swept env before library.id runId (indexed env before library options) found)
    (hm : m ∈ found.media) (hlibrary : m.libraryId = library.id) :
    (m.isOrphaned = true ↔ fileAt env m.path = false) ↔
      m.path ∈ (indexed env before library options).map Found.str ∨
        HistoryFits env before runId m.path := by
  rcases hswept.rows m hm with ⟨file, hfile, hwritten⟩ | ⟨old, hold, hother, hrow⟩
  · -- a row the scan wrote: its file was found
    obtain ⟨hpath, -, -, -, horphaned⟩ := hwritten.columns
    have hthere := fileAt_of_indexed hfile
    rw [horphaned, hpath, hthere]
    exact iff_of_true (by simp) (.inl (List.mem_map_of_mem hfile))
  · have hcolumns : m.path = old.path ∧ m.libraryId = old.libraryId := by
      rw [hrow]
      split <;> exact ⟨rfl, rfl⟩
    have hnot : m.path ∉ (indexed env before library options).map Found.str := by
      intro hmem
      obtain ⟨file, hfile, hstr⟩ := List.mem_map.mp hmem
      exact hother file hfile (hstr.trans hcolumns.1)
    have hat : before.mediaAt m.path = some old :=
      Tables.mediaAt_eq_some.mpr ⟨hold, hcolumns.1.symm⟩
    have horphaned : m.isOrphaned = true ↔ old.isOrphaned = true ∨
        ∃ scanId, old.lastScanId = some scanId ∧ scanId ≠ runId := by
      rw [← orphaned_unindexed (hcolumns.2.symm.trans hlibrary), ← hrow]
    rw [horphaned]
    constructor
    · intro hfits
      exact .inr ⟨old, hat, hfits⟩
    · rintro (hindexed | ⟨old', hat', hfits⟩)
      · exact absurd hindexed hnot
      · rw [hat] at hat'
        cases hat'
        exact hfits

end Row

/-- After a scan that completed, a row of the library is an orphan exactly if there is no
    file at its path, if the scan indexed the path, or the history of the row happens to
    say so; and in no other case. -/
theorem orphaned_iff_missing_iff (env : ScanEnv) (library : Library) (options : ScanOptions)
    (queued : Option ScanRun) (before : Tables) (world : Outside) (calls : Nat) (runId : String)
    (counts : ScanCounts) (s : Session Tables Outside)
    (hrun : scan env library options queued (.opened before world calls) =
      (.ok (.completed runId counts), s))
    (m : MediaFile) (hm : m ∈ s.committed.media) (hlibrary : m.libraryId = library.id) :
    (m.isOrphaned = true ↔ fileAt env m.path = false) ↔
      m.path ∈ (indexed env before library options).map Found.str ∨
        HistoryFits env before runId m.path := by
  obtain ⟨found, hswept, hpassed⟩ := scan_completed hrun
  obtain ⟨old, hold, rfl⟩ := hpassed m hm
  obtain ⟨horphaned, hpath, hlib⟩ := @afterRules_columns env options found library.id old
  rw [horphaned, hpath]
  exact orphaned_swept hswept hold (hlib.symm.trans hlibrary)

/-! ### A file that is passed over -/

/-- The session after a scan of the small library that reuses no run. -/
def afterScan (disposition : Disposition) : Except ServiceError ScanReport × Session Tables Outside :=
  scan oneFileEnv mediaLibrary .default none (.opened (scannedTables disposition) .start 0)

theorem orphaned_iff_missing_iff_avi :
    ∃ m ∈ (afterScan .accepted).2.committed.media, m.libraryId = "l1" ∧
      ((m.isOrphaned = true ↔ fileAt oneFileEnv m.path = false) ↔
        m.path ∈ (indexed oneFileEnv (scannedTables .accepted) mediaLibrary .default).map
            Found.str ∨
          HistoryFits oneFileEnv (scannedTables .accepted) "0" m.path) := by
  have hrun : afterScan .accepted = (.ok (.completed "0" ⟨1, 0, 1, 0, 1⟩), (afterScan .accepted).2) :=
    Call.run_of_outcome (by decide +kernel)
  have hrow : ∃ m ∈ (afterScan .accepted).2.committed.media.rows, m.libraryId = "l1" := by
    decide +kernel
  obtain ⟨m, hm, hlibrary⟩ := hrow
  exact ⟨m, hm, hlibrary, orphaned_iff_missing_iff oneFileEnv mediaLibrary .default none
    (scannedTables .accepted) .start 0 "0" ⟨1, 0, 1, 0, 1⟩ (afterScan .accepted).2 hrun m hm hlibrary⟩

/-- A file whose extension is ignored is on disk, and its row an orphan after the scan. -/
theorem ignored_file_orphaned :
    ¬ ∀ (env : ScanEnv) (library : Library) (options : ScanOptions) (before : Tables)
        (runId : String) (counts : ScanCounts) (s : Session Tables Outside),
      scan env library options none (.opened before .start 0) =
        (.ok (.completed runId counts), s) →
      ∀ m ∈ s.committed.media, m.libraryId = library.id →
        (m.isOrphaned = true ↔ fileAt env m.path = false) := by
  intro hall
  have hrun : afterScan .ignore = (.ok (.completed "0" ⟨1, 0, 0, 1, 0⟩), (afterScan .ignore).2) :=
    Call.run_of_outcome (by decide +kernel)
  have hrow : ∃ m ∈ (afterScan .ignore).2.committed.media.rows,
      m.libraryId = "l1" ∧ m.isOrphaned = true ∧ fileAt oneFileEnv m.path = true := by
    decide +kernel
  obtain ⟨m, hm, hlibrary, horphaned, hthere⟩ := hrow
  have hmissing := (hall oneFileEnv mediaLibrary .default (scannedTables .ignore) "0"
    ⟨1, 0, 0, 1, 0⟩ (afterScan .ignore).2 hrun m hm hlibrary).mp horphaned
  rw [hthere] at hmissing
  cases hmissing

end ScanOrphans
