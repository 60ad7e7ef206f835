/-
  Auditarr/ScanSeverity.lean
  ==========================
  **Extension dispositions against the rules.**

  A scan writes the severity of a disposition on a row it adds; a row that was there
  keeps the severity it had.  Then the rules run over the first page of the library and
  replace the severity of every row on it by their own.  So the disposition is respected
  if the rules that match the file say the same, and otherwise only beyond the page.
-/
import Auditarr.ScanOrphans

namespace ScanSeverity

open Effects Transactions KeyedTable PyValues RuleSchema RuleEvaluator RuleAggregation
open Database RulesService RulesEffect RulesTotality RulesPass SeverityInvariant Scanner ScanIndex
open ScanOrphans

/-- What a disposition asks of the severity of a file. -/
def Respects : Option Disposition → Severity → Prop
  | some .malicious, severity => severity = .crit
  | some .accepted, severity => SEVERITY_LEVELS severity ≤ SEVERITY_LEVELS .ok
  | some .statsOnly, severity => SEVERITY_LEVELS severity ≤ SEVERITY_LEVELS .info
  | some .ignore, _ | none, _ => True

instance (disposition : Option Disposition) (severity : Severity) :
    Decidable (Respects disposition severity) := by
  unfold Respects
  split <;> infer_instance

/-- What a disposition asks of the ranks that the matching rules set. -/
def RulesAgree : Option Disposition → List Nat → Prop
  | some .malicious, ranks => SEVERITY_LEVELS .crit ∈ ranks
  | some .accepted, ranks => ∀ rank ∈ ranks, rank ≤ SEVERITY_LEVELS .ok
  | some .statsOnly, ranks => ∀ rank ∈ ranks, rank ≤ SEVERITY_LEVELS .info
  | some .ignore, _ | none, _ => True

/-! ### The verdict of the rules -/

section Verdict

variable {rt : PyRuntime} {input : EvaluationInput} {rules : List (Rule × RuleDefinition)}

theorem le_crit_of_mem_matchingRanks {definitions : List RuleDefinition} {rank : Nat}
    (h : rank ∈ matchingRanks rt input definitions) : rank ≤ SEVERITY_LEVELS .crit := by
  obtain ⟨d, -, hrank⟩ := List.mem_flatMap.mp h
  obtain ⟨action, -, haction⟩ := List.mem_filterMap.mp hrank
  cases action with
  | setSeverity severity =>
    obtain rfl := Option.some.inj haction
    cases severity <;> decide
  | _ => cases haction

theorem level_verdict :
    SEVERITY_LEVELS ((progressAfter rt input rules).aggregate.severity.getD .ok) =
      (matchingRanks rt input (rules.map (·.2))).foldl max (SEVERITY_LEVELS .ok) := by
  rw [← passRank_eq]
  have hlabel : LabelMatchesRank (progressAfter rt input rules).aggregate :=
    LabelMatchesRank.foldl_absorb rt input _ rfl
  unfold LabelMatchesRank at hlabel
  rcases hseverity : (progressAfter rt input rules).aggregate.severity with _ | severity
  · rw [hseverity] at hlabel
    have hrank : (progressAfter rt input rules).aggregate.severityRank = _ := passRank_eq input
    rw [hlabel] at hrank
    have hle : SEVERITY_LEVELS .ok ≤ 0 := by
      show SEVERITY_LEVELS .ok ≤ Option.elim none 0 SEVERITY_LEVELS
      rw [hrank]
      exact le_foldl_max_start _ _
    exact absurd hle (by decide)
  · rw [hseverity] at hlabel
    exact hlabel.symm

/-- The severity that the rules give a file respects a disposition exactly if those that
    match agree with it. -/
theorem respects_verdict (disposition : Option Disposition) :
    Respects disposition ((progressAfter rt input rules).aggregate.severity.getD .ok) ↔
      RulesAgree disposition (matchingRanks rt input (rules.map (·.2))) := by
  have hlevel : SEVERITY_LEVELS ((progressAfter rt input rules).aggregate.severity.getD .ok) = _ :=
    level_verdict
  rcases disposition with _ | _ | _ | _ | _
  · exact Iff.rfl
  · exact Iff.rfl
  · show _ ≤ _ ↔ _
    rw [hlevel, foldl_max_le]
    exact and_iff_right (by decide)
  · show _ = _ ↔ _
    constructor
    · intro hcrit
      rw [hcrit] at hlevel
      rcases le_foldl_max_iff.mp hlevel.le with hlow | ⟨rank, hrank, hle⟩
      · exact absurd hlow (by decide)
      · have hrank_eq : rank = SEVERITY_LEVELS .crit :=
          le_antisymm (le_crit_of_mem_matchingRanks hrank) hle
        show SEVERITY_LEVELS .crit ∈ matchingRanks rt input (rules.map (·.2))
        rw [← hrank_eq]
        exact hrank
    · intro hmem
      apply SEVERITY_LEVELS_injective
      rw [hlevel]
      apply le_antisymm
      · rw [foldl_max_le]
        exact ⟨by decide, fun _ => le_crit_of_mem_matchingRanks⟩
      · exact le_foldl_max hmem
  · show _ ≤ _ ↔ _
    rw [hlevel, foldl_max_le]
    exact and_iff_right le_rfl

end Verdict

/-! ### The row before the rules -/

section Row

variable {env : ScanEnv} {options : ScanOptions} {library : Library} {before found t : Tables}
  {libraryId runId : String} {done : List Found} {m row : MediaFile}

theorem respects_initialSeverity (disposition : Option Disposition) :
    Respects disposition (initialSeverity disposition).1 := by
  rcases disposition with _ | _ | _ | _ | _ <;> decide

/-- The severity and rank of a row when the rules come to it. -/
def severityBefore (before : Tables) (path extension : String) : Severity × Nat :=
  match before.mediaAt path with
  | some old => (old.severity, old.severityRank)
  | none => initialSeverity (dispositionMap before extension)

/-- The row as the rules find it. -/
def beforeRules (before : Tables) (m : MediaFile) : MediaFile :=
  { m with
    severity := (severityBefore before m.path m.extension).1
    severityRank := (severityBefore before m.path m.extension).2 }

theorem severityBefore_swept (hswept : Swept env before libraryId runId done found)
    (hrow : row ∈ found.media) :
    severityBefore before row.path row.extension = (row.severity, row.severityRank) := by
  unfold severityBefore
  rcases hswept.rows row hrow with ⟨file, -, hwritten⟩ | ⟨old, hold, -, hmark⟩
  · obtain ⟨hpath, -, hextension, -, -⟩ := hwritten.columns
    obtain ⟨mf, ⟨result, -, hbuild⟩, hcase⟩ := hwritten
    rw [hpath, hextension]
    rcases hat : before.mediaAt file.str with _ | old
    · rw [hat] at hcase
      rw [hcase]
      exact (buildMediaFile_columns hbuild).2.symm
    · rw [hat] at hcase
      rw [hcase]
      rfl
  · have hcolumns : row.path = old.path ∧ row.severity = old.severity ∧
        row.severityRank = old.severityRank := by
      rw [hmark]
      split <;> exact ⟨rfl, rfl, rfl⟩
    rw [Tables.mediaAt_eq_some.mpr ⟨hold, hcolumns.1.symm⟩, hcolumns.2.1, hcolumns.2.2]

theorem judgedRow_columns (libraryId : String) (row : MediaFile) :
    (judgedRow env found libraryId row).path = row.path ∧
      (judgedRow env found libraryId row).libraryId = row.libraryId ∧
      (judgedRow env found libraryId row).extension = row.extension := by
  unfold judgedRow
  split <;> exact ⟨rfl, rfl, rfl⟩

theorem beforeRules_judgedRow (hswept : Swept env before libraryId runId done found)
    (hrow : row ∈ found.media) : beforeRules before (judgedRow env found libraryId row) = row := by
  obtain ⟨hpath, -, hextension⟩ := @judgedRow_columns env found libraryId row
  rw [beforeRules, hpath, hextension, severityBefore_swept hswept hrow]
  unfold judgedRow
  split <;> rfl

theorem respects_severityBefore (before : Tables) (path extension : String) :
    Respects (dispositionMap before extension) (severityBefore before path extension).1 ↔
      ∀ old, before.mediaAt path = some old →
        Respects (dispositionMap before extension) old.severity := by
  unfold severityBefore
  cases before.mediaAt path with
  | none => exact iff_of_true (respects_initialSeverity _) fun _ h => by cases h
  | some old => simp

end Row

/-! ### The page that the rules run over -/

/-- What the listing of a library looks at. -/
structure Entry where
  path : String
  libraryId : String
  severityRank : Nat
deriving DecidableEq

/-- The order of the listing. -/
def Entry.bySeverity (a b : Entry) : Prop :=
  b.severityRank < a.severityRank ∨ (a.severityRank = b.severityRank ∧ a.path ≤ b.path)

instance : DecidableRel Entry.bySeverity := fun _ _ => inferInstanceAs (Decidable (_ ∨ _))

def entryOf (m : MediaFile) : Entry := ⟨m.path, m.libraryId, m.severityRank⟩

section Page

variable (env : ScanEnv) (before : Tables) (library : Library) (options : ScanOptions)

/-- The entry of a row after the files were gone through. -/
def keptEntry (old : MediaFile) : Entry where
  path := old.path
  libraryId :=
    if old.path ∈ (indexed env before library options).map Found.str then library.id
    else old.libraryId
  severityRank := old.severityRank

/-- The entry of a file that had no row. -/
def newEntry (file : Found) : Entry where
  path := file.str
  libraryId := library.id
  severityRank := (initialSeverity (dispositionMap before (file.extension env.rt))).2

/-- The entries of the table when the rules come to it. -/
def entriesFound : List Entry :=
  before.media.rows.map (keptEntry env before library options) ++
    (((indexed env before library options).filter fun file => (before.mediaAt file.str).isNone).map
      (newEntry env before library)).dedup

/-- The row is on the page of the library that the rules run over: few rows come before it. -/
def OnPage (m : MediaFile) : Prop :=
  ahead Entry.bySeverity
      ((entriesFound env before library options).filter fun e => e.libraryId = library.id)
      ⟨m.path, library.id, (severityBefore before m.path m.extension).2⟩ < PAGE_LIMIT

instance (m : MediaFile) : Decidable (OnPage env before library options m) :=
  inferInstanceAs (Decidable (_ < _))

variable {env before library options} {runId : String} {found : Tables}

theorem entry_of_old
    (hswept : Swept env before library.id runId (indexed env before library options) found)
    {m old : MediaFile} (hm : m ∈ found.media) (hold : before.mediaAt m.path = some old) :
    entryOf m = keptEntry env before library options old := by
  have hrank := congrArg Prod.snd (severityBefore_swept hswept hm)
  simp only [severityBefore, hold] at hrank
  have hpath : old.path = m.path := (Tables.mediaAt_eq_some.mp hold).2
  rcases hswept.rows m hm with ⟨file, hfile, hwritten⟩ | ⟨first, hfirst, hother, hmark⟩
  · obtain ⟨hstr, hlibrary, -⟩ := hwritten.columns
    have hindexed : old.path ∈ (indexed env before library options).map Found.str :=
      List.mem_map.mpr ⟨file, hfile, hstr.symm.trans hpath.symm⟩
    rw [keptEntry, if_pos hindexed, entryOf, hlibrary, hpath, hrank]
  · have hcolumns : m.path = first.path ∧ m.libraryId = first.libraryId := by
      rw [hmark]
      split <;> exact ⟨rfl, rfl⟩
    have hsame : first = old := Tables.eq_of_path_eq hfirst (Tables.mediaAt_eq_some.mp hold).1
      (hcolumns.1.symm.trans hpath.symm)
    have hindexed : old.path ∉ (indexed env before library options).map Found.str := by
      intro hmem
      obtain ⟨file, hfile, hstr⟩ := List.mem_map.mp hmem
      exact hother file hfile (hstr.trans (congrArg MediaFile.path hsame.symm))
    rw [keptEntry, if_neg hindexed, entryOf, hcolumns.2, hsame, hpath, hrank]

theorem entry_of_new
    (hswept : Swept env before library.id runId (indexed env before library options) found)
    {m : MediaFile} (hm : m ∈ found.media) (hnew : before.mediaAt m.path = none) :
    ∃ file ∈ indexed env before library options, file.str = m.path ∧
      entryOf m = newEntry env before library file := by
  have hrank := congrArg Prod.snd (severityBefore_swept hswept hm)
  simp only [severityBefore, hnew] at hrank
  rcases hswept.rows m hm with ⟨file, hfile, hwritten⟩ | ⟨first, hfirst, -, hmark⟩
  · obtain ⟨hstr, hlibrary, hextension, -⟩ := hwritten.columns
    refine ⟨file, hfile, hstr.symm, ?_⟩
    rw [newEntry, entryOf, hstr, hlibrary, ← hrank, hextension]
  · have hpath : first.path = m.path := by
      rw [hmark]
      split <;> rfl
    exact absurd hpath (Tables.mediaAt_eq_none.mp hnew first hfirst)

theorem mem_entriesFound
    (hswept : Swept env before library.id runId (indexed env before library options) found)
    {e : Entry} :
    e ∈ entriesFound env before library options ↔ e ∈ found.media.rows.map entryOf := by
  simp only [entriesFound, List.mem_append, List.mem_dedup, List.mem_map, List.mem_filter,
    Option.isNone_iff_eq_none]
  constructor
  · rintro (⟨old, hold, rfl⟩ | ⟨file, ⟨hfile, hnew⟩, rfl⟩)
    · obtain ⟨m, hm, hpath⟩ := hswept.kept old hold
      exact ⟨m, hm, entry_of_old hswept hm (Tables.mediaAt_eq_some.mpr ⟨hold, hpath.symm⟩)⟩
    · obtain ⟨m, hm, hpath⟩ := hswept.written file hfile
      rw [← hpath] at hnew
      obtain ⟨file', -, hstr, hentry⟩ := entry_of_new hswept hm hnew
      have hsame : file'.str = file.str := hstr.trans hpath
      refine ⟨m, hm, ?_⟩
      rw [hentry, newEntry, newEntry, hsame, Found.extension, path_eq_of_str_eq hsame]
      rfl
  · rintro ⟨m, hm, rfl⟩
    cases hat : before.mediaAt m.path with
    | some old =>
      exact .inl ⟨old, (Tables.mediaAt_eq_some.mp hat).1, (entry_of_old hswept hm hat).symm⟩
    | none =>
      obtain ⟨file, hfile, hstr, hentry⟩ := entry_of_new hswept hm hat
      exact .inr ⟨file, ⟨hfile, hstr ▸ hat⟩, hentry.symm⟩

theorem nodup_entries (t : Tables) : (t.media.rows.map entryOf).Nodup := by
  have hpaths : ((t.media.rows.map entryOf).map Entry.path).Nodup := by
    rw [List.map_map]
    exact t.media_path_unique
  exact hpaths.of_map _

theorem nodup_entriesFound : (entriesFound env before library options).Nodup := by
  refine List.nodup_append.mpr ⟨?_, List.nodup_dedup _, ?_⟩
  · have hpaths : ((before.media.rows.map (keptEntry env before library options)).map
        Entry.path).Nodup := by
      rw [List.map_map]
      exact before.media_path_unique
    exact hpaths.of_map _
  · rintro e he e' he' rfl
    obtain ⟨old, hold, rfl⟩ := List.mem_map.mp he
    obtain ⟨file, hfile, hentry⟩ := List.mem_map.mp (List.mem_dedup.mp he')
    have hnew := Option.isNone_iff_eq_none.mp (List.mem_filter.mp hfile).2
    exact Tables.mediaAt_eq_none.mp hnew old hold (congrArg Entry.path hentry).symm

theorem perm_entriesFound
    (hswept : Swept env before library.id runId (indexed env before library options) found) :
    (found.media.rows.map entryOf).Perm (entriesFound env before library options) :=
  (List.perm_ext_iff_of_nodup (nodup_entries found) nodup_entriesFound).mpr fun _ =>
    (mem_entriesFound hswept).symm

theorem ahead_entries {t : Tables} {rows : List MediaFile} (hrows : ∀ m ∈ rows, m ∈ t.media)
    {m : MediaFile} (hm : m ∈ t.media) :
    ahead Entry.bySeverity (rows.map entryOf) (entryOf m) =
      ahead RulesService.bySeverity rows m := by
  unfold ahead
  rw [List.filter_map, List.length_map]
  refine congrArg List.length (List.filter_congr fun m' hm' => ?_)
  have hsame : entryOf m' = entryOf m ↔ m' = m :=
    ⟨fun h => Tables.eq_of_path_eq (hrows m' hm') hm (congrArg Entry.path h), congrArg entryOf⟩
  simp only [Function.comp_apply, ne_eq, hsame]
  rfl

theorem mem_listMedia_iff
    (hswept : Swept env before library.id runId (indexed env before library options) found)
    {m : MediaFile} (hm : m ∈ found.media) (hlibrary : m.libraryId = library.id) :
    m ∈ listMedia found library.id [] ↔ OnPage env before library options m := by
  have hperm : ((found.media.rows.filter fun m => m.libraryId = library.id).map entryOf).Perm
      ((entriesFound env before library options).filter fun e => e.libraryId = library.id) := by
    have hfiltered := (perm_entriesFound hswept).filter fun e => e.libraryId = library.id
    rw [List.filter_map] at hfiltered
    exact hfiltered
  have hsub : ∀ m' ∈ found.media.rows.filter fun m => m.libraryId = library.id, m' ∈ found.media :=
    fun m' hm' => List.mem_of_mem_filter hm'
  have hentry : entryOf m =
      ⟨m.path, library.id, (severityBefore before m.path m.extension).2⟩ := by
    rw [entryOf, hlibrary, severityBefore_swept hswept hm]
  have hselected : m ∈ found.media.rows.filter fun m => m.libraryId = library.id :=
    List.mem_filter.mpr ⟨hm, decide_eq_true hlibrary⟩
  have hpage : candidates found library.id [] =
      found.media.rows.filter fun m => m.libraryId = library.id := by
    simp [candidates, library.id_nonempty]
  rw [mem_listMedia, hpage, and_iff_right hselected, OnPage, ← hentry, ← ahead_perm _ hperm,
    ahead_entries hsub hm]

end Page

/-! ### A scan with its rules -/

section Scan

variable (env : ScanEnv) (before : Tables) (library : Library) (options : ScanOptions)

/-- On the page the rules run over, those that match the row agree with the disposition of its
    extension; beyond it, the row is new or respected the disposition before. -/
def Agrees (m : MediaFile) : Prop :=
  if OnPage env before library options m then
    RulesAgree (dispositionMap before m.extension)
      (matchingRanks env.rt (inputOf before (beforeRules before m)) ((loadEnabled before).map (·.2)))
  else ∀ old, before.mediaAt m.path = some old →
    Respects (dispositionMap before m.extension) old.severity

variable {env before library options} {runId : String} {found : Tables}

theorem respects_judgedRow
    (hswept : Swept env before library.id runId (indexed env before library options) found)
    {row m : MediaFile} (hrow : row ∈ found.media) (hlibrary : row.libraryId = library.id)
    (hm : m = judgedRow env found library.id row) :
    Respects (dispositionMap before m.extension) m.severity ↔
      Agrees env before library options m := by
  obtain ⟨hpath, -, hextension⟩ := @judgedRow_columns env found library.id row
  have hpage : OnPage env before library options m ↔ row ∈ listMedia found library.id [] := by
    rw [mem_listMedia_iff hswept hrow hlibrary, hm, OnPage, OnPage, hpath, hextension]
  rw [Agrees, hm, beforeRules_judgedRow hswept hrow, hpath, hextension, ← hm]
  by_cases hlisted : row ∈ listMedia found library.id []
  · have hrules : loadEnabled found = loadEnabled before := by
      unfold loadEnabled enabledRules
      rw [hswept.rules]
    have hinput : inputOf found row = inputOf before row := by
      unfold inputOf Tables.tagNames
      rw [hswept.tags]
    rw [if_pos (hpage.mpr hlisted), hm, judgedRow, if_pos hlisted, ← hrules, ← hinput]
    exact respects_verdict _
  · rw [if_neg (mt hpage.mp hlisted), hm, judgedRow, if_neg hlisted,
      ← respects_severityBefore before row.path row.extension,
      severityBefore_swept hswept hrow]

end Scan

/-- After a scan that completed with its rules, the severity of a row of the library respects
    the disposition of its extension exactly if the rules agree with it, where they ran over
    the row, and if the row is new or respected it before, where they did not. -/
theorem disposition_respected_iff (env : ScanEnv) (library : Library) (options : ScanOptions)
    (queued : Option ScanRun) (before : Tables) (world : Outside) (calls : Nat) (runId : String)
    (counts : ScanCounts) (s : Session Tables Outside)
    (hrun : scan env library options queued (.opened before world calls) =
      (.ok (.completed runId counts), s))
    (hrules : options.runRules = true)
    (m : MediaFile) (hm : m ∈ s.committed.media) (hlibrary : m.libraryId = library.id) :
    Respects (dispositionMap before m.extension) m.severity ↔
      Agrees env before library options m := by
  obtain ⟨found, hswept, hpassed⟩ := scan_completed hrun
  obtain ⟨row, hrow, hjudged⟩ := hpassed m hm
  rw [afterRules, if_pos hrules] at hjudged
  obtain ⟨-, hsame, -⟩ := @judgedRow_columns env found library.id row
  exact respects_judgedRow hswept hrow (hsame.symm.trans (hjudged ▸ hlibrary)) hjudged

theorem disposition_respected_iff_avi :
    ∃ m ∈ (afterScan .accepted).2.committed.media, m.libraryId = "l1" ∧
      (Respects (dispositionMap (scannedTables .accepted) m.extension) m.severity ↔
        Agrees oneFileEnv (scannedTables .accepted) mediaLibrary .default m) := by
  have hrun : afterScan .accepted = (.ok (.completed "0" ⟨1, 0, 1, 0, 1⟩), (afterScan .accepted).2) :=
    Call.run_of_outcome (by decide +kernel)
  have hrow : ∃ m ∈ (afterScan .accepted).2.committed.media.rows, m.libraryId = "l1" := by
    decide +kernel
  obtain ⟨m, hm, hlibrary⟩ := hrow
  exact ⟨m, hm, hlibrary, disposition_respected_iff oneFileEnv mediaLibrary .default none
    (scannedTables .accepted) .start 0 "0" ⟨1, 0, 1, 0, 1⟩ (afterScan .accepted).2 hrun rfl m hm
    hlibrary⟩

/-- A malicious file that no rule matches is `ok` after the scan. -/
theorem malicious_file_ok :
    ¬ ∀ (env : ScanEnv) (library : Library) (options : ScanOptions) (before : Tables)
        (runId : String) (counts : ScanCounts) (s : Session Tables Outside),
      scan env library options none (.opened before .start 0) =
        (.ok (.completed runId counts), s) →
      options.runRules = true → ∀ m ∈ s.committed.media, m.libraryId = library.id →
        Respects (dispositionMap before m.extension) m.severity := by
  intro hall
  have hrun : afterScan .malicious = (.ok (.completed "0" ⟨1, 0, 1, 0, 1⟩), (afterScan .malicious).2) :=
    Call.run_of_outcome (by decide +kernel)
  have hrow : ∃ m ∈ (afterScan .malicious).2.committed.media.rows, m.libraryId = "l1" ∧
      ¬Respects (dispositionMap (scannedTables .malicious) m.extension) m.severity := by
    decide +kernel
  obtain ⟨m, hm, hlibrary, hnot⟩ := hrow
  exact hnot (hall oneFileEnv mediaLibrary .default (scannedTables .malicious) "0" ⟨1, 0, 1, 0, 1⟩
    (afterScan .malicious).2 hrun rfl m hm hlibrary)

end ScanSeverity
